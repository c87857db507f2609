namespace DotMatrix

/-- The upper byte of a word. -/
def high (w : UInt16) : UInt8 := (w >>> 8).toUInt8

/-- The lower byte of a word. -/
def low (w : UInt16) : UInt8 := w.toUInt8

/-- The word made of an upper and a lower byte. -/
def word (upper lower : UInt8) : UInt16 := upper.toUInt16 <<< 8 ||| lower.toUInt16

theorem toNat_high (w : UInt16) : (high w).toNat = w.toNat / 256 := by
  have := w.toNat_lt
  simp only [high, UInt16.toNat_toUInt8, UInt16.toNat_shiftRight, Nat.shiftRight_eq_div_pow]
  simp
  omega

theorem toNat_low (w : UInt16) : (low w).toNat = w.toNat % 256 := by
  simp [low]

theorem toNat_word (upper lower : UInt8) :
    (word upper lower).toNat = upper.toNat * 256 + lower.toNat := by
  have hu := upper.toNat_lt
  have hl := lower.toNat_lt
  simp only [word, UInt16.toNat_or, UInt16.toNat_shiftLeft, UInt8.toNat_toUInt16]
  rw [Nat.mod_eq_of_lt (a := upper.toNat <<< _),
    ← Nat.shiftLeft_add_eq_or_of_lt (by simpa using hl), Nat.shiftLeft_eq]
  · simp
  · simp [Nat.shiftLeft_eq]; omega

@[simp] theorem word_high_low (w : UInt16) : word (high w) (low w) = w := by
  apply UInt16.toNat_inj.mp
  rw [toNat_word, toNat_high, toNat_low]
  omega

@[simp] theorem high_word (upper lower : UInt8) : high (word upper lower) = upper := by
  have := lower.toNat_lt
  apply UInt8.toNat_inj.mp
  rw [toNat_high, toNat_word]
  omega

@[simp] theorem low_word (upper lower : UInt8) : low (word upper lower) = lower := by
  have := lower.toNat_lt
  apply UInt8.toNat_inj.mp
  rw [toNat_low, toNat_word]
  omega

end DotMatrix
