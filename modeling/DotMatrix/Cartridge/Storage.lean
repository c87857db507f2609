import DotMatrix.Cartridge.Basic

namespace DotMatrix

/-- Whether a file can have this name. The two names of dots alone are those of directories. -/
def isFileName (name : String) : Bool :=
  name != "" && name != "." && name != ".." && name.utf8ByteSize ≤ 255 &&
    name.toList.all fun c => c != '/' && c != Char.ofNat 0

/-- The files of one directory by name, each name once. -/
abbrev Disk := List (String × Array UInt8)

namespace Disk

def read? (d : Disk) (name : String) : Option (Array UInt8) := d.lookup name

/-- The file takes the place of one of the same name. -/
def put (d : Disk) (name : String) (bytes : Array UInt8) : Disk :=
  match d with
  | [] => [(name, bytes)]
  | file :: rest => if file.1 = name then (name, bytes) :: rest else file :: put rest name bytes

/-- Fails if no file can have the name. -/
def write? (d : Disk) (name : String) (bytes : Array UInt8) : Option Disk :=
  if isFileName name then some (d.put name bytes) else none

theorem read?_put (d : Disk) (name other : String) (bytes : Array UInt8) :
    (d.put name bytes).read? other = if other = name then some bytes else d.read? other := by
  induction d with
  | nil => by_cases h : other = name <;> simp [put, read?, h]
  | cons file rest ih =>
    obtain ⟨key, old⟩ := file
    by_cases hk : key = name
    · by_cases h : other = name <;> simp [put, read?, List.lookup_cons, hk, h, beq_eq_false_iff_ne.2]
    · by_cases h : other = key
      · subst h
        simp [put, read?, hk]
      · have distinct : (other == key) = false := by simpa using h
        simpa [put, read?, List.lookup_cons, hk, distinct] using ih

theorem write?_eq_some {d after : Disk} {name : String} {bytes : Array UInt8} :
    d.write? name bytes = some after ↔ isFileName name = true ∧ d.put name bytes = after := by
  unfold write?
  split <;> simp [*]

end Disk

/-- A name without its ending, which is what follows the last dot. A dot at the start begins no
ending. -/
def stemOf (name : List Char) : List Char :=
  match name.reverse.dropWhile (· != '.') with
  | _ :: before@(_ :: _) => before.reverse
  | _ => name

/-- The name of the file that keeps the RAM of a cartridge: the ending of its own name is replaced.
Two dots and an ending lose the ending alone, for two dots name the directory above and take none.
There is no file of that name to save to. -/
def saveNameOf (name : String) : String :=
  let stem := stemOf name.toList
  if stem = ['.'] then ".." else String.ofList stem ++ ".sav"

example : saveNameOf "a.b.gb" = "a.b.sav" := by decide +kernel
example : saveNameOf "noext" = "noext.sav" := by decide +kernel
example : saveNameOf "trail." = "trail.sav" := by decide +kernel
example : saveNameOf ".gb" = ".gb.sav" := by decide +kernel
example : saveNameOf "..gb" = ".." := by decide +kernel
example : saveNameOf "..." = "...sav" := by decide +kernel

/-- Why a file does not give a cartridge. -/
inductive LoadError
  | unreadable
  | rejected (reason : ImageError)
  deriving DecidableEq

namespace Cartridge

/-- The bytes of `ram` with those of `saved` over its beginning. -/
def restore (ram : Banks) (saved : Array UInt8) : Banks :=
  { ram with data := ram.data.mapIdx fun i old => saved.getD i old }

/-- Reads a cartridge from a file, and its RAM from the file beside it if it has a battery. -/
def load (d : Disk) (name : String) : Except LoadError Cartridge :=
  match d.read? name with
  | none => .error .unreadable
  | some image =>
    match ofImage image with
    | .error reason => .error (.rejected reason)
    | .ok c =>
      if c.header.hasBattery && !c.ram.isEmpty then
        let save := saveNameOf name
        let c := { c with saveName := some save }
        match d.read? save with
        | some saved => .ok { c with ram := restore c.ram saved }
        | none => .ok c
      else .ok c

/-- Writes the RAM to its file, if it has one. Fails if the file cannot be written. -/
def save? (c : Cartridge) (d : Disk) : Option Disk :=
  match c.saveName with
  | some name => if c.ram.isEmpty then some d else d.write? name c.ram.data
  | none => some d

end Cartridge

end DotMatrix
