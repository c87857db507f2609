import DotMatrix.Machine
import DotMatrix.Proofs.Bus.Frame
import DotMatrix.Proofs.Cartridge.Rom
import DotMatrix.Proofs.Cpu.Writes
import DotMatrix.Proofs.Lcd.Slice

namespace DotMatrix

theorem Serial.step_leads (n : Nat) (s : Serial) (bus : Bus) : bus.Leads (s.step n bus).2 := by
  unfold step
  dsimp only
  split
  · split
    · exact .refl
    · exact .tail (.tail (.single (.store .sb _)) (.store .sc _)) (.request (by simp))
  · exact .refl

theorem Joypad.update_leads (s : Joypad) (bus : Bus) : bus.Leads (s.update bus).2 := by
  unfold update
  dsimp only
  exact .head (.store .p1 _) (Bus.leads_request_ite _ (by simp) _)

namespace Machine

theorem follow_leads (n : Nat) (m : Machine) : m.bus.Leads (m.follow n).bus := by
  have shown : m.bus.Leads (m.lcd.step n m.bus).bus := Panel.step_leads n ⟨m.lcd, m.bus, false⟩
  have timed := shown.tail (.time n)
  have sent := timed.trans (m.serial.step_leads n _)
  exact sent.trans (m.joypad.update_leads _)

/-- A step of the machine is some accesses to the bus. -/
theorem step_leads (m : Machine) : m.bus.Leads m.step.2.bus := by
  have core := Core.step_leads ⟨m.cpu, m.bus⟩
  unfold step
  split
  · rename_i stepped
    rwa [stepped] at core
  · rename_i n cpu bus stepped
    rw [stepped] at core
    exact core.trans (follow_leads n { m with cpu, bus })

theorem step_revision (m : Machine) : m.step.2.revision = m.revision := by
  unfold step
  split <;> rfl

/-- What a machine can come to: it steps, it is reset, and whoever plays or watches does as they
like. -/
inductive Reach (start : Machine) : Machine → Prop
  | start : Reach start start
  | step {m : Machine} : Reach start m → Reach start m.step.2
  | reset {m : Machine} : Reach start m → Reach start m.reset
  | press {m : Machine} (buttons : UInt8) : Reach start m →
      Reach start { m with joypad := m.joypad.press buttons }
  | release {m : Machine} (buttons : UInt8) : Reach start m →
      Reach start { m with joypad := m.joypad.release buttons }
  | access {m : Machine} {bus : Bus} : Reach start m → m.bus.Access bus →
      Reach start { m with bus := bus }
  | attachDisplay {m : Machine} : Reach start m → Reach start m.attachDisplay
  | drainDisplay {m : Machine} : Reach start m → Reach start m.drainDisplay
  | drainSound {m : Machine} : Reach start m → Reach start { m with bus := m.bus.drainSound }
  | drainSerial {m : Machine} : Reach start m → Reach start { m with serial := m.serial.drain }

theorem Reach.revision {start m : Machine} (reach : Reach start m) :
    m.revision = start.revision := by
  induction reach with
  | start => rfl
  | step _ ih => rw [step_revision, ih]
  | _ => assumption

/-- What every access to the bus keeps, and a reset too, is kept for good. -/
theorem Reach.keeps {P : Bus → Prop} {start m : Machine} (reach : Reach start m) (first : P start.bus)
    (access : ∀ {s t : Bus}, s.Access t → P s → P t)
    (reset : ∀ {s : Bus} (revision : Revision), P s → P (s.reset revision))
    (drain : ∀ {s : Bus}, P s → P s.drainSound) : P m.bus := by
  induction reach with
  | start => exact first
  | @step m _ ih => exact m.step_leads.keeps access ih
  | reset _ ih => exact reset _ ih
  | access _ next ih => exact access next ih
  | drainSound _ ih => exact drain ih
  | _ => assumption

end Machine

end DotMatrix
