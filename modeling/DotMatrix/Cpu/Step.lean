import DotMatrix.Cpu.Cost

namespace DotMatrix.Core

/-- The state after the opcode has been fetched. -/
def fetched (s : Core) : Core :=
  if s.cpu.doubleFetch then { s with cpu.doubleFetch := false } else s.skip 1

/-- Serving starts if it was announced before the instruction and not called off by it. -/
def settle (announced : Bool) (s : Core) : Core :=
  if announced && s.cpu.imeNext then { s with cpu := { s.cpu with ime := true, imeNext := false } }
  else s

/-- One instruction. An opcode that means nothing locks the processor for good. -/
def execute (s : Core) : Except Fault Nat × Core :=
  let opcode := s.immediate
  let address := s.cpu.pc
  let announced := s.cpu.imeNext
  let s := s.fetched
  match Instruction.decode opcode with
  | none =>
    let fault := { opcode, address }
    (.error fault, { s with cpu.fault := some fault })
  | some i =>
    let cost := i.cost s
    (.ok cost, (i.run s).settle announced)

/-- What fills a step before interrupts are looked at: an instruction, or four idle cycles. Only a
joypad request ends a stop. -/
def slot (s : Core) : Except Fault Nat × Core :=
  if s.cpu.stopped then
    if s.bus.requested.contains .joypad then (.ok 4, { s with cpu.stopped := false })
    else (.ok 4, s)
  else if s.cpu.halted then (.ok 4, s)
  else s.execute

/-- The handler of `i` is entered. -/
def dispatch (i : Interrupts) (s : Core) : Core :=
  let s := { s with bus.requested := s.bus.requested.diff i }.call i.handler
  { s with cpu := { s.cpu with ime := false, imeNext := false } }

/-- A pending interrupt ends a halt, and is served if interrupts are. The number is the cycles
that it takes. -/
def serve (s : Core) : Nat × Core :=
  match s.bus.pending.first? with
  | none => (0, s)
  | some i =>
    let s := { s with cpu.halted := false }
    if s.cpu.ime then (20, s.dispatch i) else (0, s)

/-- One instruction or idle slot, then interrupts. The number is the cycles that passed. -/
def step (s : Core) : Except Fault Nat × Core :=
  match s.cpu.fault with
  | some fault => (.error fault, s)
  | none =>
    match s.slot with
    | (.error fault, s) => (.error fault, s)
    | (.ok n, s) =>
      let served := if s.cpu.stopped then (0, s) else s.serve
      let cycles := n + served.1
      (.ok cycles, { served.2 with cpu.cycles := served.2.cpu.cycles + cycles })

end DotMatrix.Core
