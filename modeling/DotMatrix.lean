import DotMatrix.Bus.Address
import DotMatrix.Bus.Basic
import DotMatrix.Bus.Registers
import DotMatrix.Cartridge.Banks
import DotMatrix.Cartridge.Basic
import DotMatrix.Cartridge.Controller
import DotMatrix.Cartridge.Header
import DotMatrix.Cartridge.Mbc1
import DotMatrix.Cartridge.Mbc2
import DotMatrix.Cartridge.Mbc3
import DotMatrix.Cartridge.Mbc5
import DotMatrix.Cartridge.Storage
import DotMatrix.Cartridge.Window
import DotMatrix.Cpu.Arithmetic
import DotMatrix.Cpu.Basic
import DotMatrix.Cpu.Cost
import DotMatrix.Cpu.Decode
import DotMatrix.Cpu.Execute
import DotMatrix.Cpu.Instruction
import DotMatrix.Cpu.Step
import DotMatrix.Interrupts
import DotMatrix.Joypad
import DotMatrix.Lcd.Basic
import DotMatrix.Lcd.Scanline
import DotMatrix.Lcd.Sprite
import DotMatrix.Lcd.Step
import DotMatrix.Lcd.Tile
import DotMatrix.Machine
import DotMatrix.Proofs.Bus.Access
import DotMatrix.Proofs.Bus.Footprint
import DotMatrix.Proofs.Bus.Frame
import DotMatrix.Proofs.Bus.Hardware
import DotMatrix.Proofs.Bus.Memory
import DotMatrix.Proofs.Bus.SpriteCopy
import DotMatrix.Proofs.Bytes
import DotMatrix.Proofs.Cartridge.Acceptance
import DotMatrix.Proofs.Cartridge.Banks
import DotMatrix.Proofs.Cartridge.Clock
import DotMatrix.Proofs.Cartridge.Fields
import DotMatrix.Proofs.Cartridge.Mapping
import DotMatrix.Proofs.Cartridge.Memory
import DotMatrix.Proofs.Cartridge.Rom
import DotMatrix.Proofs.Cartridge.Saving
import DotMatrix.Proofs.Checked.Basic
import DotMatrix.Proofs.Checked.Bus
import DotMatrix.Proofs.Checked.Cartridge
import DotMatrix.Proofs.Checked.Cpu
import DotMatrix.Proofs.Checked.Lcd
import DotMatrix.Proofs.Checked.Machine
import DotMatrix.Proofs.Checked.Scanline
import DotMatrix.Proofs.Checked.Timer
import DotMatrix.Proofs.Cpu.Calls
import DotMatrix.Proofs.Cpu.Control
import DotMatrix.Proofs.Cpu.Cycles
import DotMatrix.Proofs.Cpu.Decimal
import DotMatrix.Proofs.Cpu.Dispatch
import DotMatrix.Proofs.Cpu.Effects
import DotMatrix.Proofs.Cpu.Enabling
import DotMatrix.Proofs.Cpu.Encoding
import DotMatrix.Proofs.Cpu.Faults
import DotMatrix.Proofs.Cpu.FlagRegister
import DotMatrix.Proofs.Cpu.Flags
import DotMatrix.Proofs.Cpu.Handlers
import DotMatrix.Proofs.Cpu.Latches
import DotMatrix.Proofs.Cpu.LongNumbers
import DotMatrix.Proofs.Cpu.LongShifts
import DotMatrix.Proofs.Cpu.Stack
import DotMatrix.Proofs.Cpu.Steps
import DotMatrix.Proofs.Cpu.Waiting
import DotMatrix.Proofs.Cpu.WordSums
import DotMatrix.Proofs.Cpu.Writes
import DotMatrix.Proofs.History
import DotMatrix.Proofs.Interrupts
import DotMatrix.Proofs.Joypad
import DotMatrix.Proofs.Lcd.Compositing
import DotMatrix.Proofs.Lcd.Film
import DotMatrix.Proofs.Lcd.Plane
import DotMatrix.Proofs.Lcd.Position
import DotMatrix.Proofs.Lcd.Registers
import DotMatrix.Proofs.Lcd.Slice
import DotMatrix.Proofs.Lcd.Slicing
import DotMatrix.Proofs.Lcd.StatusEdges
import DotMatrix.Proofs.Lcd.Timing
import DotMatrix.Proofs.Lcd.Window
import DotMatrix.Proofs.Machine.Clock
import DotMatrix.Proofs.Machine.CycleRun
import DotMatrix.Proofs.Machine.FrameRun
import DotMatrix.Proofs.Machine.Frames
import DotMatrix.Proofs.Machine.Lockup
import DotMatrix.Proofs.Machine.Reach
import DotMatrix.Proofs.Machine.Requests
import DotMatrix.Proofs.Machine.Reset
import DotMatrix.Proofs.Machine.Saving
import DotMatrix.Proofs.Machine.Waiting
import DotMatrix.Proofs.Serial
import DotMatrix.Proofs.Sound
import DotMatrix.Proofs.Timer
import DotMatrix.Proofs.Timer.ClosedForm
import DotMatrix.Proofs.Timer.Divider
import DotMatrix.Proofs.Timer.Edges
import DotMatrix.Proofs.Timer.Overflow
import DotMatrix.Revision
import DotMatrix.Serial
import DotMatrix.Sound
import DotMatrix.Text.Blank
import DotMatrix.Text.Hex
import DotMatrix.Text.Utf8
import DotMatrix.Timer
import DotMatrix.Word
