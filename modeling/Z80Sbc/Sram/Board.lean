import Z80Sbc.Storage.March
import Z80Sbc.Z80.Memory

/-! # The buses under the loader

The Pico never masters the memory bus. It holds the SRAM off the data bus, puts the bytes
of `LD HL,nn`, `LD (HL),n` and `LD A,(HL)` before the Z80 clock by clock, and lets the Z80
write or read the SRAM. The board follows the pins, the Z80's bus cycles at each clock and
who drives the data bus; two drivers at one time are recorded as a clash. -/

namespace Z80Sbc.Sram
open Z80Sbc.Z80 (Byte Word word lo hi)
open Z80Sbc.Storage.March (Ram)

/-- A place in the memory: the bank of A16 and the address. -/
abbrev Place := Bool × Word

/-- The Z80's machine cycles in the injected instructions. -/
inductive Machine where
  | fetch
  | lowByte
  | highByte
  | immediate
  | write
  | read
  deriving DecidableEq

/-- One failed comparison, as `report_failure` prints it. -/
structure Report where
  address : Word
  expected : Byte
  actual : Byte
  deriving DecidableEq

structure Board (σ : Type) where
  /-- GP3, GP5, GP6, GP7 and GP8. -/
  resetN : Bool
  bootReadDisable : Bool
  dataUpOeN : Bool
  dataDownOeN : Bool
  memoryBank : Bool
  /-- The output latch and the direction of GP10 to GP17. -/
  latch : Byte
  output : Bool
  machine : Machine
  tState : Nat
  exitTail : Nat
  rdN : Bool
  wrN : Bool
  pc : Word
  hl : Word
  instruction : Byte
  lowByte : Byte
  immediate : Byte
  accumulator : Byte
  memory : σ
  clash : Bool
  available : Bool
  failures : List Report

section
variable {σ : Type} (ram : Ram σ Place Byte)

/-! ## Who drives the data bus -/

/-- U9, from the Pico to the Z80, is gated by RD#. -/
def Board.u9 (b : Board σ) : Bool := !b.rdN && !b.dataUpOeN

/-- U10, from the Z80 to the Pico. -/
def Board.u10 (b : Board σ) : Bool := !b.dataDownOeN

/-- The SRAM's output is gated by RD# and the inhibit. -/
def Board.sramOut (b : Board σ) : Bool := !b.rdN && !b.bootReadDisable

def Board.cpuOut (b : Board σ) : Bool := !b.wrN

def Board.contended (b : Board σ) : Bool :=
  b.u9 && b.sramOut || b.u9 && b.cpuOut || b.sramOut && b.cpuOut || b.u9 && b.u10 ||
    b.u10 && b.output

/-- After a pin changed. -/
def Board.settle (b : Board σ) : Board σ := { b with clash := b.clash || b.contended }

def Board.address (b : Board σ) : Word :=
  match b.machine with
  | .write | .read => b.hl
  | _ => b.pc

/-- The byte on the Z80's data pins, with `floating` when nobody drives them. -/
def Board.bus (b : Board σ) (floating : Byte) : Byte :=
  if b.cpuOut then b.immediate
  else if b.u9 then b.latch
  else if b.sramOut then ram.read b.memory (b.memoryBank, b.address)
  else floating

/-! ## The Z80 -/

/-- What the Z80 takes or gives at the third clock of a cycle. -/
def Board.latched (b : Board σ) (floating : Byte) : Board σ :=
  match b.machine with
  | .write => { b with memory := ram.write b.memory (b.memoryBank, b.hl) b.immediate }
  | .read => { b with accumulator := b.bus ram floating }
  | .fetch => { b with pc := b.pc + 1, instruction := b.bus ram floating }
  | .lowByte => { b with pc := b.pc + 1, lowByte := b.bus ram floating }
  | .highByte => { b with pc := b.pc + 1, hl := word (b.bus ram floating) b.lowByte }
  | .immediate => { b with pc := b.pc + 1, immediate := b.bus ram floating }

/-- The cycle behind an operand or a memory cycle. -/
def Machine.next : Machine → Machine
  | .lowByte => .highByte
  | .immediate => .write
  | _ => .fetch

/-- The cycle behind an opcode fetch; other opcodes are not followed. -/
def Machine.decode (opcode : Byte) : Machine :=
  if opcode = 0x21 then .lowByte
  else if opcode = 0x36 then .immediate
  else if opcode = 0x7E then .read
  else .fetch

def Board.enter (b : Board σ) (m : Machine) : Board σ := { b with tState := 0, machine := m }

/-- One clock of the Z80; the opcode fetch has a fourth, for the refresh. -/
def Board.clock (b : Board σ) (floating : Byte) : Board σ :=
  if !b.resetN then b
  else if b.exitTail ≠ 0 then { b with exitTail := b.exitTail - 1 }
  else
    match b.tState with
    | 0 => Board.settle
        { b with tState := 1, rdN := b.machine = .write, wrN := b.machine ≠ .write }
    | 1 => { b with tState := 2 }
    | 2 =>
      let b := Board.settle { b.latched ram floating with rdN := true, wrN := true }
      if b.machine = .fetch then { b with tState := 3 } else b.enter b.machine.next
    | _ => b.enter (Machine.decode b.instruction)

/-! ## The pins -/

def Board.isolateBuses (b : Board σ) : Board σ :=
  let b := Board.settle { b with dataUpOeN := true }
  Board.settle { b with dataDownOeN := true }

/-- Both enables in one write. -/
def Board.dataBusIsolate (b : Board σ) : Board σ :=
  Board.settle { b with dataUpOeN := true, dataDownOeN := true }

def Board.dataBusDrive (b : Board σ) (value : Byte) : Board σ :=
  let b := Board.settle { b.dataBusIsolate with latch := value, output := true }
  Board.settle { b with dataUpOeN := false }

def Board.dataBusPrepareInput (b : Board σ) : Board σ :=
  let b := Board.settle { b.dataBusIsolate with output := false }
  Board.settle { b with dataDownOeN := false }

/-- What GP10 to GP17 read: their own latch when they are outputs. -/
def Board.dataBusSample (b : Board σ) (floating : Byte) : Byte :=
  if b.output then b.latch else if b.u10 then b.bus ram floating else floating

def Board.putBootReadDisable (b : Board σ) (level : Bool) : Board σ :=
  Board.settle { b with bootReadDisable := level }

/-- The reset line; a Z80 that leaves reset takes two clocks before its first fetch. -/
def Board.putResetN (b : Board σ) (level : Bool) : Board σ :=
  if level then { b with resetN := true, exitTail := if b.resetN then b.exitTail else 2 }
  else
    Board.settle
      { b with
        resetN := false, pc := 0, hl := 0, accumulator := 0, machine := .fetch, tState := 0,
        rdN := true, wrN := true }

def Board.memoryBankSelect (b : Board σ) (bank : Bool) : Board σ := { b with memoryBank := bank }

/-- `z80_safe_startup`, with what the memory holds when the power comes on. -/
def safeStartup (memory : σ) : Board σ where
  resetN := false
  bootReadDisable := true
  dataUpOeN := true
  dataDownOeN := true
  memoryBank := false
  latch := 0
  output := false
  machine := .fetch
  tState := 0
  exitTail := 0
  rdN := true
  wrN := true
  pc := 0
  hl := 0
  instruction := 0
  lowByte := 0
  immediate := 0
  accumulator := 0
  memory := memory
  clash := false
  available := false
  failures := []

end

end Z80Sbc.Sram
