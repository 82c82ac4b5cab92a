import Z80Sbc.Concurrent.Run
import Z80Sbc.Pio.StateMachine

/-! # The I/O engine

`banked_io.pio` with `banked_pio.c`: the state machine that drives CLK, the one that serves the
Z80's I/O cycles, and core 0 behind their FIFOs. The Z80 side is a bus that moves on the edges of
CLK: T2 lowers the strobes, WAIT# is looked at on the falling edges from the first TW on, and the
falling edge of T3 takes the data of a read and ends the cycle. A tick is one cycle of the
system clock. -/

namespace Z80Sbc.Pio

/-! ## The programs -/

def bankedClock : Program where
  slots := [
    ⟨.set .pins 1, none, 2⟩,
    ⟨.set .pins 0, none, 0⟩,
    ⟨.waitIrq false 1, none, 0⟩,
    -- clock_end
    ⟨.waitIrq false 2, none, 0⟩]
  wrapTarget := 0
  wrap := 3
  outRight := true
  inRight := true
  autopush := none

def clockEnd : Nat := 3

def bankedIo : Program where
  slots := [
    -- out_cycle
    ⟨.set .pins 1, none, 7⟩,
    ⟨.mov .osr .pins, none, 0⟩,
    ⟨.out .null 8, none, 0⟩,
    ⟨.out .x 4, none, 0⟩,
    ⟨.set .y 7, none, 0⟩,
    ⟨.jmp .xNotY 9, none, 0⟩,
    ⟨.mov .osr .pins, none, 0⟩,
    ⟨.out .pins 1, none, 0⟩,
    ⟨.jmp .always 10, none, 0⟩,
    -- generic
    ⟨.inp .pins 32, none, 0⟩,
    -- release
    ⟨nop, some true, 7⟩,
    ⟨.irq false 1, none, 0⟩,
    ⟨.waitGpio true 1, none, 0⟩,
    ⟨.set .pins 3, some false, 0⟩,
    -- io_start
    ⟨.waitGpio true 0, none, 0⟩,
    ⟨.waitGpio false 1, none, 0⟩,
    ⟨.irq true 1, none, 0⟩,
    ⟨.jmp .pin 0, none, 0⟩,
    ⟨.inp .pins 32, none, 0⟩,
    ⟨.pull, none, 0⟩,
    ⟨.out .pins 10, none, 0⟩,
    ⟨.out .pindirs 10, none, 0⟩,
    ⟨.set .pins 2, some true, 7⟩,
    ⟨.irq false 1, none, 7⟩,
    ⟨.irq true 1, none, 0⟩,
    ⟨.waitGpio true 1, none, 0⟩,
    ⟨.set .pins 3, some false, 0⟩,
    ⟨.out .pindirs 10, none, 0⟩,
    ⟨.irq false 1, none, 0⟩]
  wrapTarget := 14
  wrap := 28
  outRight := true
  inRight := true
  autopush := some 32

def ioStart : Nat := 14

/-! ## The Z80 -/

abbrev Byte := BitVec 8

inductive Cycle where
  | read (port : Byte)
  | write (port data : Byte)

def Cycle.isRead : Cycle → Bool
  | .read _ => true
  | .write _ _ => false

def Cycle.port : Cycle → Byte
  | .read port => port
  | .write port _ => port

/-- An I/O cycle that a program makes: `gap` T-states of other cycles and its own T1 come before
its T2, and the strobes follow the clock by some ticks. -/
structure Access where
  cycle : Cycle
  gap : Nat
  fallDelay : Nat
  riseDelay : Nat

/-- IORQ#, with RD# or WR#. -/
inductive Strobe where
  | high
  | falling (ticks : Nat)
  | low
  | rising (cycle : Cycle) (ticks : Nat)

inductive Phase where
  /-- this many rising edges come before that of T2 -/
  | before (rises : Nat)
  | t2
  | tw
  | t3

/-- The head of `accesses` is under way or comes next; `log` has the bytes of the completed
ones. -/
structure Z80 where
  accesses : List Access
  phase : Phase
  strobe : Strobe
  log : List (Cycle × Byte)

/-- The level of the strobes. -/
def Strobe.level : Strobe → Bool
  | .high | .falling _ => true
  | .low | .rising _ _ => false

def Strobe.settle : Strobe → Strobe
  | .falling 0 => .low
  | .falling (n + 1) => .falling n
  | .rising _ 0 => .high
  | .rising cycle (n + 1) => .rising cycle n
  | s => s

def firstGap : List Access → Nat
  | [] => 0
  | a :: _ => a.gap

/-- The I/O cycle that the strobes show. -/
def Z80.cycle (z : Z80) : Option Cycle :=
  match z.strobe with
  | .high | .falling _ => none
  | .low => z.accesses.head?.map Access.cycle
  | .rising cycle _ => some cycle

def Z80.reading (z : Z80) : Bool := z.cycle.any Cycle.isRead

/-! ## The board -/

/-- The outputs of the two state machines; `dirs` are the enables of GP8 to GP17. -/
structure Pads where
  dataUpOeN : Bool
  dataDownOeN : Bool
  memoryBank : Bool
  ioRelease : Bool
  data : Byte
  dirs : BitVec 10
  clk : Bool

/-- Core 0's handlers for the ports. -/
structure Service (σ : Type) where
  read : Byte → σ → Byte × σ
  write : Byte → Byte → σ → σ

/-- Core 0: the state of its handlers, and a byte it has read but not yet put into the FIFO. -/
structure Core0 (σ : Type) where
  state : σ
  reply : Option Byte
  fault : Bool

/-- `hold` is IRQ 1 of the clock's block, and `stage` and `seen` are the two flip-flops that an
input passes on its way to the state machines. -/
structure System (σ : Type) where
  clock : Sm
  io : Sm
  pads : Pads
  hold : Bool
  rx : List Word
  tx : List Word
  stage : Nat → Bool
  seen : Nat → Bool
  z80 : Z80
  core0 : Core0 σ

def fifoDepth : Nat := 4

section
variable {σ : Type} (floating : Byte)

/-- U9 drives the Z80's data bus; its enable is gated with RD#. -/
def System.u9 (s : System σ) : Bool := !s.pads.dataUpOeN && s.z80.reading

def System.u10 (s : System σ) : Bool := !s.pads.dataDownOeN

def Z80.port (z : Z80) : Byte := (z.cycle.map Cycle.port).getD floating

/-- What the Z80 writes. -/
def Z80.data (z : Z80) : Byte :=
  match z.cycle with
  | some (.write _ data) => data
  | _ => floating

/-- What a read finds on the Z80's data bus. -/
def System.toZ80 (s : System σ) : Byte :=
  let driven := (s.pads.dirs >>> 2).setWidth 8
  if s.u9 then (s.pads.data &&& driven) ||| (floating &&& ~~~driven) else floating

/-- The level of D0-D7 at the Pico. -/
def System.dataPin (s : System σ) (i : Nat) : Bool :=
  if s.pads.dirs.getLsbD (i + 2) then s.pads.data.getLsbD i
  else if s.u10 then (s.z80.data floating).getLsbD i
  else floating.getLsbD i

/-- A0, A1, A2 and A4. -/
def portPin (port : Byte) (i : Nat) : Bool := port.getLsbD (if i = 3 then 4 else i)

/-- The GPIOs as `pins.h` numbers them. -/
def System.levels (s : System σ) (n : Nat) : Bool :=
  if n = 0 then true
  else if n = 1 then s.z80.strobe.level
  else if n = 2 then s.pads.clk
  else if n = 6 then s.pads.dataUpOeN
  else if n = 7 then s.pads.dataDownOeN
  else if n = 8 then s.pads.memoryBank
  else if n = 9 then s.pads.ioRelease
  else if 10 ≤ n ∧ n < 18 then s.dataPin floating (n - 10)
  else if 18 ≤ n ∧ n < 22 then portPin (s.z80.port floating) (n - 18)
  else if n = 27 then s.z80.strobe.level || !s.z80.reading
  else if n = 28 then s.z80.strobe.level || s.z80.reading
  else false

/-- The inputs from GP10 upwards. -/
def snapshot (levels : Nat → Bool) : Word := pinWord fun i => levels ((10 + i) % 32)

/-! ## The wiring -/

/-- CLK, and the flags of the clock's own block; IRQ 2 stays clear. -/
def clockWiring : Wiring (System σ) where
  gpio n s := s.seen n
  jmpPin _ := false
  inPins _ := 0
  outPins _ s := s
  outPindirs _ s := s
  setPins n s := { s with pads := { s.pads with clk := n.testBit 0 } }
  setPindirs _ s := s
  sideSet _ s := s
  flag n s := if n = 1 then s.hold else false
  putFlag n level s := if n = 1 then { s with hold := level } else s
  push _ _ := none
  pull _ := none

/-- IN is GP10, OUT is GP8 to GP17, SET is GP6 and GP7, the side-set is GP9, JMP looks at GP27;
flags are those of the clock's block. -/
def ioWiring : Wiring (System σ) where
  gpio n s := s.seen n
  jmpPin s := s.seen 27
  inPins s := snapshot s.seen
  outPins w s :=
    { s with
      pads :=
        { s.pads with
          memoryBank := w.getLsbD 0, ioRelease := w.getLsbD 1, data := (w >>> 2).setWidth 8 } }
  outPindirs w s := { s with pads := { s.pads with dirs := w.setWidth 10 } }
  setPins n s :=
    { s with pads := { s.pads with dataUpOeN := n.testBit 0, dataDownOeN := n.testBit 1 } }
  setPindirs _ s := s
  sideSet level s := { s with pads := { s.pads with ioRelease := level } }
  flag n s := if n = 1 then s.hold else false
  putFlag n level s := if n = 1 then { s with hold := level } else s
  push w s := if s.rx.length < fifoDepth then some { s with rx := s.rx ++ [w] } else none
  pull s := match s.tx with
    | [] => none
    | w :: rest => some (w, { s with tx := rest })

def System.clockCycle (s : System σ) : System σ :=
  let (clock, s) := s.clock.cycle clockWiring bankedClock s
  { s with clock := clock }

def System.ioCycle (s : System σ) : System σ :=
  let (io, s) := s.io.cycle ioWiring bankedIo s
  { s with io := io }

/-! ## The edges of CLK -/

/-- WAIT# at the Z80, which U3 makes of IORQ# and GP9. -/
def System.waitN (s : System σ) : Bool := s.z80.strobe.level || s.pads.ioRelease

def Z80.rise (z : Z80) : Z80 :=
  match z.phase, z.accesses with
  | .before 0, a :: _ => { z with phase := .t2, strobe := .falling a.fallDelay }
  | .before (n + 1), _ => { z with phase := .before n }
  | _, _ => z

/-- The end of a cycle, with its byte. -/
def Z80.finish (byte : Byte) (z : Z80) : Z80 :=
  match z.accesses with
  | [] => z
  | a :: rest =>
    { accesses := rest
      phase := .before (firstGap rest)
      strobe := .rising a.cycle a.riseDelay
      log := z.log ++ [(a.cycle, byte)] }

def System.fall (s : System σ) : Z80 :=
  match s.z80.phase with
  | .before _ => s.z80
  | .t2 => { s.z80 with phase := .tw }
  | .tw => if s.waitN then { s.z80 with phase := .t3 } else s.z80
  | .t3 => s.z80.finish (if s.z80.reading then s.toZ80 floating else s.z80.data floating)

/-- The Z80 after CLK went from `before` to what it is now. -/
def System.edge (before : Bool) (s : System σ) : System σ :=
  { s with
    z80 :=
      match before, s.pads.clk with
      | false, true => s.z80.rise
      | true, false => s.fall floating
      | _, _ => s.z80 }

/-- The strobes move, and the inputs pass their flip-flops. -/
def System.inputs (s : System σ) : System σ :=
  let s := { s with z80 := { s.z80 with strobe := s.z80.strobe.settle } }
  { s with seen := s.stage, stage := s.levels floating }

/-- A tick: the inputs, then both state machines, then the Z80. -/
def System.advance (s : System σ) : System σ :=
  (s.inputs floating).clockCycle.ioCycle.edge floating s.pads.clk

/-! ## Core 0 -/

variable (service : Service σ)

/-- `z80_port_decode` -/
def portDecode (bits : Word) : Byte := ((bits &&& 7) ||| ((bits &&& 8) <<< 1)).setWidth 8

def snapshotPort (w : Word) : Byte := portDecode (w >>> 8)
def snapshotRd (w : Word) : Bool := w.getLsbD 17
def snapshotWr (w : Word) : Bool := w.getLsbD 18

def replyDriveDirs : Word := 0x3FF <<< 10
def replyIdleDirs : Word := 0x003 <<< 20

def replyWord (value : Byte) (bank : Bool) : Word :=
  (value.setWidth 32 <<< 2) ||| (BitVec.ofBool bank).setWidth 32 ||| replyDriveDirs ||| replyIdleDirs

/-- `service_fifo` takes a snapshot. -/
def System.take (s : System σ) : System σ :=
  match s.core0.reply, s.rx with
  | none, w :: rest =>
    let s := { s with rx := rest }
    let read := !snapshotRd w
    if read = !snapshotWr w then { s with core0 := { s.core0 with fault := true } }
    else if !read then
      { s with
        core0 :=
          { s.core0 with state := service.write (snapshotPort w) (w.setWidth 8) s.core0.state } }
    else
      let (value, state) := service.read (snapshotPort w) s.core0.state
      { s with core0 := { s.core0 with state := state, reply := some value } }
  | _, _ => s

/-- `service_fifo` puts its reply. -/
def System.put (s : System σ) : System σ :=
  match s.core0.reply with
  | some value =>
    { s with
      tx := s.tx ++ [replyWord value s.pads.memoryBank], core0 := { s.core0 with reply := none } }
  | none => s

/-- What core 0 does in a tick. -/
inductive Act where
  | rest
  | take
  | put

def System.serve (s : System σ) : Act → System σ
  | .rest => s
  | .take => s.take service
  | .put => s.put

/-- What a tick finds on lines that nothing drives, and what core 0 does. -/
structure Tick where
  floating : Byte
  act : Act

def System.tick (s : System σ) (t : Tick) : System σ := (s.serve service t.act).advance t.floating

def System.run (s : System σ) (ticks : List Tick) : System σ :=
  Concurrent.run (System.tick service) s ticks

/-! ## The start -/

def Pads.idle (bank : Bool) : Pads := ⟨true, true, bank, false, 0, 3, false⟩

def Z80.start (accesses : List Access) : Z80 :=
  ⟨accesses, .before (firstGap accesses), .high, []⟩

/-- After `z80_banked_pio_rearm` and `z80_banked_pio_clock_start`. -/
def System.start (state : σ) (bank : Bool) (accesses : List Access) : System σ where
  clock := .at clockEnd
  io := .at ioStart
  pads := .idle bank
  hold := false
  rx := []
  tx := []
  stage := fun _ => true
  seen := fun _ => true
  z80 := .start accesses
  core0 := ⟨state, none, false⟩

end

end Z80Sbc.Pio
