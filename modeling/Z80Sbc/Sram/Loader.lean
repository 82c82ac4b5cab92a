import Z80Sbc.Sram.Board

/-! # The loader

`sram.c` on the board. Each byte of an instruction is put on the data bus while the Z80's
RD# is low, for the third clock of the cycle; a byte of the SRAM is sampled between the
second and the third clock of `LD A,(HL)`. Delays are left out. -/

namespace Z80Sbc.Sram
open Z80Sbc.Z80 (Byte Word word lo hi)
open Z80Sbc.Storage.March (Ram Op run_read run_write run_nil)

section
variable {σ : Type} (ram : Ram σ Place Byte) (floating : Byte)

def pulseClock : Nat → Board σ → Board σ
  | 0, b => b
  | n + 1, b => pulseClock n (b.clock ram floating)

def resetWithClockCycles (cycles : Nat) (b : Board σ) : Board σ :=
  pulseClock ram floating cycles (b.putResetN false)

def prepareLoader (b : Board σ) : Board σ :=
  let b := resetWithClockCycles ram floating 6 (b.isolateBuses.putBootReadDisable true)
  pulseClock ram floating 2 ((b.memoryBankSelect false).putResetN true)

def injectRead (value : Byte) (opcode : Bool) (b : Board σ) : Board σ :=
  let b := (pulseClock ram floating 1 b).putBootReadDisable true
  let b := (pulseClock ram floating 2 (b.dataBusDrive value)).dataBusIsolate
  if opcode then pulseClock ram floating 1 b else b

def loadHl (address : Word) (b : Board σ) : Board σ :=
  let b := injectRead ram floating 0x21 true b
  let b := injectRead ram floating (lo address) false b
  injectRead ram floating (hi address) false b

def writeByte (address : Word) (value : Byte) (b : Board σ) : Board σ :=
  let b := injectRead ram floating 0x36 true (loadHl ram floating address b)
  pulseClock ram floating 3 (injectRead ram floating value false b)

def readByte (address : Word) (b : Board σ) : Byte × Board σ :=
  let b := injectRead ram floating 0x7E true (loadHl ram floating address b)
  let b := pulseClock ram floating 2 (b.dataBusPrepareInput.putBootReadDisable false)
  let value := b.dataBusSample ram floating
  (value, (pulseClock ram floating 1 b).dataBusIsolate.putBootReadDisable true)

/-! `steps` is any loop over the SRAM: each place is written, or read and compared. -/

def steps : List (Word × Op Byte) → Board σ → Option Report × Board σ
  | [], b => (none, b)
  | (address, .write value) :: rest, b => steps rest (writeByte ram floating address value b)
  | (address, .read expected) :: rest, b =>
    let (actual, b) := readByte ram floating address b
    if actual = expected then steps rest b else (some ⟨address, expected, actual⟩, b)

end

/-! ## Between two instructions -/

/-- The Z80 is about to fetch, nobody drives the bus and the SRAM is held off. -/
structure Board.Ready {σ : Type} (b : Board σ) : Prop where
  resetN : b.resetN = true
  bootReadDisable : b.bootReadDisable = true
  dataUpOeN : b.dataUpOeN = true
  dataDownOeN : b.dataDownOeN = true
  tState : b.tState = 0
  exitTail : b.exitTail = 0
  rdN : b.rdN = true
  wrN : b.wrN = true

section
variable {σ : Type} (ram : Ram σ Place Byte) (floating : Byte) {b : Board σ}

/-- The board after a byte is injected. -/
def Board.injected (b : Board σ) (value : Byte) : Board σ :=
  let b := { b with pc := b.pc + 1, latch := value, output := true }
  match b.machine with
  | .fetch => { b with instruction := value, machine := Machine.decode value }
  | .lowByte => { b with lowByte := value, machine := .highByte }
  | .highByte => { b with hl := word value b.lowByte, machine := .fetch }
  | .immediate => { b with immediate := value, machine := .write }
  | _ => b

theorem Board.Ready.injected {value : Byte} (h : b.Ready) : (b.injected value).Ready := by
  obtain ⟨h1, h2, h3, h4, h5, h6, h7, h8⟩ := h
  simp only [Board.injected]
  split <;> exact ⟨h1, h2, h3, h4, h5, h6, h7, h8⟩

/-- A cycle reads the byte that is injected into it, and nothing clashes. -/
theorem injectRead_ready {value : Byte} {opcode : Bool} (h : b.Ready)
    (hm : b.machine ≠ .write ∧ b.machine ≠ .read) (ho : opcode = decide (b.machine = .fetch)) :
    injectRead ram floating value opcode b = b.injected value := by
  obtain ⟨h1, h2, h3, h4, h5, h6, h7, h8⟩ := h
  cases b
  rename_i machine _ _ _ _ _ _ _ _ _ _ _ _ _ _
  simp only at h1 h2 h3 h4 h5 h6 h7 h8 hm ho
  subst h1 h2 h3 h4 h5 h6 h7 h8 ho
  cases machine <;>
    simp [injectRead, pulseClock, Board.clock, Board.settle, Board.contended, Board.u9, Board.u10,
      Board.sramOut, Board.cpuOut, Board.putBootReadDisable, Board.dataBusDrive,
      Board.dataBusIsolate, Board.latched, Board.bus, Board.enter, Machine.next,
      Board.injected] at hm ⊢

/-- The board after `LD HL,nn`. -/
def Board.addressed (b : Board σ) (address : Word) : Board σ :=
  { b with
    pc := b.pc + 1 + 1 + 1, instruction := 0x21, lowByte := lo address, hl := address,
    latch := hi address, output := true, machine := .fetch }

theorem Board.Ready.addressed {address : Word} (h : b.Ready) : (b.addressed address).Ready := by
  obtain ⟨h1, h2, h3, h4, h5, h6, h7, h8⟩ := h
  exact ⟨h1, h2, h3, h4, h5, h6, h7, h8⟩

theorem loadHl_ready {address : Word} (h : b.Ready) (hm : b.machine = .fetch) :
    loadHl ram floating address b = b.addressed address := by
  rw [loadHl, injectRead_ready ram floating h (by simp [hm]) (by simp [hm]),
    injectRead_ready ram floating h.injected (by simp [Board.injected, hm, Machine.decode])
      (by simp [Board.injected, hm, Machine.decode]),
    injectRead_ready ram floating h.injected.injected (by simp [Board.injected, hm, Machine.decode])
      (by simp [Board.injected, hm, Machine.decode])]
  simp [Board.injected, hm, Machine.decode, Board.addressed]

/-- Ready for the next instruction. -/
structure Board.Idle {σ : Type} (b : Board σ) : Prop extends b.Ready where
  machine : b.machine = .fetch

/-- What a loader operation leaves: the memory `m`, and the rest as it was. -/
structure Board.Leaves {σ : Type} (b : Board σ) (m : σ) (b' : Board σ) : Prop where
  idle : b'.Idle
  memory : b'.memory = m
  memoryBank : b'.memoryBank = b.memoryBank
  clash : b'.clash = b.clash
  available : b'.available = b.available
  failures : b'.failures = b.failures

theorem Board.Leaves.trans {m m' : σ} {b' b'' : Board σ} (h : b.Leaves m b')
    (h' : b'.Leaves m' b'') : b.Leaves m' b'' :=
  ⟨h'.idle, h'.memory, h'.memoryBank.trans h.memoryBank, h'.clash.trans h.clash,
    h'.available.trans h.available, h'.failures.trans h.failures⟩

/-- A write of the loader is one write of the SRAM. -/
theorem writeByte_idle (address : Word) (value : Byte) (h : b.Idle) :
    b.Leaves (ram.write b.memory (b.memoryBank, address) value)
      (writeByte ram floating address value b) := by
  obtain ⟨hr, hm⟩ := h
  rw [writeByte, loadHl_ready ram floating hr hm,
    injectRead_ready ram floating hr.addressed (by simp [Board.addressed]) (by simp [Board.addressed]),
    injectRead_ready ram floating hr.addressed.injected
      (by simp [Board.addressed, Board.injected, Machine.decode])
      (by simp [Board.addressed, Board.injected, Machine.decode])]
  obtain ⟨h1, h2, h3, h4, h5, h6, h7, h8⟩ := hr
  cases b
  simp only at h1 h2 h3 h4 h5 h6 h7 h8 hm
  subst h1 h2 h3 h4 h5 h6 h7 h8 hm
  simp only [Board.addressed, Board.injected, Machine.decode, pulseClock, Board.clock,
    Board.settle, Board.contended, Board.u9, Board.u10, Board.sramOut, Board.cpuOut,
    Board.latched, Board.enter, Machine.next]
  constructor <;> simp
  exact ⟨⟨rfl, rfl, rfl, rfl, rfl, rfl, rfl, rfl⟩, rfl⟩

/-- A read of the loader gives the SRAM's byte and leaves the SRAM as it was. -/
theorem readByte_idle (address : Word) (h : b.Idle) :
    (readByte ram floating address b).1 = ram.read b.memory (b.memoryBank, address) ∧
      b.Leaves b.memory (readByte ram floating address b).2 := by
  obtain ⟨hr, hm⟩ := h
  rw [readByte, loadHl_ready ram floating hr hm,
    injectRead_ready ram floating hr.addressed (by simp [Board.addressed]) (by simp [Board.addressed])]
  obtain ⟨h1, h2, h3, h4, h5, h6, h7, h8⟩ := hr
  cases b
  simp only at h1 h2 h3 h4 h5 h6 h7 h8 hm
  subst h1 h2 h3 h4 h5 h6 h7 h8 hm
  simp only [Board.addressed, Board.injected, Machine.decode, pulseClock, Board.clock,
    Board.settle, Board.contended, Board.u9, Board.u10, Board.sramOut, Board.cpuOut,
    Board.latched, Board.bus, Board.address, Board.enter, Machine.next, Board.putBootReadDisable,
    Board.dataBusPrepareInput, Board.dataBusSample, Board.dataBusIsolate]
  refine ⟨by simp, ?_⟩
  constructor <;> simp
  exact ⟨⟨rfl, rfl, rfl, rfl, rfl, rfl, rfl, rfl⟩, rfl⟩

/-! ## Whole loops -/

/-- A step of the loader as one on the whole memory. -/
def place (bank : Bool) (step : Word × Op Byte) : Place × Op Byte := ((bank, step.1), step.2)

/-- The end of a loop: it went through with the memory that the accesses leave, or it stopped
at the first byte that differs, with the memory that the accesses before it leave. -/
inductive Board.Ran (b : Board σ) (list : List (Word × Op Byte)) :
    Option σ → Option Report × Board σ → Prop where
  | passed {m : σ} {b' : Board σ} (leaves : b.Leaves m b') : Ran b list (some m) (none, b')
  | stopped {address : Word} {expected : Byte} {m : σ} {b' : Board σ}
    (stops : ram.Stops (list.map (place b.memoryBank)) b.memory (b.memoryBank, address) expected m)
    (leaves : b.Leaves m b') :
    Ran b list none (some ⟨address, expected, ram.read m (b.memoryBank, address)⟩, b')

/-- A loop whose first accesses leave `m` at `b'`. -/
theorem Board.Leaves.ran {m : σ} {b' : Board σ} (front : List (Word × Op Byte))
    {rest : List (Word × Op Byte)} {r : Option σ} {result : Option Report × Board σ} (h : b.Leaves m b')
    (hfront : ram.run (front.map (place b.memoryBank)) b.memory = some m)
    (hr : b'.Ran ram rest r result) : b.Ran ram (front ++ rest) r result := by
  cases hr with
  | passed leaves => exact .passed (h.trans leaves)
  | stopped stops leaves =>
    rw [h.memoryBank, h.memory] at stops
    rw [h.memoryBank]
    refine .stopped ?_ (h.trans leaves)
    rw [List.map_append]
    exact stops.after hfront

/-- The loader's loop makes the accesses of its steps, in their order, up to the first byte that
differs and no others. -/
theorem steps_ran (list : List (Word × Op Byte)) (h : b.Idle) :
    b.Ran ram list (ram.run (list.map (place b.memoryBank)) b.memory)
      (steps ram floating list b) := by
  induction list generalizing b with
  | nil => exact .passed ⟨h, rfl, rfl, rfl, rfl, rfl⟩
  | cons step rest ih =>
    obtain ⟨address, o⟩ := step
    cases o with
    | write value =>
      have hw := writeByte_idle ram floating address value h
      have hrest := ih hw.idle
      rw [hw.memoryBank, hw.memory] at hrest
      exact hw.ran ram [(address, .write value)] rfl hrest
    | read expected =>
      obtain ⟨hvalue, hr⟩ := readByte_idle ram floating address h
      have hrest := ih hr.idle
      rw [hr.memoryBank, hr.memory] at hrest
      simp only [List.map_cons, place, run_read, steps, hvalue]
      split
      · rename_i hsame
        refine hr.ran ram [(address, .read expected)] ?_ hrest
        simp [place, hsame]
      · rename_i hne
        exact .stopped ⟨[], rest.map (place b.memoryBank), rfl, rfl, hne⟩ hr

end

end Z80Sbc.Sram
