import Mathlib.Tactic.IntervalCases
import Z80Sbc.Pio.Engine

/-! # The I/O engine, instruction by instruction

What a cycle of either state machine does to the board, one lemma for each instruction, and what
a tick does to the parts that the program of `banked_io` does not touch. -/

namespace Z80Sbc.Pio

/-! ## The clock -/

/-- The clock's program in each of the six cycles of a period; CLK is high in the first three. -/
def clockSm : Nat → Sm
  | 0 => ⟨1, 2, 0, 0, 0, 0, 0⟩
  | 1 => ⟨1, 1, 0, 0, 0, 0, 0⟩
  | 2 => .at 1
  | 3 => .at 2
  | 4 => .at clockEnd
  | _ => .at 0

/-- A held clock stops in the fourth cycle. -/
def clockNext (hold : Bool) (c : Nat) : Nat := if c = 3 ∧ hold then 3 else (c + 1) % 6

variable {σ : Type} {s : System σ} {c : Nat}

structure System.ClockAt (s : System σ) (c : Nat) : Prop where
  lt : c < 6
  sm : s.clock = clockSm c
  clk : s.pads.clk = decide (c < 3)

theorem clockNext_lt (hold : Bool) (c : Nat) : clockNext hold c < 6 := by
  simp only [clockNext]
  split <;> omega

theorem System.clockCycle_eq (h : s.ClockAt c) :
    s.clockCycle =
      { s with
        clock := clockSm (clockNext s.hold c)
        pads := { s.pads with clk := decide (clockNext s.hold c < 3) } } := by
  obtain ⟨hlt, hsm, hclk⟩ := h
  have hpads : { s.pads with clk := decide (c < 3) } = s.pads := by rw [← hclk]
  have hcase : c = 0 ∨ c = 1 ∨ c = 2 ∨ c = 3 ∨ c = 4 ∨ c = 5 := by omega
  rcases hcase with rfl | rfl | rfl | rfl | rfl | rfl
  · simp at hpads
    simp [System.clockCycle, Sm.cycle, hsm, clockSm, clockNext, hpads]
  · simp at hpads
    simp [System.clockCycle, Sm.cycle, hsm, clockSm, clockNext, hpads, Sm.at]
  · simp [System.clockCycle, Sm.cycle, hsm, clockSm, clockNext, Sm.at, bankedClock, Sm.exec,
      Program.next, Slot.sideSet, clockWiring]
  · simp at hpads
    cases hhold : s.hold <;>
      simp [System.clockCycle, Sm.cycle, hsm, clockSm, clockNext, Sm.at, bankedClock, Sm.exec,
        Program.next, Slot.sideSet, clockWiring, hhold, clockEnd, hpads]
  · simp at hpads
    simp [System.clockCycle, Sm.cycle, hsm, clockSm, clockNext, Sm.at, bankedClock, Sm.exec,
      Program.next, Slot.sideSet, clockWiring, clockEnd, hpads]
  · simp [System.clockCycle, Sm.cycle, hsm, clockSm, clockNext, Sm.at, bankedClock, Sm.exec,
      Program.next, Slot.sideSet, clockWiring]

/-! ## The tick -/

/-- What the I/O state machine finds in a tick. -/
def System.clocked (s : System σ) (floating : Byte) : System σ := (s.inputs floating).clockCycle

variable {f : Byte}

theorem System.ClockAt.inputs (h : s.ClockAt c) : (s.inputs f).ClockAt c :=
  ⟨h.lt, h.sm, h.clk⟩

theorem System.clocked_eq (h : s.ClockAt c) :
    s.clocked f =
      { s with
        clock := clockSm (clockNext s.hold c)
        pads := { s.pads with clk := decide (clockNext s.hold c < 3) }
        seen := s.stage
        stage := (s.inputs f).stage
        z80 := { s.z80 with strobe := s.z80.strobe.settle } } := by
  rw [System.clocked, System.clockCycle_eq h.inputs]
  rfl

/-- `banked_io` leaves all but its own outputs, the flag and the FIFOs. -/
def System.beyondIo (s : System σ) : Sm × Bool × (Nat → Bool) × (Nat → Bool) × Z80 × Core0 σ :=
  (s.clock, s.pads.clk, s.stage, s.seen, s.z80, s.core0)

theorem ioWiring_keeps (slot : Slot) : (ioWiring (σ := σ)).KeepsSlot System.beyondIo slot := by
  refine ⟨?_, .inr fun _ _ => rfl⟩
  have hflag (n : Nat) (level : Bool) (s : System σ) :
      (ioWiring.putFlag n level s).beyondIo = s.beyondIo := by
    by_cases hn : n = 1
    · simp [ioWiring, hn, System.beyondIo]
    · simp [ioWiring, hn]
  have hpush (w : Word) (s s' : System σ) (h : ioWiring.push w s = some s') :
      s'.beyondIo = s.beyondIo := by
    simp [ioWiring] at h
    simp [← h.2, System.beyondIo]
  have hpull (s : System σ) (w : Word) (s' : System σ) (h : ioWiring.pull s = some (w, s')) :
      s'.beyondIo = s.beyondIo := by
    simp only [ioWiring] at h
    split at h
    · simp at h
    · simp at h
      simp [← h.2, System.beyondIo]
  cases slot.instr with
  | out dest => cases dest <;> simp [Wiring.Keeps, ioWiring, System.beyondIo]
  | set dest => cases dest <;> simp [Wiring.Keeps, ioWiring, System.beyondIo]
  | irq | waitIrq => exact hflag
  | inp | push => exact hpush
  | pull => exact hpull
  | jmp | waitGpio | mov => trivial

theorem System.ioCycle_beyondIo : s.ioCycle.beyondIo = s.beyondIo :=
  Sm.cycle_keeps fun slot _ => ioWiring_keeps slot

/-! ## What the instructions keep -/

theorem ioWiring_putFlag (n : Nat) (level : Bool) (s : System σ) :
    ioWiring.putFlag n level s = { s with hold := (ioWiring.putFlag n level s).hold } := by
  by_cases hn : n = 1 <;> simp [ioWiring, hn]

theorem ioWiring_push {w : Word} {s s' : System σ} (h : ioWiring.push w s = some s') :
    s' = { s with rx := s.rx ++ [w] } := by
  simp [ioWiring] at h
  exact h.2.symm

theorem ioWiring_pull {w : Word} {s s' : System σ} (h : ioWiring.pull s = some (w, s')) :
    s' = { s with tx := s'.tx } := by
  simp only [ioWiring] at h
  split at h
  · simp at h
  · simp at h
    simp [← h.2]

def Slot.drives (slot : Slot) : Bool :=
  slot.side.isSome || match slot.instr with
    | .out .pins _ | .out .pindirs _ | .set .pins _ | .set .pindirs _ => true
    | _ => false

/-- Outputs but A16 may change. -/
def Slot.keepsBank (slot : Slot) : Bool :=
  match slot.instr with
  | .out .pins _ => false
  | _ => true

def Slot.pushes (slot : Slot) : Bool :=
  match slot.instr with
  | .inp _ _ | .push => true
  | _ => false

def Slot.pulls (slot : Slot) : Bool :=
  match slot.instr with
  | .pull => true
  | _ => false

section
variable {slot : Slot}

theorem keepsSlot_pads (h : slot.drives = false) :
    (ioWiring (σ := σ)).KeepsSlot (fun s => s.pads) slot := by
  simp [Slot.drives] at h
  refine ⟨?_, .inl h.1⟩
  cases hinstr : slot.instr with
  | out dest => cases dest <;> simp [hinstr] at h <;> trivial
  | set dest => cases dest <;> simp [hinstr] at h <;> trivial
  | irq | waitIrq =>
    intro n level s
    simp only []
    rw [ioWiring_putFlag]
  | inp | push =>
    intro w s s' h
    rw [ioWiring_push h]
  | pull =>
    intro w s s' h
    rw [ioWiring_pull h]
  | jmp | waitGpio | mov => trivial

theorem keepsSlot_bank (h : slot.keepsBank = true) :
    (ioWiring (σ := σ)).KeepsSlot (fun s => s.pads.memoryBank) slot := by
  simp [Slot.keepsBank] at h
  refine ⟨?_, .inr fun _ _ => rfl⟩
  cases hinstr : slot.instr with
  | out dest => cases dest <;> simp [hinstr] at h <;> simp [Wiring.Keeps, ioWiring]
  | set dest => cases dest <;> simp [Wiring.Keeps, ioWiring]
  | irq | waitIrq =>
    intro n level s
    simp only []
    rw [ioWiring_putFlag]
  | inp | push =>
    intro w s s' h
    rw [ioWiring_push h]
  | pull =>
    intro w s s' h
    rw [ioWiring_pull h]
  | jmp | waitGpio | mov => trivial

theorem keepsSlot_rx (h : slot.pushes = false) :
    (ioWiring (σ := σ)).KeepsSlot (fun s => s.rx) slot := by
  simp [Slot.pushes] at h
  refine ⟨?_, .inr fun _ _ => rfl⟩
  cases hinstr : slot.instr with
  | out dest => cases dest <;> simp [Wiring.Keeps, ioWiring]
  | set dest => cases dest <;> simp [Wiring.Keeps, ioWiring]
  | irq | waitIrq =>
    intro n level s
    simp only []
    rw [ioWiring_putFlag]
  | inp | push => simp [hinstr] at h
  | pull =>
    intro w s s' h
    rw [ioWiring_pull h]
  | jmp | waitGpio | mov => trivial

theorem keepsSlot_tx (h : slot.pulls = false) :
    (ioWiring (σ := σ)).KeepsSlot (fun s => s.tx) slot := by
  simp [Slot.pulls] at h
  refine ⟨?_, .inr fun _ _ => rfl⟩
  cases hinstr : slot.instr with
  | out dest => cases dest <;> simp [Wiring.Keeps, ioWiring]
  | set dest => cases dest <;> simp [Wiring.Keeps, ioWiring]
  | irq | waitIrq =>
    intro n level s
    simp only []
    rw [ioWiring_putFlag]
  | inp | push =>
    intro w s s' h
    rw [ioWiring_push h]
  | pull => simp [hinstr] at h
  | jmp | waitGpio | mov => trivial

end

/-- What the instruction at hand keeps, the engine keeps. -/
theorem System.ioCycle_keeps {α : Type} (g : System σ → α) (hio : ∀ s io, g { s with io := io } = g s)
    (h : ∀ slot, bankedIo.slots[s.io.pc]? = some slot → ioWiring.KeepsSlot g slot) :
    g s.ioCycle = g s := by
  rw [System.ioCycle, hio]
  exact Sm.cycle_keeps h

/-- The instructions that drive pins. -/
def drivers : List Nat := [0, 7, 10, 13, 20, 21, 22, 26, 27]

theorem System.ioCycle_pads (hreach : s.io.pc < 29) (h : s.io.pc ∉ drivers) :
    s.ioCycle.pads = s.pads := by
  refine System.ioCycle_keeps (fun s => s.pads) (fun _ _ => rfl) fun slot hslot => keepsSlot_pads ?_
  generalize s.io.pc = pc at *
  interval_cases pc <;> simp [drivers] at h <;> simp [bankedIo] at hslot <;>
    simp [← hslot, Slot.drives]

theorem System.ioCycle_bank (hreach : s.io.pc < 29) (h7 : s.io.pc ≠ 7) (h20 : s.io.pc ≠ 20) :
    s.ioCycle.pads.memoryBank = s.pads.memoryBank := by
  refine System.ioCycle_keeps (fun s => s.pads.memoryBank) (fun _ _ => rfl) fun slot hslot =>
    keepsSlot_bank ?_
  generalize s.io.pc = pc at *
  interval_cases pc <;> simp at h7 h20 <;> simp [bankedIo] at hslot <;>
    simp [← hslot, Slot.keepsBank, nop]

theorem System.ioCycle_rx (hreach : s.io.pc < 29) (h9 : s.io.pc ≠ 9) (h18 : s.io.pc ≠ 18) :
    s.ioCycle.rx = s.rx := by
  refine System.ioCycle_keeps (fun s => s.rx) (fun _ _ => rfl) fun slot hslot => keepsSlot_rx ?_
  generalize s.io.pc = pc at *
  interval_cases pc <;> simp at h9 h18 <;> simp [bankedIo] at hslot <;>
    simp [← hslot, Slot.pushes, nop]

theorem System.ioCycle_tx (hreach : s.io.pc < 29) (h19 : s.io.pc ≠ 19) :
    s.ioCycle.tx = s.tx := by
  refine System.ioCycle_keeps (fun s => s.tx) (fun _ _ => rfl) fun slot hslot => keepsSlot_tx ?_
  generalize s.io.pc = pc at *
  interval_cases pc <;> simp at h19 <;> simp [bankedIo] at hslot <;>
    simp [← hslot, Slot.pulls, nop]

/-- CLK moves the Z80 in two of the six cycles. -/
theorem System.edge_eq (h : s.ClockAt c) {v : System σ}
    (hclk : v.pads.clk = decide (clockNext s.hold c < 3)) :
    v.edge f s.pads.clk =
      { v with
        z80 := if c = 5 then v.z80.rise else if c = 2 then v.fall f else v.z80 } := by
  have hlt := h.lt
  have hcase : c = 0 ∨ c = 1 ∨ c = 2 ∨ c = 3 ∨ c = 4 ∨ c = 5 := by omega
  rcases hcase with rfl | rfl | rfl | rfl | rfl | rfl <;>
    cases hhold : s.hold <;> simp [clockNext, hhold] at hclk <;>
    simp [System.edge, h.clk, hclk]

/-! ## The instructions of `banked_io` -/

theorem System.ioCycle_delay {n : Nat} (h : s.io.delay = n + 1) :
    s.ioCycle = { s with io := { s.io with delay := n } } := by
  simp [System.ioCycle, Sm.cycle_delay h]

section
variable (hdelay : s.io.delay = 0)
include hdelay

theorem System.ioCycle_at0 (hpc : s.io.pc = 0) :
    s.ioCycle =
      { s with
        io := { s.io with pc := 1, delay := 7 }
        pads := { s.pads with dataUpOeN := true, dataDownOeN := false } } := by
  simp [System.ioCycle, Sm.cycle, hdelay, hpc, bankedIo, Sm.exec, Slot.sideSet, Program.next,
    ioWiring, Nat.testBit]

theorem System.ioCycle_at1 (hpc : s.io.pc = 1) :
    s.ioCycle = { s with io := { s.io with pc := 2, osr := snapshot s.seen } } := by
  simp [System.ioCycle, Sm.cycle, hdelay, hpc, bankedIo, Sm.exec, Slot.sideSet, Program.next,
    ioWiring, Sm.read]

theorem System.ioCycle_at2 (hpc : s.io.pc = 2) :
    s.ioCycle = { s with io := { s.io with pc := 3, osr := s.io.osr >>> 8 } } := by
  simp [System.ioCycle, Sm.cycle, hdelay, hpc, bankedIo, Sm.exec, Slot.sideSet, Program.next,
    Sm.emit, shiftOut]

theorem System.ioCycle_at3 (hpc : s.io.pc = 3) :
    s.ioCycle =
      { s with
        io := { s.io with pc := 4, x := low 4 s.io.osr, osr := s.io.osr >>> 4 } } := by
  simp [System.ioCycle, Sm.cycle, hdelay, hpc, bankedIo, Sm.exec, Slot.sideSet, Program.next,
    Sm.emit, shiftOut]

theorem System.ioCycle_at4 (hpc : s.io.pc = 4) :
    s.ioCycle = { s with io := { s.io with pc := 5, y := 7 } } := by
  simp [System.ioCycle, Sm.cycle, hdelay, hpc, bankedIo, Sm.exec, Slot.sideSet, Program.next]

theorem System.ioCycle_at5 (hpc : s.io.pc = 5) :
    s.ioCycle = { s with io := { s.io with pc := if s.io.x = s.io.y then 6 else 9 } } := by
  simp [System.ioCycle, Sm.cycle, hdelay, hpc, bankedIo, Sm.exec, Slot.sideSet, Program.next,
    Sm.jump, Sm.holds]

theorem System.ioCycle_at6 (hpc : s.io.pc = 6) :
    s.ioCycle = { s with io := { s.io with pc := 7, osr := snapshot s.seen } } := by
  simp [System.ioCycle, Sm.cycle, hdelay, hpc, bankedIo, Sm.exec, Slot.sideSet, Program.next,
    ioWiring, Sm.read]

theorem System.ioCycle_at7 (hpc : s.io.pc = 7) :
    s.ioCycle =
      { s with
        io := { s.io with pc := 8, osr := s.io.osr >>> 1 }
        pads :=
          { s.pads with memoryBank := s.io.osr.getLsbD 0, ioRelease := false, data := 0 } } := by
  simp [System.ioCycle, Sm.cycle, hdelay, hpc, bankedIo, Sm.exec, Slot.sideSet, Program.next,
    ioWiring, Sm.emit, shiftOut, getElem_low, low_ushiftRight]

theorem System.ioCycle_at8 (hpc : s.io.pc = 8) :
    s.ioCycle = { s with io := { s.io with pc := 10 } } := by
  simp [System.ioCycle, Sm.cycle, hdelay, hpc, bankedIo, Sm.exec, Slot.sideSet, Sm.jump,
    Sm.holds]

theorem System.ioCycle_at9 (hpc : s.io.pc = 9) :
    s.ioCycle =
      if s.rx.length < fifoDepth then
        { s with
          io := { s.io with pc := 10, isr := 0, isrCount := 0 }
          rx := s.rx ++ [snapshot s.seen] }
      else s := by
  by_cases h : s.rx.length < fifoDepth <;>
    simp [System.ioCycle, Sm.cycle, hdelay, hpc, bankedIo, Sm.exec, Slot.sideSet, Program.next,
      ioWiring, Sm.shifted, shiftIn_word, Sm.read, h]

theorem System.ioCycle_at10 (hpc : s.io.pc = 10) :
    s.ioCycle =
      { s with
        io := { s.io with pc := 11, delay := 7 }
        pads := { s.pads with ioRelease := true } } := by
  simp [System.ioCycle, Sm.cycle, hdelay, hpc, bankedIo, Sm.exec, Slot.sideSet, Program.next,
    ioWiring, nop, Sm.read]

theorem System.ioCycle_at11 (hpc : s.io.pc = 11) :
    s.ioCycle = { s with io := { s.io with pc := 12 }, hold := false } := by
  simp [System.ioCycle, Sm.cycle, hdelay, hpc, bankedIo, Sm.exec, Slot.sideSet, Program.next,
    ioWiring]

theorem System.ioCycle_at12 (hpc : s.io.pc = 12) :
    s.ioCycle = if s.seen 1 then { s with io := { s.io with pc := 13 } } else s := by
  cases h : s.seen 1 <;>
    simp [System.ioCycle, Sm.cycle, hdelay, hpc, bankedIo, Sm.exec, Slot.sideSet, Program.next,
      ioWiring, h]

theorem System.ioCycle_at13 (hpc : s.io.pc = 13) :
    s.ioCycle =
      { s with
        io := { s.io with pc := 14 }
        pads := { s.pads with dataUpOeN := true, dataDownOeN := true, ioRelease := false } } := by
  simp [System.ioCycle, Sm.cycle, hdelay, hpc, bankedIo, Sm.exec, Slot.sideSet, Program.next,
    ioWiring, Nat.testBit]

theorem System.ioCycle_at14 (hpc : s.io.pc = 14) :
    s.ioCycle = if s.seen 0 then { s with io := { s.io with pc := 15 } } else s := by
  cases h : s.seen 0 <;>
    simp [System.ioCycle, Sm.cycle, hdelay, hpc, bankedIo, Sm.exec, Slot.sideSet, Program.next,
      ioWiring, h]

theorem System.ioCycle_at15 (hpc : s.io.pc = 15) :
    s.ioCycle = if !s.seen 1 then { s with io := { s.io with pc := 16 } } else s := by
  cases h : s.seen 1 <;>
    simp [System.ioCycle, Sm.cycle, hdelay, hpc, bankedIo, Sm.exec, Slot.sideSet, Program.next,
      ioWiring, h]

theorem System.ioCycle_at16 (hpc : s.io.pc = 16) :
    s.ioCycle = { s with io := { s.io with pc := 17 }, hold := true } := by
  simp [System.ioCycle, Sm.cycle, hdelay, hpc, bankedIo, Sm.exec, Slot.sideSet, Program.next,
    ioWiring]

theorem System.ioCycle_at17 (hpc : s.io.pc = 17) :
    s.ioCycle = { s with io := { s.io with pc := if s.seen 27 then 0 else 18 } } := by
  simp [System.ioCycle, Sm.cycle, hdelay, hpc, bankedIo, Sm.exec, Slot.sideSet, Program.next,
    ioWiring, Sm.jump, Sm.holds]

theorem System.ioCycle_at18 (hpc : s.io.pc = 18) :
    s.ioCycle =
      if s.rx.length < fifoDepth then
        { s with
          io := { s.io with pc := 19, isr := 0, isrCount := 0 }
          rx := s.rx ++ [snapshot s.seen] }
      else s := by
  by_cases h : s.rx.length < fifoDepth <;>
    simp [System.ioCycle, Sm.cycle, hdelay, hpc, bankedIo, Sm.exec, Slot.sideSet, Program.next,
      ioWiring, Sm.shifted, shiftIn_word, Sm.read, h]

theorem System.ioCycle_at19 (hpc : s.io.pc = 19) {w : Word} {rest : List Word}
    (h : s.tx = w :: rest) :
    s.ioCycle = { s with io := { s.io with pc := 20, osr := w }, tx := rest } := by
  simp [System.ioCycle, Sm.cycle, hdelay, hpc, h, bankedIo, Sm.exec, Slot.sideSet, Program.next,
    ioWiring]

theorem System.ioCycle_at19_empty (hpc : s.io.pc = 19) (h : s.tx = []) : s.ioCycle = s := by
  have hslot : bankedIo.slots[s.io.pc]? = some ⟨.pull, none, 0⟩ := by simp [hpc, bankedIo]
  have hstall : s.io.exec ioWiring bankedIo s .pull = none := by simp [Sm.exec, ioWiring, h]
  simp [System.ioCycle, Sm.cycle_stall hdelay hslot hstall, Slot.sideSet]

theorem System.ioCycle_at20 (hpc : s.io.pc = 20) :
    s.ioCycle =
      { s with
        io := { s.io with pc := 21, osr := s.io.osr >>> 10 }
        pads :=
          { s.pads with
            memoryBank := s.io.osr.getLsbD 0
            ioRelease := s.io.osr.getLsbD 1
            data := (low 10 s.io.osr >>> 2).setWidth 8 } } := by
  simp [System.ioCycle, Sm.cycle, hdelay, hpc, bankedIo, Sm.exec, Slot.sideSet, Program.next,
    ioWiring, Sm.emit, shiftOut, getElem_low]

theorem System.ioCycle_at21 (hpc : s.io.pc = 21) :
    s.ioCycle =
      { s with
        io := { s.io with pc := 22, osr := s.io.osr >>> 10 }
        pads := { s.pads with dirs := (low 10 s.io.osr).setWidth 10 } } := by
  simp [System.ioCycle, Sm.cycle, hdelay, hpc, bankedIo, Sm.exec, Slot.sideSet, Program.next,
    ioWiring, Sm.emit, shiftOut]

theorem System.ioCycle_at22 (hpc : s.io.pc = 22) :
    s.ioCycle =
      { s with
        io := { s.io with pc := 23, delay := 7 }
        pads := { s.pads with dataUpOeN := false, dataDownOeN := true, ioRelease := true } } := by
  simp [System.ioCycle, Sm.cycle, hdelay, hpc, bankedIo, Sm.exec, Slot.sideSet, Program.next,
    ioWiring, Nat.testBit]

theorem System.ioCycle_at23 (hpc : s.io.pc = 23) :
    s.ioCycle = { s with io := { s.io with pc := 24, delay := 7 }, hold := false } := by
  simp [System.ioCycle, Sm.cycle, hdelay, hpc, bankedIo, Sm.exec, Slot.sideSet, Program.next,
    ioWiring]

theorem System.ioCycle_at24 (hpc : s.io.pc = 24) :
    s.ioCycle = { s with io := { s.io with pc := 25 }, hold := true } := by
  simp [System.ioCycle, Sm.cycle, hdelay, hpc, bankedIo, Sm.exec, Slot.sideSet, Program.next,
    ioWiring]

theorem System.ioCycle_at25 (hpc : s.io.pc = 25) :
    s.ioCycle = if s.seen 1 then { s with io := { s.io with pc := 26 } } else s := by
  cases h : s.seen 1 <;>
    simp [System.ioCycle, Sm.cycle, hdelay, hpc, bankedIo, Sm.exec, Slot.sideSet, Program.next,
      ioWiring, h]

theorem System.ioCycle_at26 (hpc : s.io.pc = 26) :
    s.ioCycle =
      { s with
        io := { s.io with pc := 27 }
        pads := { s.pads with dataUpOeN := true, dataDownOeN := true, ioRelease := false } } := by
  simp [System.ioCycle, Sm.cycle, hdelay, hpc, bankedIo, Sm.exec, Slot.sideSet, Program.next,
    ioWiring, Nat.testBit]

theorem System.ioCycle_at27 (hpc : s.io.pc = 27) :
    s.ioCycle =
      { s with
        io := { s.io with pc := 28, osr := s.io.osr >>> 10 }
        pads := { s.pads with dirs := (low 10 s.io.osr).setWidth 10 } } := by
  simp [System.ioCycle, Sm.cycle, hdelay, hpc, bankedIo, Sm.exec, Slot.sideSet, Program.next,
    ioWiring, Sm.emit, shiftOut]

theorem System.ioCycle_at28 (hpc : s.io.pc = 28) :
    s.ioCycle = { s with io := { s.io with pc := 14 }, hold := false } := by
  simp [System.ioCycle, Sm.cycle, hdelay, hpc, bankedIo, Sm.exec, Slot.sideSet, Program.next,
    ioWiring]

end

section
variable (h : s.ClockAt c) {v : System σ} (hv : (s.clocked f).ioCycle = v)
include h hv

theorem System.ioCycle_clock : v.clock = clockSm (clockNext s.hold c) ∧
    v.pads.clk = decide (clockNext s.hold c < 3) := by
  have hbeyond : v.beyondIo = (s.clocked f).beyondIo := hv ▸ System.ioCycle_beyondIo
  rw [System.clocked_eq h] at hbeyond
  simp only [System.beyondIo, Prod.mk.injEq] at hbeyond
  exact ⟨hbeyond.1, hbeyond.2.1⟩

/-- The tick, from what `banked_io` does in it. -/
theorem System.advance_eq :
    s.advance f =
      { v with
        z80 := if c = 5 then v.z80.rise else if c = 2 then v.fall f else v.z80 } := by
  have hadvance : s.advance f = (s.clocked f).ioCycle.edge f s.pads.clk := rfl
  rw [hadvance, hv, System.edge_eq h (System.ioCycle_clock h hv).2]

end

theorem System.ClockAt.advance (h : s.ClockAt c) :
    (s.advance f).ClockAt (clockNext s.hold c) := by
  have hclock := System.ioCycle_clock h (f := f) rfl
  rw [System.advance_eq h rfl]
  exact ⟨clockNext_lt _ _, hclock.1, hclock.2⟩

/-- The Z80 with its strobes moved. -/
def Z80.settled (z : Z80) : Z80 := { z with strobe := z.strobe.settle }

@[simp] theorem Z80.settled_accesses (z : Z80) : z.settled.accesses = z.accesses := rfl
@[simp] theorem Z80.settled_phase (z : Z80) : z.settled.phase = z.phase := rfl
@[simp] theorem Z80.settled_strobe (z : Z80) : z.settled.strobe = z.strobe.settle := rfl
@[simp] theorem Z80.settled_log (z : Z80) : z.settled.log = z.log := rfl

section
variable {z : Z80} {n : Nat}

theorem Z80.rise_t2 {a : Access} {rest : List Access} (h : z.phase = .before 0)
    (haccesses : z.accesses = a :: rest) :
    z.rise = { z with phase := .t2, strobe := .falling a.fallDelay } := by
  simp [Z80.rise, h, haccesses]

theorem Z80.rise_gap (h : z.phase = .before (n + 1)) : z.rise = { z with phase := .before n } := by
  simp [Z80.rise, h]

/-- After its last access the Z80 runs on without I/O cycles. -/
theorem Z80.rise_end (h : z.phase = .before 0) (haccesses : z.accesses = []) : z.rise = z := by
  simp [Z80.rise, h, haccesses]

theorem Z80.rise_wait (h : z.phase = .tw ∨ z.phase = .t3) : z.rise = z := by
  rcases h with h | h <;> simp [Z80.rise, h]

theorem System.fall_gap (h : s.z80.phase = .before n) : s.fall f = s.z80 := by
  simp [System.fall, h]

theorem System.fall_t2 (h : s.z80.phase = .t2) : s.fall f = { s.z80 with phase := .tw } := by
  simp [System.fall, h]

/-- WAIT# is looked at. -/
theorem System.fall_tw (h : s.z80.phase = .tw) :
    s.fall f = if s.waitN then { s.z80 with phase := .t3 } else s.z80 := by
  simp [System.fall, h]

end

section
variable (h : s.ClockAt c)
include h

theorem System.clocked_io : (s.clocked f).io = s.io := by
  rw [System.clocked_eq h]

theorem System.clocked_seen : (s.clocked f).seen = s.stage := by
  rw [System.clocked_eq h]

theorem System.clocked_rx : (s.clocked f).rx = s.rx := by
  rw [System.clocked_eq h]

theorem System.clocked_tx : (s.clocked f).tx = s.tx := by
  rw [System.clocked_eq h]

theorem System.advance_rest :
    (s.advance f).io = (s.clocked f).ioCycle.io ∧
      (s.advance f).rx = (s.clocked f).ioCycle.rx ∧
      (s.advance f).tx = (s.clocked f).ioCycle.tx ∧
      (s.advance f).pads = (s.clocked f).ioCycle.pads := by
  rw [System.advance_eq h rfl]
  simp

theorem System.advance_stage :
    (s.advance f).stage = System.levels f { s with z80 := s.z80.settled } := by
  have hbeyond := System.ioCycle_beyondIo (s := s.clocked f)
  rw [System.advance_eq h rfl]
  rw [System.clocked_eq h] at hbeyond ⊢
  simp only [System.beyondIo, Prod.mk.injEq] at hbeyond
  exact hbeyond.2.2.1

theorem System.advance_core0 : (s.advance f).core0 = s.core0 := by
  have hbeyond := System.ioCycle_beyondIo (s := s.clocked f)
  rw [System.advance_eq h rfl]
  rw [System.clocked_eq h] at hbeyond ⊢
  simp only [System.beyondIo, Prod.mk.injEq] at hbeyond
  exact hbeyond.2.2.2.2.2

end

/-- What an edge of CLK finds. -/
def System.beforeEdge (s : System σ) (floating : Byte) : System σ :=
  { s.advance floating with z80 := s.z80.settled }

@[simp] theorem System.beforeEdge_z80 : (s.beforeEdge f).z80 = s.z80.settled := rfl

@[simp] theorem System.beforeEdge_pads :
    (s.beforeEdge f).pads = (s.advance f).pads := rfl

/-- The Z80 moves on its own, but for WAIT# and the byte it reads. -/
theorem System.advance_z80 (h : s.ClockAt c) :
    (s.advance f).z80 =
      if c = 5 then s.z80.settled.rise
      else if c = 2 then (s.beforeEdge f).fall f
      else s.z80.settled := by
  have hbeyond := System.ioCycle_beyondIo (s := s.clocked f)
  have hz80 : (s.clocked f).ioCycle.z80 = s.z80.settled := by
    rw [System.clocked_eq h] at hbeyond ⊢
    simp only [System.beyondIo, Prod.mk.injEq] at hbeyond
    exact hbeyond.2.2.2.2.1
  rw [System.beforeEdge, System.advance_eq h rfl]
  simp [hz80]
  split
  · rfl
  split
  · congr 1
    rw [← hz80]
  · rfl

end Z80Sbc.Pio
