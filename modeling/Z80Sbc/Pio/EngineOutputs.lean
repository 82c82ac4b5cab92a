import Z80Sbc.Pio.EngineSteps

/-! # The outputs of the I/O engine

Where `banked_io` is tells what its outputs are, whatever the Z80 and core 0 do: the buffers are
never both open, and the Pico drives D0-D7 only where the one from the Z80 is closed. -/

namespace Z80Sbc.Pio

variable {σ : Type} {s : System σ} {f : Byte}

def IsReply (w : Word) : Prop := ∃ value bank, w = replyWord value bank

/-- The bits of a reply that have left the output register before an instruction. -/
def replyShift (pc : Nat) : Nat := if pc = 20 then 0 else if pc = 21 then 10 else 20

/-- The outputs, by the instruction that comes next. -/
structure System.Driven (s : System σ) : Prop where
  reach : s.io.pc < 29
  up : s.pads.dataUpOeN = !decide (23 ≤ s.io.pc ∧ s.io.pc ≤ 26)
  down : s.pads.dataDownOeN = !decide (1 ≤ s.io.pc ∧ s.io.pc ≤ 13)
  release : s.pads.ioRelease =
    decide (11 ≤ s.io.pc ∧ s.io.pc ≤ 13 ∨ 23 ≤ s.io.pc ∧ s.io.pc ≤ 26)
  dirs : s.pads.dirs = if 22 ≤ s.io.pc ∧ s.io.pc ≤ 27 then 0x3FF else 3
  hold : s.hold = decide (s.io.pc ≤ 11 ∨ 17 ≤ s.io.pc ∧ s.io.pc ≤ 23 ∨ 25 ≤ s.io.pc)
  osr : 20 ≤ s.io.pc ∧ s.io.pc ≤ 27 → ∃ w, IsReply w ∧ s.io.osr = w >>> replyShift s.io.pc
  replies : ∀ w ∈ s.tx, IsReply w

/-- The release bit of a reply is clear, and it has all pins driven and then only GP8 and GP9. -/
theorem IsReply.bits {w : Word} (h : IsReply w) :
    w.getLsbD 1 = false ∧ (low 10 (w >>> 10)).setWidth 10 = 0x3FF#10 ∧
      (low 10 (w >>> 20)).setWidth 10 = 3#10 := by
  obtain ⟨value, bank, rfl⟩ := h
  refine ⟨?_, ?_, ?_⟩
  · simp [replyWord, replyDriveDirs, replyIdleDirs]
  · ext i hi
    interval_cases i <;> simp [replyWord, replyDriveDirs, replyIdleDirs, getElem_low]
  · ext i hi
    interval_cases i <;> simp [replyWord, replyDriveDirs, replyIdleDirs, getElem_low]

/-- Two instructions with the same outputs. -/
def SameOutputs (pc pc' : Nat) : Prop :=
  decide (23 ≤ pc ∧ pc ≤ 26) = decide (23 ≤ pc' ∧ pc' ≤ 26) ∧
    decide (1 ≤ pc ∧ pc ≤ 13) = decide (1 ≤ pc' ∧ pc' ≤ 13) ∧
    decide (11 ≤ pc ∧ pc ≤ 13) = decide (11 ≤ pc' ∧ pc' ≤ 13) ∧
    decide (22 ≤ pc ∧ pc ≤ 27) = decide (22 ≤ pc' ∧ pc' ≤ 27) ∧
    decide (pc ≤ 11 ∨ 17 ≤ pc ∧ pc ≤ 23 ∨ 25 ≤ pc) =
      decide (pc' ≤ 11 ∨ 17 ≤ pc' ∧ pc' ≤ 23 ∨ 25 ≤ pc')

instance (pc pc' : Nat) : Decidable (SameOutputs pc pc') := by
  unfold SameOutputs
  infer_instance

theorem System.Driven.goto (h : s.Driven) {io : Sm} {pc : Nat} (pc' : Nat)
    (hpc : s.io.pc = pc) (hio : io.pc = pc') (hreach : pc' < 20) (hsame : SameOutputs pc pc') :
    ({ s with io := io } : System σ).Driven := by
  subst hpc hio
  obtain ⟨hup, hdown, hrelease, hdirs, hhold⟩ := hsame
  refine ⟨Nat.lt_trans hreach (by decide), ?_, ?_, ?_, ?_, ?_, fun hpc => ?_, h.replies⟩
  · exact h.up.trans (congrArg not hup)
  · exact h.down.trans (congrArg not hdown)
  · refine h.release.trans (decide_eq_decide.2 ?_)
    exact or_congr (decide_eq_decide.1 hrelease) (decide_eq_decide.1 hup)
  · exact h.dirs.trans (if_congr (decide_eq_decide.1 hdirs) rfl rfl)
  · exact h.hold.trans hhold
  · exact absurd hpc.1 (Nat.not_le.2 hreach)

/-- The instructions that change no output. -/
theorem System.Driven.ioCycle_goto (h : s.Driven) (hdelay : s.io.delay = 0)
    (hpc : s.io.pc ∈ [1, 2, 3, 4, 5, 6, 8, 12, 14, 15, 17]) : s.ioCycle.Driven := by
  simp only [List.mem_cons, List.not_mem_nil, or_false] at hpc
  rcases hpc with hpc | hpc | hpc | hpc | hpc | hpc | hpc | hpc | hpc | hpc | hpc
  · rw [System.ioCycle_at1 hdelay hpc]
    exact h.goto 2 hpc rfl (by decide) (by decide)
  · rw [System.ioCycle_at2 hdelay hpc]
    exact h.goto 3 hpc rfl (by decide) (by decide)
  · rw [System.ioCycle_at3 hdelay hpc]
    exact h.goto 4 hpc rfl (by decide) (by decide)
  · rw [System.ioCycle_at4 hdelay hpc]
    exact h.goto 5 hpc rfl (by decide) (by decide)
  · rw [System.ioCycle_at5 hdelay hpc]
    split
    · exact h.goto 6 hpc rfl (by decide) (by decide)
    · exact h.goto 9 hpc rfl (by decide) (by decide)
  · rw [System.ioCycle_at6 hdelay hpc]
    exact h.goto 7 hpc rfl (by decide) (by decide)
  · rw [System.ioCycle_at8 hdelay hpc]
    exact h.goto 10 hpc rfl (by decide) (by decide)
  · rw [System.ioCycle_at12 hdelay hpc]
    split
    · exact h.goto 13 hpc rfl (by decide) (by decide)
    · exact h
  · rw [System.ioCycle_at14 hdelay hpc]
    split
    · exact h.goto 15 hpc rfl (by decide) (by decide)
    · exact h
  · rw [System.ioCycle_at15 hdelay hpc]
    split
    · exact h.goto 16 hpc rfl (by decide) (by decide)
    · exact h
  · rw [System.ioCycle_at17 hdelay hpc]
    split
    · exact h.goto 0 hpc rfl (by decide) (by decide)
    · exact h.goto 18 hpc rfl (by decide) (by decide)

theorem System.Driven.ioCycle_out (h : s.Driven) (hdelay : s.io.delay = 0)
    (hpc : s.io.pc ∈ [0, 7, 9, 10, 11, 13, 16]) : s.ioCycle.Driven := by
  obtain ⟨hreach, hup, hdown, hrelease, hdirs, hhold, hosr, hreplies⟩ := h
  simp only [List.mem_cons, List.not_mem_nil, or_false] at hpc
  rcases hpc with hpc | hpc | hpc | hpc | hpc | hpc | hpc <;>
    simp only [hpc] at hup hdown hrelease hdirs hhold
  · rw [System.ioCycle_at0 hdelay hpc]
    constructor <;> simp_all
  · rw [System.ioCycle_at7 hdelay hpc]
    constructor <;> simp_all
  · rw [System.ioCycle_at9 hdelay hpc]
    split <;> constructor <;> simp_all
  · rw [System.ioCycle_at10 hdelay hpc]
    constructor <;> simp_all
  · rw [System.ioCycle_at11 hdelay hpc]
    constructor <;> simp_all
  · rw [System.ioCycle_at13 hdelay hpc]
    constructor <;> simp_all
  · rw [System.ioCycle_at16 hdelay hpc]
    constructor <;> simp_all

theorem System.Driven.ioCycle_in (h : s.Driven) (hdelay : s.io.delay = 0) (hlow : 18 ≤ s.io.pc) :
    s.ioCycle.Driven := by
  obtain ⟨hreach, hup, hdown, hrelease, hdirs, hhold, hosr, hreplies⟩ := h
  generalize hpc : s.io.pc = pc at *
  interval_cases pc
  · rw [System.ioCycle_at18 hdelay hpc]
    split <;> constructor <;> simp_all
  · cases htx : s.tx with
    | nil =>
      rw [System.ioCycle_at19_empty hdelay hpc htx]
      constructor <;> simp_all
    | cons w rest =>
      rw [System.ioCycle_at19 hdelay hpc htx]
      have hw : ∃ w', IsReply w' ∧ w = w' >>> 0 := ⟨w, hreplies w (by simp [htx]), by simp⟩
      constructor <;> simp_all [replyShift]
  · obtain ⟨w, hw, hosr⟩ := hosr (by simp)
    have hbits := hw.bits
    have hleft : ∃ w', IsReply w' ∧ w >>> 10 = w' >>> 10 := ⟨w, hw, rfl⟩
    rw [System.ioCycle_at20 hdelay hpc]
    constructor <;> simp_all [replyShift]
  · obtain ⟨w, hw, hosr⟩ := hosr (by simp)
    have hbits := hw.bits
    have hleft : ∃ w', IsReply w' ∧ w >>> 20 = w' >>> 20 := ⟨w, hw, rfl⟩
    rw [System.ioCycle_at21 hdelay hpc]
    constructor <;> simp_all [replyShift]
  · rw [System.ioCycle_at22 hdelay hpc]
    constructor <;> simp_all [replyShift]
  · rw [System.ioCycle_at23 hdelay hpc]
    constructor <;> simp_all [replyShift]
  · rw [System.ioCycle_at24 hdelay hpc]
    constructor <;> simp_all [replyShift]
  · rw [System.ioCycle_at25 hdelay hpc]
    split <;> constructor <;> simp_all [replyShift]
  · rw [System.ioCycle_at26 hdelay hpc]
    constructor <;> simp_all [replyShift]
  · obtain ⟨w, hw, hosr⟩ := hosr (by simp)
    have hbits := hw.bits
    rw [System.ioCycle_at27 hdelay hpc]
    constructor <;> simp_all [replyShift]
  · rw [System.ioCycle_at28 hdelay hpc]
    constructor <;> simp_all

theorem System.Driven.ioCycle (h : s.Driven) : s.ioCycle.Driven := by
  cases hdelay : s.io.delay with
  | succ n =>
    rw [System.ioCycle_delay hdelay]
    exact ⟨h.reach, h.up, h.down, h.release, h.dirs, h.hold, h.osr, h.replies⟩
  | zero =>
    by_cases hin : 18 ≤ s.io.pc
    · exact h.ioCycle_in hdelay hin
    by_cases hgoto : s.io.pc ∈ [1, 2, 3, 4, 5, 6, 8, 12, 14, 15, 17]
    · exact h.ioCycle_goto hdelay hgoto
    · refine h.ioCycle_out hdelay ?_
      simp only [List.mem_cons, List.not_mem_nil, or_false] at hgoto ⊢
      omega

/-! ## Every tick -/

theorem System.Driven.clocked {c : Nat} (hclock : s.ClockAt c) (h : s.Driven) :
    (s.clocked f).Driven := by
  rw [System.clocked_eq hclock]
  exact ⟨h.reach, h.up, h.down, h.release, h.dirs, h.hold, h.osr, h.replies⟩

theorem System.Driven.advance {c : Nat} (hclock : s.ClockAt c) (h : s.Driven) :
    (s.advance f).Driven := by
  obtain ⟨hreach, hup, hdown, hrelease, hdirs, hhold, hosr, hreplies⟩ := (h.clocked hclock).ioCycle
  rw [System.advance_eq hclock rfl]
  exact ⟨hreach, hup, hdown, hrelease, hdirs, hhold, hosr, hreplies⟩

variable {service : Service σ}

/-- Core 0 touches its own state and the FIFOs. -/
theorem System.serve_eq (act : Act) :
    s.serve service act =
      { s with
        rx := (s.serve service act).rx
        tx := (s.serve service act).tx
        core0 := (s.serve service act).core0 } := by
  cases act with
  | rest => rfl
  | take =>
    simp only [System.serve, System.take]
    split
    · split
      · rfl
      · split <;> rfl
    · rfl
  | put =>
    simp only [System.serve, System.put]
    split <;> rfl

theorem System.serve_replies (h : ∀ w ∈ s.tx, IsReply w) (act : Act) :
    ∀ w ∈ (s.serve service act).tx, IsReply w := by
  cases act with
  | rest => exact h
  | take =>
    have htx : (s.take service).tx = s.tx := by
      simp only [System.take]
      split
      · split
        · rfl
        · split <;> rfl
      · rfl
    simpa [System.serve, htx] using h
  | put =>
    simp only [System.serve, System.put]
    split
    · rename_i value _
      intro w hw
      simp at hw
      rcases hw with hw | rfl
      · exact h w hw
      · exact ⟨value, _, rfl⟩
    · exact h

theorem System.Driven.serve (h : s.Driven) (act : Act) : (s.serve service act).Driven := by
  rw [System.serve_eq]
  exact ⟨h.reach, h.up, h.down, h.release, h.dirs, h.hold, h.osr, System.serve_replies h.replies act⟩

theorem System.ClockAt.serve {c : Nat} (h : s.ClockAt c) (act : Act) :
    (s.serve service act).ClockAt c := by
  rw [System.serve_eq]
  exact ⟨h.lt, h.sm, h.clk⟩

end Z80Sbc.Pio
