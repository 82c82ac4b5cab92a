import Z80Sbc.Concurrent.LeadsTo
import Z80Sbc.Pio.EnginePorts

/-! # Progress of the I/O engine

While core 0 keeps taking and putting, in any order and as slowly as it likes, no I/O cycle of the
Z80 waits for ever: each stage of a cycle leads to the next, and a program of accesses to its
end. -/

namespace Z80Sbc.Pio

open Concurrent (LeadsTo)

variable {σ : Type} {s : System σ} {f : Byte} {c : Nat} {a : Access} {service : Service σ}

/-! ## The stages -/

/-- Which of the six cycles of a period it is. -/
def clockPos (sm : Sm) : Nat :=
  if sm.pc = 1 then 2 - sm.delay else if sm.pc = 2 then 3 else if sm.pc = 3 then 4 else 5

theorem System.ClockAt.pos (h : s.ClockAt c) : clockPos s.clock = c := by
  have hlt := h.lt
  rw [h.sm]
  interval_cases c <;> rfl

/-- The engine isolates the buses after a cycle. -/
def System.Tail (s : System σ) : Prop :=
  (s.io.pc = 12 ∨ s.io.pc = 25) ∧ s.z80.strobe ≠ .low ∨ s.io.pc = 13 ∨ 26 ≤ s.io.pc

def System.Resting (s : System σ) : Prop := (s.io.pc = 14 ∨ s.io.pc = 15) ∧ s.z80.strobe = .high

def System.Falling (s : System σ) : Prop :=
  (s.io.pc = 14 ∨ s.io.pc = 15) ∧ ∃ n, s.z80.strobe = .falling n

/-- The strobes are low, and the engine has not seen it. -/
def System.Unseen (s : System σ) : Prop :=
  (s.io.pc = 14 ∨ s.io.pc = 15 ∨ s.io.pc = 16) ∧ s.z80.strobe = .low

def System.Held (s : System σ) : Prop := Caught s.io.pc

/-- A released OUT. -/
def System.Released (s : System σ) : Prop := s.io.pc = 12 ∧ s.z80.strobe = .low

/-- An IN with its reply on the bus. -/
def System.Clocked (s : System σ) : Prop := s.io.pc = 24
def System.Sampling (s : System σ) : Prop := s.io.pc = 25 ∧ s.z80.strobe = .low

theorem System.Handshake.stages (h : s.Handshake c) :
    s.Tail ∨ s.Resting ∨ s.Falling ∨ s.Unseen ∨ s.Held ∨ s.Released ∨ s.Clocked ∨ s.Sampling := by
  cases h.view with
  | quiet hpc _ hs => exact .inr (.inl ⟨hpc, hs⟩)
  | falling hpc _ hs => exact .inr (.inr (.inl ⟨hpc, _, hs⟩))
  | low hpc _ hlow => exact .inr (.inr (.inr (.inl ⟨hpc, hlow.strobe⟩)))
  | caught hpc => exact .inr (.inr (.inr (.inr (.inl hpc))))
  | going hpc _ hlow => exact .inr (.inr (.inr (.inr (.inr (.inl ⟨hpc, hlow.strobe⟩)))))
  | rising hpc _ hs => exact .inl (.inl ⟨.inl hpc, by simp [hs]⟩)
  | risen hpc _ hs =>
    cases hpc with
    | inl hpc => exact .inl (.inl ⟨.inl hpc, by simp [hs]⟩)
    | inr hpc => exact .inl (.inr (.inl hpc))
  | running hpc => exact .inr (.inr (.inr (.inr (.inr (.inr (.inl hpc))))))
  | sampling hpc _ hlow => exact .inr (.inr (.inr (.inr (.inr (.inr (.inr ⟨hpc, hlow.strobe⟩))))))
  | sampled hpc _ hs => exact .inl (.inl ⟨.inr hpc, by simp [hs]⟩)
  | closing hpc _ hs =>
    by_cases h25 : s.io.pc = 25
    · exact .inl (.inl ⟨.inr h25, by simp [hs]⟩)
    · exact .inl (.inr (.inr (by omega)))

theorem System.Handshake.stages_done (h : s.Handshake c) (hnil : s.z80.accesses = []) :
    s.Tail ∨ s.Resting := by
  cases h.view with
  | quiet hpc _ hs => exact .inr ⟨hpc, hs⟩
  | falling _ _ _ hhead => simp [hnil] at hhead
  | low _ _ hlow | caught _ _ hlow | going _ _ hlow | running _ _ hlow | sampling _ _ hlow =>
    have hhead := hlow.head
    simp [hnil] at hhead
  | rising hpc _ hs => exact .inl (.inl ⟨.inl hpc, by simp [hs]⟩)
  | risen hpc _ hs =>
    cases hpc with
    | inl hpc => exact .inl (.inl ⟨.inl hpc, by simp [hs]⟩)
    | inr hpc => exact .inl (.inr (.inl hpc))
  | sampled hpc _ hs => exact .inl (.inl ⟨.inr hpc, by simp [hs]⟩)
  | closing hpc _ hs =>
    by_cases h25 : s.io.pc = 25
    · exact .inl (.inl ⟨.inr h25, by simp [hs]⟩)
    · exact .inl (.inr (.inr (by omega)))

/-- What is left of the tail. -/
def System.tailRank (s : System σ) : Nat :=
  if s.io.pc = 13 ∨ s.io.pc = 28 then 0
  else if s.io.pc = 27 then 1
  else if s.io.pc = 26 then 2
  else match s.z80.strobe with
    | .rising _ n => n + 4
    | _ => 3

/-- Strobes that rise get there. -/
theorem System.tailRank_settle {cycle : Cycle} {n : Nat} {s' : System σ}
    (hpc : s.io.pc = 12 ∨ s.io.pc = 25) (hstrobe : s.z80.strobe = .rising cycle n)
    (hio : s'.io = s.io) (hstrobe' : s'.z80.strobe = s.z80.strobe.settle) :
    s'.Tail ∧ s'.tailRank < s.tailRank := by
  have h13 : ¬ (s.io.pc = 13 ∨ s.io.pc = 28) := by omega
  have h27 : s.io.pc ≠ 27 ∧ s.io.pc ≠ 26 := by omega
  rw [hstrobe] at hstrobe'
  cases n with
  | zero =>
    refine ⟨.inl ⟨by rwa [hio], by simp [hstrobe', Strobe.settle]⟩, ?_⟩
    simp [System.tailRank, hio, h13, h27, hstrobe, hstrobe', Strobe.settle]
  | succ n =>
    refine ⟨.inl ⟨by rwa [hio], by simp [hstrobe', Strobe.settle]⟩, ?_⟩
    simp [System.tailRank, hio, h13, h27, hstrobe, hstrobe', Strobe.settle]

theorem System.Handshake.advance_tail (h : s.Handshake c) (htail : s.Tail) :
    (s.advance f).io.pc = 14 ∨
      (s.advance f).Tail ∧ (s.advance f).tailRank < s.tailRank := by
  have hio := System.clocked_io h.clock (f := f)
  have hseen := System.clocked_seen h.clock (f := f)
  have hnext := (System.advance_rest h.clock (f := f)).1
  have hwhere : s.io.pc = 12 ∨ s.io.pc = 25 ∨ s.io.pc = 13 ∨ 26 ≤ s.io.pc := by
    rcases htail with ⟨hpc | hpc, _⟩ | hpc
    · exact .inl hpc
    · exact .inr (.inl hpc)
    · exact .inr (.inr hpc)
  cases h.view with
  | quiet hpc | falling hpc | low hpc => omega
  | caught hpc =>
    simp only [Caught] at hpc
    omega
  | running hpc => omega
  | going hpc _ hlow | sampling hpc _ hlow =>
    rcases htail with ⟨_, hs⟩ | hpc'
    · exact absurd hlow.strobe hs
    · omega
  | rising hpc hd hs hquiet hstage =>
    rw [System.ioCycle_at12 (by rwa [hio]) (by rwa [hio]), hseen, hstage] at hnext
    have hio' : (s.advance f).io = s.io := by simpa [hio] using hnext
    exact .inr (System.tailRank_settle (.inl hpc) hs hio' (System.advance_quiet h.clock hquiet).1)
  | risen hpc hd hs hquiet hstage =>
    cases hpc with
    | inl hpc =>
      rw [System.ioCycle_at12 (by rwa [hio]) (by rwa [hio]), hseen, hstage] at hnext
      right
      simp [System.Tail, System.tailRank, hnext, hpc, hs]
    | inr hpc =>
      rw [System.ioCycle_at13 (by rwa [hio]) (by rwa [hio])] at hnext
      left
      simp [hnext]
  | sampled hpc hd hs hcycle hquiet hstage =>
    rw [System.ioCycle_at25 (by rwa [hio]) (by rwa [hio]), hseen, hstage] at hnext
    have hio' : (s.advance f).io = s.io := by simpa [hio] using hnext
    have hstill := System.advance_still h.clock (f := f) (by omega) (by omega)
    exact .inr (System.tailRank_settle (.inr hpc) hs hio' (by rw [hstill]; rfl))
  | closing hpc hd hs hcycle hquiet hstage =>
    rcases (by omega : s.io.pc = 25 ∨ s.io.pc = 26 ∨ s.io.pc = 27 ∨ s.io.pc = 28) with
      hk | hk | hk | hk
    · rw [System.ioCycle_at25 (by rwa [hio]) (by rwa [hio]), hseen, hstage] at hnext
      right
      simp [System.Tail, System.tailRank, hnext, hk, hs]
    · rw [System.ioCycle_at26 (by rwa [hio]) (by rwa [hio])] at hnext
      right
      simp [System.Tail, System.tailRank, hnext, hk]
    · rw [System.ioCycle_at27 (by rwa [hio]) (by rwa [hio])] at hnext
      right
      simp [System.Tail, System.tailRank, hnext, hk]
    · rw [System.ioCycle_at28 (by rwa [hio]) (by rwa [hio])] at hnext
      left
      simp [hnext]

/-- What is left of the gap. -/
def System.restRank (s : System σ) : Nat :=
  match s.z80.phase with
  | .before n => 6 * n + 6 - clockPos s.clock
  | _ => 0

theorem System.Handshake.advance_resting (h : s.Handshake c) (hrest : s.Resting)
    (haccesses : s.z80.accesses ≠ []) :
    (s.advance f).Falling ∨ (s.advance f).Resting ∧ (s.advance f).restRank < s.restRank := by
  obtain ⟨hpc, hstrobe⟩ := hrest
  have hhold : s.hold = false := by
    simp only [h.driven.hold, decide_eq_false_iff_not]
    omega
  cases h.view with
  | quiet _ hd _ hquiet hstage =>
    have hidle := (System.advance_idle h.clock hpc hd hstage (f := f)).1
    obtain ⟨n, hphase, _⟩ := hquiet
    have hlt := h.clock.lt
    have hclock := h.clock.advance (f := f)
    have hsettle : s.z80.settled.strobe = .high := by simp [hstrobe, Strobe.settle]
    have hz80 := System.advance_z80 h.clock (f := f)
    by_cases h5 : c = 5
    · cases n with
      | zero =>
        cases hlist : s.z80.accesses with
        | nil => exact absurd hlist haccesses
        | cons a rest =>
          rw [if_pos h5, Z80.rise_t2 (z := s.z80.settled) hphase hlist] at hz80
          exact .inl ⟨hidle, a.fallDelay, by rw [hz80]⟩
      | succ n =>
        rw [if_pos h5, Z80.rise_gap (z := s.z80.settled) hphase] at hz80
        refine .inr ⟨⟨hidle, by rw [hz80]; exact hsettle⟩, ?_⟩
        simp [System.restRank, hz80, hphase, hclock.pos, h.clock.pos, clockNext, h5]
        omega
    · have hz : (s.advance f).z80 = s.z80.settled := by
        rw [hz80, if_neg h5]
        split
        · exact System.fall_gap (s := s.beforeEdge f) hphase
        · rfl
      refine .inr ⟨⟨hidle, by rw [hz]; exact hsettle⟩, ?_⟩
      simp [System.restRank, hz, hphase, hclock.pos, h.clock.pos, clockNext, hhold]
      omega
  | falling _ _ hs | rising _ _ hs | sampled _ _ hs => simp [hs] at hstrobe
  | low _ _ hlow | caught _ _ hlow | going _ _ hlow | running _ _ hlow | sampling _ _ hlow =>
    simp [hlow.strobe] at hstrobe
  | risen hpc' | closing hpc' => omega

/-- After its last access the Z80 leaves the engine at rest. -/
theorem System.Handshake.advance_done (h : s.Handshake c) (hrest : s.Resting)
    (hnil : s.z80.accesses = []) :
    (s.advance f).Resting ∧ (s.advance f).z80.accesses = [] ∧ (s.advance f).rx = s.rx := by
  obtain ⟨hpc, hstrobe⟩ := hrest
  cases h.view with
  | quiet _ hd _ hquiet hstage =>
    have hidle := (System.advance_idle h.clock hpc hd hstage (f := f)).1
    obtain ⟨n, hphase, _⟩ := hquiet
    have hsettle : s.z80.settled.strobe = .high := by simp [hstrobe, Strobe.settle]
    have hz80 : (s.advance f).z80.strobe = .high ∧ (s.advance f).z80.accesses = [] := by
      rw [System.advance_z80 h.clock]
      split
      · cases n with
        | zero =>
          rw [Z80.rise_end (z := s.z80.settled) hphase hnil]
          exact ⟨hsettle, hnil⟩
        | succ n =>
          rw [Z80.rise_gap (z := s.z80.settled) hphase]
          exact ⟨hsettle, hnil⟩
      split
      · rw [System.fall_gap (s := s.beforeEdge f) hphase]
        exact ⟨hsettle, hnil⟩
      · exact ⟨hsettle, hnil⟩
    exact ⟨⟨hidle, hz80.1⟩, hz80.2,
      System.advance_rx h.clock h.driven (by omega) (by omega)⟩
  | falling _ _ hs | rising _ _ hs | sampled _ _ hs => simp [hs] at hstrobe
  | low _ _ hlow | caught _ _ hlow | going _ _ hlow | running _ _ hlow | sampling _ _ hlow =>
    simp [hlow.strobe] at hstrobe
  | risen hpc' | closing hpc' => omega

def System.fallRank (s : System σ) : Nat :=
  match s.z80.strobe with
  | .falling n => n
  | _ => 0

theorem System.Handshake.advance_falling (h : s.Handshake c) (hfalling : s.Falling) :
    (s.advance f).Unseen ∨ (s.advance f).Falling ∧ (s.advance f).fallRank < s.fallRank := by
  obtain ⟨hpc, n, hstrobe⟩ := hfalling
  cases h.view with
  | falling _ hd _ hhead hwaits hbudget hstage =>
    have hidle := (System.advance_idle h.clock hpc hd hstage (f := f)).1
    have hz80 := System.advance_z80 h.clock (f := f)
    have hkeep : (s.advance f).z80.strobe = s.z80.strobe.settle := by
      rw [hz80]
      rcases hwaits with ⟨ht2, _⟩ | htw
      · by_cases h2 : c = 2
        · rw [if_neg (by omega), if_pos h2, System.fall_t2 (s := s.beforeEdge f) ht2]
          rfl
        · rw [if_neg (by omega), if_neg h2]
          rfl
      · split
        · rw [Z80.rise_wait (z := s.z80.settled) (.inl htw)]
          rfl
        split
        · rw [System.fall_tw (s := s.beforeEdge f) htw]
          split <;> rfl
        · rfl
    rw [hstrobe] at hkeep
    cases n with
    | zero => exact .inl ⟨by omega, hkeep⟩
    | succ n =>
      refine .inr ⟨⟨hidle, n, hkeep⟩, ?_⟩
      simp [System.fallRank, hstrobe, hkeep, Strobe.settle]
  | quiet _ _ hs | rising _ _ hs | sampled _ _ hs => simp [hs] at hstrobe
  | low _ _ hlow | caught _ _ hlow | going _ _ hlow | running _ _ hlow | sampling _ _ hlow =>
    simp [hlow.strobe] at hstrobe
  | risen hpc' | closing hpc' => omega

theorem System.Handshake.advance_unseen (h : s.Handshake c) (hunseen : s.Unseen)
    (hgp0 : s.stage 0 = true) :
    (s.advance f).Held ∨
      (s.advance f).Unseen ∧ 17 - (s.advance f).io.pc < 17 - s.io.pc := by
  obtain ⟨hpc, hstrobe⟩ := hunseen
  have hio := System.clocked_io h.clock (f := f)
  have hseen := System.clocked_seen h.clock (f := f)
  have hnext := (System.advance_rest h.clock (f := f)).1
  cases h.view with
  | low _ hd hlow _ hshows =>
    have hlow' := (h.advance_low hlow (by omega) (by omega) (f := f)).1.strobe
    rcases hpc with hk | hk | hk
    · rw [System.ioCycle_at14 (by rwa [hio]) (by rwa [hio]), hseen, hgp0] at hnext
      refine .inr ⟨⟨.inr (.inl (by simp [hnext])), hlow'⟩, by simp [hnext, hk]⟩
    · rw [System.ioCycle_at15 (by rwa [hio]) (by rwa [hio]), hseen, hshows.iorq] at hnext
      refine .inr ⟨⟨.inr (.inr (by simp [hnext])), hlow'⟩, by simp [hnext, hk]⟩
    · rw [System.ioCycle_at16 (by rwa [hio]) (by rwa [hio])] at hnext
      exact .inl (.inr (by simp [hnext]))
  | quiet _ _ hs | falling _ _ hs | rising _ _ hs | risen _ _ hs | sampled _ _ hs
  | closing _ _ hs => simp [hs] at hstrobe
  | caught hpc' =>
    simp only [Caught] at hpc'
    omega
  | going hpc' | running hpc' | sampling hpc' => omega

/-- What is left of the two clocks. -/
def System.clockRank (s : System σ) : Nat :=
  (match s.z80.phase with
    | .tw => 6
    | _ => 0) + (8 - clockPos s.clock) % 6

theorem System.Handshake.advance_released (h : s.Handshake c) (hreleased : s.Released) :
    (s.advance f).z80.log.length = s.z80.log.length + 1 ∨
      (s.advance f).z80.log = s.z80.log ∧ (s.advance f).Released ∧
        (s.advance f).clockRank < s.clockRank := by
  obtain ⟨hpc, hstrobe⟩ := hreleased
  have hio := System.clocked_io h.clock (f := f)
  have hnext := (System.advance_rest h.clock (f := f)).1
  cases h.view with
  | going _ hd hlow hphase hshows =>
    rw [System.ioCycle_at12 (by rwa [hio]) (by rwa [hio]), System.clocked_seen h.clock,
      hshows.iorq] at hnext
    have hpc' : (s.advance f).io.pc = 12 := by simp [hnext, hio, hpc]
    by_cases hend : s.z80.phase = .t3 ∧ c = 2
    · obtain ⟨_, hlog⟩ := h.advance_finish hlow hend.1 hend.2 (f := f)
      exact .inl (by simp [hlog])
    · have hhold : s.hold = false := by simp [h.driven.hold, hpc]
      have hrelease : (s.advance f).pads.ioRelease = true := by
        simp [(h.driven.advance h.clock).release, hpc']
      have hkeep := System.advance_keep h.clock hlow (h.view.low_phase hlow) hend (f := f)
      refine .inr ⟨hkeep.2, ⟨hpc', hkeep.1.strobe⟩, ?_⟩
      have hz80 := System.advance_z80 h.clock (f := f)
      have hlt := h.clock.lt
      have hclock := h.clock.advance (f := f)
      have hphase' : (s.advance f).z80.phase =
          if c = 2 then .t3 else s.z80.phase := by
        rw [hz80]
        by_cases h2 : c = 2
        · have htw : s.z80.phase = .tw := hphase.resolve_right fun ht3 => hend ⟨ht3, h2⟩
          have hwait : (s.beforeEdge f).waitN = true := by simp [System.waitN, hrelease]
          rw [if_neg (by omega), if_pos h2, if_pos h2,
            System.fall_tw (s := s.beforeEdge f) htw, hwait]
          rfl
        · split
          · rw [Z80.rise_wait (z := s.z80.settled) hphase]
            rfl
          · rfl
      rcases hphase with htw | ht3
      · by_cases h2 : c = 2
        · simp [System.clockRank, hphase', htw, hclock.pos, h.clock.pos, clockNext, h2]
        · simp [System.clockRank, hphase', htw, hclock.pos, h.clock.pos, clockNext, hhold, h2]
          omega
      · have h2 : c ≠ 2 := fun h2 => hend ⟨ht3, h2⟩
        simp [System.clockRank, hphase', ht3, hclock.pos, h.clock.pos, clockNext, hhold, h2]
        omega
  | caught hpc' =>
    simp only [Caught] at hpc'
    omega
  | quiet _ _ hs | falling _ _ hs | rising _ _ hs | risen _ _ hs | sampled _ _ hs
  | closing _ _ hs => simp [hs] at hstrobe
  | low hpc' | running hpc' | sampling hpc' => omega

theorem System.Handshake.advance_clocked (h : s.Handshake c) (hclocked : s.Clocked) :
    (s.advance f).z80.log = s.z80.log ∧
      ((s.advance f).Sampling ∨ (s.advance f).Clocked ∧ (s.advance f).io.delay < s.io.delay) := by
  have hpc : s.io.pc = 24 := hclocked
  have hio := System.clocked_io h.clock (f := f)
  have hnext := (System.advance_rest h.clock (f := f)).1
  cases h.view with
  | running _ _ hlow =>
    have hkeep := h.advance_low hlow (by omega) (by omega) (f := f)
    refine ⟨hkeep.2, ?_⟩
    cases hd : s.io.delay with
    | zero =>
      rw [System.ioCycle_at24 (by rwa [hio]) (by rwa [hio])] at hnext
      exact .inl ⟨by simp [hnext], hkeep.1.strobe⟩
    | succ n =>
      rw [System.ioCycle_delay (by rwa [hio]), hio] at hnext
      exact .inr ⟨by simp [System.Clocked, hnext, hpc], by simp [hnext]⟩
  | caught hpc' =>
    simp only [Caught] at hpc'
    omega
  | quiet hpc' | falling hpc' | rising hpc' | risen hpc' | sampled hpc' | closing hpc' | low hpc'
  | going hpc' | sampling hpc' => omega

theorem System.Handshake.advance_sampling (h : s.Handshake c) (hsampling : s.Sampling) :
    (s.advance f).z80.log.length = s.z80.log.length + 1 ∨
      (s.advance f).z80.log = s.z80.log ∧ (s.advance f).Sampling ∧
        (s.advance f).clockRank < s.clockRank := by
  obtain ⟨hpc, hstrobe⟩ := hsampling
  have hio := System.clocked_io h.clock (f := f)
  have hnext := (System.advance_rest h.clock (f := f)).1
  cases h.view with
  | sampling _ hd hlow hcycle hphase hshows =>
    rw [System.ioCycle_at25 (by rwa [hio]) (by rwa [hio]), System.clocked_seen h.clock,
      hshows.iorq] at hnext
    have hpc' : (s.advance f).io.pc = 25 := by simp [hnext, hio, hpc]
    by_cases h2 : c = 2
    · obtain ⟨_, hlog⟩ := h.advance_finish hlow hphase h2 (f := f)
      exact .inl (by simp [hlog])
    · have hkeep := System.advance_keep h.clock hlow (.inr hphase) (fun hend => h2 hend.2) (f := f)
      refine .inr ⟨hkeep.2, ⟨hpc', hkeep.1.strobe⟩, ?_⟩
      have hlt := h.clock.lt
      have hclock := h.clock.advance (f := f)
      have hphase' : (s.advance f).z80.phase = .t3 := by
        rw [System.advance_z80 h.clock]
        split
        · rw [Z80.rise_wait (z := s.z80.settled) (.inr hphase)]
          exact hphase
        · simp [hphase]
      have hnext' : clockNext s.hold c = (c + 1) % 6 := by
        simp only [clockNext]
        split <;> omega
      simp [System.clockRank, hphase', hphase, hclock.pos, h.clock.pos, hnext']
      omega
  | caught hpc' =>
    simp only [Caught] at hpc'
    omega
  | quiet _ _ hs | falling _ _ hs | rising _ _ hs | risen _ _ hs | sampled _ _ hs
  | closing _ _ hs => simp [hs] at hstrobe
  | low hpc' | running hpc' | going hpc' => omega

/-! ## The stage that needs core 0 -/

/-- What the FIFO and core 0 have to do for an IN. -/
def System.waiting (s : System σ) : Nat :=
  match s.core0.reply with
  | some _ => 0
  | none => s.rx.length

/-- What is left before the clock goes on. -/
def System.heldRank (s : System σ) : Nat :=
  if s.io.pc = 17 then 25
  else if s.io.pc = 0 then 24
  else if s.io.pc = 1 then 16 + s.io.delay
  else if s.io.pc ≤ 8 then 17 - s.io.pc
  else if s.io.pc = 9 then 9
  else if s.io.pc = 10 ∨ s.io.pc = 22 then 8
  else if s.io.pc = 18 then 16
  else if s.io.pc = 19 then 11 + s.waiting
  else if s.io.pc = 20 then 10
  else if s.io.pc = 21 then 9
  else s.io.delay

/-- What the engine may be waiting for. -/
def System.need (s : System σ) : Act :=
  if s.io.pc = 19 ∧ s.core0.reply.isSome then .put else .take

theorem System.heldRank_of_ne (h19 : s.io.pc ≠ 19) {s' : System σ} (hio : s'.io = s.io) :
    s'.heldRank = s.heldRank ∧ s'.need = s.need := by
  simp [System.heldRank, System.need, hio, h19]

/-- Where nothing can stall, the program goes on. -/
theorem System.Handshake.advance_held (h : s.Handshake c) (hheld : s.Held)
    (hstall : s.io.pc ≠ 9 ∧ s.io.pc ≠ 18 ∧ s.io.pc ≠ 19) :
    (s.advance f).Released ∨ (s.advance f).Clocked ∨
      (s.advance f).Held ∧ (s.advance f).io.pc ≠ 19 ∧ (s.advance f).heldRank < s.heldRank := by
  have hpc : s.io.pc ≤ 11 ∨ 17 ≤ s.io.pc ∧ s.io.pc ≤ 23 := hheld
  have hio := System.clocked_io h.clock (f := f)
  have hnext := (System.advance_rest h.clock (f := f)).1
  obtain ⟨a, hlow, _⟩ := h.view.of_caught hheld
  have hlow' := (h.advance_low hlow (by omega) (by omega) (f := f)).1.strobe
  cases hd : s.io.delay with
  | succ n =>
    rw [System.ioCycle_delay (by rwa [hio]), hio] at hnext
    have hdelayed : s.io.pc = 1 ∨ s.io.pc = 11 ∨ s.io.pc = 23 := by
      have hnodelay := h.view.noDelay (by omega)
      simp only [NoDelay] at hnodelay
      omega
    rcases hdelayed with hk | hk | hk <;> refine .inr (.inr ⟨?_, ?_, ?_⟩) <;>
      simp [System.Held, Caught, System.heldRank, hnext, hk, hd]
  | zero =>
    rw [← hio] at hd
    generalize hk : s.io.pc = pc at *
    rw [← hio] at hk
    have hcase : pc ≤ 8 ∨ 10 ≤ pc ∧ pc ≤ 11 ∨ pc = 17 ∨ 20 ≤ pc ∧ pc ≤ 23 := by omega
    have hgo (hcaught : Caught (s.advance f).io.pc) (h19 : (s.advance f).io.pc ≠ 19)
        (hrank : (s.advance f).heldRank < s.heldRank) :
        (s.advance f).Released ∨ (s.advance f).Clocked ∨
          (s.advance f).Held ∧ (s.advance f).io.pc ≠ 19 ∧
            (s.advance f).heldRank < s.heldRank :=
      .inr (.inr ⟨hcaught, h19, hrank⟩)
    rcases hcase with hout | ⟨hrelease, hrelease'⟩ | hbranch | ⟨hin, hin'⟩
    · interval_cases pc
      · rw [System.ioCycle_at0 hd hk] at hnext
        exact hgo (by simp [hnext, Caught]) (by simp [hnext])
          (by simp [System.heldRank, hnext, ← hio, hk])
      · rw [System.ioCycle_at1 hd hk] at hnext
        exact hgo (by simp [hnext, Caught]) (by simp [hnext])
          (by simp [System.heldRank, hnext, ← hio, hk, hd])
      · rw [System.ioCycle_at2 hd hk] at hnext
        exact hgo (by simp [hnext, Caught]) (by simp [hnext])
          (by simp [System.heldRank, hnext, ← hio, hk])
      · rw [System.ioCycle_at3 hd hk] at hnext
        exact hgo (by simp [hnext, Caught]) (by simp [hnext])
          (by simp [System.heldRank, hnext, ← hio, hk])
      · rw [System.ioCycle_at4 hd hk] at hnext
        exact hgo (by simp [hnext, Caught]) (by simp [hnext])
          (by simp [System.heldRank, hnext, ← hio, hk])
      · rw [System.ioCycle_at5 hd hk] at hnext
        by_cases hxy : (s.clocked f).io.x = (s.clocked f).io.y
        · exact hgo (by simp [hnext, hxy, Caught]) (by simp [hnext, hxy])
            (by simp [System.heldRank, hnext, hxy, ← hio, hk])
        · exact hgo (by simp [hnext, hxy, Caught]) (by simp [hnext, hxy])
            (by simp [System.heldRank, hnext, hxy, ← hio, hk])
      · rw [System.ioCycle_at6 hd hk] at hnext
        exact hgo (by simp [hnext, Caught]) (by simp [hnext])
          (by simp [System.heldRank, hnext, ← hio, hk])
      · rw [System.ioCycle_at7 hd hk] at hnext
        exact hgo (by simp [hnext, Caught]) (by simp [hnext])
          (by simp [System.heldRank, hnext, ← hio, hk])
      · rw [System.ioCycle_at8 hd hk] at hnext
        exact hgo (by simp [hnext, Caught]) (by simp [hnext])
          (by simp [System.heldRank, hnext, ← hio, hk])
    · interval_cases pc
      · rw [System.ioCycle_at10 hd hk] at hnext
        exact hgo (by simp [hnext, Caught]) (by simp [hnext])
          (by simp [System.heldRank, hnext, ← hio, hk])
      · rw [System.ioCycle_at11 hd hk] at hnext
        exact .inl ⟨by simp [hnext], hlow'⟩
    · rw [System.ioCycle_at17 hd (hk.trans hbranch)] at hnext
      cases hrd : (s.clocked f).seen 27 <;>
        exact hgo (by simp [hnext, hrd, Caught]) (by simp [hnext, hrd])
          (by simp [System.heldRank, hnext, hrd, ← hio, hk, hbranch])
    · interval_cases pc
      · rw [System.ioCycle_at20 hd hk] at hnext
        exact hgo (by simp [hnext, Caught]) (by simp [hnext])
          (by simp [System.heldRank, hnext, ← hio, hk])
      · rw [System.ioCycle_at21 hd hk] at hnext
        exact hgo (by simp [hnext, Caught]) (by simp [hnext])
          (by simp [System.heldRank, hnext, ← hio, hk])
      · rw [System.ioCycle_at22 hd hk] at hnext
        exact hgo (by simp [hnext, Caught]) (by simp [hnext])
          (by simp [System.heldRank, hnext, ← hio, hk])
      · rw [System.ioCycle_at23 hd hk] at hnext
        exact .inr (.inl (by simp [System.Clocked, hnext]))

theorem System.serve_io (service : Service σ) (act : Act) : (s.serve service act).io = s.io := by
  rw [System.serve_eq]

theorem System.serve_z80 (service : Service σ) (act : Act) :
    (s.serve service act).z80 = s.z80 := by
  rw [System.serve_eq]

theorem System.serve_stage (service : Service σ) (act : Act) :
    (s.serve service act).stage = s.stage := by
  rw [System.serve_eq]

section
variable {st₀ : σ × Bool} {program : List Cycle} {log : List (Cycle × Byte)}

/-- A take makes room. -/
theorem System.Ledger.take_room (h : s.Ledger service st₀ log) (hroom : s.rx.length ≤ fifoDepth) :
    (s.serve service .take).rx.length < fifoDepth := by
  cases hrx : s.rx with
  | nil =>
    rw [System.serve, System.take_empty hrx, hrx]
    simp [fifoDepth]
  | cons w rest =>
    rw [System.serve, System.take_write h.reply hrx (h.writes w (by simp [hrx]))]
    simp only [hrx, List.length_cons] at hroom
    exact hroom

theorem System.serve_room (hroom : s.rx.length ≤ fifoDepth) (act : Act) :
    (s.serve service act).rx.length ≤ fifoDepth := by
  cases act with
  | rest => exact hroom
  | take =>
    simp only [System.serve, System.take]
    split
    · rename_i hrx
      simp only [hrx, List.length_cons] at hroom
      split
      · exact Nat.le_of_succ_le hroom
      · split <;> exact Nat.le_of_succ_le hroom
    · exact hroom
  | put =>
    simp only [System.serve, System.put]
    split <;> exact hroom

theorem System.Handshake.advance_room (h : s.Handshake c) (hroom : s.rx.length ≤ fifoDepth) :
    (s.advance f).rx.length ≤ fifoDepth := by
  have hio := System.clocked_io h.clock (f := f)
  have hrx := System.clocked_rx h.clock (f := f)
  by_cases hpush : s.io.pc = 9 ∨ s.io.pc = 18
  · have hd : (s.clocked f).io.delay = 0 := by
      rw [hio]
      exact h.view.noDelay (by omega) (by omega) (by omega) (by omega)
    rw [(System.advance_rest h.clock).2.1]
    rcases hpush with hk | hk
    · rw [System.ioCycle_at9 hd (by rwa [hio]), hrx]
      split
      · simpa using by assumption
      · rwa [hrx]
    · rw [System.ioCycle_at18 hd (by rwa [hio]), hrx]
      split
      · simpa using by assumption
      · rwa [hrx]
  · rw [System.advance_rx h.clock h.driven (by omega) (by omega)]
    exact hroom

/-- What holds between two ticks, for progress. -/
structure System.Ready (service : Service σ) (st₀ : σ × Bool) (program : List Cycle)
    (s : System σ) : Prop where
  accounted : s.Accounted service st₀ program
  room : s.rx.length ≤ fifoDepth
  gp0 : s.stage 0 = true

theorem System.Ready.tick (h : s.Ready service st₀ program) (t : Tick) :
    (s.tick service t).Ready service st₀ program := by
  obtain ⟨c, hs⟩ := h.accounted.1
  have hserved : (s.serve service t.act).Handshake c := hs.serve t.act
  refine ⟨h.accounted.tick t, hserved.advance_room (System.serve_room h.room t.act), ?_⟩
  rw [System.tick, System.advance_stage hserved.clock]
  exact System.levels_zero

theorem System.Ready.start (state : σ) (bank : Bool) {accesses : List Access}
    (htimed : ∀ a ∈ accesses, a.Timed) :
    (System.start state bank accesses).Ready service (state, bank) (accesses.map Access.cycle) :=
  ⟨System.Accounted.start state bank htimed, by simp [System.start], rfl⟩

theorem System.Handshake.advance_push (h : s.Handshake c) (hpc : s.io.pc = 9 ∨ s.io.pc = 18) :
    if s.rx.length < fifoDepth then (s.advance f).io.pc = s.io.pc + 1
    else (s.advance f).io = s.io := by
  have hio := System.clocked_io h.clock (f := f)
  have hrx := System.clocked_rx h.clock (f := f)
  have hd : (s.clocked f).io.delay = 0 := by
    rw [hio]
    exact h.view.noDelay (by omega) (by omega) (by omega) (by omega)
  rw [(System.advance_rest h.clock).1]
  rcases hpc with hk | hk
  · rw [System.ioCycle_at9 hd (by rwa [hio]), hrx]
    split <;> simp [hk, hio]
  · rw [System.ioCycle_at18 hd (by rwa [hio]), hrx]
    split <;> simp [hk, hio]

theorem System.Handshake.advance_pull (h : s.Handshake c) (hpc : s.io.pc = 19) {w : Word}
    {rest : List Word} (htx : s.tx = w :: rest) : (s.advance f).io.pc = 20 := by
  have hio := System.clocked_io h.clock (f := f)
  have hd : s.io.delay = 0 := h.view.noDelay (by omega) (by omega) (by omega) (by omega)
  rw [(System.advance_rest h.clock).1, System.ioCycle_at19 (by rwa [hio]) (by rwa [hio])
    ((System.clocked_tx h.clock).trans htx)]

/-- A step towards the end of the wait, or a wait for an action that is not the one taken. -/
def System.Nearer (s s' : System σ) (act : Act) : Prop :=
  s'.Held ∧ (s'.heldRank < s.heldRank ∨
    s'.heldRank = s.heldRank ∧ s'.need = s.need ∧ act ≠ s.need)

theorem System.waiting_le (hroom : s.rx.length ≤ fifoDepth) : s.waiting ≤ 4 := by
  simp only [System.waiting]
  split
  · omega
  · exact hroom

/-- An OUT, or the request of an IN, waits for room. -/
theorem System.Ready.tick_push (h : s.Ready service st₀ program)
    (hpc : s.io.pc = 9 ∨ s.io.pc = 18) (t : Tick) : s.Nearer (s.tick service t) t.act := by
  obtain ⟨c, hs⟩ := h.accounted.1
  have hserved : (s.serve service t.act).Handshake c := hs.serve t.act
  have hio := System.serve_io (s := s) service t.act
  have hpush := hserved.advance_push (f := t.floating) (by rwa [hio])
  have hwait := System.waiting_le (h.tick t).room
  by_cases hroom : (s.serve service t.act).rx.length < fifoDepth
  · rw [if_pos hroom, hio] at hpush
    refine ⟨?_, .inl ?_⟩
    · simp only [System.Held, Caught, System.tick, hpush]
      omega
    · rcases hpc with hk | hk
      · simp [System.heldRank, System.tick, hpush, hk]
      · simp only [System.tick] at hwait
        simp [System.heldRank, System.tick, hpush, hk]
        omega
  · rw [if_neg hroom, hio] at hpush
    have heq := System.heldRank_of_ne (by omega) hpush
    refine ⟨?_, .inr ⟨heq.1, heq.2, fun htake => hroom ?_⟩⟩
    · simp only [System.Held, Caught, System.tick, hpush]
      omega
    · have hneed : s.need = .take := by
        simp [System.need]
        omega
      rw [htake, hneed]
      cases h.accounted.2.1 with
      | level _ _ hledger | writing _ _ _ _ hledger => exact hledger.take_room h.room
      | captured hpc' | asked hpc' | answered hpc' | posted hpc' | fetched hpc' | driven hpc' =>
        omega

/-- An IN waits for core 0: for its turn in the FIFO, and for the reply. -/
theorem System.Ready.tick_request (h : s.Ready service st₀ program) (hpc : s.io.pc = 19)
    (t : Tick) : s.Nearer (s.tick service t) t.act := by
  obtain ⟨c, hs⟩ := h.accounted.1
  have hserved : (s.serve service t.act).Handshake c := hs.serve t.act
  have hio := System.serve_io (s := s) service t.act
  have hpc' : (s.serve service t.act).io.pc = 19 := by rw [hio, hpc]
  have hstuck (htx : (s.serve service t.act).tx = []) :
      (s.tick service t).Held ∧
        (s.tick service t).heldRank = 11 + (s.serve service t.act).waiting ∧
        (s.tick service t).need = (s.serve service t.act).need := by
    obtain ⟨hio', hrx, _⟩ := System.Books.advance_waiting hserved hpc' htx (f := t.floating)
    have hcore0 := System.advance_core0 hserved.clock (f := t.floating)
    simp [System.Held, Caught, System.heldRank, System.waiting, System.need, System.tick, hio',
      hpc', hrx, hcore0]
  have hpulled {w : Word} {rest : List Word} (htx : (s.serve service t.act).tx = w :: rest) :
      s.Nearer (s.tick service t) t.act := by
    have hpc' := hserved.advance_pull hpc' htx (f := t.floating)
    refine ⟨?_, .inl ?_⟩
    · simp [System.Held, Caught, System.tick, hpc']
    · simp [System.heldRank, System.tick, hpc', hpc]
      omega
  have hrank : s.heldRank = 11 + s.waiting := by simp [System.heldRank, hpc]
  cases h.accounted.2.1 with
  | @asked _ _ ws w _ _ _ hrx hword hledger =>
    have hreply : s.core0.reply = none := hledger.reply
    have hneed : s.need = .take := by simp [System.need, hreply]
    cases hact : t.act with
    | rest =>
      rw [hact] at hstuck
      obtain ⟨hheld, hrank', hneed'⟩ := hstuck hledger.empty
      exact ⟨hheld, .inr ⟨by rw [hrank', hrank]; rfl, hneed', by simp [hneed]⟩⟩
    | put =>
      rw [hact, System.serve, System.put_none hreply] at hstuck
      obtain ⟨hheld, hrank', hneed'⟩ := hstuck hledger.empty
      exact ⟨hheld, .inr ⟨by rw [hrank', hrank], hneed', by simp [hneed]⟩⟩
    | take =>
      rw [hact] at hstuck
      have hwaiting : s.waiting = ws.length + 1 := by simp [System.waiting, hreply, hrx]
      cases ws with
      | nil =>
        rw [System.serve, System.take_read hreply hrx hword.1 hword.2.1] at hstuck
        obtain ⟨hheld, hrank', _⟩ := hstuck hledger.empty
        refine ⟨hheld, .inl ?_⟩
        rw [hrank', hrank, hwaiting]
        simp [System.waiting]
      | cons w' ws =>
        rw [System.serve, System.take_write hreply hrx (hledger.writes w' (by simp))] at hstuck
        obtain ⟨hheld, hrank', _⟩ := hstuck hledger.empty
        refine ⟨hheld, .inl ?_⟩
        rw [hrank', hrank, hwaiting]
        simp [System.waiting, hreply]
  | answered _ _ _ hreply hledger =>
    have hneed : s.need = .put := by simp [System.need, hreply, hpc]
    have htx : s.tx = [] := hledger.empty
    cases hact : t.act with
    | rest =>
      rw [hact] at hstuck
      obtain ⟨hheld, hrank', hneed'⟩ := hstuck htx
      exact ⟨hheld, .inr ⟨by rw [hrank', hrank]; rfl, hneed', by simp [hneed]⟩⟩
    | take =>
      rw [hact, System.serve, System.take_busy hreply] at hstuck
      obtain ⟨hheld, hrank', hneed'⟩ := hstuck htx
      exact ⟨hheld, .inr ⟨by rw [hrank', hrank], hneed', by simp [hneed]⟩⟩
    | put =>
      rw [hact, System.serve, System.put_some hreply, htx] at hpulled
      exact hact ▸ hpulled rfl
  | posted _ _ _ htx hledger =>
    have hreply : s.core0.reply = none := hledger.reply
    cases hact : t.act with
    | rest =>
      rw [hact] at hpulled
      exact hpulled htx
    | put =>
      rw [hact, System.serve, System.put_none hreply] at hpulled
      exact hpulled htx
    | take =>
      have htx' : (s.take service).tx = s.tx := by
        cases hrx : s.rx with
        | nil => rw [System.take_empty hrx]
        | cons w rest => rw [System.take_write hreply hrx (hledger.writes w (by simp [hrx]))]
      rw [hact] at hpulled
      exact hpulled (htx'.trans htx)
  | level hpc' => omega
  | writing hpc' | captured hpc' | fetched hpc' | driven hpc' => omega

theorem System.Ready.tick_held (h : s.Ready service st₀ program) (hheld : s.Held) (t : Tick) :
    (s.tick service t).z80.log = s.z80.log ∧
      ((s.tick service t).Released ∨ (s.tick service t).Clocked ∨
        s.Nearer (s.tick service t) t.act) := by
  obtain ⟨c, hs⟩ := h.accounted.1
  have hserved : (s.serve service t.act).Handshake c := hs.serve t.act
  have hio := System.serve_io (s := s) service t.act
  have hz80 := System.serve_z80 (s := s) service t.act
  have hpc : s.io.pc ≤ 11 ∨ 17 ≤ s.io.pc ∧ s.io.pc ≤ 23 := hheld
  obtain ⟨a, hlow, _⟩ := hs.view.of_caught hheld
  have hlog := (hserved.advance_low (a := a) (by rwa [hz80]) (by rw [hio]; omega)
    (by rw [hio]; omega) (f := t.floating)).2
  refine ⟨hlog.trans (by rw [hz80]), ?_⟩
  rcases (by omega : (s.io.pc = 9 ∨ s.io.pc = 18) ∨ s.io.pc = 19 ∨
    s.io.pc ≠ 9 ∧ s.io.pc ≠ 18 ∧ s.io.pc ≠ 19) with hpush | hrequest | hrest
  · exact .inr (.inr (h.tick_push hpush t))
  · exact .inr (.inr (h.tick_request hrequest t))
  · have hheld' : (s.serve service t.act).Held := by
      rw [System.Held, hio]
      exact hheld
    rcases hserved.advance_held hheld' (by rwa [hio]) (f := t.floating) with hgo | hgo | hgo
    · exact .inl hgo
    · exact .inr (.inl hgo)
    · have hrank := (System.heldRank_of_ne hrest.2.2 hio).1
      exact .inr (.inr ⟨hgo.1, .inl (hrank ▸ hgo.2.2)⟩)

/-- Between two accesses the log does not grow. -/
theorem System.Ready.tick_between (h : s.Ready service st₀ program)
    (hpc : 12 ≤ s.io.pc ∧ s.io.pc ≤ 16 ∨ 25 ≤ s.io.pc)
    (hstrobe : s.io.pc = 12 ∨ s.io.pc = 25 → s.z80.strobe ≠ .low) (t : Tick) :
    (s.tick service t).z80.log = s.z80.log := by
  obtain ⟨c, hs⟩ := h.accounted.1
  have hserved : (s.serve service t.act).Handshake c := hs.serve t.act
  have hio := System.serve_io (s := s) service t.act
  have hz80 := System.serve_z80 (s := s) service t.act
  have hphase := hserved.view.level_phase (by rw [hio]; omega) (by rwa [hio, hz80])
  rw [System.tick, System.advance_log hserved.clock hphase, hz80]

theorem System.Ready.tick_tail (h : s.Ready service st₀ program) (htail : s.Tail) (t : Tick) :
    (s.tick service t).z80.log = s.z80.log ∧ ((s.tick service t).io.pc = 14 ∨
      (s.tick service t).Tail ∧ (s.tick service t).tailRank < s.tailRank) := by
  obtain ⟨c, hs⟩ := h.accounted.1
  have hserved : (s.serve service t.act).Handshake c := hs.serve t.act
  constructor
  · rcases htail with ⟨hpc, hstrobe⟩ | hpc
    · exact h.tick_between (by omega) (fun _ => hstrobe) t
    · exact h.tick_between (by omega) (by omega) t
  · have htail' : (s.serve service t.act).Tail := by rwa [System.serve_eq]
    have hstep := hserved.advance_tail htail' (f := t.floating)
    have hrank : (s.serve service t.act).tailRank = s.tailRank := by rw [System.serve_eq]; rfl
    rw [hrank] at hstep
    exact hstep

theorem System.Ready.tick_resting (h : s.Ready service st₀ program) (hrest : s.Resting)
    (haccesses : s.z80.accesses ≠ []) (t : Tick) :
    (s.tick service t).z80.log = s.z80.log ∧ ((s.tick service t).Falling ∨
      (s.tick service t).Resting ∧ (s.tick service t).restRank < s.restRank) := by
  obtain ⟨c, hs⟩ := h.accounted.1
  have hserved : (s.serve service t.act).Handshake c := hs.serve t.act
  have hpc := hrest.1
  refine ⟨h.tick_between (by omega) (by omega) t, ?_⟩
  have hrest' : (s.serve service t.act).Resting := by rwa [System.serve_eq]
  have hstep := hserved.advance_resting hrest' (by rwa [System.serve_z80]) (f := t.floating)
  have hrank : (s.serve service t.act).restRank = s.restRank := by rw [System.serve_eq]; rfl
  rw [hrank] at hstep
  exact hstep

theorem System.Ready.tick_done (h : s.Ready service st₀ program) (hrest : s.Resting)
    (hnil : s.z80.accesses = []) (t : Tick) :
    (s.tick service t).z80.log = s.z80.log ∧ (s.tick service t).Resting ∧
      (s.tick service t).rx = (s.serve service t.act).rx := by
  obtain ⟨c, hs⟩ := h.accounted.1
  have hserved : (s.serve service t.act).Handshake c := hs.serve t.act
  have hpc := hrest.1
  have hrest' : (s.serve service t.act).Resting := by rwa [System.serve_eq]
  have hstep := hserved.advance_done hrest' (by rwa [System.serve_z80]) (f := t.floating)
  exact ⟨h.tick_between (by omega) (by omega) t, hstep.1, hstep.2.2⟩

theorem System.Ready.tick_falling (h : s.Ready service st₀ program) (hfalling : s.Falling)
    (t : Tick) :
    (s.tick service t).z80.log = s.z80.log ∧ ((s.tick service t).Unseen ∨
      (s.tick service t).Falling ∧ (s.tick service t).fallRank < s.fallRank) := by
  obtain ⟨c, hs⟩ := h.accounted.1
  have hserved : (s.serve service t.act).Handshake c := hs.serve t.act
  have hpc := hfalling.1
  refine ⟨h.tick_between (by omega) (by omega) t, ?_⟩
  have hfalling' : (s.serve service t.act).Falling := by rwa [System.serve_eq]
  have hstep := hserved.advance_falling hfalling' (f := t.floating)
  have hrank : (s.serve service t.act).fallRank = s.fallRank := by rw [System.serve_eq]; rfl
  rw [hrank] at hstep
  exact hstep

theorem System.Ready.tick_unseen (h : s.Ready service st₀ program) (hunseen : s.Unseen)
    (t : Tick) :
    (s.tick service t).z80.log = s.z80.log ∧ ((s.tick service t).Held ∨
      (s.tick service t).Unseen ∧ 17 - (s.tick service t).io.pc < 17 - s.io.pc) := by
  obtain ⟨c, hs⟩ := h.accounted.1
  have hserved : (s.serve service t.act).Handshake c := hs.serve t.act
  have hpc := hunseen.1
  refine ⟨h.tick_between (by omega) (by omega) t, ?_⟩
  have hunseen' : (s.serve service t.act).Unseen := by rwa [System.serve_eq]
  have hstep := hserved.advance_unseen hunseen' (by rw [System.serve_stage]; exact h.gp0)
    (f := t.floating)
  rw [System.serve_io] at hstep
  exact hstep

theorem System.Ready.tick_released (h : s.Ready service st₀ program) (hreleased : s.Released)
    (t : Tick) :
    (s.tick service t).z80.log.length = s.z80.log.length + 1 ∨
      (s.tick service t).z80.log = s.z80.log ∧ (s.tick service t).Released ∧
        (s.tick service t).clockRank < s.clockRank := by
  obtain ⟨c, hs⟩ := h.accounted.1
  have hserved : (s.serve service t.act).Handshake c := hs.serve t.act
  have hreleased' : (s.serve service t.act).Released := by rwa [System.serve_eq]
  have hstep := hserved.advance_released hreleased' (f := t.floating)
  have hrank : (s.serve service t.act).clockRank = s.clockRank := by rw [System.serve_eq]; rfl
  rw [hrank, System.serve_z80] at hstep
  exact hstep

theorem System.Ready.tick_clocked (h : s.Ready service st₀ program) (hclocked : s.Clocked)
    (t : Tick) :
    (s.tick service t).z80.log = s.z80.log ∧ ((s.tick service t).Sampling ∨
      (s.tick service t).Clocked ∧ (s.tick service t).io.delay < s.io.delay) := by
  obtain ⟨c, hs⟩ := h.accounted.1
  have hserved : (s.serve service t.act).Handshake c := hs.serve t.act
  have hclocked' : (s.serve service t.act).Clocked := by rwa [System.serve_eq]
  have hstep := hserved.advance_clocked hclocked' (f := t.floating)
  rw [System.serve_z80, System.serve_io] at hstep
  exact hstep

theorem System.Ready.tick_sampling (h : s.Ready service st₀ program) (hsampling : s.Sampling)
    (t : Tick) :
    (s.tick service t).z80.log.length = s.z80.log.length + 1 ∨
      (s.tick service t).z80.log = s.z80.log ∧ (s.tick service t).Sampling ∧
        (s.tick service t).clockRank < s.clockRank := by
  obtain ⟨c, hs⟩ := h.accounted.1
  have hserved : (s.serve service t.act).Handshake c := hs.serve t.act
  have hsampling' : (s.serve service t.act).Sampling := by rwa [System.serve_eq]
  have hstep := hserved.advance_sampling hsampling' (f := t.floating)
  have hrank : (s.serve service t.act).clockRank = s.clockRank := by rw [System.serve_eq]; rfl
  rw [hrank, System.serve_z80] at hstep
  exact hstep

end

/-! ## Every fair run -/

/-- Core 0 takes and puts again and again. -/
structure Fair (ticks : Nat → Tick) : Prop where
  take : ∀ n, ∃ m, n ≤ m ∧ (ticks m).act = .take
  put : ∀ n, ∃ m, n ≤ m ∧ (ticks m).act = .put

/-- A stage, with the number of completed accesses. -/
def AtLog (k : Nat) (P : System σ → Prop) (s : System σ) : Prop := P s ∧ s.z80.log.length = k

section
variable {st₀ : σ × Bool} {program : List Cycle}

theorem System.Ready.accesses_ne (h : s.Ready service st₀ program)
    (hk : s.z80.log.length < program.length) : s.z80.accesses ≠ [] := by
  intro hnil
  have hlength := congrArg List.length h.accounted.2.2
  simp [hnil] at hlength
  omega

theorem System.Ready.accesses_eq (h : s.Ready service st₀ program)
    (hk : s.z80.log.length = program.length) : s.z80.accesses = [] := by
  have hlength := congrArg List.length h.accounted.2.2
  simp at hlength
  exact List.length_eq_zero_iff.1 (by omega)

theorem System.Ready.rest_of_idle (h : s.Ready service st₀ program)
    (hk : s.z80.log.length = program.length) (hidle : s.Resting ∨ s.Falling ∨ s.Unseen) :
    s.Resting := by
  obtain ⟨c, hs⟩ := h.accounted.1
  rcases hs.stages_done (h.accesses_eq hk) with htail | hrest
  · have hwhere : s.io.pc = 12 ∨ s.io.pc = 25 ∨ s.io.pc = 13 ∨ 26 ≤ s.io.pc :=
      htail.elim (fun ⟨hpc, _⟩ => by omega) (by omega)
    rcases hidle with ⟨hpc, _⟩ | ⟨hpc, _⟩ | ⟨hpc, _⟩ <;> omega
  · exact hrest

theorem System.Ready.ledger (h : s.Ready service st₀ program) (hrest : s.Resting) :
    ∃ log, s.Ledger service st₀ log := by
  obtain ⟨hpc, hstrobe⟩ := hrest
  cases h.accounted.2.1 with
  | level _ _ hledger => exact ⟨_, hledger⟩
  | writing _ hlow | captured _ hlow | asked _ hlow | answered _ hlow | posted _ hlow
  | fetched _ hlow | driven _ hlow => simp [hlow.strobe] at hstrobe

variable {states : Nat → System σ} {ticks : Nat → Tick}
  (hready : ∀ n, (states n).Ready service st₀ program)
  (hstates : ∀ n, states (n + 1) = (states n).tick service (ticks n)) {k : Nat}
include hready hstates

/-- A stage that leads to another one, by itself. -/
theorem stage_leadsTo {P Q : System σ → Prop} (rank : System σ → Nat)
    (hstep : ∀ s t, s.Ready service st₀ program → P s → s.z80.log.length = k →
      (s.tick service t).z80.log = s.z80.log ∧
        (Q (s.tick service t) ∨ P (s.tick service t) ∧ rank (s.tick service t) < rank s)) :
    LeadsTo states (AtLog k P) (AtLog k Q) := by
  refine LeadsTo.of_measure rank fun n ⟨hP, hlog⟩ => ?_
  rw [hstates]
  obtain ⟨h, hnext⟩ := hstep (states n) (ticks n) (hready n) hP hlog
  rw [← h] at hlog
  exact hnext.imp (fun hQ => ⟨hQ, hlog⟩) fun hP' => ⟨⟨hP'.1, hlog⟩, hP'.2⟩

/-- A stage that leads to the end of the access. -/
theorem stage_leadsTo_end {P : System σ → Prop} (rank : System σ → Nat)
    (hstep : ∀ s t, s.Ready service st₀ program → P s →
      (s.tick service t).z80.log.length = s.z80.log.length + 1 ∨
        (s.tick service t).z80.log = s.z80.log ∧
          P (s.tick service t) ∧ rank (s.tick service t) < rank s) :
    LeadsTo states (AtLog k P) fun s => s.z80.log.length = k + 1 := by
  refine LeadsTo.of_measure rank fun n ⟨hP, hlog⟩ => ?_
  rw [hstates]
  rcases hstep (states n) (ticks n) (hready n) hP with h | ⟨h, hP', hrank⟩
  · exact .inl (by rw [h, hlog])
  · exact .inr ⟨⟨hP', by rw [h, hlog]⟩, hrank⟩

theorem held_leadsTo (hfair : Fair ticks) :
    LeadsTo states (AtLog k System.Held)
      fun s => AtLog k System.Released s ∨ AtLog k System.Clocked s := by
  refine LeadsTo.of_fair (fun n => (ticks n).act) System.need System.heldRank ?_ ?_
  · intro n _
    simp only [System.need]
    split
    · exact hfair.put n
    · exact hfair.take n
  · intro n ⟨hP, hlog⟩
    rw [hstates]
    obtain ⟨h, hP'⟩ := (hready n).tick_held hP (ticks n)
    rw [← h] at hlog
    rcases hP' with hP' | hP' | hP'
    · exact .inl (.inl ⟨hP', hlog⟩)
    · exact .inl (.inr ⟨hP', hlog⟩)
    · exact .inr ⟨⟨hP'.1, hlog⟩, hP'.2⟩

/-- From a clock that is held on, an access gets to its end. -/
theorem held_leadsTo_end (hfair : Fair ticks) :
    LeadsTo states (AtLog k System.Held) fun s => s.z80.log.length = k + 1 := by
  have hreleased : LeadsTo states (AtLog k System.Released) fun s => s.z80.log.length = k + 1 :=
    stage_leadsTo_end hready hstates System.clockRank fun _ t h hP => h.tick_released hP t
  have hsampling : LeadsTo states (AtLog k System.Sampling) fun s => s.z80.log.length = k + 1 :=
    stage_leadsTo_end hready hstates System.clockRank fun _ t h hP => h.tick_sampling hP t
  have hclocked : LeadsTo states (AtLog k System.Clocked) (AtLog k System.Sampling) :=
    stage_leadsTo hready hstates (fun s => s.io.delay) fun _ t h hP _ => h.tick_clocked hP t
  exact (held_leadsTo hready hstates hfair).trans (hreleased.or (hclocked.trans hsampling))

theorem idle_leadsTo_end (hfair : Fair ticks) (hk : k < program.length) :
    LeadsTo states (AtLog k fun s => s.Resting ∨ s.Falling ∨ s.Unseen)
      fun s => s.z80.log.length = k + 1 := by
  have hunseen : LeadsTo states (AtLog k System.Unseen) (AtLog k System.Held) :=
    stage_leadsTo hready hstates (fun s => 17 - s.io.pc) fun _ t h hP _ => h.tick_unseen hP t
  have hfalling : LeadsTo states (AtLog k System.Falling) (AtLog k System.Unseen) :=
    stage_leadsTo hready hstates System.fallRank fun _ t h hP _ => h.tick_falling hP t
  have hresting : LeadsTo states (AtLog k System.Resting) (AtLog k System.Falling) :=
    stage_leadsTo hready hstates System.restRank fun _ t h hP hlog =>
      h.tick_resting hP (h.accesses_ne (hlog ▸ hk)) t
  have hend := hunseen.trans (held_leadsTo_end hready hstates hfair)
  have hsplit : LeadsTo states (AtLog k fun s => s.Resting ∨ s.Falling ∨ s.Unseen)
      (fun s => AtLog k System.Resting s ∨ AtLog k System.Falling s ∨ AtLog k System.Unseen s) :=
    LeadsTo.of_imp fun n ⟨h, hlog⟩ =>
      h.imp (fun h => ⟨h, hlog⟩) fun h => h.imp (fun h => ⟨h, hlog⟩) fun h => ⟨h, hlog⟩
  exact hsplit.trans ((hresting.trans (hfalling.trans hend)).or ((hfalling.trans hend).or hend))

theorem tail_leadsTo :
    LeadsTo states (AtLog k System.Tail)
      (AtLog k fun s => s.Resting ∨ s.Falling ∨ s.Unseen) := by
  have htail : LeadsTo states (AtLog k System.Tail) (AtLog k fun s => s.io.pc = 14) :=
    stage_leadsTo hready hstates System.tailRank fun _ t h hP _ => h.tick_tail hP t
  refine htail.trans (LeadsTo.of_imp fun n ⟨hpc, hlog⟩ => ⟨?_, hlog⟩)
  obtain ⟨c, h⟩ := (hready n).accounted.1
  cases h.view with
  | quiet hpc' _ hs => exact .inl ⟨hpc', hs⟩
  | falling hpc' _ hs => exact .inr (.inl ⟨hpc', _, hs⟩)
  | low hpc' _ hlow => exact .inr (.inr ⟨hpc', hlow.strobe⟩)
  | caught hpc' =>
    simp only [Caught] at hpc'
    omega
  | going hpc' | rising hpc' | risen hpc' | running hpc' | sampling hpc' | sampled hpc'
  | closing hpc' => omega

/-- Every access that is left gets to its end. -/
theorem access_leadsTo_end (hfair : Fair ticks) (hk : k < program.length) :
    LeadsTo states (fun s => s.z80.log.length = k) fun s => s.z80.log.length = k + 1 := by
  intro n hlog
  obtain ⟨c, h⟩ := (hready n).accounted.1
  have hidle := idle_leadsTo_end hready hstates hfair hk
  rcases h.stages with hs | hs | hs | hs | hs | hs | hs | hs
  · exact (tail_leadsTo hready hstates).trans hidle n ⟨hs, hlog⟩
  · exact hidle n ⟨.inl hs, hlog⟩
  · exact hidle n ⟨.inr (.inl hs), hlog⟩
  · exact hidle n ⟨.inr (.inr hs), hlog⟩
  · exact held_leadsTo_end hready hstates hfair n ⟨hs, hlog⟩
  · exact stage_leadsTo_end hready hstates System.clockRank
      (fun _ t h hP => h.tick_released hP t) n ⟨hs, hlog⟩
  · have hclocked : LeadsTo states (AtLog k System.Clocked) (AtLog k System.Sampling) :=
      stage_leadsTo hready hstates (fun s => s.io.delay) fun _ t h hP _ => h.tick_clocked hP t
    exact hclocked.trans (stage_leadsTo_end hready hstates System.clockRank
      fun _ t h hP => h.tick_sampling hP t) n ⟨hs, hlog⟩
  · exact stage_leadsTo_end hready hstates System.clockRank
      (fun _ t h hP => h.tick_sampling hP t) n ⟨hs, hlog⟩

/-- A program gets to its last access. -/
theorem log_reaches (hfair : Fair ticks) (hstart : (states 0).z80.log = [])
    (hk : k ≤ program.length) : ∃ n, (states n).z80.log.length = k := by
  induction k with
  | zero => exact ⟨0, by rw [hstart]; rfl⟩
  | succ k ih =>
    obtain ⟨n, hn⟩ := ih (by omega)
    obtain ⟨m, _, hm⟩ := access_leadsTo_end hready hstates hfair (by omega) n hn
    exact ⟨m, hm⟩

/-- After the last access the engine comes to rest, ... -/
theorem end_leadsTo_rest :
    LeadsTo states (fun s => s.z80.log.length = program.length)
      (AtLog program.length System.Resting) := by
  have hrest : LeadsTo states (AtLog program.length fun s => s.Resting ∨ s.Falling ∨ s.Unseen)
      (AtLog program.length System.Resting) :=
    LeadsTo.of_imp fun n ⟨hidle, hlog⟩ => ⟨(hready n).rest_of_idle hlog hidle, hlog⟩
  intro n hlog
  obtain ⟨c, h⟩ := (hready n).accounted.1
  cases h.stages_done ((hready n).accesses_eq hlog) with
  | inl htail => exact (tail_leadsTo hready hstates).trans hrest n ⟨htail, hlog⟩
  | inr hs => exact hrest n ⟨.inl hs, hlog⟩

/-- ... and core 0 drains the FIFO. -/
theorem rest_leadsTo_drained (hfair : Fair ticks) :
    LeadsTo states (AtLog program.length System.Resting)
      (AtLog program.length fun s => s.Resting ∧ s.rx = []) := by
  refine LeadsTo.of_fair (fun n => (ticks n).act) (fun _ => .take) (fun s => s.rx.length)
    (fun n _ => hfair.take n) fun n ⟨hrest, hlog⟩ => ?_
  obtain ⟨hlog', hrest', hrx⟩ :=
    (hready n).tick_done hrest ((hready n).accesses_eq hlog) (ticks n)
  rw [← hstates] at hlog' hrest' hrx
  rw [← hlog'] at hlog
  obtain ⟨log, hledger⟩ := (hready n).ledger hrest
  cases hact : (ticks n).act with
  | rest =>
    rw [hact, System.serve] at hrx
    exact .inr ⟨⟨hrest', hlog⟩, .inr ⟨by rw [hrx], rfl, by simp⟩⟩
  | put =>
    rw [hact, System.serve, System.put_none hledger.reply] at hrx
    exact .inr ⟨⟨hrest', hlog⟩, .inr ⟨by rw [hrx], rfl, by simp⟩⟩
  | take =>
    rw [hact, System.serve] at hrx
    cases hlist : (states n).rx with
    | nil =>
      rw [System.take_empty hlist] at hrx
      exact .inl ⟨⟨hrest', hrx.trans hlist⟩, hlog⟩
    | cons w rest =>
      rw [System.take_write hledger.reply hlist (hledger.writes w (by simp [hlist]))] at hrx
      exact .inr ⟨⟨hrest', hlog⟩, .inl (by simp [hrx])⟩

end

/-- Every program comes to its end: when core 0 takes and puts again and again, in any order and
with any delays, all accesses complete, the Z80 has read what ports that are served one at a time
would give, and core 0's handlers and the memory bank are where those ports would be. -/
theorem engine_completes (service : Service σ) (state : σ) (bank : Bool) (accesses : List Access)
    (htimed : ∀ a ∈ accesses, a.Timed) (ticks : Nat → Tick) (hfair : Fair ticks) :
    ∃ n, let s := Concurrent.trace (System.tick service) (.start state bank accesses) ticks n
      s.z80.accesses = [] ∧ s.rx = [] ∧
        servePorts service (accesses.map Access.cycle) (state, bank) =
          (s.z80.log, (s.core0.state, s.pads.memoryBank)) := by
  let states := Concurrent.trace (System.tick service) (.start state bank accesses) ticks
  have hready (n : Nat) :
      (states n).Ready service (state, bank) (accesses.map Access.cycle) :=
    Concurrent.trace_invariant (fun _ t h => h.tick t) (.start state bank htimed) n
  have hstates (n : Nat) : states (n + 1) = (states n).tick service (ticks n) :=
    Concurrent.trace_succ n
  obtain ⟨last, hlast⟩ := log_reaches hready hstates hfair rfl (Nat.le_refl _)
  obtain ⟨n, _, ⟨⟨_, hstrobe⟩, hrx⟩, hlog⟩ :=
    (end_leadsTo_rest hready hstates).trans (rest_leadsTo_drained hready hstates hfair) last hlast
  have hnil := (hready n).accesses_eq hlog
  obtain ⟨_, hbooks, hprogram⟩ := (hready n).accounted
  have hserved := hbooks.sound.2.2 hstrobe
  rw [hnil, List.map_nil, List.append_nil] at hprogram
  rw [hprogram, hrx] at hserved
  exact ⟨n, hnil, hrx, hserved⟩

def alternate (n : Nat) : Tick := ⟨0xFF, if n % 2 = 0 then .take else .put⟩

theorem fair_alternate : Fair alternate :=
  ⟨fun n => ⟨2 * n, by omega, by simp [alternate]⟩,
    fun n => ⟨2 * n + 1, by omega, by simp [alternate, Nat.add_mod]⟩⟩

theorem engine_completes_echo :
    ∃ n, let s := Concurrent.trace (System.tick .latch) (.start 0 false echo) alternate n
      s.z80.accesses = [] ∧
        s.z80.log = [(.write 0x05 0x2A, 0x2A), (.read 0x05, 0x2A)] ∧ s.core0.state = 0x2A := by
  obtain ⟨n, hnil, _, hserved⟩ :=
    engine_completes .latch 0 false echo echo_timed _ fair_alternate
  have hports : servePorts .latch (echo.map Access.cycle) (0, false) =
      ([(.write 0x05 0x2A, 0x2A), (.read 0x05, 0x2A)], (0x2A, false)) := rfl
  rw [hports] at hserved
  injection hserved with hlog hstate
  injection hstate with hstate
  exact ⟨n, hnil, hlog.symm, hstate.symm⟩

end Z80Sbc.Pio
