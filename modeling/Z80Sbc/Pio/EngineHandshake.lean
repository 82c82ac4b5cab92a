import Z80Sbc.Pio.EngineOutputs

/-! # The handshake with the Z80

Where the Z80 and CLK are for each instruction of `banked_io`: the clock stops in the first wait
state, an IN then gets exactly two clocks, and the engine is back in its first two instructions
before the strobes fall again. Nothing here depends on core 0. -/

namespace Z80Sbc.Pio

variable {σ : Type} {s : System σ} {f : Byte} {c : Nat} {a : Access}

/-- An opcode fetch and T1 lie between two I/O cycles, and the strobes follow CLK within seven
ticks, 58 ns. -/
structure Access.Timed (a : Access) : Prop where
  gap : 5 ≤ a.gap
  fall : a.fallDelay ≤ 7
  rise : a.riseDelay ≤ 7

/-- A port that reads back the byte last written. -/
def Service.latch : Service Byte := ⟨fun _ last => (last, last), fun _ data _ => data⟩

def echo : List Access := [⟨.write 0x05 0x2A, 5, 7, 7⟩, ⟨.read 0x05, 5, 0, 2⟩]

theorem echo_timed : ∀ a ∈ echo, a.Timed := by
  intro a ha
  simp only [echo, List.mem_cons, List.not_mem_nil, or_false] at ha
  rcases ha with rfl | rfl <;> exact ⟨by decide, by decide, by decide⟩

/-- What the inputs show of an I/O cycle. -/
structure Shows (levels : Nat → Bool) (cycle : Cycle) : Prop where
  iorq : levels 1 = false
  rd : levels 27 = !cycle.isRead
  wr : levels 28 = cycle.isRead
  port : ∀ i < 4, levels (18 + i) = portPin cycle.port i

theorem System.levels_zero : s.levels f 0 = true := by simp [System.levels]

theorem System.levels_data {i : Nat} (h : i < 8) :
    s.levels f (10 + i) = s.dataPin f i := by
  interval_cases i <;> simp [System.levels]

theorem System.levels_port {i : Nat} (h : i < 4) :
    s.levels f (18 + i) = portPin (s.z80.port f) i := by
  interval_cases i <;> simp [System.levels]

theorem System.levels_iorq : s.levels f 1 = s.z80.strobe.level := by simp [System.levels]

/-- The strobes of the access under way are low. -/
structure Z80.Low (z : Z80) (a : Access) : Prop where
  strobe : z.strobe = .low
  head : z.accesses.head? = some a

theorem Z80.Low.cycle {z : Z80} (h : z.Low a) : z.cycle = some a.cycle := by
  simp [Z80.cycle, h.strobe, h.head]

theorem Z80.Low.settled {z : Z80} (h : z.Low a) : z.settled = z := by
  have hstrobe := h.strobe
  cases z
  simp_all [Z80.settled, Strobe.settle]

theorem System.levels_shows (h : s.z80.Low a) : Shows (s.levels f) a.cycle where
  iorq := by simp [System.levels, h.strobe, Strobe.level]
  rd := by simp [System.levels, h.strobe, Strobe.level, Z80.reading, h.cycle]
  wr := by simp [System.levels, h.strobe, Strobe.level, Z80.reading, h.cycle]
  port i hi := by simp [System.levels_port hi, Z80.port, h.cycle]

/-- The ticks until a held clock stops. -/
def stopIn (c : Nat) : Nat := (9 - c) % 6

/-- What is left of them, at most, before an instruction after the one that holds the clock. -/
def stopBound (pc delay : Nat) : Nat :=
  if pc = 17 then 5
  else if pc = 18 ∨ pc = 0 then 4
  else if pc = 19 then 3
  else if pc = 20 then 2
  else if pc = 21 then 1
  else if pc = 1 then delay - 4
  else 0

theorem stopIn_next (hc : c < 6) : stopIn (clockNext true c) = stopIn c - 1 := by
  have hcase : c = 0 ∨ c = 1 ∨ c = 2 ∨ c = 3 ∨ c = 4 ∨ c = 5 := by omega
  rcases hcase with rfl | rfl | rfl | rfl | rfl | rfl <;> simp [stopIn, clockNext]

theorem eq_three_of_stopIn (hc : c < 6) (h : stopIn c = 0) : c = 3 := by
  simp only [stopIn] at h
  omega

/-- T2 and the wait states. -/
def Phase.waits (phase : Phase) (c : Nat) : Prop := phase = .t2 ∧ c ≤ 2 ∨ phase = .tw

/-- What is left of the time in which the strobes have to fall. -/
def fallBudget (phase : Phase) (c : Nat) : Nat :=
  match phase with
  | .t2 => 9 - c
  | _ => 6 - (c + 3) % 6

/-- Nothing is under way, and T2 of the next access is more than `ticks` away. -/
def Z80.Quiet (z : Z80) (c ticks : Nat) : Prop :=
  ∃ n, z.phase = .before n ∧ (z.accesses ≠ [] → ticks < 6 * n + (6 - c))

/-- The clock is held, and the strobes stay low. -/
def Caught (pc : Nat) : Prop := pc ≤ 11 ∨ 17 ≤ pc ∧ pc ≤ 23

/-- The other instructions have no delay. -/
def NoDelay (pc delay : Nat) : Prop := pc ≠ 1 → pc ≠ 11 → pc ≠ 23 → delay = 0

/-- The Z80 and the inputs, by the instruction that comes next. -/
inductive System.View (s : System σ) (c : Nat) : Prop
  | quiet (hpc : s.io.pc = 14 ∨ s.io.pc = 15) (hdelay : s.io.delay = 0)
      (hstrobe : s.z80.strobe = .high) (hquiet : s.z80.Quiet c 0) (hstage : s.stage 1 = true)
  | falling {a : Access} {n : Nat} (hpc : s.io.pc = 14 ∨ s.io.pc = 15)
      (hdelay : s.io.delay = 0)
      (hstrobe : s.z80.strobe = .falling n) (hhead : s.z80.accesses.head? = some a)
      (hphase : s.z80.phase.waits c) (hbudget : n < fallBudget s.z80.phase c)
      (hstage : s.stage 1 = true)
  | low {a : Access} (hpc : s.io.pc = 14 ∨ s.io.pc = 15 ∨ s.io.pc = 16) (hdelay : s.io.delay = 0)
      (hlow : s.z80.Low a) (hphase : s.z80.phase.waits c) (hstage : Shows s.stage a.cycle)
  /-- the clock stops, or has stopped -/
  | caught {a : Access} (hpc : Caught s.io.pc) (hdelay : NoDelay s.io.pc s.io.delay)
      (hlow : s.z80.Low a) (hphase : s.z80.phase.waits c) (hstage : Shows s.stage a.cycle)
      (hstop : stopIn c ≤ stopBound s.io.pc s.io.delay)
      (hread : s.io.pc ≠ 17 → a.cycle.isRead = decide (18 ≤ s.io.pc))
  /-- a released OUT -/
  | going {a : Access} (hpc : s.io.pc = 12) (hdelay : s.io.delay = 0) (hlow : s.z80.Low a)
      (hphase : s.z80.phase = .tw ∨ s.z80.phase = .t3) (hstage : Shows s.stage a.cycle)
      (hread : a.cycle.isRead = false)
  | rising {cycle : Cycle} {n : Nat} (hpc : s.io.pc = 12) (hdelay : s.io.delay = 0)
      (hstrobe : s.z80.strobe = .rising cycle n) (hquiet : s.z80.Quiet c (n + 2))
      (hstage : s.stage 1 = false)
  | risen (hpc : s.io.pc = 12 ∨ s.io.pc = 13) (hdelay : s.io.delay = 0)
      (hstrobe : s.z80.strobe = .high)
      (hquiet : s.z80.Quiet c (13 - s.io.pc)) (hstage : s.stage 1 = true)
  /-- the two clocks of an IN -/
  | running {a : Access} (hpc : s.io.pc = 24) (hdelay : s.io.delay ≤ 7) (hlow : s.z80.Low a)
      (hclock : c = (10 - s.io.delay) % 6)
      (hphase : s.z80.phase = if s.io.delay ≤ 1 then .t3 else .tw)
      (hstage : Shows s.stage a.cycle) (hread : a.cycle.isRead = true)
  | sampling {a : Access} (hpc : s.io.pc = 25) (hdelay : s.io.delay = 0) (hlow : s.z80.Low a)
      (hclock : c = 5 ∨ c ≤ 2) (hphase : s.z80.phase = .t3)
      (hstage : Shows s.stage a.cycle) (hread : a.cycle.isRead = true)
  | sampled {cycle : Cycle} {n : Nat} (hpc : s.io.pc = 25) (hdelay : s.io.delay = 0)
      (hstrobe : s.z80.strobe = .rising cycle n) (hclock : c = 3) (hquiet : s.z80.Quiet c 0)
      (hstage : s.stage 1 = false)
  | closing (hpc : 25 ≤ s.io.pc ∧ s.io.pc ≤ 28) (hdelay : s.io.delay = 0)
      (hstrobe : s.z80.strobe = .high) (hclock : c = 3) (hquiet : s.z80.Quiet c 0)
      (hstage : s.stage 1 = true)

/-! ## The instructions that hold the clock -/

/-- Up to the one that lets the clock go, they follow each other, and the clock has stopped
before the ones that need it to. -/
theorem System.ioCycle_caught (hpc : Caught s.io.pc) (hdelay : NoDelay s.io.pc s.io.delay)
    (hlast : s.io.delay = 0 → s.io.pc ≠ 11 ∧ s.io.pc ≠ 23) :
    Caught s.ioCycle.io.pc ∧ s.ioCycle.io.pc ≠ 17 ∧
      NoDelay s.ioCycle.io.pc s.ioCycle.io.delay ∧
      stopBound s.io.pc s.io.delay - 1 ≤ stopBound s.ioCycle.io.pc s.ioCycle.io.delay ∧
      (0 < stopBound s.io.pc s.io.delay → s.ioCycle.io.pc ≠ 11 ∧ s.ioCycle.io.pc ≠ 23) ∧
      decide (18 ≤ s.ioCycle.io.pc) =
        if s.io.pc = 17 then !s.seen 27 else decide (18 ≤ s.io.pc) := by
  cases hd : s.io.delay with
  | succ n =>
    have hdelayed : s.io.pc = 1 ∨ s.io.pc = 11 ∨ s.io.pc = 23 := by
      simp only [NoDelay, hd] at hdelay
      omega
    rw [System.ioCycle_delay hd]
    rcases hdelayed with h | h | h
    · simp [h, Caught, NoDelay, stopBound]
      omega
    · simp [h, Caught, NoDelay, stopBound]
    · simp [h, Caught, NoDelay, stopBound]
  | zero =>
    obtain ⟨h11, h23⟩ := hlast hd
    generalize hk : s.io.pc = pc at *
    have hcase : pc ≤ 10 ∨ 17 ≤ pc ∧ pc ≤ 22 := by
      simp only [Caught] at hpc
      omega
    rcases hcase with hout | ⟨hin, hin'⟩
    · interval_cases pc
      · simp [System.ioCycle_at0 hd hk, Caught, NoDelay, stopBound]
      · simp [System.ioCycle_at1 hd hk, Caught, NoDelay, stopBound, hd]
      · simp [System.ioCycle_at2 hd hk, Caught, NoDelay, stopBound, hd]
      · simp [System.ioCycle_at3 hd hk, Caught, NoDelay, stopBound, hd]
      · simp [System.ioCycle_at4 hd hk, Caught, NoDelay, stopBound, hd]
      · rw [System.ioCycle_at5 hd hk]
        by_cases hxy : s.io.x = s.io.y <;> simp [Caught, NoDelay, stopBound, hxy, hd]
      · simp [System.ioCycle_at6 hd hk, Caught, NoDelay, stopBound, hd]
      · simp [System.ioCycle_at7 hd hk, Caught, NoDelay, stopBound, hd]
      · simp [System.ioCycle_at8 hd hk, Caught, NoDelay, stopBound, hd]
      · rw [System.ioCycle_at9 hd hk]
        split <;> simp [Caught, NoDelay, stopBound, hk, hd]
      · simp [System.ioCycle_at10 hd hk, Caught, NoDelay, stopBound]
    · interval_cases pc
      · rw [System.ioCycle_at17 hd hk]
        cases hrd : s.seen 27 <;> simp [Caught, NoDelay, stopBound, hd]
      · rw [System.ioCycle_at18 hd hk]
        split <;> simp [Caught, NoDelay, stopBound, hk, hd]
      · cases htx : s.tx with
        | nil => simp [System.ioCycle_at19_empty hd hk htx, Caught, NoDelay, stopBound, hk, hd]
        | cons w rest => simp [System.ioCycle_at19 hd hk htx, Caught, NoDelay, stopBound, hd]
      · simp [System.ioCycle_at20 hd hk, Caught, NoDelay, stopBound, hd]
      · simp [System.ioCycle_at21 hd hk, Caught, NoDelay, stopBound, hd]
      · simp [System.ioCycle_at22 hd hk, Caught, NoDelay, stopBound]

/-! ## The Z80 in a tick -/

section
variable (hclock : s.ClockAt c)
include hclock

theorem System.advance_shows (hlow : s.z80.settled.Low a) :
    Shows (s.advance f).stage a.cycle := by
  rw [System.advance_stage hclock]
  exact System.levels_shows hlow

theorem System.advance_iorq :
    (s.advance f).stage 1 = s.z80.strobe.settle.level := by
  rw [System.advance_stage hclock, System.levels_iorq]
  rfl

/-- With WAIT# low the Z80 stays in its wait states. -/
theorem System.advance_waits (hlow : s.z80.settled.Low a) (hphase : s.z80.phase.waits c)
    (hrelease : c = 2 → (s.advance f).pads.ioRelease = false) :
    (s.advance f).z80.Low a ∧ (s.advance f).z80.phase.waits (clockNext s.hold c) := by
  have hz80 := System.advance_z80 hclock (f := f)
  rcases hphase with ⟨hphase, hc⟩ | hphase
  · by_cases h2 : c = 2
    · have hz : (s.advance f).z80 = { s.z80.settled with phase := .tw } := by
        simpa [h2, System.fall_t2, hphase] using hz80
      rw [hz]
      exact ⟨⟨hlow.strobe, hlow.head⟩, .inr rfl⟩
    · have hz : (s.advance f).z80 = s.z80.settled := by
        simpa [h2, show c ≠ 5 by omega] using hz80
      rw [hz]
      refine ⟨hlow, .inl ⟨hphase, ?_⟩⟩
      simp only [clockNext]
      split <;> omega
  · have hz : (s.advance f).z80 = s.z80.settled := by
      rw [hz80]
      split
      · exact Z80.rise_wait (.inl hphase)
      split
      · rename_i h2
        have hwait : (s.beforeEdge f).waitN = false := by
          simp [System.waitN, hlow.strobe, Strobe.level, hrelease h2, -Z80.settled_strobe]
        rw [System.fall_tw (s := s.beforeEdge f) hphase, hwait]
        rfl
      · rfl
    rw [hz]
    exact ⟨hlow, .inr hphase⟩

/-- The gap before T2 runs down. -/
theorem System.advance_quiet {ticks : Nat} (hquiet : s.z80.Quiet c (ticks + 1)) :
    (s.advance f).z80.strobe = s.z80.strobe.settle ∧
      (s.advance f).z80.Quiet (clockNext s.hold c) ticks := by
  obtain ⟨n, hphase, hgap⟩ := hquiet
  have hlt := hclock.lt
  rw [System.advance_z80 hclock]
  split
  · rename_i h5
    cases n with
    | zero =>
      cases haccesses : s.z80.accesses with
      | nil =>
        rw [Z80.rise_end (z := s.z80.settled) hphase haccesses]
        exact ⟨rfl, 0, hphase, by simp [haccesses]⟩
      | cons a rest =>
        have hgap := hgap (by simp [haccesses])
        omega
    | succ n =>
      rw [Z80.rise_gap (z := s.z80.settled) hphase]
      refine ⟨rfl, n, rfl, fun haccesses => ?_⟩
      have hgap := hgap haccesses
      simp [clockNext, h5]
      omega
  · have hclock' : clockNext s.hold c ≤ c + 1 := by
      simp only [clockNext]
      split <;> omega
    have hstill : s.z80.settled.Quiet (clockNext s.hold c) ticks := by
      refine ⟨n, hphase, fun haccesses => ?_⟩
      have hgap := hgap haccesses
      omega
    split
    · rw [System.fall_gap (s := s.beforeEdge f) (n := n) hphase]
      exact ⟨rfl, hstill⟩
    · exact ⟨rfl, hstill⟩

/-- From quiet strobes, T2 of the next access begins or is still to come. -/
theorem System.advance_high (hstrobe : s.z80.strobe = .high) (hquiet : s.z80.Quiet c 0)
    (htimed : ∀ a ∈ s.z80.accesses, a.Timed) :
    (s.advance f).z80.strobe = .high ∧
        (s.advance f).z80.Quiet (clockNext s.hold c) 0 ∨
      ∃ a n, (s.advance f).z80.strobe = .falling n ∧
        (s.advance f).z80.accesses.head? = some a ∧
        (s.advance f).z80.phase.waits (clockNext s.hold c) ∧
        n < fallBudget (s.advance f).z80.phase (clockNext s.hold c) := by
  obtain ⟨n, hphase, hgap⟩ := hquiet
  have hhigh : s.z80.settled.strobe = .high := by simp [hstrobe, Strobe.settle]
  have hc' := clockNext_lt s.hold c
  rw [System.advance_z80 hclock]
  split
  · rename_i h5
    cases n with
    | zero =>
      cases haccesses : s.z80.accesses with
      | nil =>
        rw [Z80.rise_end (z := s.z80.settled) hphase haccesses]
        exact .inl ⟨hhigh, 0, hphase, by simp [haccesses]⟩
      | cons a rest =>
        have hfall := (htimed a (by simp [haccesses])).fall
        rw [Z80.rise_t2 (z := s.z80.settled) hphase haccesses]
        refine .inr ⟨a, a.fallDelay, rfl, by simp [haccesses], ?_⟩
        simp [clockNext, h5, Phase.waits, fallBudget]
        omega
    | succ n =>
      rw [Z80.rise_gap (z := s.z80.settled) hphase]
      exact .inl ⟨hhigh, n, rfl, fun _ => by omega⟩
  · have hstill : s.z80.settled.Quiet (clockNext s.hold c) 0 := ⟨n, hphase, fun _ => by omega⟩
    split
    · rw [System.fall_gap (s := s.beforeEdge f) (n := n) hphase]
      exact .inl ⟨hhigh, hstill⟩
    · exact .inl ⟨hhigh, hstill⟩

/-- The falling edge of T3. -/
theorem System.advance_finish (hlow : s.z80.Low a) (hphase : s.z80.phase = .t3) (h2 : c = 2)
    (htimed : ∀ a ∈ s.z80.accesses, a.Timed) :
    (s.advance f).z80.strobe = .rising a.cycle a.riseDelay ∧
      (s.advance f).z80.Quiet 3 (a.riseDelay + 2) := by
  cases haccesses : s.z80.accesses with
  | nil =>
    have hhead := hlow.head
    simp [haccesses] at hhead
  | cons a' rest =>
    have hhead := hlow.head
    simp [haccesses] at hhead
    subst hhead
    have hz80 := System.advance_z80 hclock (f := f)
    simp [hlow.settled, h2, System.fall, hphase, Z80.finish, haccesses] at hz80
    rw [hz80]
    refine ⟨rfl, firstGap rest, rfl, fun hrest => ?_⟩
    have hrise := (htimed a' (by simp [haccesses])).rise
    cases rest with
    | nil => simp at hrest
    | cons b rest =>
      have hgap := (htimed b (by simp [haccesses])).gap
      simp [firstGap]
      omega

/-- While IORQ# was seen high the engine is in its first two instructions. -/
theorem System.advance_idle (hpc : s.io.pc = 14 ∨ s.io.pc = 15) (hdelay : s.io.delay = 0)
    (hstage : s.stage 1 = true) :
    ((s.advance f).io.pc = 14 ∨ (s.advance f).io.pc = 15) ∧
      (s.advance f).io.delay = 0 := by
  have hio := System.clocked_io hclock (f := f)
  have hseen := System.clocked_seen hclock (f := f)
  rw [(System.advance_rest hclock).1]
  rcases hpc with hpc | hpc
  · rw [System.ioCycle_at14 (by rwa [hio]) (by rwa [hio])]
    split <;> simp [hio, hpc, hdelay]
  · rw [System.ioCycle_at15 (by rwa [hio]) (by rwa [hio])]
    simp [hseen, hstage, hio, hpc, hdelay]

/-- A clock that is low moves nothing but the strobes. -/
theorem System.advance_still (h2 : c ≠ 2) (h5 : c ≠ 5) :
    (s.advance f).z80 = s.z80.settled := by
  simp [System.advance_z80 hclock, h2, h5]

end

/-! ## The view after a tick -/

section
variable (hclock : s.ClockAt c)
include hclock

theorem System.View.advance_quiet (hpc : s.io.pc = 14 ∨ s.io.pc = 15 ∨ s.io.pc = 13)
    (hdelay : s.io.delay = 0) (hstrobe : s.z80.strobe = .high) (hquiet : s.z80.Quiet c 0)
    (hstage : s.stage 1 = true) (htimed : ∀ a ∈ s.z80.accesses, a.Timed) :
    (s.advance f).View (clockNext s.hold c) := by
  have hio := System.clocked_io hclock (f := f)
  have hnext : ((s.advance f).io.pc = 14 ∨ (s.advance f).io.pc = 15) ∧
      (s.advance f).io.delay = 0 := by
    rcases hpc with h | h | h
    · exact System.advance_idle hclock (.inl h) hdelay hstage
    · exact System.advance_idle hclock (.inr h) hdelay hstage
    · rw [(System.advance_rest hclock).1, System.ioCycle_at13 (by rwa [hio]) (by rwa [hio])]
      simp [hio, hdelay]
  have hiorq : (s.advance f).stage 1 = true := by
    simp [System.advance_iorq hclock, hstrobe, Strobe.settle, Strobe.level]
  rcases System.advance_high hclock hstrobe hquiet htimed (f := f) with h | h
  · exact .quiet hnext.1 hnext.2 h.1 h.2 hiorq
  · obtain ⟨a, n, hfall, hhead, hwaits, hbudget⟩ := h
    exact .falling hnext.1 hnext.2 hfall hhead hwaits hbudget hiorq

theorem System.View.advance_rising {cycle : Cycle} {n : Nat} (hpc : s.io.pc = 12)
    (hdelay : s.io.delay = 0) (hstrobe : s.z80.strobe = .rising cycle n)
    (hquiet : s.z80.Quiet c (n + 2)) (hstage : s.stage 1 = false) :
    (s.advance f).View (clockNext s.hold c) := by
  have hio := System.clocked_io hclock (f := f)
  have hnext : (s.advance f).io = s.io := by
    rw [(System.advance_rest hclock).1, System.ioCycle_at12 (by rwa [hio]) (by rwa [hio])]
    simp [System.clocked_seen hclock, hstage, hio]
  have hiorq := System.advance_iorq hclock (f := f)
  obtain ⟨hstrobe', hquiet'⟩ := System.advance_quiet hclock hquiet (f := f)
  rw [hstrobe] at hstrobe' hiorq
  cases n with
  | zero =>
    refine .risen (.inl (hnext ▸ hpc)) (hnext ▸ hdelay) hstrobe' ?_ hiorq
    simpa [hnext, hpc] using hquiet'
  | succ n => exact .rising (hnext ▸ hpc) (hnext ▸ hdelay) hstrobe' hquiet' hiorq

theorem System.View.advance_risen (hpc : s.io.pc = 12) (hdelay : s.io.delay = 0)
    (hstrobe : s.z80.strobe = .high) (hquiet : s.z80.Quiet c 1) (hstage : s.stage 1 = true) :
    (s.advance f).View (clockNext s.hold c) := by
  have hio := System.clocked_io hclock (f := f)
  have hnext : (s.advance f).io = { s.io with pc := 13 } := by
    rw [(System.advance_rest hclock).1, System.ioCycle_at12 (by rwa [hio]) (by rwa [hio])]
    simp [System.clocked_seen hclock, hstage, hio]
  have hiorq := System.advance_iorq hclock (f := f)
  obtain ⟨hstrobe', hquiet'⟩ := System.advance_quiet hclock hquiet (f := f)
  rw [hstrobe] at hstrobe' hiorq
  refine .risen (.inr (by simp [hnext])) (by simp [hnext, hdelay]) hstrobe' ?_ hiorq
  simpa [hnext] using hquiet'

theorem System.View.advance_sampling (hpc : s.io.pc = 25) (hdelay : s.io.delay = 0)
    (hlow : s.z80.Low a) (hcycle : c = 5 ∨ c ≤ 2) (hphase : s.z80.phase = .t3)
    (hstage : Shows s.stage a.cycle) (hread : a.cycle.isRead = true)
    (htimed : ∀ a ∈ s.z80.accesses, a.Timed) :
    (s.advance f).View (clockNext s.hold c) := by
  have hio := System.clocked_io hclock (f := f)
  have hlow' : s.z80.settled.Low a := by rwa [hlow.settled]
  have hshows := System.advance_shows hclock hlow' (f := f)
  have hnext : (s.advance f).io = s.io := by
    rw [(System.advance_rest hclock).1, System.ioCycle_at25 (by rwa [hio]) (by rwa [hio])]
    simp [System.clocked_seen hclock, hstage.iorq, hio]
  by_cases h2 : c = 2
  · obtain ⟨hstrobe, n, hbefore, _⟩ := System.advance_finish hclock hlow hphase h2 htimed
      (f := f)
    exact .sampled (hnext ▸ hpc) (hnext ▸ hdelay) hstrobe (by simp [clockNext, h2])
      ⟨n, hbefore, fun _ => by simp [clockNext, h2]⟩ hshows.iorq
  · have hz : (s.advance f).z80 = s.z80 := by
      rw [System.advance_z80 hclock, hlow.settled, Z80.rise_wait (.inr hphase)]
      simp [h2]
    refine .sampling (hnext ▸ hpc) (hnext ▸ hdelay) (hz ▸ hlow) ?_ (hz ▸ hphase) hshows hread
    simp only [clockNext]
    split <;> omega

variable (hdriven : s.Driven)
include hdriven

theorem System.View.advance_caught (hpc : Caught s.io.pc) (hdelay : NoDelay s.io.pc s.io.delay)
    (hlow : s.z80.Low a) (hphase : s.z80.phase.waits c) (hstage : Shows s.stage a.cycle)
    (hstop : stopIn c ≤ stopBound s.io.pc s.io.delay)
    (hread : s.io.pc ≠ 17 → a.cycle.isRead = decide (18 ≤ s.io.pc)) :
    (s.advance f).View (clockNext s.hold c) := by
  have hio := System.clocked_io hclock (f := f)
  have hlow' : s.z80.settled.Low a := by rwa [hlow.settled]
  have hshows := System.advance_shows hclock hlow' (f := f)
  have hhold : s.hold = true := by
    simp only [hdriven.hold, decide_eq_true_eq]
    simp only [Caught] at hpc
    omega
  by_cases hlast : s.io.delay = 0 ∧ (s.io.pc = 11 ∨ s.io.pc = 23)
  · obtain ⟨hd, hlast⟩ := hlast
    have h3 : c = 3 := by
      refine eq_three_of_stopIn hclock.lt ?_
      rcases hlast with h | h <;> simpa [stopBound, h] using hstop
    have hz := System.advance_still hclock (f := f) (by omega) (by omega)
    rw [hlow.settled] at hz
    have htw : s.z80.phase = .tw := by
      rcases hphase with ⟨_, h⟩ | h
      · omega
      · exact h
    rcases hlast with h | h
    · have hnext := (System.advance_rest hclock (f := f)).1
      rw [System.ioCycle_at11 (by rw [hio, hd]) (by rw [hio, h]), hio] at hnext
      have hw := hread (by omega)
      exact .going (a := a) (by simp [hnext]) (by simp [hnext, hd]) (hz ▸ hlow)
        (hz ▸ .inl htw) hshows
        (by simpa [h] using hw)
    · have hnext := (System.advance_rest hclock (f := f)).1
      rw [System.ioCycle_at23 (by rw [hio, hd]) (by rw [hio, h]), hio] at hnext
      have hr := hread (by omega)
      exact .running (a := a) (by simp [hnext]) (by simp [hnext]) (hz ▸ hlow)
        (by simp [hnext, h3, hhold, clockNext]) (by simp [hnext, hz, htw]) hshows
        (by simpa [h] using hr)
  · have hnext := System.ioCycle_caught (s := s.clocked f) (by rwa [hio]) (by rwa [hio])
      (by rw [hio]; omega)
    rw [← (System.advance_rest hclock (f := f)).1, hio, System.clocked_seen hclock,
      hstage.rd] at hnext
    obtain ⟨hpc', h17, hdelay', hbound, hrest, hdir⟩ := hnext
    have hrelease : c = 2 → (s.advance f).pads.ioRelease = false := by
      intro h2
      simp [h2, stopIn] at hstop
      have hrest := hrest hstop
      simp only [(hdriven.advance hclock).release, decide_eq_false_iff_not]
      simp only [Caught] at hpc'
      omega
    have hz := System.advance_waits hclock hlow' hphase hrelease
    refine .caught hpc' hdelay' hz.1 hz.2 hshows ?_ ?_
    · rw [hhold, stopIn_next hclock.lt]
      omega
    · intro _
      rw [hdir]
      by_cases h : s.io.pc = 17
      · simp [h]
      · simp [h, hread h]

theorem System.View.advance_low (hpc : s.io.pc = 14 ∨ s.io.pc = 15 ∨ s.io.pc = 16)
    (hdelay : s.io.delay = 0) (hlow : s.z80.Low a) (hphase : s.z80.phase.waits c) :
    (s.advance f).View (clockNext s.hold c) := by
  have hio := System.clocked_io hclock (f := f)
  have hlow' : s.z80.settled.Low a := by rwa [hlow.settled]
  have hshows := System.advance_shows hclock hlow' (f := f)
  have hnext : ((s.advance f).io.pc = 14 ∨ (s.advance f).io.pc = 15 ∨
      (s.advance f).io.pc = 16 ∨ (s.advance f).io.pc = 17) ∧
      (s.advance f).io.delay = 0 := by
    rw [(System.advance_rest hclock).1]
    rcases hpc with h | h | h
    · rw [System.ioCycle_at14 (by rwa [hio]) (by rwa [hio])]
      split <;> simp [hio, h, hdelay]
    · rw [System.ioCycle_at15 (by rwa [hio]) (by rwa [hio])]
      split <;> simp [hio, h, hdelay]
    · rw [System.ioCycle_at16 (by rwa [hio]) (by rwa [hio])]
      simp [hio, hdelay]
  obtain ⟨hpc', hdelay'⟩ := hnext
  have hrelease : (s.advance f).pads.ioRelease = false := by
    simp only [(hdriven.advance hclock).release, decide_eq_false_iff_not]
    omega
  have hz := System.advance_waits hclock hlow' hphase (fun _ => hrelease)
  by_cases h17 : (s.advance f).io.pc = 17
  · refine .caught (.inr (by omega)) (fun _ _ _ => hdelay') hz.1 hz.2 hshows ?_ ?_
    · have hc := clockNext_lt s.hold c
      simp only [stopBound, h17, stopIn]
      simp
      omega
    · intro h
      exact absurd h17 h
  · exact .low (by omega) hdelay' hz.1 hz.2 hshows

theorem System.View.advance_falling {n : Nat} (hpc : s.io.pc = 14 ∨ s.io.pc = 15)
    (hdelay : s.io.delay = 0) (hstrobe : s.z80.strobe = .falling n)
    (hhead : s.z80.accesses.head? = some a) (hphase : s.z80.phase.waits c)
    (hbudget : n < fallBudget s.z80.phase c) (hstage : s.stage 1 = true) :
    (s.advance f).View (clockNext s.hold c) := by
  have hnext := System.advance_idle hclock hpc hdelay hstage (f := f)
  cases n with
  | zero =>
    have hlow : s.z80.settled.Low a := ⟨by simp [hstrobe, Strobe.settle], hhead⟩
    have hrelease : (s.advance f).pads.ioRelease = false := by
      simp only [(hdriven.advance hclock).release, decide_eq_false_iff_not]
      omega
    have hz := System.advance_waits hclock hlow hphase (fun _ => hrelease)
    exact .low (by omega) hnext.2 hz.1 hz.2 (System.advance_shows hclock hlow)
  | succ n =>
    have hiorq : (s.advance f).stage 1 = true := by
      simp [System.advance_iorq hclock, hstrobe, Strobe.settle, Strobe.level]
    have hhold : s.hold = false := by
      simp only [hdriven.hold, decide_eq_false_iff_not]
      omega
    have hlt := hclock.lt
    have hsettle : s.z80.settled.strobe = .falling n := by simp [hstrobe, Strobe.settle]
    have hz80 := System.advance_z80 hclock (f := f)
    rcases hphase with ⟨hphase, hc⟩ | hphase
    · simp only [hphase, fallBudget] at hbudget
      by_cases h2 : c = 2
      · have hz : (s.advance f).z80 = { s.z80.settled with phase := .tw } := by
          simpa [h2, System.fall_t2, hphase] using hz80
        refine .falling hnext.1 hnext.2 (by rw [hz]; exact hsettle) (by rw [hz]; exact hhead)
          (by rw [hz]; exact .inr rfl) ?_ hiorq
        simp [hz, fallBudget, clockNext, hhold, h2]
        omega
      · have hz : (s.advance f).z80 = s.z80.settled := by
          simpa [h2, show c ≠ 5 by omega] using hz80
        have hc' : clockNext s.hold c = c + 1 := by
          simp [clockNext, hhold]
          omega
        refine .falling hnext.1 hnext.2 (by rw [hz]; exact hsettle) (by rw [hz]; exact hhead)
          (by rw [hz]; exact .inl ⟨hphase, by omega⟩) ?_ hiorq
        simp [hz, hphase, fallBudget, hc']
        omega
    · simp only [hphase, fallBudget] at hbudget
      -- the budget of the first wait state ends before WAIT# is looked at
      have h2 : c ≠ 2 := by omega
      have hz : (s.advance f).z80 = s.z80.settled := by
        rw [hz80]
        split
        · exact Z80.rise_wait (.inl hphase)
        · rfl
      refine .falling hnext.1 hnext.2 (by rw [hz]; exact hsettle) (by rw [hz]; exact hhead)
        (by rw [hz]; exact .inr hphase) ?_ hiorq
      simp [hz, hphase, fallBudget, clockNext, hhold]
      omega

theorem System.View.advance_going (hpc : s.io.pc = 12) (hdelay : s.io.delay = 0)
    (hlow : s.z80.Low a) (hphase : s.z80.phase = .tw ∨ s.z80.phase = .t3)
    (hstage : Shows s.stage a.cycle) (hread : a.cycle.isRead = false)
    (htimed : ∀ a ∈ s.z80.accesses, a.Timed) :
    (s.advance f).View (clockNext s.hold c) := by
  have hio := System.clocked_io hclock (f := f)
  have hlow' : s.z80.settled.Low a := by rwa [hlow.settled]
  have hshows := System.advance_shows hclock hlow' (f := f)
  have hnext : (s.advance f).io = s.io := by
    rw [(System.advance_rest hclock).1, System.ioCycle_at12 (by rwa [hio]) (by rwa [hio])]
    simp [System.clocked_seen hclock, hstage.iorq, hio]
  have hhold : s.hold = false := by simp [hdriven.hold, hpc]
  have hz80 := System.advance_z80 hclock (f := f)
  rw [hlow.settled] at hz80
  by_cases hend : c = 2 ∧ s.z80.phase = .t3
  · obtain ⟨hstrobe, hquiet⟩ := System.advance_finish hclock hlow hend.2 hend.1 htimed
      (f := f)
    refine .rising (hnext ▸ hpc) (hnext ▸ hdelay) hstrobe ?_ hshows.iorq
    simpa [clockNext, hhold, hend.1] using hquiet
  · have hz : (s.advance f).z80.Low a ∧
        ((s.advance f).z80.phase = .tw ∨ (s.advance f).z80.phase = .t3) := by
      rw [hz80]
      split
      · rw [Z80.rise_wait hphase]
        exact ⟨hlow, hphase⟩
      split
      · rename_i h2
        have htw : s.z80.phase = .tw := hphase.resolve_right fun h => hend ⟨h2, h⟩
        rw [System.fall_tw (s := s.beforeEdge f) htw]
        split
        · exact ⟨⟨hlow'.strobe, hlow.head⟩, .inr rfl⟩
        · exact ⟨hlow', .inl htw⟩
      · exact ⟨hlow, hphase⟩
    exact .going (hnext ▸ hpc) (hnext ▸ hdelay) hz.1 hz.2 hshows hread

theorem System.View.advance_running (hpc : s.io.pc = 24) (hdelay : s.io.delay ≤ 7)
    (hlow : s.z80.Low a) (hcycle : c = (10 - s.io.delay) % 6)
    (hphase : s.z80.phase = if s.io.delay ≤ 1 then .t3 else .tw)
    (hread : a.cycle.isRead = true) : (s.advance f).View (clockNext s.hold c) := by
  have hio := System.clocked_io hclock (f := f)
  have hlow' : s.z80.settled.Low a := by rwa [hlow.settled]
  have hshows := System.advance_shows hclock hlow' (f := f)
  have hhold : s.hold = false := by simp [hdriven.hold, hpc]
  cases hd : s.io.delay with
  | zero =>
    have hnext : (s.advance f).io = { s.io with pc := 25 } := by
      rw [(System.advance_rest hclock).1, System.ioCycle_at24 (by rwa [hio]) (by rwa [hio])]
      rw [hio]
    simp only [hd] at hcycle hphase
    have hz := System.advance_still hclock (f := f) (by omega) (by omega)
    rw [hlow.settled] at hz
    exact .sampling (by rw [hnext]) (by rw [hnext]; exact hd) (hz ▸ hlow)
      (by simp [clockNext, hhold, hcycle]) (by simp [hz, hphase]) hshows hread
  | succ k =>
    have hnext : (s.advance f).io = { s.io with delay := k } := by
      rw [(System.advance_rest hclock).1, System.ioCycle_delay (by rwa [hio]), hio]
    have hrelease : (s.advance f).pads.ioRelease = true := by
      simp [(hdriven.advance hclock).release, hnext, hpc]
    simp only [hd] at hdelay hcycle hphase
    have hz : (s.advance f).z80 = { s.z80 with phase := if k ≤ 1 then .t3 else .tw } := by
      have hz80 := System.advance_z80 hclock (f := f)
      rw [hlow.settled] at hz80
      rw [hz80]
      have hk : k = 0 ∨ k = 1 ∨ 2 ≤ k := by omega
      rcases hk with rfl | rfl | hk
      · have hc : c = 3 := by omega
        have hphase : .t3 = s.z80.phase := hphase.symm
        simp [hc, hphase]
      · have hc : c = 2 := by omega
        have hwait : (s.beforeEdge f).waitN = true := by
          simp [System.waitN, hrelease]
        rw [System.fall_tw (s := s.beforeEdge f) (by simp [hphase])]
        simp [hc, hwait, hlow.settled]
      · have hphase : s.z80.phase = .tw := by simpa [show ¬ k + 1 ≤ 1 by omega] using hphase
        have hc : c ≠ 2 := by omega
        simp [hc, Z80.rise_wait (.inl hphase), show ¬ k ≤ 1 by omega, ← hphase]
    refine .running (by rw [hnext]; exact hpc) (by rw [hnext]; exact Nat.le_of_succ_le hdelay)
      (hz ▸ ⟨hlow.strobe, hlow.head⟩) ?_ (by rw [hz, hnext]) hshows hread
    simp [hnext, clockNext, hhold]
    omega

theorem System.View.advance_sampled {cycle : Cycle} {n : Nat} (hpc : s.io.pc = 25)
    (hdelay : s.io.delay = 0) (hstrobe : s.z80.strobe = .rising cycle n) (hcycle : c = 3)
    (hquiet : s.z80.Quiet c 0) (hstage : s.stage 1 = false) :
    (s.advance f).View (clockNext s.hold c) := by
  have hio := System.clocked_io hclock (f := f)
  have hnext : (s.advance f).io = s.io := by
    rw [(System.advance_rest hclock).1, System.ioCycle_at25 (by rwa [hio]) (by rwa [hio])]
    simp [System.clocked_seen hclock, hstage, hio]
  have hhold : s.hold = true := by simp [hdriven.hold, hpc]
  have hz := System.advance_still hclock (f := f) (by omega) (by omega)
  have hiorq := System.advance_iorq hclock (f := f)
  have hc : clockNext s.hold c = c := by simp [clockNext, hhold, hcycle]
  rw [hstrobe] at hiorq
  rw [hc]
  cases n with
  | zero =>
    exact .closing (by simp [hnext, hpc]) (hnext ▸ hdelay) (by simp [hz, hstrobe, Strobe.settle])
      hcycle (by rw [hz]; exact hquiet) hiorq
  | succ n =>
    have hstrobe' : (s.advance f).z80.strobe = .rising cycle n := by
      simp [hz, hstrobe, Strobe.settle]
    exact .sampled (hnext ▸ hpc) (hnext ▸ hdelay) hstrobe' hcycle (by rw [hz]; exact hquiet) hiorq

theorem System.View.advance_closing (hpc : 25 ≤ s.io.pc ∧ s.io.pc ≤ 28) (hdelay : s.io.delay = 0)
    (hstrobe : s.z80.strobe = .high) (hcycle : c = 3) (hquiet : s.z80.Quiet c 0)
    (hstage : s.stage 1 = true) : (s.advance f).View (clockNext s.hold c) := by
  have hio := System.clocked_io hclock (f := f)
  have hhold : s.hold = true := by
    simp only [hdriven.hold, decide_eq_true_eq]
    omega
  have hz := System.advance_still hclock (f := f) (by omega) (by omega)
  have hiorq := System.advance_iorq hclock (f := f)
  have hc : clockNext s.hold c = c := by simp [clockNext, hhold, hcycle]
  have hhigh : (s.advance f).z80.strobe = .high := by simp [hz, hstrobe, Strobe.settle]
  have hquiet' : (s.advance f).z80.Quiet c 0 := by rw [hz]; exact hquiet
  have hnext : (s.advance f).io.delay = 0 ∧
      (s.advance f).io.pc = if s.io.pc = 28 then 14 else s.io.pc + 1 := by
    rw [(System.advance_rest hclock).1]
    have hcase : s.io.pc = 25 ∨ s.io.pc = 26 ∨ s.io.pc = 27 ∨ s.io.pc = 28 := by omega
    rcases hcase with h | h | h | h
    · rw [System.ioCycle_at25 (by rwa [hio]) (by rwa [hio])]
      simp [System.clocked_seen hclock, hstage, hio, h, hdelay]
    · rw [System.ioCycle_at26 (by rwa [hio]) (by rwa [hio])]
      simp [hio, h, hdelay]
    · rw [System.ioCycle_at27 (by rwa [hio]) (by rwa [hio])]
      simp [hio, h, hdelay]
    · rw [System.ioCycle_at28 (by rwa [hio]) (by rwa [hio])]
      simp [hio, h, hdelay]
  rw [hstrobe] at hiorq
  rw [hc]
  by_cases h28 : s.io.pc = 28
  · exact .quiet (.inl (by simp [hnext.2, h28])) hnext.1 hhigh hquiet' hiorq
  · refine .closing ?_ hnext.1 hhigh hcycle hquiet' hiorq
    simp only [hnext.2, h28]
    simp
    omega

/-- The step lemma of the handshake. -/
theorem System.View.advance (htimed : ∀ a ∈ s.z80.accesses, a.Timed) (hview : s.View c) :
    (s.advance f).View (clockNext s.hold c) := by
  cases hview with
  | quiet hpc hdelay hstrobe hquiet hstage =>
    exact System.View.advance_quiet hclock (by omega) hdelay hstrobe hquiet hstage htimed
  | falling hpc hdelay hstrobe hhead hphase hbudget hstage =>
    exact System.View.advance_falling hclock hdriven hpc hdelay hstrobe hhead hphase hbudget hstage
  | low hpc hdelay hlow hphase _ =>
    exact System.View.advance_low hclock hdriven hpc hdelay hlow hphase
  | caught hpc hdelay hlow hphase hstage hstop hread =>
    exact System.View.advance_caught hclock hdriven hpc hdelay hlow hphase hstage hstop hread
  | going hpc hdelay hlow hphase hstage hread =>
    exact System.View.advance_going hclock hdriven hpc hdelay hlow hphase hstage hread htimed
  | rising hpc hdelay hstrobe hquiet hstage =>
    exact System.View.advance_rising hclock hpc hdelay hstrobe hquiet hstage
  | risen hpc hdelay hstrobe hquiet hstage =>
    rcases hpc with hpc | hpc
    · exact System.View.advance_risen hclock hpc hdelay hstrobe (by simpa [hpc] using hquiet) hstage
    · exact System.View.advance_quiet hclock (by omega) hdelay hstrobe (by simpa [hpc] using hquiet)
        hstage htimed
  | running hpc hdelay hlow hcycle hphase _ hread =>
    exact System.View.advance_running hclock hdriven hpc hdelay hlow hcycle hphase hread
  | sampling hpc hdelay hlow hcycle hphase hstage hread =>
    exact System.View.advance_sampling hclock hpc hdelay hlow hcycle hphase hstage hread htimed
  | sampled hpc hdelay hstrobe hcycle hquiet hstage =>
    exact System.View.advance_sampled hclock hdriven hpc hdelay hstrobe hcycle hquiet hstage
  | closing hpc hdelay hstrobe hcycle hquiet hstage =>
    exact System.View.advance_closing hclock hdriven hpc hdelay hstrobe hcycle hquiet hstage

end

/-! ## Every run -/

/-- What holds between two ticks. -/
structure System.Handshake (s : System σ) (c : Nat) : Prop where
  clock : s.ClockAt c
  driven : s.Driven
  timed : ∀ a ∈ s.z80.accesses, a.Timed
  view : s.View c

theorem Z80.finish_accesses (z : Z80) (byte : Byte) :
    (z.finish byte).accesses = z.accesses ∨ ∃ a, z.accesses = a :: (z.finish byte).accesses := by
  simp only [Z80.finish]
  split
  · simp_all
  · rename_i a rest h
    exact .inr ⟨a, h⟩

theorem System.advance_accesses (hclock : s.ClockAt c) :
    (s.advance f).z80.accesses = s.z80.accesses ∨
      ∃ a, s.z80.accesses = a :: (s.advance f).z80.accesses := by
  rw [System.advance_z80 hclock]
  split
  · simp only [Z80.rise]
    split <;> simp
  split
  · simp only [System.fall]
    split
    · simp
    · simp
    · split <;> simp
    · exact Z80.finish_accesses ..
  · simp

theorem System.Handshake.advance (h : s.Handshake c) :
    (s.advance f).Handshake (clockNext s.hold c) where
  clock := h.clock.advance
  driven := h.driven.advance h.clock
  timed a ha := by
    rcases System.advance_accesses h.clock (f := f) with heq | ⟨b, heq⟩
    · exact h.timed a (heq ▸ ha)
    · exact h.timed a (by simp [heq, ha])
  view := h.view.advance h.clock h.driven h.timed

theorem System.Handshake.serve {service : Service σ} (h : s.Handshake c) (act : Act) :
    (s.serve service act).Handshake c := by
  refine ⟨h.clock.serve act, h.driven.serve act, ?_, ?_⟩
  · rw [System.serve_eq]
    exact h.timed
  · rw [System.serve_eq]
    cases h.view with
    | quiet h1 h2 h3 h4 h5 => exact .quiet h1 h2 h3 h4 h5
    | falling h1 h2 h3 h4 h5 h6 h7 => exact .falling h1 h2 h3 h4 h5 h6 h7
    | low h1 h2 h3 h4 h5 => exact .low h1 h2 h3 h4 h5
    | caught h1 h2 h3 h4 h5 h6 h7 => exact .caught h1 h2 h3 h4 h5 h6 h7
    | going h1 h2 h3 h4 h5 h6 => exact .going h1 h2 h3 h4 h5 h6
    | rising h1 h2 h3 h4 h5 => exact .rising h1 h2 h3 h4 h5
    | risen h1 h2 h3 h4 h5 => exact .risen h1 h2 h3 h4 h5
    | running h1 h2 h3 h4 h5 h6 h7 => exact .running h1 h2 h3 h4 h5 h6 h7
    | sampling h1 h2 h3 h4 h5 h6 h7 => exact .sampling h1 h2 h3 h4 h5 h6 h7
    | sampled h1 h2 h3 h4 h5 h6 => exact .sampled h1 h2 h3 h4 h5 h6
    | closing h1 h2 h3 h4 h5 h6 => exact .closing h1 h2 h3 h4 h5 h6

theorem System.Handshake.tick {service : Service σ} (h : s.Handshake c) (t : Tick) :
    (s.tick service t).Handshake (clockNext s.hold c) := by
  have hhold : (s.serve service t.act).hold = s.hold := by rw [System.serve_eq]
  rw [← hhold]
  exact (h.serve t.act).advance

theorem System.Handshake.start (state : σ) (bank : Bool) {accesses : List Access}
    (htimed : ∀ a ∈ accesses, a.Timed) : (System.start state bank accesses).Handshake 4 where
  clock := ⟨by omega, rfl, rfl⟩
  driven := by
    constructor <;> simp [System.start, Sm.at, ioStart, Pads.idle]
  timed := htimed
  view := .quiet (.inl rfl) rfl rfl ⟨firstGap accesses, rfl, fun _ => by omega⟩ rfl

theorem System.Handshake.run {service : Service σ} (h : s.Handshake c) (ticks : List Tick) :
    ∃ c', (s.run service ticks).Handshake c' :=
  Concurrent.run_invariant (I := fun s : System σ => ∃ c, s.Handshake c)
    (fun _ t ⟨_, h⟩ => ⟨_, h.tick t⟩) ⟨c, h⟩ ticks

end Z80Sbc.Pio
