import Z80Sbc.Pio.EngineHandshake

/-! # Safety of the buses

For every schedule of core 0 and every program of I/O cycles: the two buffers never meet, the
Pico is off the Z80's data bus before CLK rises into the next T1, WAIT# is armed when T2 begins
and released only while CLK is low, and A16 moves only during an I/O cycle. -/

namespace Z80Sbc.Pio

variable {σ : Type} {s : System σ} {f : Byte} {c : Nat} {service : Service σ}

/-- Between two ticks. -/
structure System.Safe (s : System σ) : Prop where
  buffers : ¬ (s.u9 = true ∧ s.u10 = true)
  pico : ∀ i < 8, s.pads.dirs.getLsbD (i + 2) = true → s.u10 = false
  fetch : ∀ n, s.z80.phase = .before n → s.pads.clk = true →
    s.pads.dataUpOeN = true ∧ ∀ i < 8, s.pads.dirs.getLsbD (i + 2) = false
  armed : s.z80.phase = .t2 → s.pads.ioRelease = false

/-- Over a tick. -/
structure System.SafeTick (s s' : System σ) : Prop where
  release : s.pads.ioRelease = false → s'.pads.ioRelease = true →
    s.pads.clk = false ∧ s'.pads.clk = false ∧ s'.z80.strobe = .low
  bank : s'.pads.memoryBank ≠ s.pads.memoryBank → s.z80.strobe = .low

theorem dirs_idle {i : Nat} : (3#10).getLsbD (i + 2) = false := by
  simp only [BitVec.getLsbD, BitVec.toNat_ofNat]
  have h : (3 % 2 ^ 10).testBit (i + 2) = false := Nat.testBit_lt_two_pow (by
    have : 2 ^ 2 ≤ 2 ^ (i + 2) := Nat.pow_le_pow_right (by omega) (by omega)
    omega)
  exact h

theorem System.Driven.dirs_idle (h : s.Driven) (hpc : s.io.pc < 22 ∨ 27 < s.io.pc) (i : Nat) :
    s.pads.dirs.getLsbD (i + 2) = false := by
  rw [h.dirs, if_neg (by omega)]
  exact Pio.dirs_idle

theorem System.Handshake.safe (h : s.Handshake c) : s.Safe where
  buffers := by
    simp only [System.u9, System.u10, h.driven.up, h.driven.down]
    simp
    omega
  pico i _ hdrive := by
    by_cases hpc : s.io.pc < 22 ∨ 27 < s.io.pc
    · simp [h.driven.dirs_idle hpc] at hdrive
    · simp only [System.u10, h.driven.down]
      simp
      omega
  fetch n hphase hclk := by
    have hc : c < 3 := by simpa [h.clock.clk] using hclk
    have hpc : s.io.pc < 22 ∨ 27 < s.io.pc := by
      cases h.view with
      | quiet hpc | falling hpc | low hpc | going hpc | rising hpc | risen hpc => omega
      | caught _ _ _ hwaits => simp [Phase.waits, hphase] at hwaits
      | running _ _ _ _ ht3 =>
        rw [hphase] at ht3
        split at ht3 <;> simp at ht3
      | sampling _ _ _ _ ht3 => simp [hphase] at ht3
      | sampled _ _ _ hcycle | closing _ _ _ hcycle => omega
    refine ⟨?_, fun i _ => h.driven.dirs_idle hpc i⟩
    simp only [h.driven.up]
    simp
    omega
  armed hphase := by
    simp only [h.driven.release, decide_eq_false_iff_not]
    cases h.view with
    | quiet hpc | falling hpc | low hpc => omega
    | caught hpc _ _ hwaits _ hstop =>
      have hc : c ≤ 2 := by simpa [Phase.waits, hphase] using hwaits
      intro hrelease
      simp only [Caught] at hpc
      have hstopped : stopBound s.io.pc s.io.delay = 0 := by
        rcases (by omega : s.io.pc = 11 ∨ s.io.pc = 23) with hpc | hpc <;> simp [stopBound, hpc]
      have := eq_three_of_stopIn h.clock.lt (by omega)
      omega
    | going _ _ _ ht => simp [hphase] at ht
    | rising _ _ _ hquiet | risen _ _ _ hquiet | sampled _ _ _ _ hquiet | closing _ _ _ _ hquiet =>
      obtain ⟨n, hn, _⟩ := hquiet
      simp [hphase] at hn
    | running _ _ _ _ ht3 =>
      rw [hphase] at ht3
      split at ht3 <;> simp at ht3
    | sampling _ _ _ _ ht3 => simp [hphase] at ht3

theorem System.ioCycle_release (h : s.Driven) (hbefore : s.pads.ioRelease = false)
    (hafter : s.ioCycle.pads.ioRelease = true) : s.io.pc = 10 ∨ s.io.pc = 22 := by
  cases hd : s.io.delay with
  | succ n => simp [System.ioCycle_delay hd, hbefore] at hafter
  | zero =>
    by_cases hdrive : s.io.pc ∈ drivers
    · simp [drivers] at hdrive
      rcases hdrive with hk | hk | hk | hk | hk | hk | hk | hk | hk
      · simp [System.ioCycle_at0 hd hk, hbefore] at hafter
      · simp [System.ioCycle_at7 hd hk] at hafter
      · exact .inl hk
      · simp [System.ioCycle_at13 hd hk] at hafter
      · obtain ⟨w, hw, hosr⟩ := h.osr (by omega)
        have hbit := hw.bits.1
        simp [System.ioCycle_at20 hd hk, hosr, replyShift, hk] at hafter hbit
        simp [hbit] at hafter
      · simp [System.ioCycle_at21 hd hk, hbefore] at hafter
      · exact .inr hk
      · simp [System.ioCycle_at26 hd hk] at hafter
      · simp [System.ioCycle_at27 hd hk, hbefore] at hafter
    · simp [System.ioCycle_pads h.reach hdrive, hbefore] at hafter

theorem System.Handshake.safeTick (h : s.Handshake c) : s.SafeTick (s.advance f) where
  release hbefore hafter := by
    have hclocked := h.driven.clocked h.clock (f := f)
    rw [(System.advance_rest h.clock).2.2.2] at hafter
    have hpc := System.ioCycle_release hclocked
      (by rw [System.clocked_eq h.clock]; exact hbefore) hafter
    rw [System.clocked_io h.clock] at hpc
    have hcaught : stopBound s.io.pc s.io.delay = 0 := by
      rcases hpc with hpc | hpc <;> simp [stopBound, hpc]
    have hhold : s.hold = true := by
      simp only [h.driven.hold, decide_eq_true_eq]
      omega
    cases h.view with
    | caught _ _ hlow _ _ hstop =>
      have hc : c = 3 := eq_three_of_stopIn h.clock.lt (by omega)
      have hz := System.advance_still h.clock (f := f) (by omega) (by omega)
      have hclk := (h.clock.advance (f := f)).clk
      refine ⟨by simp [h.clock.clk, hc], by simp [hclk, clockNext, hc, hhold], ?_⟩
      rw [hz, hlow.settled, hlow.strobe]
    | quiet hpc' | falling hpc' | low hpc' | going hpc' | rising hpc' | risen hpc' | running hpc'
    | sampling hpc' | sampled hpc' | closing hpc' => omega
  bank hchange := by
    have hclocked := h.driven.clocked h.clock (f := f)
    rw [(System.advance_rest h.clock).2.2.2] at hchange
    have hpads : s.pads.memoryBank = (s.clocked f).pads.memoryBank := by
      rw [System.clocked_eq h.clock]
    have hpc : s.io.pc = 7 ∨ s.io.pc = 20 := by
      rw [← System.clocked_io h.clock (f := f)]
      refine Decidable.byContradiction fun hpc => hchange ?_
      rw [hpads]
      exact System.ioCycle_bank hclocked.reach (by omega) (by omega)
    cases h.view with
    | caught _ _ hlow => exact hlow.strobe
    | quiet hpc' | falling hpc' | low hpc' | going hpc' | rising hpc' | risen hpc' | running hpc'
    | sampling hpc' | sampled hpc' | closing hpc' => omega

/-- Every run of the engine is safe, at every tick. -/
theorem engine_safe (service : Service σ) (state : σ) (bank : Bool) (accesses : List Access)
    (htimed : ∀ a ∈ accesses, a.Timed) (ticks : List Tick) (t : Tick) :
    ((System.start state bank accesses).run service ticks).Safe ∧
      ((System.start state bank accesses).run service ticks).SafeTick
        (((System.start state bank accesses).run service ticks).tick service t) := by
  obtain ⟨c, h⟩ : ∃ c, ((System.start state bank accesses).run service ticks).Handshake c :=
    (System.Handshake.start state bank htimed).run ticks
  refine ⟨h.safe, ?_⟩
  have hserved : (((System.start state bank accesses).run service ticks).serve service
      t.act).Handshake c := h.serve t.act
  have htick := hserved.safeTick (f := t.floating)
  rw [System.serve_eq] at htick
  refine ⟨fun hbefore hafter => ?_, fun hchange => ?_⟩
  · rw [System.tick, System.serve_eq] at hafter ⊢
    exact htick.release hbefore hafter
  · rw [System.tick, System.serve_eq] at hchange
    exact htick.bank hchange

theorem engine_safe_echo :
    ((System.start 0 false echo).run .latch (.replicate 50 ⟨0xFF, .take⟩)).Safe ∧
      ((System.start 0 false echo).run .latch (.replicate 50 ⟨0xFF, .take⟩)).SafeTick
        (((System.start 0 false echo).run .latch (.replicate 50 ⟨0xFF, .take⟩)).tick .latch
          ⟨0xFF, .put⟩) :=
  engine_safe .latch 0 false echo echo_timed _ _

end Z80Sbc.Pio
