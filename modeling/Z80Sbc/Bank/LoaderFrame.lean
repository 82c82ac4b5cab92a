import Z80Sbc.Bank.LoaderSafety

/-! # What any LOAD leaves alone

Whatever file the loader is given, also one that it cannot read to its end, it writes its own
cells, the memory below the stack of the library and what a call of the BDOS may write. The ready
flag then is set where the status is that of a success, and otherwise is half of the DMA pointer
that the loader was called with. -/

namespace Z80Sbc.Bank.LoaderFrame
open Z80Sbc.Z80 Z80Sbc.Bank Loader LoaderHeader LoaderSafety

variable {δ : Type}

/-- The cells that a LOAD may write. -/
def LoadCell (a : Word) : Prop :=
  a.toNat < 0xC800 ∨ 0xDE92 ≤ a.toNat ∧ a.toNat < 0xDEAA ∨ 0xDEAA < a.toNat ∧ a.toNat < 0xDEAF ∨
    0xE300 ≤ a.toNat ∧ a.toNat < 0xE360 ∨ 0xE400 ≤ a.toNat ∧ a.toNat < 0xE480 ∨
      0xE4D1 ≤ a.toNat ∧ a.toNat < 0xE4D6 ∨ 0xE500 ≤ a.toNat ∧ a.toNat < 0xE524 ∨
        0xEE00 ≤ a.toNat

instance (a : Word) : Decidable (LoadCell a) := inferInstanceAs (Decidable (_ ∨ _))

/-- How a LOAD comes back from `s`, `entry` being the DMA pointer it was called with. -/
structure Left (entry : Word) (s : State δ) (hl : Word) (t : State δ) : Prop where
  touches : Touches LoadCell s t
  result : hl = word 0 (t.get status)
  ready : t.get ready = if t.get status = 0 then 1 else hi entry

section
variable {bdos : Bdos δ} {P : Word → Prop} {r : Nat → Byte} {s t u : State δ} {entry : Word}
variable {done o fuel : Nat} {hl de : Word}

theorem Left.after (hu : Touches LoadCell s u) (h : Left entry u hl t) : Left entry s hl t :=
  { h with touches := hu.trans h.touches }

theorem CallByte.load {a : Word} (h : CallByte a) : LoadCell a := by
  unfold CallByte SystemByte Within libraryFcb dmaBuffer at h
  unfold LoadCell
  bv_omega

theorem ChunkByte.load {a : Word} (hlength : length r < 0xC600) (h : ChunkByte r a) :
    LoadCell a := by
  unfold ChunkByte at h
  unfold LoadCell
  omega

theorem HeaderCell.load {a : Word} (h : HeaderCell a) : LoadCell a := by
  unfold HeaderCell LengthCell Within headerLength brkOffset stackBytes imageLength remaining
    exportCount at h
  unfold LoadCell
  bv_omega

theorem Closed.left (h : Closed s hl t) (hcaller : s.get16 callerDma = entry)
    (hstatus : s.get status ≠ 0) : Left entry s hl t := by
  have hst := h.status
  refine ⟨h.touches.mono fun a ha => CallByte.load ha, ?_, ?_⟩
  · rw [h.result, hst]
  · rw [hst, h.ready, ready_eq, hcaller, if_neg hstatus]

theorem Pending.left (h : KeepsMemory bdos) (hp : Pending entry s) :
    Left entry s (closeFile bdos s).1 (closeFile bdos s).2 :=
  Closed.left (closeFile_spec h hp.dma) hp.caller (by rw [hp.status]; decide)

theorem badHeader_left (h : KeepsMemory bdos) (hp : Pending entry s) :
    Left entry s (badHeader bdos s).1 (badHeader bdos s).2 := by
  have hstore : Touches (· = status) s (s.store status 2) := touches_store rfl
  have hclosed := closeFile_spec h ((hstore.get16 (by decide) (by decide)).trans hp.dma)
  refine Left.after (hstore.mono ?_)
    (Closed.left hclosed ((hstore.get16 (by decide) (by decide)).trans hp.caller) ?_)
  · rintro a rfl
    decide
  · rw [get_store_same]
    decide

/-- The flags of a LOAD that succeeds. -/
def FlagCell (a : Word) : Prop := a = status ∨ a = ready

instance (a : Word) : Decidable (FlagCell a) := inferInstanceAs (Decidable (_ ∨ _))

theorem FlagCell.load {a : Word} (h : FlagCell a) : LoadCell a := by
  rcases h with rfl | rfl
  · decide
  · decide

theorem success_left (h : KeepsMemory bdos) (hp : Pending entry s) :
    Left entry s (closeFile bdos ((s.store status 0).store ready 1)).1
      (closeFile bdos ((s.store status 0).store ready 1)).2 := by
  have hflags : Touches FlagCell s ((s.store status 0).store ready 1) :=
    (touches_store (Or.inl rfl)).trans (touches_store (Or.inr rfl))
  have hclosed := closeFile_spec h ((hflags.get16 (by decide) (by decide)).trans hp.dma)
  have hst := hclosed.status
  have hzero : ((s.store status 0).store ready 1).get status = 0 :=
    (get_store (by decide)).trans get_store_same
  refine ⟨(hflags.mono fun a ha => ha.load).trans
    (hclosed.touches.mono fun a ha => CallByte.load ha), ?_, ?_⟩
  · rw [hclosed.result, hst]
  · rw [hst, hzero, if_pos rfl, hclosed.ready, get_store_same]

theorem imageLoaded_left (h : KeepsMemory bdos) (hok : HeaderOk r) (hparsed : Parsed r s.mem)
    (hp : Pending entry s) : Left entry s (imageLoaded bdos s).1 (imageLoaded bdos s).2 := by
  have hhigh := hok.heap_high
  unfold imageLoaded
  have hspec := initializeRuntime_spec hok hparsed
  generalize initializeRuntime s = out at hspec ⊢
  obtain ⟨carry, u⟩ := out
  dsimp only at hspec ⊢
  rcases hspec with ⟨hcarry, -, htouches, -⟩ | ⟨hcarry, -, hinit⟩
  · rw [hcarry, if_pos rfl]
    refine Left.after (htouches.mono fun a ha => ?_)
      (badHeader_left h (hp.touches htouches fun a ha => ?_))
    · unfold Within brkAddress at ha
      unfold LoadCell
      bv_omega
    · unfold Within dmaPointer callerDma status at ha
      unfold Within brkAddress
      bv_omega
  · rw [hcarry, if_neg Bool.false_ne_true]
    refine Left.after (hinit.touches.mono fun a ha => ?_)
      (success_left h (hp.touches hinit.touches fun a ha => ?_))
    · unfold Within brkAddress at ha
      unfold LoadCell
      bv_omega
    · unfold Within dmaPointer callerDma status at ha
      unfold Within brkAddress
      bv_omega

/-! ## The loop over the records -/

/-- `done` bytes of the image are copied, from whatever file. -/
structure Copying (r : Nat → Byte) (entry : Word) (s : State δ) (done : Nat) : Prop where
  pending : Pending entry s
  parsed : Parsed r s.mem
  remaining : (s.get16 Loader.remaining).toNat = length r - done
  destination : s.get16 Loader.destination = BitVec.ofNat 16 (0x100 + done)
  le : done ≤ length r

theorem Copying.touches (h : Copying r entry s done) (ht : Touches P s t)
    (hpending : Pending entry t)
    (hfree : ∀ a : Word, 0xDE92 ≤ a.toNat ∧ a.toNat < 0xDE9A ∨
      0xDEA4 ≤ a.toNat ∧ a.toNat < 0xDEAF → ¬P a) : Copying r entry t done where
  pending := hpending
  parsed := Parsed.touches h.parsed ht fun a ha => hfree a (by
    unfold Within imageLength brkOffset stackBytes at ha
    bv_omega)
  remaining := by
    rw [ht.get16 (hfree _ (by decide)) (hfree _ (by decide))]
    exact h.remaining
  destination := (ht.get16 (hfree _ (by decide)) (hfree _ (by decide))).trans h.destination
  le := h.le

/-- One chunk. -/
theorem Copying.copy (h : Copying r entry s done) (hok : HeaderOk r)
    (hsource : s.get16 source = dmaBuffer + BitVec.ofNat 16 o) (ho : o < 128)
    (hlt : done < length r) :
    Copying r entry (copyChunk s) (done + min (128 - o) (length r - done)) ∧
      Touches LoadCell s (copyChunk s) := by
  have hlength := hok.length_lt
  have hcopied := copyChunk_spec hsource ho h.destination h.remaining (Nat.sub_pos_of_lt hlt)
    (Nat.add_sub_cancel' (Nat.le_of_lt hlt)) (Nat.le_of_lt hlength)
  refine ⟨?_, hcopied.touches.mono fun a ha => ChunkByte.load hlength ha⟩
  constructor
  · refine h.pending.touches hcopied.touches fun a ha => not_chunkByte hlength ?_ ?_
    · unfold Within dmaPointer callerDma status at ha
      bv_omega
    · unfold Within dmaPointer callerDma status at ha
      bv_omega
  · refine Parsed.touches h.parsed hcopied.touches fun a ha => not_chunkByte hlength ?_ ?_
    · unfold Within imageLength brkOffset stackBytes at ha
      bv_omega
    · unfold Within imageLength brkOffset stackBytes at ha
      bv_omega
  · rw [hcopied.remaining, h.remaining]
    omega
  · exact hcopied.destination
  · omega

theorem readMore_left (h : KeepsMemory bdos) (hok : HeaderOk r) (hc : Copying r entry s done)
    (hrun : readMore bdos fuel s = some (hl, t)) : Left entry s hl t := by
  induction fuel generalizing s done with
  | zero => cases hrun
  | succ fuel ih =>
    rw [readMore] at hrun
    by_cases hzero : s.get16 remaining = 0
    · rw [if_pos hzero] at hrun
      obtain ⟨rfl, rfl⟩ := Prod.mk.inj (Option.some.inj hrun)
      exact imageLoaded_left h hok hc.parsed hc.pending
    rw [if_neg hzero] at hrun
    have hlt : done < length r := by
      have hremaining := hc.remaining
      bv_omega
    have htouches : Touches CallByte s (s.call bdos 20 libraryFcb).2 :=
      call_touches h hc.pending.dma
    have hcopying : Copying r entry (s.call bdos 20 libraryFcb).2 done := by
      refine hc.touches htouches (hc.pending.call h (by decide)) fun a ha => not_callByte ?_ ?_
      · omega
      · omega
    have hcall := htouches.mono fun a ha => CallByte.load ha
    generalize s.call bdos 20 libraryFcb = out at hrun hcall hcopying
    obtain ⟨a, u⟩ := out
    dsimp only at hrun hcall hcopying
    by_cases ha : a ≠ 0
    · rw [if_pos ha] at hrun
      obtain ⟨rfl, rfl⟩ := Prod.mk.inj (Option.some.inj hrun)
      exact Left.after hcall (Pending.left h hcopying.pending)
    · rw [if_neg ha] at hrun
      have hset : Touches (Within source 2) u (u.store16 source dmaBuffer) :=
        touches_store16 (by decide) (by decide)
      have hsource : (u.store16 source dmaBuffer).get16 source = dmaBuffer + BitVec.ofNat 16 0 :=
        get16_store16_same
      have hcopying' : Copying r entry (u.store16 source dmaBuffer) done := by
        refine hcopying.touches hset (hcopying.pending.touches hset fun a ha => ?_) fun a ha => ?_
        · unfold Within dmaPointer callerDma status at ha
          unfold Within source
          bv_omega
        · unfold Within source
          bv_omega
      obtain ⟨hnext, hchunk⟩ := hcopying'.copy hok hsource (by decide) hlt
      refine Left.after (hcall.trans (hset.mono fun a ha => ?_)) (Left.after hchunk (ih hnext hrun))
      unfold Within source at ha
      unfold LoadCell
      bv_omega

/-- The file is open: the header of what is read is checked before anything is copied. -/
theorem readFirst_left (h : KeepsMemory bdos) (hp : Pending entry s)
    (hrun : readFirst bdos fuel s = some (hl, t)) : Left entry s hl t := by
  unfold readFirst at hrun
  have htouches : Touches CallByte s (s.call bdos 20 libraryFcb).2 := call_touches h hp.dma
  have hpending : Pending entry (s.call bdos 20 libraryFcb).2 := hp.call h (by decide)
  have hcall := htouches.mono fun a ha => CallByte.load ha
  clear htouches
  generalize s.call bdos 20 libraryFcb = out at hrun hcall hpending
  obtain ⟨a, u⟩ := out
  dsimp only at hrun hcall hpending
  by_cases ha : a ≠ 0
  · rw [if_pos ha] at hrun
    obtain ⟨rfl, rfl⟩ := Prod.mk.inj (Option.some.inj hrun)
    exact Left.after hcall (Pending.left h hpending)
  rw [if_neg ha] at hrun
  obtain ⟨hchanges, hvalid, hparsed⟩ :=
    validateHeader_spec (r := fun i => u.get (dmaBuffer + BitVec.ofNat 16 i)) (s := u)
      fun _ _ => rfl
  generalize (fun i => u.get (dmaBuffer + BitVec.ofNat 16 i)) = r at hvalid hparsed
  generalize validateHeader u = out at hrun hchanges hvalid hparsed
  obtain ⟨carry, v⟩ := out
  dsimp only at hrun hchanges hvalid hparsed
  have hheader : Touches LoadCell s v :=
    hcall.trans fun a ha => hchanges.outside a fun hc => ha (HeaderCell.load hc)
  have hpending' : Pending entry v := by
    refine hpending.touches hchanges.outside fun a ha => ?_
    unfold Within dmaPointer callerDma status at ha
    unfold HeaderCell LengthCell Within headerLength brkOffset stackBytes imageLength remaining
      exportCount
    bv_omega
  cases carry with
  | true =>
    rw [if_pos rfl] at hrun
    obtain ⟨rfl, rfl⟩ := Prod.mk.inj (Option.some.inj hrun)
    exact Left.after hheader (badHeader_left h hpending')
  | false =>
    have hok := hvalid.mp rfl
    obtain ⟨hparsed, hremaining⟩ := hparsed rfl
    rw [if_neg Bool.false_ne_true] at hrun
    obtain ⟨w, hcopy, hchunk⟩ := copyFirst_chunk hok hparsed
    rw [hcopy] at hrun
    have hle := hok.exports_le
    have hlength := hok.length_pos
    have hheaderIs : header r = 26 + 12 * exports r := rfl
    have hfree {a : Word} (ha : a.toNat < 0xDE96 ∨ 0xDE9C ≤ a.toNat ∧ a.toNat < 0xE300 ∨
        0xE360 ≤ a.toNat) : ¬(Within exportTable 96 a ∨ Within destination 6 a) := by
      unfold Within exportTable destination
      bv_omega
    have hcopying : Copying r entry w 0 := by
      constructor
      · refine hpending'.touches hchunk.touches fun a ha => hfree ?_
        unfold Within dmaPointer callerDma status at ha
        bv_omega
      · refine Parsed.touches hparsed hchunk.touches fun a ha => hfree ?_
        unfold Within imageLength brkOffset stackBytes at ha
        bv_omega
      · rw [hchunk.remaining, hremaining]
        rfl
      · exact hchunk.destination
      · omega
    obtain ⟨hnext, hfirst⟩ := hcopying.copy hok hchunk.source (by omega) hlength
    refine Left.after (hheader.trans (hchunk.touches.mono fun a ha => ?_))
      (Left.after hfirst (readMore_left h hok hnext hrun))
    unfold Within exportTable destination at ha
    unfold LoadCell
    bv_omega

theorem openFile_left (h : KeepsMemory bdos) (hstatus : s.get status = 1)
    (hrun : openFile bdos fuel s = some (hl, t)) : Left (s.get16 dmaPointer) s hl t := by
  unfold openFile at hrun
  dsimp only at hrun
  have hsaved : Touches (fun a => Within callerDma 2 a ∨ Within dmaPointer 2 a) s
      ((s.store16 callerDma (s.get16 dmaPointer)).useDma dmaBuffer) :=
    (touches_store16 (by decide) (by decide)).trans
      (touches_store16 (s := s.store16 callerDma (s.get16 dmaPointer)) (by decide) (by decide))
  have hpending : Pending (s.get16 dmaPointer)
      ((s.store16 callerDma (s.get16 dmaPointer)).useDma dmaBuffer) := by
    constructor
    · exact peek16_poke16
    · exact (peek16_poke16_outside (by decide) (by decide)).trans get16_store16_same
    · exact (hsaved _ (by decide)).trans hstatus
  have hbegin : Touches LoadCell s
      ((s.store16 callerDma (s.get16 dmaPointer)).useDma dmaBuffer) := hsaved.mono fun a ha => by
    unfold Within callerDma dmaPointer at ha
    unfold LoadCell
    bv_omega
  clear hsaved
  generalize (s.store16 callerDma (s.get16 dmaPointer)).useDma dmaBuffer = u
    at hrun hbegin hpending
  have htouches : Touches CallByte u (u.call bdos 15 libraryFcb).2 := call_touches h hpending.dma
  have hpending' : Pending (s.get16 dmaPointer) (u.call bdos 15 libraryFcb).2 :=
    hpending.call h (by decide)
  have hopen := hbegin.trans (htouches.mono fun a ha => CallByte.load ha)
  clear htouches
  generalize u.call bdos 15 libraryFcb = out at hrun hopen hpending'
  obtain ⟨a, v⟩ := out
  dsimp only at hrun hopen hpending'
  by_cases ha : a + 1 = 0
  · rw [if_pos ha] at hrun
    obtain ⟨rfl, rfl⟩ := Prod.mk.inj (Option.some.inj hrun)
    have hleft : Left (s.get16 dmaPointer) v (restoreDma v).1 (restoreDma v).2 :=
      Closed.left (restoreDma_spec v) hpending'.caller (by rw [hpending'.status]; decide)
    exact Left.after hopen hleft
  · rw [if_neg ha] at hrun
    exact Left.after hopen (readFirst_left h hpending' hrun)

/-- **A LOAD** of any file. Its DMA pointer is the caller's, or that of a BDOS that was reset. -/
theorem loadModule_left (h : KeepsMemory bdos) (hrun : loadModule bdos fuel de s = some (hl, t)) :
    ∃ entry, Left entry s hl t ∧
      (entry = s.get16 dmaPointer ∨
        ∃ u : Machine δ, entry = peek16 (bdos 13 de u).2.mem dmaPointer) := by
  unfold loadModule at hrun
  dsimp only at hrun
  have hflags : Touches FlagCell s ((s.store ready 0).store status 1) :=
    (touches_store (Or.inr rfl)).trans (touches_store (Or.inl rfl))
  have hstatus : ((s.store ready 0).store status 1).get status = 1 := get_store_same
  have hbegin := hflags.mono fun a ha => ha.load
  have hpointer : ((s.store ready 0).store status 1).get16 dmaPointer = s.get16 dmaPointer :=
    hflags.get16 (by decide) (by decide)
  clear hflags
  generalize (s.store ready 0).store status 1 = u at hrun hstatus hbegin hpointer
  by_cases hready : u.get bdosReady ≠ 0
  · rw [if_pos hready] at hrun
    exact ⟨_, Left.after hbegin (openFile_left h hstatus hrun), Or.inl hpointer⟩
  · rw [if_neg hready] at hrun
    have hreset : Touches SystemByte u (u.call bdos 13 de).2 := fun a ha =>
      h.bank1 13 de u.toMachine a ha (fun hf => Bool.noConfusion hf.1)
        (fun hf => Bool.noConfusion hf.1)
    have hset : Touches (· = bdosReady) (u.call bdos 13 de).2
        ((u.call bdos 13 de).2.store bdosReady 1) := touches_store rfl
    refine ⟨_, Left.after hbegin (Left.after ((hreset.mono fun a ha =>
      CallByte.load (Or.inl ha)).trans (hset.mono ?_)) (openFile_left h ?_ hrun)),
      Or.inr ⟨u.toMachine, hset.get16 (by decide) (by decide)⟩⟩
    · rintro a rfl
      decide
    · exact (hset _ (by decide)).trans ((hreset _ (by decide)).trans hstatus)

end

end Z80Sbc.Bank.LoaderFrame
