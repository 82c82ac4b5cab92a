import Z80Sbc.Bank.Extensions
import Z80Sbc.Bank.LoaderFrame

/-! # What moves the control cells

The ready flag, the generation and the epoch are kept by the calls of the heap but a reset, and by
the context hooks. A LOAD sets the ready flag where it succeeds, and else leaves it clear, since
the context of a library starts with a DMA pointer in page zero. An INVOKE comes to the code of the
library only past all of its checks. -/

namespace Z80Sbc.Bank.ControlCells
open Z80Sbc.Z80 Z80Sbc.Bank Allocator Extensions

variable {δ : Type}

/-! ## What a step keeps -/

/-- The ready flag, the generation and the epoch. -/
def ControlCell (a : Word) : Prop := a = ready ∨ Within generation 2 a ∨ Within epoch 2 a

instance (a : Word) : Decidable (ControlCell a) := inferInstanceAs (Decidable (_ ∨ _ ∨ _))

def KeepsControl (m m' : Mem) : Prop := ∀ a, ControlCell a → peek m' a = peek m a

section
variable {m m' m'' : Mem} {a src w : Word} {v : Byte} {n : Nat}

theorem KeepsControl.refl : KeepsControl m m := fun _ _ => rfl

theorem KeepsControl.trans (h : KeepsControl m m') (h' : KeepsControl m' m'') :
    KeepsControl m m'' := fun a ha => (h' a ha).trans (h a ha)

theorem KeepsControl.ready (h : KeepsControl m m') : peek m' ready = peek m ready :=
  h _ (Or.inl rfl)

theorem KeepsControl.generation (h : KeepsControl m m') :
    peek16 m' generation = peek16 m generation :=
  peek16_congr (h _ (by decide)) (h _ (by decide))

theorem KeepsControl.epoch (h : KeepsControl m m') : peek16 m' epoch = peek16 m epoch :=
  peek16_congr (h _ (by decide)) (h _ (by decide))

theorem ControlCell.range (h : ControlCell a) : a.toNat = 0xDE9F ∨
    0xDFA0 ≤ a.toNat ∧ a.toNat < 0xDFA2 ∨ 0xDFA6 ≤ a.toNat ∧ a.toNat < 0xDFA8 := by
  unfold ControlCell Within Allocator.ready Extensions.generation Allocator.epoch at h
  bv_omega

theorem keeps_poke (h : ¬ControlCell a) : KeepsControl m (poke m a v) :=
  fun _ hx => peek_poke_ne fun he => h (he ▸ hx)

theorem keeps_ite {P : Prop} [Decidable P] (h : KeepsControl m m') (h' : KeepsControl m m'') :
    KeepsControl m (if P then m' else m'') := by
  split
  · exact h
  · exact h'

theorem keeps_poke16 (h : ¬ControlCell a) (h' : ¬ControlCell (a + 1)) :
    KeepsControl m (poke16 m a w) := by
  refine fun x hx => peek_poke16_outside fun hw => ?_
  have hcases : x = a ∨ x = a + 1 := by
    unfold Within at hw
    bv_omega
  rcases hcases with rfl | rfl
  · exact h hx
  · exact h' hx

theorem keeps_ldir (h : ∀ x, Within a n x → ¬ControlCell x) (hn : n ≤ 65536) :
    KeepsControl m (ldir m src a n) := fun x hx => ldir_outside hn fun hw => h x hw hx

/-- The tables of the allocator are elsewhere. -/
theorem not_control_table (l : Byte) : ¬ControlCell (word 0xE7 l) := by
  intro h
  have hrange := h.range
  rw [toNat_word] at hrange
  have hl := l.isLt
  have hhi : (0xE7 : Byte).toNat = 231 := rfl
  omega

end

/-! ## The allocator -/

section
variable {m m' : Mem} {a c d e start length : Byte} {hl : Word} {fuel : Nat} {p : Word × Mem}

theorem keeps_completeControl : KeepsControl m (completeControl hl m) := by
  unfold completeControl
  split
  · exact KeepsControl.refl
  · exact ((keeps_poke (by decide)).trans (keeps_poke (by decide))).trans
      ((keeps_poke (by decide)).trans (keeps_poke (by decide)))

theorem keeps_leave : KeepsControl m (leave m) := by
  unfold leave
  split
  · exact KeepsControl.refl
  · exact keeps_poke (by decide)

theorem keeps_ok : KeepsControl m (ok m).2 := keeps_leave

theorem keeps_error : KeepsControl m (error a m).2 :=
  ((keeps_poke (by decide)).trans keeps_completeControl).trans keeps_leave

theorem keeps_unlink : KeepsControl m (unlink m a) := by
  have hfront : KeepsControl m (if peek m (backPtr a) = 0 then
      poke m freeHead (peek m (nextPtr a))
        else poke m (nextPtr (peek m (backPtr a))) (peek m (nextPtr a))) :=
    keeps_ite (keeps_poke (by decide)) (keeps_poke (not_control_table _))
  exact keeps_ite hfront (hfront.trans (keeps_poke (not_control_table _)))

theorem keeps_insertHere : KeepsControl m (insertHere m c d e) := by
  have hnext : KeepsControl m (poke m (nextPtr c) e) := keeps_poke (not_control_table _)
  have hlinks : KeepsControl m (poke (poke m (nextPtr c) e) (backPtr c) d) :=
    hnext.trans (keeps_poke (not_control_table _))
  unfold insertHere
  dsimp only
  generalize poke (poke m (nextPtr c) e) (backPtr c) d = u at hlinks ⊢
  have hfront : KeepsControl u (if d = 0 then poke u freeHead c else poke u (nextPtr d) c) :=
    keeps_ite (keeps_poke (by decide)) (keeps_poke (not_control_table _))
  exact hlinks.trans (keeps_ite hfront (hfront.trans (keeps_poke (not_control_table _))))

theorem keeps_insert (h : Allocator.insert fuel m c = some m') : KeepsControl m m' := by
  obtain ⟨p, -, rfl⟩ := Option.map_eq_some_iff.mp h
  exact keeps_insertHere

theorem keeps_split {successor remainder : Byte}
    (h : split fuel start successor remainder m = some m') : KeepsControl m m' := by
  unfold split at h
  by_cases hzero : remainder = 0
  · rw [if_pos hzero] at h
    cases h
    exact KeepsControl.refl
  rw [if_neg hzero] at h
  have hlength : KeepsControl m (poke m (lengthPtr successor) remainder) :=
    keeps_poke (not_control_table _)
  have hextent : KeepsControl m
      (poke (poke m (lengthPtr successor) remainder) (previousPtr successor) start) :=
    hlength.trans (keeps_poke (not_control_table _))
  exact (keeps_ite hextent (hextent.trans (keeps_poke (not_control_table _)))).trans
    (keeps_insert h)

theorem keeps_allocate (h : allocate fuel hl m = some p) : KeepsControl m p.2 := by
  unfold allocate at h
  dsimp only at h
  split at h
  · cases h
    exact keeps_error
  split at h
  · cases h
    exact keeps_error
  split at h
  · cases h
    exact keeps_error
  split at h
  · cases h
  · cases h
    exact keeps_error
  · unfold fit at h
    obtain ⟨u, hsplit, rfl⟩ := Option.map_eq_some_iff.mp h
    refine KeepsControl.trans
      ((keeps_unlink.trans (keeps_poke (not_control_table _))).trans (keeps_split hsplit)) ?_
    exact ((keeps_poke (not_control_table _)).trans
      (keeps_poke16 (by decide) (by decide))).trans keeps_leave

theorem keeps_mergeLeft : KeepsControl m (mergeLeft a length m).2.2 := by
  unfold mergeLeft
  dsimp only
  split
  · exact KeepsControl.refl
  split
  · exact KeepsControl.refl
  · exact keeps_unlink.trans (keeps_poke (not_control_table _))

theorem keeps_mergeRight : KeepsControl m (mergeRight a length m).2 := by
  unfold mergeRight
  dsimp only
  split
  · exact KeepsControl.refl
  split
  · exact KeepsControl.refl
  · exact keeps_unlink.trans (keeps_poke (not_control_table _))

theorem keeps_commit (h : commit fuel a length m = some m') : KeepsControl m m' := by
  have hlength : KeepsControl m (poke m (lengthPtr a) length) := keeps_poke (not_control_table _)
  exact (keeps_ite hlength (hlength.trans (keeps_poke (not_control_table _)))).trans
    (keeps_insert h)

theorem keeps_freeExtent (h : freeExtent fuel a m = some m') : KeepsControl m m' := by
  unfold freeExtent at h
  dsimp only at h
  have hfree : KeepsControl m (poke16 m freeBytes
      (word (hi (peek16 m freeBytes) + peek m (lengthPtr a)) (lo (peek16 m freeBytes)))) :=
    keeps_poke16 (by decide) (by decide)
  refine hfree.trans ?_
  exact keeps_mergeLeft.trans (keeps_mergeRight.trans (keeps_commit h))

theorem keeps_release (h : release fuel hl m = some p) : KeepsControl m p.2 := by
  unfold release at h
  split at h
  · cases h
    exact keeps_leave
  split at h
  · cases h
    exact keeps_error
  split at h
  · cases h
    exact keeps_error
  · obtain ⟨u, hfree, rfl⟩ := Option.map_eq_some_iff.mp h
    exact (keeps_freeExtent hfree).trans keeps_leave

theorem keeps_size : KeepsControl m (size hl m).2 := by
  unfold size
  split
  · exact keeps_error
  · exact keeps_leave

/-- The operations but the reset. -/
theorem keeps_heapCall (he : e ≠ 4) (h : heapCall fuel e hl m = some p) : KeepsControl m p.2 := by
  unfold heapCall at h
  split at h
  · exact keeps_allocate h
  split at h
  · exact keeps_release h
  split at h
  · cases h
    exact keeps_size
  split at h
  · cases h
    exact keeps_leave
  cases h
  exact keeps_error

/-- What a reset writes behind the epoch. -/
theorem keeps_tables : KeepsControl m (ok (poke (poke16 (poke (poke (poke (poke (poke
    (poke (poke (ldir (poke m 0xE700 0) 0xE700 0xE701 127) 0xE701 0xBF) 0xE702 8) 0xE722 1)
      0xE728 2) 0xE741 255) 0xE742 255) 0xE708 22) freeBytes 0x1600) freeHead 8)).2 := by
  refine KeepsControl.trans ?_ keeps_ok
  refine KeepsControl.trans ?_ (keeps_poke (by decide))
  refine KeepsControl.trans ?_ (keeps_poke16 (by decide) (by decide))
  iterate 7 refine KeepsControl.trans ?_ (keeps_poke (by decide))
  refine KeepsControl.trans (keeps_poke (a := 0xE700) (v := 0) (by decide)) ?_
  refine keeps_ldir (a := 0xE701) (n := 127) (fun x hx hc => ?_) (by omega)
  have hrange := hc.range
  unfold Within at hx
  bv_omega

/-- A reset gives a new epoch, or changes none. -/
theorem reset_moves : KeepsControl m (reset m).2 ∧ peek16 m epoch = 0xFFFF ∨
    peek16 m epoch ≠ 0xFFFF ∧ peek16 (reset m).2 epoch = peek16 m epoch + 1 ∧
      peek (reset m).2 ready = peek m ready ∧
        peek16 (reset m).2 generation = peek16 m generation := by
  unfold reset
  dsimp only
  split
  · exact Or.inl ⟨keeps_error, by bv_omega⟩
  · refine Or.inr ⟨by bv_omega, ?_⟩
    have hkeeps := keeps_tables (m := poke16 m epoch (peek16 m epoch + 1))
    refine ⟨?_, ?_, ?_⟩
    · rw [hkeeps.epoch]
      exact peek16_poke16
    · rw [hkeeps.ready]
      exact peek_poke16_outside (by decide)
    · rw [hkeeps.generation]
      exact peek16_poke16_outside (by decide) (by decide)

end

/-! ## The parts of a request -/

section
variable {m m' : Mem} {a : Byte} {hl ix base next entry : Word} {s t : Machine δ} {fuel : Nat}

theorem keeps_finished : KeepsControl m (finished a m) :=
  ((keeps_poke (by decide)).trans (keeps_poke (by decide))).trans (keeps_poke (by decide))

theorem finished_request :
    peek16 (finished a m) requestGeneration = peek16 m requestGeneration :=
  (peek16_poke_ne (by decide) (by decide)).trans
    ((peek16_poke_ne (by decide) (by decide)).trans (peek16_poke_ne (by decide) (by decide)))

theorem keeps_describeLibrary : KeepsControl m (describeLibrary m) := by
  unfold describeLibrary
  dsimp only
  refine KeepsControl.trans ?_ (keeps_poke16 (by decide) (by decide))
  refine KeepsControl.trans ?_ (keeps_poke16 (by decide) (by decide))
  refine KeepsControl.trans ?_ (keeps_poke16 (by decide) (by decide))
  refine KeepsControl.trans ?_ (keeps_poke16 (by decide) (by decide))
  refine KeepsControl.trans ?_ (keeps_poke16 (by decide) (by decide))
  refine KeepsControl.trans ?_ (keeps_poke (by decide))
  refine KeepsControl.trans ?_ (keeps_poke (by decide))
  refine KeepsControl.trans ?_ (keeps_poke (by decide))
  refine KeepsControl.trans ?_ (keeps_poke16 (by decide) (by decide))
  refine KeepsControl.trans ?_ (keeps_poke (by decide))
  exact (keeps_poke (by decide)).trans (keeps_poke (by decide))

theorem describeLibrary_generation :
    peek16 (describeLibrary m) requestGeneration = peek16 m generation := by
  unfold describeLibrary
  dsimp only
  rw [peek16_poke16_outside (by decide) (by decide), peek16_poke16_outside (by decide) (by decide),
    peek16_poke16_outside (by decide) (by decide), peek16_poke16_outside (by decide) (by decide),
    peek16_poke16_outside (by decide) (by decide), peek16_poke_ne (by decide) (by decide),
    peek16_poke_ne (by decide) (by decide), peek16_poke_ne (by decide) (by decide), peek16_poke16,
    peek16_poke_ne (by decide) (by decide), peek16_poke_ne (by decide) (by decide),
    peek16_poke_ne (by decide) (by decide)]

theorem keeps_resetLibraryContext : KeepsControl m (resetLibraryContext m) := by
  unfold resetLibraryContext
  refine KeepsControl.trans ?_ (keeps_poke (by decide))
  refine KeepsControl.trans (keeps_poke (a := 0xDF80) (v := 0) (by decide)) ?_
  refine keeps_ldir (a := 0xDF81) (n := 29) (fun x hx hc => ?_) (by omega)
  have hrange := hc.range
  unfold Within at hx
  bv_omega

/-- The context of a library starts with the DMA buffer of page zero. -/
theorem resetLibraryContext_dma :
    peek16 (resetLibraryContext m) Context.libraryContext = 0x80 := by
  have hfill : peek (ldir (poke m 0xDF80 0) 0xDF80 0xDF81 29) 0xDF81 = 0 := by
    rw [ldir, ldir_outside (by omega) (by decide), peek_poke, peek_poke]
  have hhigh : resetLibraryContext m true 0xDF81 = 0 := (peek_poke_ne (by decide)).trans hfill
  have hlow : resetLibraryContext m true 0xDF80 = 0x80 := peek_poke
  have hnext : Context.libraryContext + 1 = 0xDF81 := by decide
  unfold peek16 fetch16
  rw [hnext, hhigh, show Context.libraryContext = 0xDF80 from rfl, hlow]
  decide

/-- The generation is advanced, or is exhausted. -/
theorem advanceGeneration_moves :
    advanceGeneration m = (true, m) ∧ peek16 m generation = 0xFFFF ∨
      ∃ m', advanceGeneration m = (false, m') ∧ peek16 m generation ≠ 0xFFFF ∧
        peek16 m' generation = peek16 m generation + 1 ∧ peek m' ready = peek m ready ∧
          peek16 m' epoch = peek16 m epoch := by
  unfold advanceGeneration
  dsimp only
  split
  · exact Or.inl ⟨rfl, by bv_omega⟩
  · refine Or.inr ⟨_, rfl, by bv_omega, peek16_poke16, ?_, ?_⟩
    · exact peek_poke16_outside (by decide)
    · exact peek16_poke16_outside (by decide) (by decide)

theorem swapContext_writes (hbase : Context.IsSnapshot base) {x : Word}
    (hx : x.toNat < 0xDF60 ∨ 0xDF89 ≤ x.toNat ∧ x.toNat < 0xFAF1) :
    peek (swapContext base next s).mem x = peek s.mem x := by
  unfold swapContext
  dsimp only
  refine ((Context.restoreSearch_writes (next + 2)).at ?_).trans
    ((peek_poke16_outside ?_).trans (Context.saved_writes.at ?_))
  · intro hv
    have hrange := Context.Variable.range (Or.inr hv)
    omega
  · unfold Within dmaPointer
    bv_omega
  · intro hw
    have hrange := hbase.range hw
    omega

theorem keeps_swapContext (hbase : Context.IsSnapshot base) :
    KeepsControl s.mem (swapContext base next s).mem := by
  intro x hx
  have hrange := hx.range
  exact swapContext_writes hbase (by omega)

/-- A library is entered with the DMA pointer of its own context. -/
theorem enterContext_dma : peek16 (enterContext s).mem dmaPointer =
    peek16 s.mem Context.libraryContext := by
  unfold enterContext swapContext
  dsimp only
  have hkept : ∀ m : Mem, peek16 (Shim.restoreSearch m (Context.libraryContext + 2)) dmaPointer =
      peek16 m dmaPointer := fun m =>
    peek16_congr ((Context.restoreSearch_writes _).at (by decide))
      ((Context.restoreSearch_writes _).at (by decide))
  rw [hkept]
  refine peek16_poke16.trans
    (peek16_congr (Context.saved_writes.at ?_) (Context.saved_writes.at ?_))
  · decide
  · decide

end

/-! ## LOAD -/

section
variable {bdos : Bdos δ} {s t : Machine δ} {x : Answer δ} {v : Loader.State δ} {fuel : Nat}
variable {hl de : Word}

/-- The BDOS sets the DMA address to 0080h when it is reset. -/
def ResetsDma (bdos : Bdos δ) : Prop :=
  ∀ de s, peek16 (bdos 13 de s).2.mem dmaPointer = 0x80

/-- The loader, called with the DMA pointer 0080h: the ready flag is whether it succeeds. -/
theorem loader_ready (h : KeepsMemory bdos) (hreset : ResetsDma bdos)
    (haction : peek s.mem Loader.action = 0) (hdma : peek16 s.mem dmaPointer = 0x80)
    (hrun : Loader.loader bdos fuel de { toMachine := s, written := [] } = some (hl, v)) :
    peek16 v.mem generation = peek16 s.mem generation ∧
      peek16 v.mem epoch = peek16 s.mem epoch ∧
      (lo hl = 0 ∧ peek v.mem ready = 1 ∨ lo hl ≠ 0 ∧ peek v.mem ready = 0) := by
  unfold Loader.loader at hrun
  have haction' : Loader.State.get { toMachine := s, written := [] } Loader.action = 0 := haction
  rw [if_pos haction'] at hrun
  obtain ⟨entry, hleft, hentry⟩ := LoaderFrame.loadModule_left h hrun
  have h80 : entry = 0x80 := by
    rcases hentry with rfl | ⟨w, rfl⟩
    · exact hdma
    · exact hreset de w
  have hcell {a : Word} (ha : a.toNat = 0xDFA0 ∨ a.toNat = 0xDFA1 ∨ a.toNat = 0xDFA6 ∨
      a.toNat = 0xDFA7) : ¬LoaderFrame.LoadCell a := by
    unfold LoaderFrame.LoadCell
    omega
  have hready : peek v.mem ready = if v.get Loader.status = 0 then 1 else hi entry := hleft.ready
  refine ⟨peek16_congr (hleft.touches _ (hcell (by decide))) (hleft.touches _ (hcell (by decide))),
    peek16_congr (hleft.touches _ (hcell (by decide))) (hleft.touches _ (hcell (by decide))), ?_⟩
  rw [hleft.result, lo_word, hready, h80]
  by_cases hstatus : v.get Loader.status = 0
  · rw [if_pos hstatus]
    exact Or.inl ⟨hstatus, rfl⟩
  · rw [if_neg hstatus]
    exact Or.inr ⟨hstatus, by decide⟩

/-- What the loader is entered with. -/
structure Entered (m : Mem) (u : Machine δ) : Prop where
  generation : peek16 u.mem generation = peek16 m generation
  epoch : peek16 u.mem epoch = peek16 m epoch
  action : peek u.mem Loader.action = 0
  dma : peek16 u.mem dmaPointer = 0x80

theorem enter_library {m : Mem} (hm : m = resetLibraryContext (poke (poke (poke s.mem ready 0)
    Loader.action 0) exportCount 0)) :
    Entered s.mem (enterContext { s with
      mem := ldir m (peek16 m requestFrame) Loader.libraryFcb 48 }) := by
  have hfcb {y : Word} (hy : y.toNat < 0xE500) :
      peek (ldir m (peek16 m requestFrame) Loader.libraryFcb 48) y = peek m y := by
    refine ldir_outside (by omega) fun hw => ?_
    unfold Within Loader.libraryFcb at hw
    bv_omega
  have hready : KeepsControl (poke s.mem ready 0) m := by
    rw [hm]
    exact ((keeps_poke (by decide)).trans (keeps_poke (by decide))).trans keeps_resetLibraryContext
  have hcontrol : KeepsControl m (enterContext { s with
      mem := ldir m (peek16 m requestFrame) Loader.libraryFcb 48 }).mem := by
    refine KeepsControl.trans (fun y hy => hfcb ?_) (keeps_swapContext (Or.inl rfl))
    have hrange := hy.range
    omega
  have hreset {y : Word} (hy : y.toNat < 0xDF80 ∨ 0xDF9E ≤ y.toNat) :
      peek m y = peek (poke (poke (poke s.mem ready 0) Loader.action 0) exportCount 0) y := by
    rw [hm]
    unfold resetLibraryContext
    refine (peek_poke_ne ?_).trans ((ldir_outside (by omega) ?_).trans (peek_poke_ne ?_))
    · bv_omega
    · unfold Within
      bv_omega
    · bv_omega
  constructor
  · rw [(hready.trans hcontrol).generation]
    exact peek16_poke_ne (by decide) (by decide)
  · rw [(hready.trans hcontrol).epoch]
    exact peek16_poke_ne (by decide) (by decide)
  · refine (swapContext_writes (Or.inl rfl) (by decide)).trans ((hfcb (by decide)).trans
      ((hreset (by decide)).trans ((peek_poke_ne (by decide)).trans peek_poke)))
  · refine enterContext_dma.trans ((peek16_congr (hfcb (by decide)) (hfcb (by decide))).trans ?_)
    rw [hm]
    exact resetLibraryContext_dma

theorem loadLibrary_moves (h : KeepsMemory bdos) (hreset : ResetsDma bdos)
    (hrun : loadLibrary bdos fuel s = some x) :
    ∃ hl t, x = .done hl t ∧ peek16 t.mem generation = peek16 s.mem generation ∧
      peek16 t.mem epoch = peek16 s.mem epoch ∧
      (hl = 0 ∧ peek t.mem ready = 1 ∧
          peek16 t.mem requestGeneration = peek16 s.mem generation ∨
        hl ≠ 0 ∧ peek t.mem ready = 0) := by
  unfold loadLibrary at hrun
  obtain ⟨p, hload, rfl⟩ := Option.map_eq_some_iff.mp hrun
  have hentered := enter_library (s := s) rfl
  generalize enterContext _ = e at hload hentered
  obtain ⟨hl, v⟩ := p
  obtain ⟨hgeneration, hepoch, houtcome⟩ :=
    loader_ready h hreset hentered.action hentered.dma hload
  have hswap : KeepsControl v.mem (leaveContext v.toMachine).mem :=
    keeps_swapContext (Or.inr rfl)
  have hleave : KeepsControl v.mem (describeLibrary (leaveContext v.toMachine).mem) :=
    hswap.trans keeps_describeLibrary
  have hdescribed : peek16 (describeLibrary (leaveContext v.toMachine).mem) requestGeneration =
      peek16 s.mem generation := by
    rw [describeLibrary_generation, hswap.generation, hgeneration, hentered.generation]
  have hdone (a : Byte) : peek16 (finished a (describeLibrary (leaveContext v.toMachine).mem))
      generation = peek16 s.mem generation ∧
        peek16 (finished a (describeLibrary (leaveContext v.toMachine).mem)) epoch =
          peek16 s.mem epoch ∧
        peek (finished a (describeLibrary (leaveContext v.toMachine).mem)) ready =
          peek v.mem ready := by
    have hkeeps := hleave.trans (keeps_finished (a := a))
    refine ⟨?_, ?_, hkeeps.ready⟩
    · rw [hkeeps.generation, hgeneration, hentered.generation]
    · rw [hkeeps.epoch, hepoch, hentered.epoch]
  dsimp only
  rcases houtcome with ⟨hzero, hready⟩ | ⟨hzero, hready⟩
  · rw [if_pos hzero]
    obtain ⟨hg, he, hr⟩ := hdone 0
    exact ⟨_, _, rfl, hg, he,
      Or.inl ⟨by decide, hr.trans hready, finished_request.trans hdescribed⟩⟩
  · rw [if_neg hzero]
    by_cases htwo : lo hl = 2
    · rw [if_pos htwo]
      obtain ⟨hg, he, hr⟩ := hdone 7
      exact ⟨_, _, rfl, hg, he, Or.inr ⟨by decide, hr.trans hready⟩⟩
    · rw [if_neg htwo]
      obtain ⟨hg, he, hr⟩ := hdone 8
      exact ⟨_, _, rfl, hg, he, Or.inr ⟨by decide, hr.trans hready⟩⟩

/-- A LOAD that is refused changes no more than the status. -/
theorem load_moves (h : KeepsMemory bdos) (hreset : ResetsDma bdos)
    (hrun : load bdos fuel s = some x) :
    x = finish 3 s ∧ hi (poolSize s.mem (peek16 s.mem requestFrame)) = 0 ∨
      x = finish 10 s ∧ peek16 s.mem generation = 0xFFFF ∨
      ∃ hl t, x = .done hl t ∧ peek16 s.mem generation ≠ 0xFFFF ∧
        peek16 t.mem generation = peek16 s.mem generation + 1 ∧
        peek16 t.mem epoch = peek16 s.mem epoch ∧
        (hl = 0 ∧ peek t.mem ready = 1 ∧
            peek16 t.mem requestGeneration = peek16 t.mem generation ∨
          hl ≠ 0 ∧ peek t.mem ready = 0) := by
  unfold load at hrun
  by_cases hpool : hi (poolSize s.mem (peek16 s.mem requestFrame)) = 0
  · rw [if_pos hpool] at hrun
    exact Or.inl ⟨(Option.some.inj hrun).symm, hpool⟩
  rw [if_neg hpool] at hrun
  rcases advanceGeneration_moves (m := s.mem) with
    ⟨hadvance, hfull⟩ | ⟨m', hadvance, hnot, hgen, -, hep⟩
  · rw [hadvance] at hrun
    exact Or.inr (Or.inl ⟨(Option.some.inj hrun).symm, hfull⟩)
  · rw [hadvance] at hrun
    dsimp only at hrun
    rw [if_neg Bool.false_ne_true] at hrun
    obtain ⟨hl, t, hx, hg, he, houtcome⟩ :=
      loadLibrary_moves (s := { s with mem := m' }) h hreset hrun
    refine Or.inr (Or.inr ⟨hl, t, hx, hnot, hg.trans hgen, he.trans hep, ?_⟩)
    rw [hg]
    exact houtcome

end

/-! ## INVOKE -/

/-- An allocated extent of the pool, of `n` pages. -/
def LivePool (m : Mem) (h : Word) (n : Byte) : Prop :=
  lo h = 0 ∧ 0xC8 ≤ hi h ∧ hi h < 0xDE ∧ peek m (lengthPtr (hi h - 0xC0)) = n ∧
    peek m (nextPtr (hi h - 0xC0)) = 255

/-- What the code of the library is only run with. -/
structure Accepted (m : Mem) : Prop where
  ready : peek m ready ≠ 0
  generation : peek16 m requestGeneration = peek16 m generation
  epoch : peek16 m requestEpoch = peek16 m epoch
  frame : ∃ n, 2 ≤ n ∧ LivePool m (peek16 m requestFrame) n
  size : 1 ≤ (peek16 m (peek16 m requestFrame)).toNat ∧
    (peek16 m (peek16 m requestFrame)).toNat ≤ 256
  index : (peek16 m requestIndex).toNat < (peek m exportCount).toNat

section
variable {m : Mem} {s t : Machine δ} {hl bc ix entry : Word} {a : Byte}

/-- A pool block is not changed by the table selectors. -/
theorem pool_block (b : Byte) (h : 0xC8 ≤ b) (h' : b < 0xDE) : (b - 0xC0) &&& 0x1F = b - 0xC0 := by
  revert b
  decide

theorem poolSize_live {n : Byte} (hn : hi (poolSize m hl) = n) (hpos : 0 < n) :
    LivePool m hl n := by
  have hzero : n ≠ hi 0 := by
    rintro rfl
    exact absurd hpos (by decide)
  unfold poolSize at hn
  split at hn
  · exact absurd hn.symm hzero
  split at hn
  · exact absurd hn.symm hzero
  split at hn
  · exact absurd hn.symm hzero
  dsimp only at hn
  split at hn
  · exact absurd hn.symm hzero
  · have hlow : 0xC8 ≤ hi hl := by bv_omega
    have hhigh : hi hl < 0xDE := by bv_omega
    have hblock := pool_block (hi hl) hlow hhigh
    rw [hi_word] at hn
    refine ⟨by_contra ‹_›, hlow, hhigh, ?_, ?_⟩
    · rw [lengthPtr, hblock, hn]
    · rw [nextPtr, hblock]
      exact by_contra ‹_›

theorem executeAt_error (h : executeAt hl bc ix m = .error a) : a = 2 ∨ a = 3 := by
  unfold executeAt at h
  split at h
  · cases h
    exact Or.inl rfl
  split at h
  · cases h
    exact Or.inl rfl
  split at h
  · cases h
    exact Or.inl rfl
  split at h
  · cases h
    exact Or.inr rfl
  dsimp only at h
  split at h
  · cases h
    exact Or.inl rfl
  split at h
  · cases h
    exact Or.inr rfl
  · cases h

/-- An error in the call of a library comes to the request. -/
theorem error_request (ha : a ≠ 0) (hbusy : peek m controlBusy ≠ 0) :
    peek (error a m).2 requestStatus = a := by
  have hleave : ∀ u : Mem, peek (leave u) requestStatus = peek u requestStatus := by
    intro u
    unfold leave
    split
    · rfl
    · exact peek_poke_ne (by decide)
  have hbusy' : peek (poke m status a) controlBusy ≠ 0 := by
    rw [peek_poke_ne (by decide)]
    exact hbusy
  have hstatus : peek (poke (poke m status a) controlBusy 0) status = a :=
    (peek_poke_ne (by decide)).trans peek_poke
  unfold error
  dsimp only
  rw [hleave]
  unfold completeControl
  dsimp only
  rw [if_neg hbusy', hstatus, if_pos ha, peek_poke_ne (by decide), peek_poke]

theorem call_cases (ix : Word) (s : Machine δ) :
    ∃ t, KeepsControl s.mem t.mem ∧
      ((∃ hl, hl ≠ 0 ∧ call ix s = .done hl t) ∨ ∃ entry, call ix s = .runs entry t) := by
  have hbegin : KeepsControl s.mem (poke (poke (poke16 s.mem 0xE4D6 (peek16 s.mem 0xDF2E))
      controlBusy 1) privateReturn 1) :=
    ((keeps_poke16 (by decide) (by decide)).trans (keeps_poke (by decide))).trans
      (keeps_poke (by decide))
  have hbusy : peek (poke (poke (poke16 s.mem 0xE4D6 (peek16 s.mem 0xDF2E)) controlBusy 1)
      privateReturn 1) controlBusy ≠ 0 := by
    rw [peek_poke_ne (by decide), peek_poke]
    decide
  unfold call
  dsimp only
  generalize poke (poke (poke16 s.mem 0xE4D6 (peek16 s.mem 0xDF2E)) controlBusy 1) privateReturn 1
    = m at hbegin hbusy
  cases hexecute : executeAt 0x0100 0xC000 ix m with
  | error a =>
    refine ⟨{ s with mem := (error a m).2 }, hbegin.trans keeps_error, Or.inl ⟨_, ?_, rfl⟩⟩
    have hpos : a ≠ 0 := by
      rcases executeAt_error hexecute with rfl | rfl
      · decide
      · decide
    rw [error_request hpos hbusy]
    exact fun hz => hpos (by rw [← lo_word 0 a, hz]; rfl)
  | ok entry =>
    exact ⟨_, hbegin.trans (keeps_swapContext (Or.inl rfl)), Or.inr ⟨entry, rfl⟩⟩

/-- An INVOKE is refused with a status, or has been accepted. -/
theorem invoke_cases (s : Machine δ) :
    (∃ a : Byte, (a = 2 ∨ a = 3 ∨ a = 9) ∧ invoke s = finish a s) ∨
      Accepted s.mem ∧ ∃ ix, invoke s = call ix s := by
  unfold invoke
  dsimp only
  by_cases hready : peek s.mem ready = 0
  · rw [if_pos hready]
    exact Or.inl ⟨9, Or.inr (Or.inr rfl), rfl⟩
  rw [if_neg hready]
  by_cases hgeneration : peek16 s.mem requestGeneration - peek16 s.mem generation ≠ 0
  · rw [if_pos hgeneration]
    exact Or.inl ⟨9, Or.inr (Or.inr rfl), rfl⟩
  rw [if_neg hgeneration]
  by_cases hepoch : peek16 s.mem requestEpoch - peek16 s.mem epoch ≠ 0
  · rw [if_pos hepoch]
    exact Or.inl ⟨9, Or.inr (Or.inr rfl), rfl⟩
  rw [if_neg hepoch]
  by_cases hpool : hi (poolSize s.mem (peek16 s.mem requestFrame)) < 2
  · rw [if_pos hpool]
    exact Or.inl ⟨3, Or.inr (Or.inl rfl), rfl⟩
  rw [if_neg hpool]
  by_cases hempty : peek16 s.mem (peek16 s.mem requestFrame) = 0
  · rw [if_pos hempty]
    exact Or.inl ⟨2, Or.inl rfl, rfl⟩
  rw [if_neg hempty]
  by_cases hlong : 256 < peek16 s.mem (peek16 s.mem requestFrame)
  · rw [if_pos hlong]
    exact Or.inl ⟨2, Or.inl rfl, rfl⟩
  rw [if_neg hlong]
  by_cases hhigh : hi (peek16 s.mem requestIndex) ≠ 0
  · rw [if_pos hhigh]
    exact Or.inl ⟨2, Or.inl rfl, rfl⟩
  rw [if_neg hhigh]
  by_cases hindex : peek s.mem exportCount < lo (peek16 s.mem requestIndex) ∨
      peek s.mem exportCount = lo (peek16 s.mem requestIndex)
  · rw [if_pos hindex]
    exact Or.inl ⟨2, Or.inl rfl, rfl⟩
  rw [if_neg hindex]
  refine Or.inr ⟨?_, _, rfl⟩
  constructor
  · exact hready
  · bv_omega
  · bv_omega
  · exact ⟨_, by bv_omega, poolSize_live rfl (by bv_omega)⟩
  · constructor
    · bv_omega
    · bv_omega
  · rw [not_or] at hindex
    have hzero : hi (peek16 s.mem requestIndex) = 0 := not_not.mp hhigh
    have hword := word_hi_lo (peek16 s.mem requestIndex)
    rw [hzero] at hword
    rw [← hword, toNat_word]
    bv_omega

end

/-! ## Requests -/

/-- A well formed request at DF20h, for an action. -/
def Asks (m : Mem) (hl : Word) (action : Byte) : Prop :=
  hl = 0xDF20 ∧ peek16 m 0xDF20 = 32 ∧ peek16 m 0xDF22 = 1 ∧ peek m 0xDF25 = 0 ∧
    peek m requestAction = action

instance (m : Mem) (hl : Word) (action : Byte) : Decidable (Asks m hl action) :=
  inferInstanceAs (Decidable (_ ∧ _))

/-- What a request comes to. -/
inductive Requested (bdos : Bdos δ) (fuel : Nat) (hl : Word) (s : Machine δ) (x : Answer δ) : Prop
  | load (asks : Asks s.mem hl 0) (run : load bdos fuel s = some x)
  | invalidate (asks : Asks s.mem hl 1) (run : x = finish 0 { s with mem := invalidate s.mem })
  | query (asks : Asks s.mem hl 2) (run : x = finish 0 { s with mem := describeLibrary s.mem })
  | invoke (asks : Asks s.mem hl 3) (run : x = invoke s)
  | bad (run : x = finish 2 s) (asks : ∀ action < 4, ¬Asks s.mem hl action)

theorem control_requested {bdos : Bdos δ} {fuel : Nat} {hl : Word} {s : Machine δ} {x : Answer δ}
    (h : libraryControl bdos fuel hl s = some x) : Requested bdos fuel hl s x := by
  unfold libraryControl at h
  dsimp only at h
  by_cases hhl : hl ≠ 0xDF20
  · rw [if_pos hhl] at h
    exact .bad (Option.some.inj h).symm fun _ _ ha => hhl ha.1
  rw [if_neg hhl] at h
  by_cases hsize : peek16 s.mem 0xDF20 ≠ 32
  · rw [if_pos hsize] at h
    exact .bad (Option.some.inj h).symm fun _ _ ha => hsize ha.2.1
  rw [if_neg hsize] at h
  by_cases hversion : peek16 s.mem 0xDF22 ≠ 1
  · rw [if_pos hversion] at h
    exact .bad (Option.some.inj h).symm fun _ _ ha => hversion ha.2.2.1
  rw [if_neg hversion] at h
  by_cases hflags : peek s.mem 0xDF25 ≠ 0
  · rw [if_pos hflags] at h
    exact .bad (Option.some.inj h).symm fun _ _ ha => hflags ha.2.2.2.1
  rw [if_neg hflags] at h
  have hasks {action : Byte} (ha : peek s.mem requestAction = action) : Asks s.mem hl action :=
    ⟨not_not.mp hhl, not_not.mp hsize, not_not.mp hversion, not_not.mp hflags, ha⟩
  by_cases h0 : peek s.mem requestAction = 0
  · rw [if_pos h0] at h
    exact .load (hasks h0) h
  rw [if_neg h0] at h
  by_cases h1 : peek s.mem requestAction = 1
  · rw [if_pos h1] at h
    exact .invalidate (hasks h1) (Option.some.inj h).symm
  rw [if_neg h1] at h
  by_cases h2 : peek s.mem requestAction = 2
  · rw [if_pos h2] at h
    exact .query (hasks h2) (Option.some.inj h).symm
  rw [if_neg h2] at h
  by_cases h3 : peek s.mem requestAction = 3
  · rw [if_pos h3] at h
    exact .invoke (hasks h3) (Option.some.inj h).symm
  rw [if_neg h3] at h
  refine .bad (Option.some.inj h).symm fun action hlt ha => ?_
  have haction := ha.2.2.2.2
  have hcases : action = 0 ∨ action = 1 ∨ action = 2 ∨ action = 3 := by bv_omega
  rcases hcases with rfl | rfl | rfl | rfl
  · exact h0 haction
  · exact h1 haction
  · exact h2 haction
  · exact h3 haction

end Z80Sbc.Bank.ControlCells
