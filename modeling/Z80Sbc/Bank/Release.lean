import Z80Sbc.Bank.ExtentHeap

/-! # Releasing an extent

`freeExtent`: the extent becomes the anchor, takes in the free extents beside it, and is listed. -/

namespace Z80Sbc.Bank.Release
open Z80Sbc.Z80 Z80Sbc.Bank Allocator ExtentTables FreeList ExtentMoves ExtentHeap
open Z80Sbc.Data.SortedLinks Z80Sbc.Data.Extents

/-- The extent `a` of `t₀` is being freed: what was allocated beside it still is. -/
structure Merging (t₀ : Tables) (a : Nat) (F : Nat → Prop) (len : Nat → Nat) (anchor : Nat)
    (t : Tables) : Prop where
  shape : Shape F len anchor t
  extent : 8 ≤ anchor ∧ len anchor ≠ 0 ∧ ¬ F anchor
  members : ∀ b, 8 ≤ b → len b ≠ 0 → b ≠ anchor → (F b ↔ t₀.next b ≠ 255)
  next : ∀ b, t.next b = 255 ↔ t₀.next b = 255
  count : t.free = t₀.free
  allocated : ∀ b, 8 ≤ b → b ≠ a → t₀.next b = 255 → len b = t₀.length b
  freed : t₀.next anchor = 255 → anchor = a
  gone : anchor ≠ a → len a = 0

variable {t₀ t : Tables} {a anchor q r : Nat} {F : Nat → Prop} {len : Nat → Nat}

/-- The free extent `r` beside the anchor is taken in; `q` is the first of the two. -/
theorem Merging.absorb (h : Merging t₀ a F len anchor t) (hr : F r) (hq : 8 ≤ q) (hlq : len q ≠ 0)
    (hcase : q = r ∧ anchor = q + len q ∨ q = anchor ∧ r = q + len q) :
    Merging t₀ a (fun b => F b ∧ b ≠ r) (join len q) q
      { unlinked t r with length := Function.update t.length (q + len q) 0 } := by
  have hranchor : r ≠ anchor := by
    rintro rfl
    exact h.extent.2.2 hr
  have hrextent := h.shape.extent r hr
  have hrnext : t₀.next r ≠ 255 := (h.members r hrextent.1 hrextent.2 hranchor).mp hr
  have hend : q + len q < 30 := by
    have hr30 := h.shape.layout.fits r hrextent.1 hrextent.2
    have hla := h.extent.2.1
    have ha30 := h.shape.layout.fits anchor h.extent.1 hla
    have hlr := hrextent.2
    omega
  have hFq : ¬ (F q ∧ q ≠ r) := by
    rintro ⟨hF, hne⟩
    rcases hcase with ⟨he, -⟩ | ⟨rfl, -⟩
    · exact hne he
    · exact h.extent.2.2 hF
  have hFend : ¬ (F (q + len q) ∧ q + len q ≠ r) := by
    rintro ⟨hF, hne⟩
    rcases hcase with ⟨-, he⟩ | ⟨-, he⟩
    · exact h.extent.2.2 (he ▸ hF)
    · exact hne he.symm
  have hrest : ∀ b, b ≠ q → b ≠ q + len q → b ≠ anchor ∧ b ≠ r := by
    intro b hb hb'
    omega
  constructor
  · exact (h.shape.unlink hr).join hq hlq hend hFq hFend (by omega)
  · exact ⟨hq, by rw [join_start]; omega, hFq⟩
  · intro b hb hlb hne
    have hne' : b ≠ q + len q := by
      rintro rfl
      exact hlb (join_end hlq)
    rw [join_of_ne hne hne'] at hlb
    obtain ⟨hba, hbr⟩ := hrest b hne hne'
    rw [← h.members b hb hlb hba]
    exact ⟨And.left, fun hF => ⟨hF, hbr⟩⟩
  · intro b
    exact (unlinked_next_eq h.shape.listed hr).trans (h.next b)
  · exact h.count
  · intro b hb hba hnext
    have hbr : b ≠ r := by
      rintro rfl
      exact hrnext hnext
    have hbanchor : b ≠ anchor := by
      rintro rfl
      exact hba (h.freed hnext)
    rw [join_of_ne (by omega) (by omega)]
    exact h.allocated b hb hba hnext
  · intro hnext
    rcases hcase with ⟨rfl, -⟩ | ⟨rfl, -⟩
    · exact absurd hnext hrnext
    · exact h.freed hnext
  · intro hqa
    rcases eq_or_ne a (q + len q) with he | hne
    · rw [he]
      exact join_end hlq
    · rw [join_of_ne hqa.symm hne]
      refine h.gone fun he => ?_
      omega

/-! ## The extents beside the anchor -/

section
variable {m : Mem} {anchor length : Byte}

/-- What lies before the anchor: the pinned extents, or an extent of the pool. -/
theorem Merging.previous_cases (h : Merging t₀ a F len anchor.toNat (view m)) :
    (view m).previous anchor.toNat = 2 ∧ anchor.toNat = 8 ∨
      8 ≤ (view m).previous anchor.toNat ∧ len ((view m).previous anchor.toNat) ≠ 0 ∧
        (view m).previous anchor.toNat + len ((view m).previous anchor.toNat) = anchor.toNat := by
  obtain ⟨h8, hlen, -⟩ := h.extent
  rcases Nat.eq_or_lt_of_le h8 with he | hlt
  · left
    rw [← he]
    exact ⟨h.shape.pinned.bottom, rfl⟩
  · right
    obtain ⟨b, hb, hlb, hend⟩ := h.shape.layout.exists_previous hlt hlen
    have hfits := h.shape.layout.fits _ h8 hlen
    have hprevious := h.shape.previous b hb (by omega) hlb (by omega)
    rw [hend] at hprevious
    rw [hprevious]
    exact ⟨hb, hlb, hend⟩

theorem Merging.mergeLeft (h : Merging t₀ a F len anchor.toNat (view m))
    (hlength : length.toNat = len anchor.toNat) :
    ∃ F' len' anchor' length' m', mergeLeft anchor length m = (anchor', length', m') ∧
      Merging t₀ a F' len' anchor'.toNat (view m') ∧ length'.toNat = len' anchor'.toNat ∧
        ∀ b, F' b → b + len' b ≠ anchor'.toNat := by
  obtain ⟨h8, hlen, hF⟩ := h.extent
  have hfits := h.shape.layout.fits _ h8 hlen
  have hprevious : (peek m (previousPtr anchor)).toNat = (view m).previous anchor.toNat :=
    toNat_peek_previous (by omega)
  have hlt : (peek m (previousPtr anchor)).toNat < 32 := by
    rw [hprevious]
    rcases h.previous_cases with hcase | hcase <;> omega
  have hnext : (peek m (nextPtr (peek m (previousPtr anchor)))).toNat =
      (view m).next ((view m).previous anchor.toNat) := by
    rw [toNat_peek_next hlt, hprevious]
  unfold Allocator.mergeLeft
  rw [if_neg]
  swap
  · rw [toNat_eq_zero, hprevious]
    rcases h.previous_cases with hcase | hcase <;> omega
  by_cases hused : (view m).next ((view m).previous anchor.toNat) = 255
  · rw [if_pos (eq_mark_iff.mpr (hnext.trans hused))]
    refine ⟨F, len, anchor, length, m, rfl, h, hlength, fun b hb he => ?_⟩
    obtain ⟨hb8, hlb⟩ := h.shape.extent b hb
    have hbefore := h.shape.previous b hb8 (by omega) hlb (by omega)
    rw [he] at hbefore
    rw [hbefore] at hused
    exact h.shape.listed.next_ne hb hused
  · rw [if_neg fun he => hused (hnext.symm.trans (eq_mark_iff.mp he))]
    rcases h.previous_cases with ⟨hstack, -⟩ | ⟨hp8, hlp, hend⟩
    · rw [hstack] at hused
      exact absurd h.shape.pinned.stack.2 hused
    have hFp : F ((view m).previous anchor.toNat) :=
      (h.members _ hp8 hlp (by omega)).mpr fun he => hused ((h.next _).mpr he)
    have hblock : (peek m (previousPtr anchor) &&& 31).toNat = (view m).previous anchor.toNat :=
      (toNat_block hlt).trans hprevious
    have habsorb := h.absorb hFp hp8 hlp (Or.inl ⟨rfl, hend.symm⟩)
    rw [hend] at habsorb
    have hunlink := h.shape.listed.unlink (by rw [hblock]; exact hFp)
    rw [hblock] at hunlink
    have hview : view (poke (unlink m (peek m (previousPtr anchor) &&& 31)) (lengthPtr anchor) 0) =
        { unlinked (view m) ((view m).previous anchor.toNat) with
          length := Function.update (view m).length anchor.toNat 0 } := by
      rw [view_lengthPtr (by omega), hunlink.1]
      rfl
    refine ⟨fun b => F b ∧ b ≠ (view m).previous anchor.toNat,
      join len ((view m).previous anchor.toNat), _, _, _, rfl, ?_, ?_, ?_⟩
    · rw [hview, hblock]
      exact habsorb
    · have hread : (peek (poke (unlink m (peek m (previousPtr anchor) &&& 31)) (lengthPtr anchor) 0)
          (lengthPtr (peek m (previousPtr anchor) &&& 31))).toNat =
            len ((view m).previous anchor.toNat) := by
        rw [toNat_peek_length (by omega), hview, hblock]
        show Function.update (view m).length anchor.toNat 0 _ = _
        rw [Function.update_of_ne (by omega)]
        exact h.shape.length _ hp8 (by omega)
      rw [hblock, join_start, hend, BitVec.toNat_add, hread, hlength]
      omega
    · intro b hb he
      rw [hblock] at he
      obtain ⟨hb8, hlb⟩ := h.shape.extent b hb.1
      rw [join_of_ne hb.2 (by intro hba; rw [hba, hend] at hb; exact hF hb.1)] at he
      exact h.shape.apart b hb.1 (he ▸ hFp)

theorem Merging.mergeRight (h : Merging t₀ a F len anchor.toNat (view m))
    (hlength : length.toNat = len anchor.toNat) (hleft : ∀ b, F b → b + len b ≠ anchor.toNat) :
    ∃ F' len' length' m', mergeRight anchor length m = (length', m') ∧
      Merging t₀ a F' len' anchor.toNat (view m') ∧ length'.toNat = len' anchor.toNat ∧
        (∀ b, F' b → b + len' b ≠ anchor.toNat) ∧ ¬ F' (anchor.toNat + len' anchor.toNat) := by
  obtain ⟨h8, hlen, hF⟩ := h.extent
  have hfits := h.shape.layout.fits _ h8 hlen
  have hend : (length + anchor).toNat = anchor.toNat + len anchor.toNat := by
    rw [BitVec.toNat_add]
    omega
  unfold Allocator.mergeRight
  by_cases h30 : length + anchor = 30
  · rw [if_pos h30]
    refine ⟨F, len, length, m, rfl, h, hlength, hleft, fun hb => ?_⟩
    have hlast : (length + anchor).toNat = 30 := by
      rw [h30]
      rfl
    have hextent := h.shape.extent _ hb
    have hover := h.shape.layout.fits _ hextent.1 hextent.2
    omega
  rw [if_neg h30]
  have hlt : anchor.toNat + len anchor.toNat < 30 := by
    have hne : (length + anchor).toNat ≠ 30 := fun he => h30 (BitVec.eq_of_toNat_eq he)
    omega
  have hnext : (peek m (nextPtr (length + anchor))).toNat =
      (view m).next (anchor.toNat + len anchor.toNat) := by
    rw [toNat_peek_next (by omega), hend]
  have hlr := h.shape.layout.follows _ h8 hlen hlt
  by_cases hused : (view m).next (anchor.toNat + len anchor.toNat) = 255
  · rw [if_pos (eq_mark_iff.mpr (hnext.trans hused))]
    exact ⟨F, len, length, m, rfl, h, hlength, hleft, fun hb => h.shape.listed.next_ne hb hused⟩
  · rw [if_neg fun he => hused (hnext.symm.trans (eq_mark_iff.mp he))]
    have hFr : F (anchor.toNat + len anchor.toNat) :=
      (h.members _ (by omega) hlr (by omega)).mpr fun he => hused ((h.next _).mpr he)
    have hblock : (length + anchor &&& 31).toNat = anchor.toNat + len anchor.toNat :=
      (toNat_block (by omega)).trans hend
    have habsorb := h.absorb hFr h8 hlen (Or.inr ⟨rfl, rfl⟩)
    have hunlink := h.shape.listed.unlink (by rw [hblock]; exact hFr)
    rw [hblock] at hunlink
    refine ⟨fun b => F b ∧ b ≠ anchor.toNat + len anchor.toNat, join len anchor.toNat, _, _, rfl,
      ?_, ?_, ?_, ?_⟩
    · rw [view_lengthPtr (by omega), hunlink.1, hblock]
      exact habsorb
    · have hread : (peek (unlink m (length + anchor &&& 31))
          (lengthPtr (length + anchor &&& 31))).toNat = len (anchor.toNat + len anchor.toNat) := by
        rw [toNat_peek_length (by omega), hunlink.1, hblock]
        exact h.shape.length _ (by omega) (by omega)
      have hover := h.shape.layout.fits _ (by omega) hlr
      rw [join_start, BitVec.toNat_add, hread, hlength]
      omega
    · intro b hb he
      have hne : b ≠ anchor.toNat := by
        rintro rfl
        exact hF hb.1
      rw [join_of_ne hne hb.2] at he
      exact hleft b hb.1 he
    · rintro ⟨hb, -⟩
      rw [join_start, ← Nat.add_assoc] at hb
      exact h.shape.apart _ hFr hb

end

/-! ## The whole release -/

section
variable {m : Mem} {anchor length : Byte}

theorem Merging.commit (h : Merging t₀ a F len anchor.toNat (view m))
    (hlength : length.toNat = len anchor.toNat) (hleft : ∀ b, F b → b + len b ≠ anchor.toNat)
    (hright : ¬ F (anchor.toNat + len anchor.toNat)) (ha : 8 ≤ a) :
    ∃ m', commit 32 anchor length m = some m' ∧
      live (view m') = Function.update (live t₀) a 0 ∧ (view m').free = t₀.free ∧
        ∃ F', Shape F' len 0 (view m') ∧
          ∀ b, 8 ≤ b → len b ≠ 0 → (F' b ↔ (view m').next b ≠ 255) := by
  obtain ⟨h8, hlen, hF⟩ := h.extent
  have hfits := h.shape.layout.fits _ h8 hlen
  have hend : (length + (anchor &&& 31)).toNat = anchor.toNat + len anchor.toNat := by
    rw [BitVec.toNat_add, toNat_block (by omega)]
    omega
  have hsettle := h.shape.settle h8 hlen
  -- the tables before the extent is listed
  have hview : view (if length + (anchor &&& 31) = 30 then poke m (lengthPtr anchor) length
      else poke (poke m (lengthPtr anchor) length)
        (previousPtr (length + (anchor &&& 31))) anchor) =
      { view m with
        length := Function.update (view m).length anchor.toNat (len anchor.toNat)
        previous := if anchor.toNat + len anchor.toNat = 30 then (view m).previous
          else Function.update (view m).previous (anchor.toNat + len anchor.toNat)
            anchor.toNat } := by
    rw [view_settle (by omega), view_lengthPtr (by omega), hlength, hend]
  rw [← hview] at hsettle
  obtain ⟨m', d, e, hinsert, hde, hview', hlisted⟩ :=
    hsettle.listed.insert hF (by omega) (by omega)
  rw [hview'] at hlisted
  have hshape := hsettle.insert h8 hlen hF hleft hright hde.left hlisted
  rw [← hview'] at hshape hlisted
  have hother : ∀ b, b ≠ anchor.toNat → ((view m').next b = 255 ↔ t₀.next b = 255) := by
    intro b hne
    rw [hview', inserted_next_eq hsettle.listed hde.left (by omega) hne, hview]
    exact h.next b
  refine ⟨m', hinsert, ?_, ?_, _, hshape, fun b hb hlb => ?_⟩
  · funext b
    by_cases hb : 8 ≤ b
    swap
    · rw [Function.update_of_ne (by omega), live, if_neg fun hc => hb hc.1, live,
        if_neg fun hc => hb hc.1]
    have hlb := hshape.length b hb (by omega)
    rcases eq_or_ne b a with rfl | hba
    · rw [Function.update_self]
      by_cases hb' : anchor.toNat = b
      · exact live_of_unused (hlisted.next_ne (Or.inr hb'.symm))
      · rw [live, hlb, h.gone hb', ite_self]
    · rw [Function.update_of_ne hba]
      by_cases hnext : t₀.next b = 255
      · have hne : b ≠ anchor.toNat := by
          rintro rfl
          exact hba (h.freed hnext)
        rw [live_of_used hb hnext, live_of_used hb ((hother b hne).mpr hnext), hlb,
          h.allocated b hb hba hnext]
      · rw [live_of_unused hnext]
        rcases eq_or_ne b anchor.toNat with rfl | hne
        · exact live_of_unused (hlisted.next_ne (Or.inr rfl))
        · exact live_of_unused fun hc => hnext ((hother b hne).mp hc)
  · have hcount := congrArg Tables.free hview
    exact (congrArg Tables.free hview').trans (hcount.trans h.count)
  · rcases eq_or_ne b anchor.toNat with rfl | hne
    · exact iff_of_true (Or.inr rfl) (hlisted.next_ne (Or.inr rfl))
    · rw [Ne, hother b hne, ← Ne, ← h.members b hb hlb hne]
      exact ⟨fun hc => hc.resolve_right hne, Or.inl⟩

theorem Heap.merging (h : Heap t) (ha : live t a ≠ 0) : Merging t a (Free t) t.length a t where
  shape :=
    { h.shape with
      length := fun _ _ _ => rfl
      previous := fun b hb _ hlb hend => h.shape.previous b hb (by omega) hlb hend }
  extent := ⟨(live_pos ha).1.1, (live_pos ha).1.2, fun hc => hc.2 (live_pos ha).2.1⟩
  members b hb hlb _ := ⟨And.right, fun hnext => ⟨⟨hb, hlb⟩, hnext⟩⟩
  next _ := Iff.rfl
  count := rfl
  allocated _ _ _ _ := rfl
  freed _ := rfl
  gone hc := absurd rfl hc

/-- The count of free bytes, in whole pages. -/
theorem toNat_pages {w : Word} {n : Nat} (h : w.toNat = 256 * n) :
    (hi w).toNat = n ∧ (lo w).toNat = 0 := by
  rw [toNat_hi, toNat_lo]
  omega

theorem freeExtent_spec {a : Byte} (h : Heap (view m)) (ha : live (view m) a.toNat ≠ 0) :
    ∃ m', freeExtent 32 a m = some m' ∧ Heap (view m') ∧
      live (view m') = Function.update (live (view m)) a.toNat 0 := by
  obtain ⟨hext, hnext, hlive⟩ := live_pos ha
  have hfits := h.fits hext
  have h8 := hext.1
  have hlength : (peek m (lengthPtr a)).toNat = (view m).length a.toNat :=
    toNat_peek_length (by omega)
  obtain ⟨-, hcard⟩ := h.freePages_release ha
  have hle := card_freePages_le (Function.update (live (view m)) a.toNat 0)
  obtain ⟨hhi, hlo⟩ := toNat_pages h.count
  have hfree : (word (hi (peek16 m freeBytes) + peek m (lengthPtr a))
      (lo (peek16 m freeBytes))).toNat =
        256 * (freePages (Function.update (live (view m)) a.toNat 0)).card := by
    rw [toNat_word, BitVec.toNat_add, hlo, hhi, hlength]
    omega
  have hview : view (poke16 m freeBytes (word (hi (peek16 m freeBytes) + peek m (lengthPtr a))
      (lo (peek16 m freeBytes)))) =
        { view m with
          free := 256 * (freePages (Function.update (live (view m)) a.toNat 0)).card } := by
    rw [view_freeBytes, hfree]
  have hstart : Merging { view m with
      free := 256 * (freePages (Function.update (live (view m)) a.toNat 0)).card } a.toNat
        (Free (view m)) (view m).length a.toNat (view (poke16 m freeBytes
          (word (hi (peek16 m freeBytes) + peek m (lengthPtr a)) (lo (peek16 m freeBytes))))) := by
    rw [hview]
    obtain ⟨hshape, hextent, hmembers, -, -, -, -, -⟩ := Heap.merging h ha
    exact ⟨hshape.count, hextent, hmembers, fun _ => Iff.rfl, rfl, fun _ _ _ _ => rfl,
      fun _ => rfl, fun hc => absurd rfl hc⟩
  obtain ⟨F₁, len₁, anchor, length, m₁, hl, h₁, hlen₁, hleft⟩ := hstart.mergeLeft hlength
  obtain ⟨F₂, len₂, length', m₂, hr, h₂, hlen₂, hleft', hright⟩ := h₁.mergeRight hlen₁ hleft
  obtain ⟨m', hcommit, hlive', hfree', F', hshape, hF'⟩ := h₂.commit hlen₂ hleft' hright h8
  have hlive'' : live (view m') = Function.update (live (view m)) a.toNat 0 := hlive'
  refine ⟨m', ?_, heap_of_shape hshape hF' ?_, hlive''⟩
  · unfold freeExtent
    simp only [hl, hr, hcommit]
  · rw [hlive'', hfree']

end

end Z80Sbc.Bank.Release
