import Z80Sbc.Bank.Release
import Z80Sbc.Bank.Allocate

/-! # First fit

The heap after a reset and any sequence of calls. Every call gets an arbitrary word, so a handle
may be stale, inside an extent, unaligned or pinned. -/

namespace Z80Sbc.Bank.FirstFit
open Z80Sbc.Z80 Z80Sbc.Bank Allocator ExtentTables FreeList ExtentMoves ExtentHeap
open Z80Sbc.Data.SortedLinks Z80Sbc.Data.Extents

/-! ## What the tables describe -/

def FreePage (t : Tables) (p : Nat) : Prop := ∃ b, Free t b ∧ b ≤ p ∧ p < b + t.length b

/-- The pages 8..29 are cut into extents, and the free ones are listed. -/
structure Partition (t : Tables) : Prop where
  bounds : ∀ b, Extent t b → b + t.length b ≤ 30
  covered : ∀ p, 8 ≤ p → p < 30 → ∃ b, Extent t b ∧ b ≤ p ∧ p < b + t.length b
  disjoint : ∀ a b, Extent t a → Extent t b → a ≠ b →
    a + t.length a ≤ b ∨ b + t.length b ≤ a
  predecessor : t.previous 8 = 2 ∧ ∀ b, Extent t b → b + t.length b < 30 →
    Extent t (b + t.length b) ∧ t.previous (b + t.length b) = b
  listed : ∃ l : List Nat, l.Pairwise (· < ·) ∧ (∀ b, b ∈ l ↔ Free t b) ∧ t.head = l.headD 0 ∧
    Threaded 0 t.next t.back 0 l
  apart : ∀ b, Free t b → ¬ Free t (b + t.length b)
  pages : ∀ p, p ∈ freePages (live t) ↔ FreePage t p
  count : t.free = 256 * (freePages (live t)).card

theorem Heap.partition {t : Tables} (h : Heap t) : Partition t where
  bounds _ := h.fits
  covered p h8 h30 := by
    obtain ⟨b, hb, hle, hlt⟩ := h.shape.layout.covers h8 h30
    exact ⟨b, ⟨hb, by omega⟩, hle, hlt⟩
  disjoint _ _ ha hb := h.shape.layout.disjoint ha.1 ha.2 hb.1 hb.2
  predecessor :=
    ⟨h.shape.pinned.bottom, fun b hb hlt => ⟨⟨by have := hb.1; omega,
      h.shape.layout.follows b hb.1 hb.2 hlt⟩,
        h.shape.previous b hb.1 (by have := hb.1; omega) hb.2 hlt⟩⟩
  listed := by
    classical
    refine ⟨(List.range 32).filter fun b => Free t b, ?_, fun b => ?_, ?_⟩
    · exact List.pairwise_lt_range.filter _
    · rw [List.mem_filter, List.mem_range, decide_eq_true_iff]
      exact ⟨And.right, fun hb => ⟨h.shape.listed.below b hb, hb⟩⟩
    · refine h.shape.listed.linked.threaded (List.pairwise_lt_range.filter _) fun b => ?_
      rw [List.mem_filter, List.mem_range, decide_eq_true_iff]
      exact ⟨And.right, fun hb => ⟨h.shape.listed.below b hb, hb⟩⟩
  apart := h.shape.apart
  pages _ := h.mem_freePages
  count := h.count

/-! ## Results -/

section
variable {m : Mem} {a : Byte} {hl : Word}

theorem view_error : view (error a m).2 = view m := by
  have hcontrol : view (completeControl 0 (poke m status a)) = view m := by
    unfold completeControl
    split
    next => exact view_aside (by decide)
    next =>
      rw [view_aside (by decide), view_aside (by decide), view_aside (by decide),
        view_aside (by decide), view_aside (by decide)]
  exact Allocate.view_leave.trans hcontrol

theorem view_ok : view (ok m).2 = view m := Allocate.view_leave

theorem peek_leave (h : hl ≠ privateReturn) : peek (leave m) hl = peek m hl := by
  unfold leave
  split
  next => rfl
  next => exact peek_poke_ne h

theorem status_error (ha : a ≠ 0) : peek (error a m).2 status = a := by
  refine (peek_leave (by decide)).trans ?_
  unfold completeControl
  split
  next => exact peek_poke
  next =>
    have hstatus : peek (poke (poke m status a) controlBusy 0) status = a := by
      rw [peek_poke_ne (by decide), peek_poke]
    simp only [hstatus]
    rw [if_pos ha, peek_poke_ne (by decide), peek_poke_ne (by decide), peek_poke]

end

/-! ## Handles -/

theorem selected_self {l : Byte} (hl : l.toNat < 32) :
    lengthPtr l = word 0xE7 l ∧ nextPtr l = word 0xE7 (l ||| 0x40) := by
  have hblock : l &&& 0x1F = l := BitVec.eq_of_toNat_eq (toNat_block hl)
  unfold lengthPtr nextPtr
  rw [hblock]
  exact ⟨rfl, rfl⟩

/-- The end of `valid`, for a block. -/
def validIndex (m : Mem) (l : Byte) : Option Byte :=
  if peek m (word 0xE7 l) = 0 then none
  else if peek m (word 0xE7 (l ||| 0x40)) ≠ 255 then none
  else some (l &&& 31)

theorem valid_eq {m : Mem} {hl : Word} : valid m hl =
    if lo hl ≠ 0 then none
    else if hi hl = 1 then validIndex m 1
    else if hi hl = 0xC0 then validIndex m 2
    else if hi hl < 0xC8 then none
    else if 0xDE ≤ hi hl then none
    else validIndex m (hi hl - 0xC0) := rfl

theorem validIndex_eq {m : Mem} {l : Byte} (hl : l.toNat < 32) : validIndex m l =
    if (view m).length l.toNat ≠ 0 ∧ (view m).next l.toNat = 255 then some l else none := by
  rw [validIndex, ← (selected_self hl).1, ← (selected_self hl).2, ← toNat_peek_length hl,
    ← toNat_peek_next hl, BitVec.eq_of_toNat_eq (toNat_block hl)]
  by_cases hlength : peek m (lengthPtr l) = 0
  · rw [if_pos hlength, if_neg fun hc => hc.1 (toNat_eq_zero.mp hlength)]
  · have hne : (peek m (lengthPtr l)).toNat ≠ 0 := fun he => hlength (toNat_eq_zero.mpr he)
    rw [if_neg hlength]
    by_cases hnext : peek m (nextPtr l) = 255
    · rw [if_neg fun hc => hc hnext, if_pos ⟨hne, eq_mark_iff.mp hnext⟩]
    · rw [if_pos hnext, if_neg fun hc => hnext (eq_mark_iff.mpr hc.2)]

/-- A word is the handle of an extent that is allocated in the pool. -/
def Handle (t : Tables) (hl : Word) (a : Nat) : Prop :=
  live t a ≠ 0 ∧ hl.toNat = 256 * (0xC0 + a)

theorem Handle.unique {t : Tables} {hl : Word} {a b : Nat} (ha : Handle t hl a)
    (hb : Handle t hl b) : a = b := by
  have hnat := ha.2
  have hnat' := hb.2
  omega

/-- The pool begins above the pinned extents, and above zero. -/
theorem not_handle {t : Tables} {hl : Word} {a : Nat} (h : hl = 0 ∨ hl = 0x0100 ∨ hl = 0xC000) :
    ¬ Handle t hl a := by
  rintro ⟨hlive, hnat⟩
  have h8 := (live_pos hlive).1.1
  have hle : hl.toNat ≤ 0xC000 := by rcases h with rfl | rfl | rfl <;> decide
  omega

theorem valid_spec {m : Mem} (h : Heap (view m)) (hl : Word) :
    hl = 0x0100 ∧ valid m hl = some 1 ∨ hl = 0xC000 ∧ valid m hl = some 2 ∨
      (∃ a : Byte, Handle (view m) hl a.toNat ∧ valid m hl = some a) ∨
        (hl ≠ 0x0100 ∧ hl ≠ 0xC000 ∧ (∀ a, ¬ Handle (view m) hl a) ∧ valid m hl = none) := by
  have hhi := toNat_hi hl
  have hlo := toNat_lo hl
  have hlt := hl.isLt
  have hrange : ∀ a, Handle (view m) hl a → 0xC8 ≤ (hi hl).toNat ∧ (hi hl).toNat < 0xDE ∧
      (hi hl).toNat = 0xC0 + a ∧ (lo hl).toNat = 0 := by
    rintro a ⟨hlive, hnat⟩
    have hext := (live_pos hlive).1
    have hfits := h.fits hext
    have h8 := hext.1
    have hlen := hext.2
    omega
  have hother : (lo hl).toNat ≠ 0 ∨ (hi hl).toNat < 0xC8 ∧ (hi hl).toNat ≠ 1 ∧
      (hi hl).toNat ≠ 0xC0 ∨ 0xDE ≤ (hi hl).toNat →
      hl ≠ 0x0100 ∧ hl ≠ 0xC000 ∧ ∀ a, ¬ Handle (view m) hl a := by
    intro hout
    refine ⟨?_, ?_, fun a ha => ?_⟩
    · rintro rfl
      rcases hout with hout | hout | hout <;> simp_all
    · rintro rfl
      rcases hout with hout | hout | hout <;> simp_all
    · have hin := hrange a ha
      omega
  rw [valid_eq]
  by_cases hl0 : lo hl = 0
  swap
  · have hout := hother (Or.inl fun he => hl0 (toNat_eq_zero.mpr he))
    exact Or.inr (Or.inr (Or.inr ⟨hout.1, hout.2.1, hout.2.2, if_pos hl0⟩))
  rw [if_neg fun hc => hc hl0]
  by_cases h1 : hi hl = 1
  · have hword : hl = 0x0100 := by
      rw [← word_hi_lo hl, h1, hl0]
      rfl
    have hlibrary := h.shape.pinned.library
    refine Or.inl ⟨hword, ?_⟩
    rw [if_pos h1, validIndex_eq (by decide)]
    refine if_pos ⟨?_, hlibrary.2⟩
    exact fun hc => absurd (hlibrary.1.symm.trans hc) (by decide)
  rw [if_neg h1]
  by_cases hC0 : hi hl = 0xC0
  · have hword : hl = 0xC000 := by
      rw [← word_hi_lo hl, hC0, hl0]
      rfl
    have hstack := h.shape.pinned.stack
    refine Or.inr (Or.inl ⟨hword, ?_⟩)
    rw [if_pos hC0, validIndex_eq (by decide)]
    refine if_pos ⟨?_, hstack.2⟩
    exact fun hc => absurd (hstack.1.symm.trans hc) (by decide)
  rw [if_neg hC0]
  by_cases hlow : hi hl < 0xC8
  · have hout := hother (Or.inr (Or.inl ⟨hlow, fun he => h1 (BitVec.eq_of_toNat_eq he),
      fun he => hC0 (BitVec.eq_of_toNat_eq he)⟩))
    exact Or.inr (Or.inr (Or.inr ⟨hout.1, hout.2.1, hout.2.2, if_pos hlow⟩))
  rw [if_neg hlow]
  by_cases hhigh : 0xDE ≤ hi hl
  · have hout := hother (Or.inr (Or.inr hhigh))
    exact Or.inr (Or.inr (Or.inr ⟨hout.1, hout.2.1, hout.2.2, if_pos hhigh⟩))
  rw [if_neg hhigh]
  have hge : 0xC8 ≤ (hi hl).toNat := Nat.le_of_not_lt hlow
  have hle : (hi hl).toNat < 0xDE := Nat.lt_of_not_le hhigh
  have hblock : (hi hl - 0xC0).toNat = (hi hl).toNat - 0xC0 := by
    rw [BitVec.toNat_sub]
    have hC0nat : (0xC0 : Byte).toNat = 0xC0 := rfl
    omega
  have hzero : (lo hl).toNat = 0 := toNat_eq_zero.mp hl0
  rw [validIndex_eq (by omega)]
  by_cases hused : (view m).length (hi hl - 0xC0).toNat ≠ 0 ∧
      (view m).next (hi hl - 0xC0).toNat = 255
  · refine Or.inr (Or.inr (Or.inl ⟨hi hl - 0xC0, ⟨?_, by omega⟩, if_pos hused⟩))
    rw [live_of_used (by omega) hused.2]
    exact hused.1
  · refine Or.inr (Or.inr (Or.inr ⟨fun he => h1 ?_, fun he => hC0 ?_, fun a ha => hused ?_,
      if_neg hused⟩))
    · rw [he]
      rfl
    · rw [he]
      rfl
    · have hin := hrange a ha
      have hself : (hi hl - 0xC0).toNat = a := by omega
      obtain ⟨hext, hnext, -⟩ := live_pos ha.1
      rw [hself]
      exact ⟨hext.2, hnext⟩

/-! ## Calls -/

/-- The pages that hold `n` bytes. -/
def pagesFor (n : Word) : Nat := (n.toNat + 255) / 256

structure Allocates (m : Mem) (n r : Word) (m' : Mem) : Prop where
  succeeds : r ≠ 0 ↔ 1 ≤ n.toNat ∧ n.toNat ≤ 5632 ∧
    ∃ b, Free (view m) b ∧ pagesFor n ≤ (view m).length b
  lowest : r ≠ 0 → ∃ s, r.toNat = 256 * (0xC0 + s) ∧
    Free (view m) s ∧ pagesFor n ≤ (view m).length s ∧
      (∀ b, Free (view m) b → pagesFor n ≤ (view m).length b → s ≤ b) ∧
        (∀ b, live (view m) b ≠ 0 → s + pagesFor n ≤ b ∨ b + live (view m) b ≤ s) ∧
          live (view m') = Function.update (live (view m)) s (pagesFor n)
  fails : r = 0 → view m' = view m

structure Releases (m : Mem) (hl r : Word) (m' : Mem) : Prop where
  null : hl = 0 → r = 1 ∧ m' = leave m
  allocated : ∀ a, Handle (view m) hl a → r = 1 ∧
    live (view m') = Function.update (live (view m)) a 0 ∧
      ∀ p, FreePage (view m') p ↔ FreePage (view m) p ∨ a ≤ p ∧ p < a + live (view m) a
  pinned : hl = 0x0100 ∨ hl = 0xC000 → r = 0 ∧ peek m' status = 5 ∧ view m' = view m
  other : hl ≠ 0 → hl ≠ 0x0100 → hl ≠ 0xC000 → (∀ a, ¬ Handle (view m) hl a) →
    r = 0 ∧ peek m' status = 3 ∧ view m' = view m

structure Sizes (m : Mem) (hl r : Word) (m' : Mem) : Prop where
  allocated : ∀ a, Handle (view m) hl a → r.toNat = 256 * live (view m) a
  pinned : (hl = 0x0100 → r = 0xBF00) ∧ (hl = 0xC000 → r = 0x0800)
  other : hl ≠ 0x0100 → hl ≠ 0xC000 → (∀ a, ¬ Handle (view m) hl a) →
    r = 0 ∧ peek m' status = 3
  same : view m' = view m

section
variable {m : Mem}

theorem allocate_spec (h : Heap (view m)) (n : Word) : ∃ r m',
    allocate 32 n m = some (r, m') ∧ Heap (view m') ∧ Allocates m n r m' := by
  have hlt := n.isLt
  -- the calls that fail before the list is read
  have hbad : ∀ a, ¬ (1 ≤ n.toNat ∧ n.toNat ≤ 5632 ∧
      ∃ b, Free (view m) b ∧ pagesFor n ≤ (view m).length b) →
      Heap (view (error a m).2) ∧ Allocates m n 0 (error a m).2 := by
    intro a hout
    rw [view_error]
    exact ⟨h, iff_of_false (fun hc => hc rfl) hout, fun hc => absurd rfl hc, fun _ => view_error⟩
  unfold allocate
  by_cases hn : n = 0
  · rw [if_pos hn]
    refine ⟨_, _, rfl, hbad 2 fun hc => ?_⟩
    rw [hn] at hc
    exact absurd hc.1 (by decide)
  rw [if_neg hn]
  have hpos : 0 < n.toNat := Nat.pos_of_ne_zero fun he => hn (BitVec.eq_of_toNat_eq he)
  have hpages : (hi (n - 1) + 1).toNat = pagesFor n % 256 := by
    have hpred : (n - 1).toNat = n.toNat - 1 := by bv_omega
    have hone : (1 : Byte).toNat = 1 := rfl
    rw [BitVec.toNat_add, toNat_hi, hpred, hone, pagesFor]
    omega
  have hbound : pagesFor n ≤ 256 := by
    unfold pagesFor
    omega
  have hlarge : n.toNat ≤ 5632 ↔ pagesFor n ≤ 22 := by
    unfold pagesFor
    omega
  have hsmall : 0 < pagesFor n := by
    unfold pagesFor
    omega
  simp only []
  by_cases hzero : hi (n - 1) + 1 = 0
  · rw [if_pos hzero]
    have hnat := toNat_eq_zero.mp hzero
    exact ⟨_, _, rfl, hbad 2 fun hc => by omega⟩
  rw [if_neg hzero]
  have hne : (hi (n - 1) + 1).toNat ≠ 0 := fun he => hzero (toNat_eq_zero.mpr he)
  by_cases hmany : 23 ≤ hi (n - 1) + 1
  · rw [if_pos hmany]
    have hnat : 23 ≤ (hi (n - 1) + 1).toNat := hmany
    exact ⟨_, _, rfl, hbad 2 fun hc => by omega⟩
  rw [if_neg hmany]
  have hfew : (hi (n - 1) + 1).toNat < 23 := Nat.lt_of_not_le hmany
  have hneed : (hi (n - 1) + 1).toNat = pagesFor n := by omega
  rcases find_lowest h.shape.listed (hi (n - 1) + 1) with
    ⟨hfind, hnone⟩ | ⟨s, hfind, hfree, hfit, hbefore⟩
  · simp only [hfind]
    refine ⟨_, _, rfl, hbad 4 ?_⟩
    rintro ⟨-, -, b, hb, hle⟩
    have hshort := hnone b hb
    omega
  · simp only [hfind]
    obtain ⟨m', hresult, hheap, hlive⟩ := Allocate.fit_spec h hfree (by omega) hfit
    have hext := hfree.1
    have hfits := h.fits hext
    have h8 := hext.1
    have hr : (word (s + 0xC0) 0).toNat = 256 * (0xC0 + s.toNat) := by
      have hC0 : (0xC0 : Byte).toNat = 0xC0 := rfl
      have h0 : (0 : Byte).toNat = 0 := rfl
      rw [toNat_word, BitVec.toNat_add, hC0, h0]
      omega
    have hr0 : word (s + 0xC0) 0 ≠ 0 := by
      intro he
      rw [he] at hr
      have h0 : (0 : Word).toNat = 0 := rfl
      omega
    rw [hneed] at hfit hbefore hlive
    refine ⟨_, m', hresult, hheap, ⟨?_, fun _ => ?_, fun hc => absurd hc hr0⟩⟩
    · exact iff_of_true hr0 ⟨hpos, by omega, s.toNat, hfree, hfit⟩
    · refine ⟨s.toNat, hr, hfree, hfit, fun b hb hle => ?_, fun b hb => ?_, hlive⟩
      · by_contra hlt'
        have hshort := hbefore b hb (by omega)
        omega
      · obtain ⟨hextb, hnext, hlen⟩ := live_pos hb
        have hne : s.toNat ≠ b := by
          rintro rfl
          exact hfree.2 hnext
        rw [hlen]
        rcases h.shape.layout.disjoint hext.1 hext.2 hextb.1 hextb.2 hne with hd | hd <;> omega

theorem release_spec (h : Heap (view m)) (hl : Word) : ∃ r m',
    release 32 hl m = some (r, m') ∧ Heap (view m') ∧ Releases m hl r m' := by
  unfold release
  by_cases hl0 : hl = 0
  · rw [if_pos hl0, hl0]
    refine ⟨1, leave m, rfl, ?_, fun _ => ⟨rfl, rfl⟩,
      fun a ha => absurd ha (not_handle (Or.inl rfl)), ?_, fun hc => absurd rfl hc⟩
    · rw [Allocate.view_leave]
      exact h
    · rintro (hc | hc)
      · exact absurd hc (by decide)
      · exact absurd hc (by decide)
  rw [if_neg hl0]
  have herror : ∀ e, Heap (view (error e m).2) := by
    intro e
    rw [view_error]
    exact h
  have hstop : hl = 0x0100 ∨ hl = 0xC000 → Releases m hl 0 (error 5 m).2 := fun hc =>
    ⟨fun he => absurd he hl0, fun a ha => absurd ha (not_handle (Or.inr hc)),
      fun _ => ⟨rfl, status_error (by decide), view_error⟩,
      fun _ h1 h2 => (hc.elim h1 h2).elim⟩
  rcases valid_spec h hl with ⟨he, hvalid⟩ | ⟨he, hvalid⟩ | ⟨a, ha, hvalid⟩ | ⟨h1, h2, hno, hvalid⟩
  · rw [hvalid]
    exact ⟨_, _, rfl, herror 5, hstop (Or.inl he)⟩
  · rw [hvalid]
    exact ⟨_, _, rfl, herror 5, hstop (Or.inr he)⟩
  · rw [hvalid]
    have h8 := (live_pos ha.1).1.1
    obtain ⟨m', hresult, hheap, hlive⟩ := Release.freeExtent_spec h ha.1
    have hpool : ¬ (a = 1 ∨ a = 2) := by
      rintro (rfl | rfl)
      · exact absurd h8 (by decide)
      · exact absurd h8 (by decide)
    simp only [if_neg hpool, hresult, Option.map_some]
    refine ⟨1, leave m', rfl, ?_, fun he => absurd he hl0, fun b hb => ⟨rfl, ?_, fun p => ?_⟩,
      fun hc => absurd ha (not_handle (Or.inr hc)), fun _ _ _ hc => absurd ha (hc _)⟩
    · rw [Allocate.view_leave]
      exact hheap
    · rw [Allocate.view_leave, hlive, ha.unique hb]
    · rw [Allocate.view_leave]
      unfold FreePage
      rw [← hheap.mem_freePages, ← h.mem_freePages, hlive, (h.freePages_release ha.1).1,
        Finset.mem_union, Finset.mem_Ico, ha.unique hb]
  · rw [hvalid]
    exact ⟨_, _, rfl, herror 3, fun he => absurd he hl0, fun a ha => absurd ha (hno a),
      fun hc => (hc.elim h1 h2).elim, fun _ _ _ _ => ⟨rfl, status_error (by decide), view_error⟩⟩

theorem size_spec (h : Heap (view m)) (hl : Word) :
    Heap (view (size hl m).2) ∧ Sizes m hl (size hl m).1 (size hl m).2 := by
  have hkeep : view (size hl m).2 = view m := by
    unfold size
    split
    next => exact view_error
    next => exact Allocate.view_leave
  have hword : ∀ a : Byte, a.toNat < 32 → valid m hl = some a →
      (size hl m).1 = word (peek m (lengthPtr a)) 0 ∧
        (size hl m).1.toNat = 256 * (view m).length a.toNat := by
    intro a ha hvalid
    have hr : (size hl m).1 = word (peek m (lengthPtr a)) 0 := by rw [size, hvalid]
    have h0 : (0 : Byte).toNat = 0 := rfl
    rw [hr, toNat_word, toNat_peek_length ha, h0]
    exact ⟨rfl, by omega⟩
  refine ⟨by rw [hkeep]; exact h, ?_⟩
  rcases valid_spec h hl with ⟨he, hvalid⟩ | ⟨he, hvalid⟩ | ⟨a, ha, hvalid⟩ | ⟨h1, h2, hno, hvalid⟩
  · have hr := (hword 1 (by decide) hvalid).2
    refine ⟨fun a ha => absurd ha (not_handle (Or.inr (Or.inl he))), ⟨fun _ => ?_, fun hc => ?_⟩,
      fun hc => absurd he hc, hkeep⟩
    · refine BitVec.eq_of_toNat_eq (hr.trans ?_)
      exact congrArg (256 * ·) h.shape.pinned.library.1
    · rw [he] at hc
      exact absurd hc (by decide)
  · have hr := (hword 2 (by decide) hvalid).2
    refine ⟨fun a ha => absurd ha (not_handle (Or.inr (Or.inr he))), ⟨fun hc => ?_, fun _ => ?_⟩,
      fun _ hc => absurd he hc, hkeep⟩
    · rw [he] at hc
      exact absurd hc (by decide)
    · refine BitVec.eq_of_toNat_eq (hr.trans ?_)
      exact congrArg (256 * ·) h.shape.pinned.stack.1
  · obtain ⟨hext, -, hlen⟩ := live_pos ha.1
    have hfits := h.fits hext
    have hlen0 := hext.2
    have hr := (hword a (by omega) hvalid).2
    refine ⟨fun b hb => ?_, ⟨fun hc => absurd ha (not_handle (Or.inr (Or.inl hc))),
      fun hc => absurd ha (not_handle (Or.inr (Or.inr hc)))⟩, fun _ _ hc => absurd ha (hc _), hkeep⟩
    rw [hr, ← ha.unique hb, hlen]
  · have hsize : size hl m = error 3 m := by rw [size, hvalid]
    refine ⟨fun a ha => absurd ha (hno a), ⟨fun hc => absurd hc h1, fun hc => absurd hc h2⟩,
      fun _ _ _ => ?_, hkeep⟩
    rw [hsize]
    exact ⟨rfl, status_error (by decide)⟩

end

/-! ## Reset -/

/-- The tables after a reset. -/
def resetTables : Tables where
  length := Function.update (Function.update (Function.update (fun _ => 0) 1 0xBF) 2 8) 8 22
  previous := Function.update (Function.update (fun _ => 0) 2 1) 8 2
  next := Function.update (Function.update (fun _ => 0) 1 255) 2 255
  back := fun _ => 0
  head := 8
  free := 0x1600

section
variable {m : Mem}

theorem entries_cleared {p : Byte → Word} {base : Nat} (h : 0xE700 ≤ base) (h' : base ≤ 0xE760)
    (hp : ∀ l, (p l).toNat = base + l.toNat % 32) :
    entries p (ldir (poke m 0xE700 0) 0xE700 0xE701 127) = fun _ => 0 := by
  funext b
  unfold entries
  split
  next =>
    have hin : Within 0xE700 (127 + 1) (p (BitVec.ofNat 8 b)) := by
      have hnat := hp (BitVec.ofNat 8 b)
      unfold Within
      bv_omega
    have hfill := peek_ldir_fill (m := poke m 0xE700 0) (by decide) hin
    rw [peek_poke] at hfill
    exact congrArg BitVec.toNat hfill
  next => rfl

theorem view_reset (h : (reset m).1 = 1) : view (reset m).2 = resetTables := by
  unfold reset at h ⊢
  by_cases hepoch : peek16 m epoch + 1 = 0
  · simp only [if_pos hepoch] at h
    have hzero : (0 : Word) = 1 := h
    exact absurd hzero (by decide)
  simp only [if_neg hepoch, view_ok]
  rw [show (0xE701 : Word) = lengthPtr 1 from by decide,
    show (0xE702 : Word) = lengthPtr 2 from by decide,
    show (0xE722 : Word) = previousPtr 2 from by decide,
    show (0xE728 : Word) = previousPtr 8 from by decide,
    show (0xE741 : Word) = nextPtr 1 from by decide,
    show (0xE742 : Word) = nextPtr 2 from by decide,
    show (0xE708 : Word) = lengthPtr 8 from by decide]
  rw [view_freeHead, view_freeBytes, view_lengthPtr (by decide), view_nextPtr (by decide),
    view_nextPtr (by decide), view_previousPtr (by decide), view_previousPtr (by decide),
    view_lengthPtr (by decide), view_lengthPtr (by decide)]
  have hl : lengthPtr 1 = 0xE701 := by decide
  rw [hl]
  unfold view
  rw [entries_cleared (by decide) (by decide) fun _ => toNat_lengthPtr,
    entries_cleared (by decide) (by decide) fun _ => toNat_previousPtr,
    entries_cleared (by decide) (by decide) fun _ => toNat_nextPtr,
    entries_cleared (by decide) (by decide) fun _ => toNat_backPtr]
  rfl

end

theorem heap_reset : Heap resetTables := by
  have hlen : ∀ b, 8 ≤ b → resetTables.length b = if b = 8 then 22 else 0 := by
    intro b hb
    show Function.update (Function.update (Function.update (fun _ => 0) 1 0xBF) 2 8) 8 22 b = _
    rcases eq_or_ne b 8 with rfl | hne
    · rw [Function.update_self, if_pos rfl]
    · rw [Function.update_of_ne hne, Function.update_of_ne (by omega),
        Function.update_of_ne (by omega), if_neg hne]
  have hnext : ∀ b, 8 ≤ b → resetTables.next b = 0 := by
    intro b hb
    show Function.update (Function.update (fun _ => 0) 1 255) 2 255 b = 0
    rw [Function.update_of_ne (by omega), Function.update_of_ne (by omega)]
  have hlive : live resetTables = fun _ => 0 := by
    funext b
    refine if_neg fun hc => ?_
    rw [hnext b hc.1] at hc
    exact absurd hc.2 (by decide)
  have height : ∀ b, (if b = 8 then 22 else 0) ≠ 0 → b = 8 := by
    intro b hlb
    by_contra hne
    exact hlb (if_neg hne)
  have hshape : Shape (fun b => b = 8) (fun b => if b = 8 then 22 else 0) 0 resetTables := by
    constructor
    · refine ⟨by decide, ?_, ?_, ?_⟩
      · intro b hb hlb
        obtain rfl := height b hlb
        decide
      · intro b c hb hbc hc
        exact if_neg (by omega)
      · intro b hb hlb hend
        obtain rfl := height b hlb
        exact absurd hend (by decide)
    · exact fun b hb _ => hlen b hb
    · intro b hb hne hlb hend
      obtain rfl := height b hlb
      exact absurd hend (by decide)
    · exact ⟨by decide, by decide, by decide⟩
    · refine ⟨⟨?_, ?_, ?_, ?_⟩, ?_⟩
      · rintro b rfl
        decide
      · exact ⟨Or.inl rfl, Or.inr rfl, fun _ => by decide, fun c hc => Or.inr ⟨by decide, hc.ge⟩⟩
      · rintro b rfl
        exact ⟨Or.inr rfl, Or.inl rfl, fun hc => absurd rfl hc, fun c hc => Or.inl hc.le⟩
      · rintro b rfl
        exact ⟨Or.inl rfl, Or.inr rfl, fun _ => by decide, fun c hc => Or.inr ⟨by decide, hc.ge⟩⟩
      · rintro b rfl
        decide
    · rintro b rfl
      exact ⟨by decide, by decide⟩
    · rintro b rfl
      decide
  refine heap_of_shape hshape (fun b hb hlb => ?_) ?_
  · rw [hnext b hb]
    exact iff_of_true (height b hlb) (by decide)
  · rw [hlive]
    decide

/-! ## Sequences of calls -/

/-- The calls, each of them `e` and HL. -/
def runCalls (fuel : Nat) (calls : List (Byte × Word)) (m : Mem) : Option Mem :=
  calls.foldlM (fun m c => (heapCall fuel c.1 c.2 m).map Prod.snd) m

theorem heapCall_heap {m : Mem} (h : Heap (view m)) {e : Byte} (he : e < 4) (hl : Word) :
    ∃ r m', heapCall 32 e hl m = some (r, m') ∧ Heap (view m') := by
  unfold heapCall
  by_cases h0 : e = 0
  · rw [if_pos h0]
    obtain ⟨r, m', hcall, hheap, -⟩ := allocate_spec h hl
    exact ⟨r, m', hcall, hheap⟩
  by_cases h1 : e = 1
  · rw [if_neg h0, if_pos h1]
    obtain ⟨r, m', hcall, hheap, -⟩ := release_spec h hl
    exact ⟨r, m', hcall, hheap⟩
  by_cases h2 : e = 2
  · rw [if_neg h0, if_neg h1, if_pos h2]
    exact ⟨_, _, rfl, (size_spec h hl).1⟩
  have h3 : e = 3 := by bv_omega
  rw [if_neg h0, if_neg h1, if_neg h2, if_pos h3]
  refine ⟨_, _, rfl, ?_⟩
  have hsame : view (leave m) = view m := Allocate.view_leave
  rw [← hsame] at h
  exact h

theorem runCalls_heap {m : Mem} (h : Heap (view m)) {calls : List (Byte × Word)}
    (hcalls : ∀ c ∈ calls, c.1 < 4) :
    ∃ m', runCalls 32 calls m = some m' ∧ Heap (view m') := by
  induction calls generalizing m with
  | nil => exact ⟨m, rfl, h⟩
  | cons c calls ih =>
    obtain ⟨r, m₁, hcall, hheap⟩ := heapCall_heap h (hcalls c List.mem_cons_self) c.2
    obtain ⟨m', hrun, hheap'⟩ := ih hheap fun c' hc => hcalls c' (List.mem_cons_of_mem c hc)
    refine ⟨m', ?_, hheap'⟩
    rw [runCalls, List.foldlM_cons, hcall]
    exact hrun

/-- After a reset and any calls the tables are a partition of the pool, and the next call is
first fit. -/
theorem heap_first_fit (m : Mem) (hreset : (reset m).1 = 1) (calls : List (Byte × Word))
    (hcalls : ∀ c ∈ calls, c.1 < 4) :
    ∃ m', runCalls 32 calls (reset m).2 = some m' ∧ Partition (view m') ∧
      (∀ n, ∃ r m'', heapCall 32 0 n m' = some (r, m'') ∧ Allocates m' n r m'') ∧
      (∀ hl, ∃ r m'', heapCall 32 1 hl m' = some (r, m'') ∧ Releases m' hl r m'') ∧
      (∀ hl, ∃ r m'', heapCall 32 2 hl m' = some (r, m'') ∧ Sizes m' hl r m'') ∧
      ∀ hl, ∃ r m'', heapCall 32 3 hl m' = some (r, m'') ∧
        r.toNat = 256 * (freePages (live (view m'))).card ∧ view m'' = view m' := by
  have hstart : Heap (view (reset m).2) := by
    rw [view_reset hreset]
    exact heap_reset
  obtain ⟨m', hrun, hheap⟩ := runCalls_heap hstart hcalls
  refine ⟨m', hrun, Heap.partition hheap, fun n => ?_, fun hl => ?_, fun hl => ?_, fun hl => ?_⟩
  · obtain ⟨r, m'', hcall, -, hspec⟩ := allocate_spec hheap n
    exact ⟨r, m'', hcall, hspec⟩
  · obtain ⟨r, m'', hcall, -, hspec⟩ := release_spec hheap hl
    exact ⟨r, m'', hcall, hspec⟩
  · exact ⟨_, _, rfl, (size_spec hheap hl).2⟩
  · exact ⟨_, _, rfl, hheap.count, Allocate.view_leave⟩

def blankMem : Mem := fun _ _ => 0

/-- Two extents; the lower one is freed, split, and freed again from the inside. -/
theorem heap_first_fit_split : ∃ m', runCalls 32 [(0, 600), (0, 5000), (1, 0xC800), (0, 300),
    (1, 0xC900), (3, 0), (1, 0xC000)] (reset blankMem).2 = some m' ∧ Partition (view m') := by
  obtain ⟨m', hrun, hpartition, -⟩ := heap_first_fit blankMem rfl
    [(0, 600), (0, 5000), (1, 0xC800), (0, 300), (1, 0xC900), (3, 0), (1, 0xC000)] (by simp)
  exact ⟨m', hrun, hpartition⟩

end Z80Sbc.Bank.FirstFit
