import Mathlib.Data.Finset.Card
import Mathlib.Order.Interval.Finset.Nat
import Z80Sbc.Bank.ExtentMoves

/-! # The heap of extents

What holds of the tables between two calls, and the heap that they stand for: the allocated
extents, and the pages of the pool that none of them holds. -/

namespace Z80Sbc.Bank.ExtentHeap
open Z80Sbc.Bank ExtentTables FreeList ExtentMoves Z80Sbc.Data.Extents

def Extent (t : Tables) (b : Nat) : Prop := 8 ≤ b ∧ t.length b ≠ 0

/-- The extent at `b` is not marked as allocated. -/
def Free (t : Tables) (b : Nat) : Prop := Extent t b ∧ t.next b ≠ 255

/-- The pages of the allocated extent at `b`. -/
def live (t : Tables) (b : Nat) : Nat := if 8 ≤ b ∧ t.next b = 255 then t.length b else 0

/-- The pages that no extent of `live` holds. -/
def freePages (live : Nat → Nat) : Finset Nat :=
  (Finset.Ico 8 30).filter fun p => ∀ b ≤ p, b + live b ≤ p

structure Heap (t : Tables) : Prop where
  shape : Shape (Free t) t.length 0 t
  count : t.free = 256 * (freePages (live t)).card

section
variable {t : Tables} {F : Nat → Prop} {len : Nat → Nat} {a b p : Nat}

/-- The tables are settled, and all that is listed is free. -/
theorem heap_of_shape (h : Shape F len 0 t)
    (hF : ∀ b, 8 ≤ b → len b ≠ 0 → (F b ↔ t.next b ≠ 255))
    (hcount : t.free = 256 * (freePages (live t)).card) : Heap t := by
  have hlen : ∀ b, 8 ≤ b → t.length b = len b := fun b hb => h.length b hb (by omega)
  have hfree : Free t = F := by
    funext b
    refine propext ⟨?_, fun hb => ?_⟩
    · rintro ⟨⟨hb, hlb⟩, hnext⟩
      rw [hlen b hb] at hlb
      exact (hF b hb hlb).mpr hnext
    · have hextent := h.extent b hb
      refine ⟨⟨hextent.1, ?_⟩, h.listed.next_ne hb⟩
      rw [hlen b hextent.1]
      exact hextent.2
  refine ⟨?_, hcount⟩
  rw [hfree]
  refine ⟨h.layout.congr hlen, fun _ _ _ => rfl, ?_, h.pinned, h.listed, ?_, ?_⟩
  · intro b hb hne hlb hend
    rw [hlen b hb] at hlb hend ⊢
    exact h.previous b hb hne hlb hend
  · intro b hb
    have hextent := h.extent b hb
    rw [hlen b hextent.1]
    exact hextent
  · intro b hb
    rw [hlen b (h.extent b hb).1]
    exact h.apart b hb

theorem Heap.fits (h : Heap t) (hb : Extent t b) : b + t.length b ≤ 30 :=
  h.shape.layout.fits b hb.1 hb.2

theorem live_pos (h : live t b ≠ 0) : Extent t b ∧ t.next b = 255 ∧ live t b = t.length b := by
  unfold live at h ⊢
  split at h
  next hc =>
    rw [if_pos hc]
    exact ⟨⟨hc.1, h⟩, hc.2, rfl⟩
  next => exact absurd rfl h

theorem live_of_used (hb : 8 ≤ b) (hnext : t.next b = 255) : live t b = t.length b :=
  if_pos ⟨hb, hnext⟩

theorem live_of_unused (hnext : t.next b ≠ 255) : live t b = 0 := if_neg fun hc => hnext hc.2

/-- Two allocated extents have no page in common. -/
theorem Heap.live_disjoint (h : Heap t) (ha : live t a ≠ 0) (hb : live t b ≠ 0) (hne : a ≠ b) :
    a + live t a ≤ b ∨ b + live t b ≤ a := by
  obtain ⟨hea, -, hla⟩ := live_pos ha
  obtain ⟨heb, -, hlb⟩ := live_pos hb
  rw [hla, hlb]
  exact h.shape.layout.disjoint hea.1 hea.2 heb.1 heb.2 hne

/-- A page is free when it is a page of a free extent. -/
theorem Heap.mem_freePages (h : Heap t) :
    p ∈ freePages (live t) ↔ ∃ b, Free t b ∧ b ≤ p ∧ p < b + t.length b := by
  simp only [freePages, Finset.mem_filter, Finset.mem_Ico]
  constructor
  · rintro ⟨⟨h8, h30⟩, hout⟩
    obtain ⟨b, hb, hle, hlt⟩ := h.shape.layout.covers h8 h30
    refine ⟨b, ⟨⟨hb, by omega⟩, fun hnext => ?_⟩, hle, hlt⟩
    have hpage := hout b hle
    rw [live_of_used hb hnext] at hpage
    omega
  · rintro ⟨b, ⟨hext, hnext⟩, hle, hlt⟩
    have hfits := h.fits hext
    have h8 := hext.1
    refine ⟨⟨by omega, by omega⟩, fun c hc => ?_⟩
    by_cases hlive : live t c = 0
    · omega
    obtain ⟨hextc, hnextc, hlc⟩ := live_pos hlive
    have hne : c ≠ b := by
      rintro rfl
      exact hnext hnextc
    rcases h.shape.layout.disjoint hextc.1 hextc.2 hext.1 hext.2 hne with hd | hd <;> omega

end

/-! ## The pages of an extent -/

section
variable {live : Nat → Nat} {a k p : Nat}

theorem freePages_update (hlive : live a = 0) :
    freePages (Function.update live a k) = freePages live \ Finset.Ico a (a + k) := by
  ext p
  simp only [freePages, Finset.mem_sdiff, Finset.mem_filter, Finset.mem_Ico]
  constructor
  · rintro ⟨hp, hout⟩
    refine ⟨⟨hp, fun b hb => ?_⟩, fun hin => ?_⟩
    · rcases eq_or_ne b a with rfl | hne
      · omega
      · have hpage := hout b hb
        rwa [Function.update_of_ne hne] at hpage
    · have hpage := hout a hin.1
      rw [Function.update_self] at hpage
      omega
  · rintro ⟨⟨hp, hout⟩, hin⟩
    refine ⟨hp, fun b hb => ?_⟩
    rcases eq_or_ne b a with rfl | hne
    · rw [Function.update_self]
      omega
    · rw [Function.update_of_ne hne]
      exact hout b hb

/-- An extent of `k` free pages is no longer free. -/
theorem card_freePages_update (hlive : live a = 0)
    (hfree : Finset.Ico a (a + k) ⊆ freePages live) :
    (freePages (Function.update live a k)).card + k = (freePages live).card := by
  rw [freePages_update hlive]
  have hcard := Finset.card_sdiff_add_card_eq_card hfree
  rwa [Nat.card_Ico, Nat.add_sub_cancel_left] at hcard

theorem card_freePages_le (live : Nat → Nat) : (freePages live).card ≤ 22 :=
  (Finset.card_filter_le _ _).trans_eq (Nat.card_Ico 8 30)

end

section
variable {t : Tables} {a k : Nat}

theorem Heap.free_subset (h : Heap t) (ha : Free t a) (hk : k ≤ t.length a) :
    Finset.Ico a (a + k) ⊆ freePages (live t) := by
  intro p hp
  rw [Finset.mem_Ico] at hp
  exact h.mem_freePages.mpr ⟨a, ha, hp.1, by omega⟩

/-- Freeing an extent makes its pages free, and no others. -/
theorem Heap.freePages_release (h : Heap t) (ha : live t a ≠ 0) :
    freePages (Function.update (live t) a 0) =
      freePages (live t) ∪ Finset.Ico a (a + live t a) ∧
    (freePages (Function.update (live t) a 0)).card =
      (freePages (live t)).card + live t a := by
  obtain ⟨hext, -, hlen⟩ := live_pos ha
  have hsubset : Finset.Ico a (a + live t a) ⊆ freePages (Function.update (live t) a 0) := by
    intro p hp
    rw [Finset.mem_Ico] at hp
    have hfits := h.fits hext
    have h8 := hext.1
    simp only [freePages, Finset.mem_filter, Finset.mem_Ico]
    refine ⟨⟨by omega, by omega⟩, fun b hb => ?_⟩
    rcases eq_or_ne b a with rfl | hne
    · rw [Function.update_self]
      omega
    · rw [Function.update_of_ne hne]
      by_cases hlive : live t b = 0
      · omega
      · rcases h.live_disjoint hlive ha hne with hd | hd <;> omega
  have hself : Function.update (Function.update (live t) a 0) a (live t a) = live t := by
    rw [Function.update_idem, Function.update_eq_self]
  have hback := freePages_update (k := live t a) (Function.update_self a 0 (live t))
  have hcard := card_freePages_update (Function.update_self a 0 (live t)) hsubset
  rw [hself] at hback hcard
  refine ⟨?_, hcard.symm⟩
  rw [hback, Finset.sdiff_union_of_subset hsubset]

end

end Z80Sbc.Bank.ExtentHeap
