import Z80Sbc.Bank.FreeList
import Z80Sbc.Data.Extents

/-! # Moves of the allocator

The steps that `allocate` and `release` are made of, as changes of the tables. Between them an
extent may be out of the free list and not marked as allocated, and one extent, the anchor, may
have a length and a successor that the tables do not show yet. -/

namespace Z80Sbc.Bank.ExtentMoves
open Z80Sbc.Bank ExtentTables FreeList Z80Sbc.Data.SortedLinks Z80Sbc.Data.Extents

/-- The library through BFFFh, the call stack, and the page below the pool. -/
structure Pinned (t : Tables) : Prop where
  library : t.length 1 = 0xBF ∧ t.next 1 = 255
  stack : t.length 2 = 8 ∧ t.next 2 = 255
  bottom : t.previous 8 = 2

/-- The extents are of the lengths `len`, and those of `F` are listed. The tables may be behind at
`anchor`. -/
structure Shape (F : Nat → Prop) (len : Nat → Nat) (anchor : Nat) (t : Tables) : Prop where
  layout : Layout 8 30 len
  length : ∀ b, 8 ≤ b → b ≠ anchor → t.length b = len b
  previous : ∀ b, 8 ≤ b → b ≠ anchor → len b ≠ 0 → b + len b < 30 → t.previous (b + len b) = b
  pinned : Pinned t
  listed : Listed F t
  extent : ∀ b, F b → 8 ≤ b ∧ len b ≠ 0
  apart : ∀ b, F b → ¬ F (b + len b)

variable {F : Nat → Prop} {len : Nat → Nat} {anchor a k n : Nat} {t : Tables}

theorem Shape.unlink (h : Shape F len anchor t) (ha : F a) :
    Shape (fun b => F b ∧ b ≠ a) len anchor (unlinked t a) where
  layout := h.layout
  length := h.length
  previous := h.previous
  pinned := ⟨⟨h.pinned.library.1, (unlinked_next_eq h.listed ha).mpr h.pinned.library.2⟩,
    ⟨h.pinned.stack.1, (unlinked_next_eq h.listed ha).mpr h.pinned.stack.2⟩, h.pinned.bottom⟩
  listed := ⟨h.listed.linked.erase ha, fun b hb => h.listed.below b hb.1⟩
  extent b hb := h.extent b hb.1
  apart b hb hnext := h.apart b hb.1 hnext.1

/-! ## Joining and splitting -/

/-- The extent behind `a` is taken in; one of the two was the anchor. -/
theorem Shape.join (h : Shape F len anchor t) (ha : 8 ≤ a) (hla : len a ≠ 0)
    (hend : a + len a < 30) (hFa : ¬ F a) (hF : ¬ F (a + len a))
    (hanchor : anchor = a ∨ anchor = a + len a) :
    Shape F (join len a) a { t with length := Function.update t.length (a + len a) 0 } where
  layout := h.layout.join ha hla hend
  length b hb hne := by
    show Function.update t.length (a + len a) 0 b = _
    rcases eq_or_ne b (a + len a) with rfl | hne'
    · rw [Function.update_self, join_end hla]
    · rw [Function.update_of_ne hne', join_of_ne hne hne']
      exact h.length b hb (by omega)
  previous b hb hne hlb hlt := by
    have hne' : b ≠ a + len a := by
      rintro rfl
      exact hlb (join_end hla)
    rw [join_of_ne hne hne'] at hlb hlt ⊢
    exact h.previous b hb (by omega) hlb hlt
  pinned := by
    refine ⟨⟨?_, h.pinned.library.2⟩, ⟨?_, h.pinned.stack.2⟩, h.pinned.bottom⟩
    · exact (Function.update_of_ne (by omega) _ _).trans h.pinned.library.1
    · exact (Function.update_of_ne (by omega) _ _).trans h.pinned.stack.1
  listed := ⟨h.listed.linked, h.listed.below⟩
  extent b hb := by
    have hne : b ≠ a := fun he => hFa (he ▸ hb)
    have hne' : b ≠ a + len a := fun he => hF (he ▸ hb)
    rw [join_of_ne hne hne']
    exact h.extent b hb
  apart b hb := by
    have hne : b ≠ a := fun he => hFa (he ▸ hb)
    have hne' : b ≠ a + len a := fun he => hF (he ▸ hb)
    rw [join_of_ne hne hne']
    exact h.apart b hb

theorem Shape.split (h : Shape F len 0 t) (ha : 8 ≤ a) (hFa : ¬ F a) (hk : 0 < k)
    (hlt : k < len a) :
    Shape F (cut len a k) (a + k)
      { t with
        length := Function.update t.length a k
        previous := Function.update t.previous (a + k) a } where
  layout := h.layout.cut ha hk hlt
  length b hb hne := by
    show Function.update t.length a k b = _
    rcases eq_or_ne b a with rfl | hne'
    · rw [Function.update_self, cut_start hk]
    · rw [Function.update_of_ne hne', cut_of_ne hne' hne]
      exact h.length b hb (by omega)
  previous b hb hne hlb hend := by
    show Function.update t.previous (a + k) a _ = b
    rcases eq_or_ne b a with rfl | hne'
    · rw [cut_start hk, Function.update_self]
    · rw [cut_of_ne hne' hne] at hlb hend ⊢
      have hrest : len (a + k) = 0 := h.layout.interior a _ ha (by omega) (by omega)
      have hbehind : b + len b ≠ a + k := by
        intro he
        have hfollows := h.layout.follows b hb hlb hend
        rw [he] at hfollows
        exact hfollows hrest
      rw [Function.update_of_ne hbehind]
      exact h.previous b hb (by omega) hlb hend
  pinned := by
    refine ⟨⟨?_, h.pinned.library.2⟩, ⟨?_, h.pinned.stack.2⟩, ?_⟩
    · exact (Function.update_of_ne (by omega) _ _).trans h.pinned.library.1
    · exact (Function.update_of_ne (by omega) _ _).trans h.pinned.stack.1
    · exact (Function.update_of_ne (by omega) _ _).trans h.pinned.bottom
  listed := ⟨h.listed.linked, h.listed.below⟩
  extent b hb := by
    have hextent := h.extent b hb
    have hne : b ≠ a := fun he => hFa (he ▸ hb)
    have hne' : b ≠ a + k := by
      rintro rfl
      exact hextent.2 (h.layout.interior a _ ha (by omega) (by omega))
    rw [cut_of_ne hne hne']
    exact hextent
  apart b hb := by
    have hextent := h.extent b hb
    have hne : b ≠ a := fun he => hFa (he ▸ hb)
    have hne' : b ≠ a + k := by
      rintro rfl
      exact hextent.2 (h.layout.interior a _ ha (by omega) (by omega))
    rw [cut_of_ne hne hne']
    exact h.apart b hb

/-- The length of the anchor and the predecessor of the extent behind it are written. -/
theorem Shape.settle (h : Shape F len anchor t) (ha : 8 ≤ anchor) (hla : len anchor ≠ 0) :
    Shape F len 0
      { t with
        length := Function.update t.length anchor (len anchor)
        previous := if anchor + len anchor = 30 then t.previous
          else Function.update t.previous (anchor + len anchor) anchor } where
  layout := h.layout
  length b hb _ := by
    show Function.update t.length anchor (len anchor) b = _
    rcases eq_or_ne b anchor with rfl | hne
    · rw [Function.update_self]
    · rw [Function.update_of_ne hne]
      exact h.length b hb hne
  previous b hb _ hlb hend := by
    show (if anchor + len anchor = 30 then t.previous
      else Function.update t.previous (anchor + len anchor) anchor) (b + len b) = b
    rcases eq_or_ne b anchor with rfl | hne
    · rw [if_neg (by omega), Function.update_self]
    · have hkeep := h.previous b hb hne hlb hend
      have hother : b + len b ≠ anchor + len anchor := fun he =>
        hne (h.layout.previous_unique hb hlb ha hla he)
      split
      next => exact hkeep
      next => rw [Function.update_of_ne hother, hkeep]
  pinned := by
    refine ⟨⟨?_, h.pinned.library.2⟩, ⟨?_, h.pinned.stack.2⟩, ?_⟩
    · exact (Function.update_of_ne (by omega) _ _).trans h.pinned.library.1
    · exact (Function.update_of_ne (by omega) _ _).trans h.pinned.stack.1
    · show (if anchor + len anchor = 30 then t.previous
        else Function.update t.previous (anchor + len anchor) anchor) 8 = 2
      split
      next => exact h.pinned.bottom
      next => rw [Function.update_of_ne (by omega), h.pinned.bottom]
  listed := ⟨h.listed.linked, h.listed.below⟩
  extent := h.extent
  apart := h.apart

/-! ## Listing and marking -/

/-- A settled extent is listed, when neither extent beside it is. -/
theorem Shape.insert (h : Shape F len 0 t) (ha : 8 ≤ a) (hla : len a ≠ 0) (hFa : ¬ F a)
    (hleft : ∀ b, F b → b + len b ≠ a) (hright : ¬ F (a + len a)) {d e : Nat}
    (hd : d = 0 ∨ F d) (hlisted : Listed (fun b => F b ∨ b = a) (inserted t a d e)) :
    Shape (fun b => F b ∨ b = a) len 0 (inserted t a d e) where
  layout := h.layout
  length := h.length
  previous := h.previous
  pinned := by
    have hlt := hlisted.below a (Or.inr rfl)
    refine ⟨⟨h.pinned.library.1, ?_⟩, ⟨h.pinned.stack.1, ?_⟩, h.pinned.bottom⟩
    · exact (inserted_next_eq h.listed hd hlt (by omega)).mpr h.pinned.library.2
    · exact (inserted_next_eq h.listed hd hlt (by omega)).mpr h.pinned.stack.2
  listed := hlisted
  extent := by
    rintro b (hb | rfl)
    · exact h.extent b hb
    · exact ⟨ha, hla⟩
  apart := by
    rintro b (hb | rfl) (hn | hn)
    · exact h.apart b hb hn
    · exact hleft b hb hn
    · exact hright hn
    · omega

theorem Shape.mark (h : Shape F len anchor t) (ha : 8 ≤ a) (hFa : ¬ F a) :
    Shape F len anchor { t with next := Function.update t.next a 255 } where
  layout := h.layout
  length := h.length
  previous := h.previous
  pinned := by
    refine ⟨⟨h.pinned.library.1, ?_⟩, ⟨h.pinned.stack.1, ?_⟩, h.pinned.bottom⟩
    · exact (Function.update_of_ne (by omega) _ _).trans h.pinned.library.2
    · exact (Function.update_of_ne (by omega) _ _).trans h.pinned.stack.2
  listed := by
    refine ⟨h.listed.linked.congr (fun b hb => ?_) fun _ _ => rfl, h.listed.below⟩
    have hne : b ≠ a := by
      rintro rfl
      exact hFa hb
    exact Function.update_of_ne hne _ _
  extent := h.extent
  apart := h.apart

theorem Shape.count (h : Shape F len anchor t) : Shape F len anchor { t with free := n } :=
  ⟨h.layout, h.length, h.previous, ⟨h.pinned.library, h.pinned.stack, h.pinned.bottom⟩,
    ⟨h.listed.linked, h.listed.below⟩, h.extent, h.apart⟩

end Z80Sbc.Bank.ExtentMoves
