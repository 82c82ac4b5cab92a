import Z80Sbc.Bank.ExtentHeap

/-! # Allocating an extent

`fit`: the free extent is taken out of the list, what is left of it behind the pages that are
needed is put back, and the extent is marked. -/

namespace Z80Sbc.Bank.Allocate
open Z80Sbc.Z80 Z80Sbc.Bank Allocator ExtentTables FreeList ExtentMoves ExtentHeap
open Z80Sbc.Data.SortedLinks Z80Sbc.Data.Extents

section
variable {m : Mem} {start need : Byte}

/-- The extent at `start` is out of the list and `need` pages long, and not marked yet. -/
structure Taken (t₀ : Tables) (start need : Nat) (F : Nat → Prop) (len : Nat → Nat)
    (t : Tables) : Prop where
  shape : Shape F len 0 t
  extent : ¬ F start ∧ len start = need
  members : ∀ b, 8 ≤ b → len b ≠ 0 → b ≠ start → (F b ↔ t.next b ≠ 255)
  allocated : ∀ b, b ≠ start → live t b = live t₀ b
  count : t.free = t₀.free

/-- The lengths of the two parts and the predecessors behind them. -/
theorem view_split {u : Mem} {start need successor remainder : Byte} (hstart : start.toNat < 32)
    (hsuccessor : successor.toNat < 32)
    (hend : ((successor &&& 31) + remainder).toNat = successor.toNat + remainder.toNat)
    (hle : successor.toNat + remainder.toNat ≤ 30) :
    view (if (successor &&& 31) + remainder = 30 then
        poke (poke (poke u (lengthPtr start) need) (lengthPtr successor) remainder)
          (previousPtr successor) start
      else poke (poke (poke (poke u (lengthPtr start) need) (lengthPtr successor) remainder)
        (previousPtr successor) start) (previousPtr ((successor &&& 31) + remainder)) successor) =
      { view u with
        length := Function.update (Function.update (view u).length start.toNat need.toNat)
          successor.toNat remainder.toNat
        previous := if successor.toNat + remainder.toNat = 30 then
            Function.update (view u).previous successor.toNat start.toNat
          else Function.update (Function.update (view u).previous successor.toNat start.toNat)
            (successor.toNat + remainder.toNat) successor.toNat } := by
  rw [view_settle (by omega), view_previousPtr hsuccessor, view_lengthPtr hsuccessor,
    view_lengthPtr hstart, hend]

variable (h : Heap (view m)) (hstart : Free (view m) start.toNat)
include h hstart

/-- The extent is as long as what is needed. -/
theorem taken_whole (hneed : need.toNat = (view m).length start.toNat) :
    Taken (view m) start.toNat need.toNat (fun b => Free (view m) b ∧ b ≠ start.toNat)
      (view m).length (view (poke (unlink m start) (lengthPtr start) need)) := by
  have hfits := h.fits hstart.1
  have hunlink := h.shape.listed.unlink hstart
  have hview : view (poke (unlink m start) (lengthPtr start) need) =
      unlinked (view m) start.toNat := by
    rw [view_lengthPtr (by omega), hunlink.1, hneed]
    exact congrArg (fun lengths => { unlinked (view m) start.toNat with length := lengths })
      (Function.update_eq_self start.toNat (view m).length)
  have hnext : ∀ b, (unlinked (view m) start.toNat).next b = 255 ↔ (view m).next b = 255 :=
    fun b => unlinked_next_eq h.shape.listed hstart
  rw [hview]
  refine ⟨h.shape.unlink hstart, ⟨fun hc => hc.2 rfl, hneed.symm⟩, fun b hb hlb hne => ?_,
    fun b hne => ?_, rfl⟩
  · rw [ne_eq ((unlinked (view m) start.toNat).next b), hnext b]
    exact ⟨fun hc => hc.1.2, fun hc => ⟨⟨⟨hb, hlb⟩, hc⟩, hne⟩⟩
  · simp only [live, hnext b]
    rfl

/-- The extent is longer, and its end becomes an extent of its own. -/
theorem taken_split (hneed : 0 < need.toNat) (hlt : need.toNat < (view m).length start.toNat)
    {remainder : Byte} (hremainder : remainder.toNat = (view m).length start.toNat - need.toNat) :
    ∃ m' F, split 32 start (start + need) remainder
        (poke (unlink m start) (lengthPtr start) need) = some m' ∧
      Taken (view m) start.toNat need.toNat F (cut (view m).length start.toNat need.toNat)
        (view m') := by
  have h8 := hstart.1.1
  have hfits := h.fits hstart.1
  have hsuccessor : (start + need).toNat = start.toNat + need.toNat := by
    rw [BitVec.toNat_add]
    omega
  have hcut : cut (view m).length start.toNat need.toNat (start + need).toNat =
      remainder.toNat := by rw [hsuccessor, cut_rest, hremainder]
  have hrest : (view m).length (start + need).toNat = 0 :=
    h.shape.layout.interior start.toNat _ h8 (by omega) (by omega)
  have hFrest : ¬ (Free (view m) (start + need).toNat ∧ (start + need).toNat ≠ start.toNat) :=
    fun hc => hc.1.1.2 hrest
  have hunlink := h.shape.listed.unlink hstart
  have hsplit := (h.shape.unlink hstart).split h8 (fun hc => hc.2 rfl) hneed hlt
  rw [← hsuccessor] at hsplit
  have hsettle := hsplit.settle (by omega) (by omega)
  rw [hcut] at hsettle
  have hend : ((start + need &&& 31) + remainder).toNat =
      (start + need).toNat + remainder.toNat := by
    rw [BitVec.toNat_add, toNat_block (by omega)]
    omega
  -- the tables before the rest is listed
  have hview := @view_split (unlink m start) start need (start + need) remainder (by omega)
    (by omega) hend (by omega)
  rw [hunlink.1] at hview
  generalize hbefore : (if (start + need &&& 31) + remainder = 30 then _ else _) = m₁ at hview
  have hsettled : Shape (fun b => Free (view m) b ∧ b ≠ start.toNat)
      (cut (view m).length start.toNat need.toNat) 0 (view m₁) := by
    rw [hview]
    exact hsettle
  obtain ⟨m', d, e, hinsert, hde, hview', hlisted⟩ :=
    hsettled.listed.insert (c := start + need) hFrest (by omega) (by omega)
  rw [hview'] at hlisted
  have hleft : ∀ b, Free (view m) b ∧ b ≠ start.toNat →
      b + cut (view m).length start.toNat need.toNat b ≠ (start + need).toNat := by
    rintro b ⟨hb, hne⟩ he
    have hne' : b ≠ (start + need).toNat := fun heq => hb.1.2 (heq ▸ hrest)
    rw [cut_of_ne hne (by omega)] at he
    have hfollows := h.shape.layout.follows b hb.1.1 hb.1.2 (by omega)
    rw [he] at hfollows
    exact hfollows hrest
  have hright : ¬ (Free (view m) ((start + need).toNat +
      cut (view m).length start.toNat need.toNat (start + need).toNat) ∧ (start + need).toNat +
        cut (view m).length start.toNat need.toNat (start + need).toNat ≠ start.toNat) := by
    have hsum : (start + need).toNat + remainder.toNat =
        start.toNat + (view m).length start.toNat := by omega
    rw [hcut, hsum]
    exact fun hc => h.shape.apart _ hstart hc.1
  have hshape := hsettled.insert (by omega) (by omega) hFrest hleft hright hde.left hlisted
  rw [← hview'] at hshape hlisted
  have hnext : ∀ b, b ≠ (start + need).toNat →
      ((view m').next b = 255 ↔ (view m).next b = 255) := by
    intro b hne
    rw [hview', inserted_next_eq hsettled.listed hde.left (by omega) hne, hview]
    exact unlinked_next_eq h.shape.listed hstart
  refine ⟨m', _, ?_, hshape, ⟨?_, cut_start hneed⟩, fun b hb hlb hne => ?_, fun b hne => ?_, ?_⟩
  · unfold split
    rw [if_neg]
    · rw [← hbefore] at hinsert
      exact hinsert
    · rw [toNat_eq_zero]
      omega
  · rintro (hc | hc)
    · exact hc.2 rfl
    · omega
  · rcases eq_or_ne b (start + need).toNat with rfl | hne'
    · exact iff_of_true (Or.inr rfl) (hlisted.next_ne (Or.inr rfl))
    · rw [cut_of_ne hne (by omega)] at hlb
      rw [ne_eq ((view m').next b), hnext b hne']
      exact ⟨fun hc => (hc.resolve_right hne').1.2, fun hc => Or.inl ⟨⟨⟨hb, hlb⟩, hc⟩, hne⟩⟩
  · rcases eq_or_ne b (start + need).toNat with rfl | hne'
    · rw [live_of_unused (hlisted.next_ne (Or.inr rfl)), live, hrest, ite_self]
    · by_cases hb : 8 ≤ b
      swap
      · rw [live, if_neg fun hc => hb hc.1, live, if_neg fun hc => hb hc.1]
      have hlb := hshape.length b hb (by omega)
      rw [cut_of_ne hne (by omega)] at hlb
      simp only [live, hnext b hne', hlb]
  · have hcount := congrArg Tables.free hview
    exact (congrArg Tables.free hview').trans hcount

end

/-! ## Marking -/

section
variable {m m₁ : Mem} {start need : Byte} {F : Nat → Prop} {len : Nat → Nat}

theorem view_leave : view (leave m) = view m := by
  unfold leave
  split
  next => rfl
  next => exact view_aside (by decide)

theorem Taken.mark (h : Heap (view m)) (hstart : Free (view m) start.toNat)
    (hle : need.toNat ≤ (view m).length start.toNat)
    (ht : Taken (view m) start.toNat need.toNat F len (view m₁)) {hl : Word}
    (hhl : hl.toNat = (view m).free) :
    Heap (view (poke16 (poke m₁ (nextPtr start) 255) freeBytes
      (word (-(need - hi hl)) (lo hl)))) ∧
      live (view (poke16 (poke m₁ (nextPtr start) 255) freeBytes
        (word (-(need - hi hl)) (lo hl)))) =
          Function.update (live (view m)) start.toNat need.toNat := by
  have h8 := hstart.1.1
  have hfits := h.fits hstart.1
  have hunused : live (view m) start.toNat = 0 := live_of_unused hstart.2
  have hcard := card_freePages_update hunused (h.free_subset hstart hle)
  have hbound := card_freePages_le (live (view m))
  have hcount := h.count
  have hfree : (word (-(need - hi hl)) (lo hl)).toNat = 256 *
      (freePages (Function.update (live (view m)) start.toNat need.toNat)).card := by
    have hpages : hl.toNat / 256 = (freePages (live (view m))).card := by omega
    rw [toNat_word, toNat_lo, BitVec.toNat_neg, BitVec.toNat_sub, toNat_hi, hpages]
    omega
  have hview : view (poke16 (poke m₁ (nextPtr start) 255) freeBytes
      (word (-(need - hi hl)) (lo hl))) =
      { view m₁ with
        next := Function.update (view m₁).next start.toNat 255
        free := 256 *
          (freePages (Function.update (live (view m)) start.toNat need.toNat)).card } := by
    rw [view_freeBytes, view_nextPtr (by omega), hfree]
    rfl
  have hlive : live { view m₁ with
      next := Function.update (view m₁).next start.toNat 255
      free := 256 * (freePages (Function.update (live (view m)) start.toNat need.toNat)).card } =
        Function.update (live (view m)) start.toNat need.toNat := by
    funext b
    rcases eq_or_ne b start.toNat with rfl | hne
    · rw [Function.update_self, live_of_used h8 (Function.update_self ..)]
      exact (ht.shape.length _ h8 (by omega)).trans ht.extent.2
    · rw [Function.update_of_ne hne, ← ht.allocated b hne]
      simp only [live, Function.update_of_ne hne]
  rw [hview]
  refine ⟨heap_of_shape (ht.shape.mark h8 ht.extent.1).count (fun b hb hlb => ?_) ?_, hlive⟩
  · show F b ↔ Function.update (view m₁).next start.toNat 255 b ≠ 255
    rcases eq_or_ne b start.toNat with rfl | hne
    · rw [Function.update_self]
      exact iff_of_false ht.extent.1 fun hc => hc rfl
    · rw [Function.update_of_ne hne]
      exact ht.members b hb hlb hne
  · rw [hlive]

theorem fit_spec (h : Heap (view m)) (hstart : Free (view m) start.toNat)
    (hneed : 0 < need.toNat) (hle : need.toNat ≤ (view m).length start.toNat) :
    ∃ m', fit 32 need start m = some (word (start + 0xC0) 0, m') ∧ Heap (view m') ∧
      live (view m') = Function.update (live (view m)) start.toNat need.toNat := by
  have hfits := h.fits hstart.1
  have hlength : (peek m (lengthPtr start)).toNat = (view m).length start.toNat :=
    toNat_peek_length (by omega)
  have hremainder : (peek m (lengthPtr start) - need).toNat =
      (view m).length start.toNat - need.toNat := by
    rw [BitVec.toNat_sub, hlength]
    omega
  have hsplit : ∃ m₁ F len, split 32 start (start + need) (peek m (lengthPtr start) - need)
      (poke (unlink m start) (lengthPtr start) need) = some m₁ ∧
        Taken (view m) start.toNat need.toNat F len (view m₁) := by
    rcases Nat.eq_or_lt_of_le hle with heq | hlt
    · refine ⟨_, _, _, ?_, taken_whole h hstart heq⟩
      unfold split
      rw [if_pos]
      rw [toNat_eq_zero]
      omega
    · obtain ⟨m₁, F, hsplit, ht⟩ := taken_split h hstart hneed hlt hremainder
      exact ⟨m₁, F, _, hsplit, ht⟩
  obtain ⟨m₁, F, len, hsplit, ht⟩ := hsplit
  have hhl : (peek16 (poke m₁ (nextPtr start) 255) freeBytes).toNat = (view m).free := by
    rw [← ht.count]
    have h8 := hstart.1.1
    exact congrArg Tables.free (view_nextPtr (m := m₁) (v := 255) (by omega))
  obtain ⟨hheap, hlive⟩ := ht.mark h hstart hle hhl
  refine ⟨leave (poke16 (poke m₁ (nextPtr start) 255) freeBytes
    (word (-(need - hi (peek16 (poke m₁ (nextPtr start) 255) freeBytes)))
      (lo (peek16 (poke m₁ (nextPtr start) 255) freeBytes)))), ?_, ?_, ?_⟩
  · unfold fit
    simp only [hsplit, Option.map_some]
  · rw [view_leave]
    exact hheap
  · rw [view_leave]
    exact hlive

end

end Z80Sbc.Bank.Allocate
