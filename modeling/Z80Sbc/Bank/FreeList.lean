import Z80Sbc.Bank.ExtentTables

/-! # The free list

What the code does to the free list, on the tables that it writes. The list of the tables is the
sorted one of the free extents, so both walks end within 32 rounds. -/

namespace Z80Sbc.Bank.FreeList
open Z80Sbc.Z80 Z80Sbc.Bank Allocator ExtentTables Z80Sbc.Data.SortedLinks

theorem toNat_eq_zero {a : Byte} : a = 0 ↔ a.toNat = 0 := by
  rw [← BitVec.toNat_inj]
  rfl

theorem eq_mark_iff {a : Byte} : a = 255 ↔ a.toNat = 255 := by
  rw [← BitVec.toNat_inj]
  rfl

/-- The free extents are `F`, and the list of the tables is theirs. -/
structure Listed (F : Nat → Prop) (t : Tables) : Prop where
  linked : Linked 0 F t.head t.next t.back
  below : ∀ b, F b → b < 32

theorem beside_lt {F : Nat → Prop} {t : Tables} {d : Nat} (h : Listed F t)
    (hd : d = 0 ∨ F d) : d < 32 := by
  rcases hd with rfl | hF
  · decide
  · exact h.below d hF

/-- The link of a listed extent is never the mark of an allocated one. -/
theorem Listed.next_ne {F : Nat → Prop} {t : Tables} {b : Nat} (h : Listed F t) (hb : F b) :
    t.next b ≠ 255 := by
  have hlt := beside_lt h (h.linked.next b hb).right
  omega

/-! ## Taking an extent out -/

def unlinked (t : Tables) (a : Nat) : Tables :=
  { t with
    head := if t.back a = 0 then t.next a else t.head
    next := if t.back a = 0 then t.next else Function.update t.next (t.back a) (t.next a)
    back := if t.next a = 0 then t.back else Function.update t.back (t.next a) (t.back a) }

theorem view_unlink {m : Mem} {a : Byte} (ha : a.toNat < 32) (hnext : (view m).next a.toNat < 32)
    (hback : (view m).back a.toNat < 32) : view (unlink m a) = unlinked (view m) a.toNat := by
  have he : (peek m (nextPtr a)).toNat = (view m).next a.toNat := toNat_peek_next ha
  have hd : (peek m (backPtr a)).toNat = (view m).back a.toNat := toNat_peek_back ha
  unfold unlink unlinked
  simp only [toNat_eq_zero, he, hd]
  by_cases hd0 : (view m).back a.toNat = 0
  · rw [if_pos hd0, if_pos hd0, if_pos hd0]
    by_cases he0 : (view m).next a.toNat = 0
    · rw [if_pos he0, if_pos he0, view_freeHead, he]
    · rw [if_neg he0, if_neg he0, view_backPtr (by rw [he]; exact hnext), view_freeHead, he, hd]
  · rw [if_neg hd0, if_neg hd0, if_neg hd0]
    by_cases he0 : (view m).next a.toNat = 0
    · rw [if_pos he0, if_pos he0, view_nextPtr (by rw [hd]; exact hback), he, hd]
    · rw [if_neg he0, if_neg he0, view_backPtr (by rw [he]; exact hnext),
        view_nextPtr (by rw [hd]; exact hback), he, hd]

theorem Listed.unlink {F : Nat → Prop} {m : Mem} {a : Byte} (h : Listed F (view m))
    (ha : F a.toNat) : view (unlink m a) = unlinked (view m) a.toNat ∧
      Listed (fun b => F b ∧ b ≠ a.toNat) (view (Allocator.unlink m a)) := by
  have hview : view (Allocator.unlink m a) = unlinked (view m) a.toNat :=
    view_unlink (h.below _ ha) (beside_lt h (h.linked.next _ ha).right)
      (beside_lt h (h.linked.back _ ha).left)
  refine ⟨hview, ?_, fun b hb => h.below b hb.1⟩
  rw [hview]
  exact h.linked.erase ha

theorem unlinked_next_eq {F : Nat → Prop} {t : Tables} {a b : Nat} (h : Listed F t) (ha : F a) :
    (unlinked t a).next b = 255 ↔ t.next b = 255 := by
  show (if t.back a = 0 then t.next else Function.update t.next (t.back a) (t.next a)) b = 255 ↔ _
  split
  next => rfl
  next hd =>
    rcases eq_or_ne b (t.back a) with rfl | hne
    · have hF := (h.linked.back a ha).left.resolve_left hd
      rw [Function.update_self]
      exact iff_of_false (h.next_ne ha) (h.next_ne hF)
    · rw [Function.update_of_ne hne]

/-! ## Putting an extent in -/

def inserted (t : Tables) (c d e : Nat) : Tables :=
  { t with
    head := if d = 0 then c else t.head
    next := if d = 0 then Function.update t.next c e
      else Function.update (Function.update t.next c e) d c
    back := if e = 0 then Function.update t.back c d
      else Function.update (Function.update t.back c d) e c }

theorem view_insertHere {m : Mem} {c d e : Byte} (hc : c.toNat < 32) (hd : d.toNat < 32)
    (he : e.toNat < 32) :
    view (insertHere m c d e) = inserted (view m) c.toNat d.toNat e.toNat := by
  unfold insertHere inserted
  simp only [toNat_eq_zero]
  by_cases hd0 : d.toNat = 0
  · rw [if_pos hd0, if_pos hd0, if_pos hd0]
    by_cases he0 : e.toNat = 0
    · rw [if_pos he0, if_pos he0, view_freeHead, view_backPtr hc, view_nextPtr hc]
    · rw [if_neg he0, if_neg he0, view_backPtr he, view_freeHead, view_backPtr hc, view_nextPtr hc]
  · rw [if_neg hd0, if_neg hd0, if_neg hd0]
    by_cases he0 : e.toNat = 0
    · rw [if_pos he0, if_pos he0, view_nextPtr hd, view_backPtr hc, view_nextPtr hc]
    · rw [if_neg he0, if_neg he0, view_backPtr he, view_nextPtr hd, view_backPtr hc,
        view_nextPtr hc]

theorem inserted_next_eq {F : Nat → Prop} {t : Tables} {b c d e : Nat} (h : Listed F t)
    (hd : d = 0 ∨ F d) (hc : c < 32) (hne : b ≠ c) :
    (inserted t c d e).next b = 255 ↔ t.next b = 255 := by
  show (if d = 0 then Function.update t.next c e
    else Function.update (Function.update t.next c e) d c) b = 255 ↔ _
  split
  next => rw [Function.update_of_ne hne]
  next hd0 =>
    rcases eq_or_ne b d with rfl | hbd
    · rw [Function.update_self]
      exact iff_of_false (by omega) (h.next_ne (hd.resolve_left hd0))
    · rw [Function.update_of_ne hbd, Function.update_of_ne hne]

theorem insertWalk_beside {F : Nat → Prop} {m : Mem} (h : Listed F (view m)) {c : Byte} {n : Nat}
    {d a : Byte} (hda : Beside 0 F d.toNat a.toNat) (hdc : d.toNat < c.toNat)
    (hn : 32 < n + a.toNat ∨ a.toNat = 0 ∧ 0 < n) :
    ∃ d' e', insertWalk m c n d a = some (d', e') ∧ Beside 0 F d'.toNat e'.toNat ∧
      d'.toNat < c.toNat ∧ (e'.toNat = 0 ∨ c.toNat ≤ e'.toNat) := by
  have hlt := beside_lt h hda.right
  induction n generalizing d a with
  | zero => omega
  | succ n ih =>
    rw [insertWalk]
    split
    next ha => exact ⟨d, a, rfl, hda, hdc, Or.inl (toNat_eq_zero.mp ha)⟩
    next ha =>
      split
      next hca => exact ⟨d, a, rfl, hda, hdc, Or.inr hca⟩
      next hca =>
        have ha0 : a.toNat ≠ 0 := fun he => ha (toNat_eq_zero.mpr he)
        have hF := hda.right.resolve_left ha0
        have hbeside := h.linked.next _ hF
        rw [← toNat_peek_next hlt] at hbeside
        have hac : a.toNat < c.toNat := Nat.lt_of_not_le hca
        refine ih hbeside hac ?_ (beside_lt h hbeside.right)
        rcases Nat.eq_zero_or_pos (peek m (nextPtr a)).toNat with hend | hend
        · exact Or.inr ⟨hend, by omega⟩
        · have hnext := hbeside.lt (by omega)
          exact Or.inl (by omega)

/-- An extent that is not listed is put where its start belongs. -/
theorem Listed.insert {F : Nat → Prop} {m : Mem} (h : Listed F (view m)) {c : Byte}
    (hc : ¬ F c.toNat) (hpos : 0 < c.toNat) (hlt : c.toNat < 32) :
    ∃ m' d e, insert 32 m c = some m' ∧ Beside 0 F d e ∧
      view m' = inserted (view m) c.toNat d e ∧
      Listed (fun b => F b ∨ b = c.toNat) (view m') := by
  have hhead : Beside 0 F (0 : Byte).toNat (peek m freeHead).toNat := h.linked.head
  obtain ⟨d, e, hwalk, hde, hdc, hce⟩ := insertWalk_beside (n := 32) h hhead hpos (by omega)
  have hview : view (insertHere m c d e) =
      inserted (view m) c.toNat d.toNat e.toNat :=
    view_insertHere hlt (beside_lt h hde.left) (beside_lt h hde.right)
  refine ⟨insertHere m c d e, d.toNat, e.toNat, ?_, hde, hview, ?_, ?_⟩
  · rw [Allocator.insert, hwalk]
    rfl
  · have hlt' : e.toNat = 0 ∨ c.toNat < e.toNat := by
      rcases hce with he | he
      · exact Or.inl he
      · rcases Nat.eq_or_lt_of_le he with heq | hlt'
        · rcases hde.right with he0 | hF
          · exact Or.inl he0
          · exact absurd (heq ▸ hF) hc
        · exact Or.inr hlt'
    rw [hview]
    exact Linked.insert hde hdc hlt' h.linked hc
  · rintro b (hb | rfl)
    · exact h.below b hb
    · exact hlt

/-! ## The first that fits -/

/-- `find` gives the lowest listed extent of `k` pages, and none where there is none. -/
theorem find_from {F : Nat → Prop} {m : Mem} (h : Listed F (view m)) {k : Byte} {n : Nat} {a : Byte}
    (ha : a.toNat = 0 ∨ F a.toNat)
    (hbefore : ∀ b, F b → (a.toNat ≠ 0 → b < a.toNat) → (view m).length b < k.toNat)
    (hn : 32 < n + a.toNat ∨ a.toNat = 0 ∧ 0 < n) :
    (find m k n a = some none ∧ ∀ b, F b → (view m).length b < k.toNat) ∨
      ∃ s, find m k n a = some (some s) ∧ F s.toNat ∧ k.toNat ≤ (view m).length s.toNat ∧
        ∀ b, F b → b < s.toNat → (view m).length b < k.toNat := by
  have hlt := beside_lt h ha
  induction n generalizing a with
  | zero => omega
  | succ n ih =>
    rw [find]
    split
    next ha0 =>
      have hnat := toNat_eq_zero.mp ha0
      exact Or.inl ⟨rfl, fun b hb => hbefore b hb fun hne => absurd hnat hne⟩
    next hne =>
      have ha0 : a.toNat ≠ 0 := fun he => hne (toNat_eq_zero.mpr he)
      have hF := ha.resolve_left ha0
      have hlow : (a &&& 31).toNat = a.toNat := toNat_block hlt
      have hlength := toNat_peek_length (m := m) hlt
      split
      next hfit =>
        refine Or.inr ⟨a &&& 31, rfl, ?_, ?_, ?_⟩
        · rw [hlow]
          exact hF
        · rw [hlow, ← hlength]
          exact hfit
        · intro b hb hba
          rw [hlow] at hba
          exact hbefore b hb fun _ => hba
      next hfit =>
        have hbeside := h.linked.next _ hF
        rw [← toNat_peek_next hlt] at hbeside
        refine ih hbeside.right ?_ ?_ (beside_lt h hbeside.right)
        · intro b hb hba
          rcases hbeside.between b hb with hle | hle
          · rcases Nat.eq_or_lt_of_le hle with rfl | hlt'
            · rw [← hlength]
              exact Nat.lt_of_not_le hfit
            · exact hbefore b hb fun _ => hlt'
          · exact absurd (hba hle.1) (Nat.not_lt.mpr hle.2)
        · rcases Nat.eq_zero_or_pos (peek m (nextPtr a)).toNat with hend | hend
          · exact Or.inr ⟨hend, by omega⟩
          · have hnext := hbeside.lt (by omega)
            exact Or.inl (by omega)

theorem find_lowest {F : Nat → Prop} {m : Mem} (h : Listed F (view m)) (k : Byte) :
    (find m k 32 (peek m freeHead) = some none ∧ ∀ b, F b → (view m).length b < k.toNat) ∨
      ∃ s, find m k 32 (peek m freeHead) = some (some s) ∧ F s.toNat ∧
        k.toNat ≤ (view m).length s.toNat ∧
          ∀ b, F b → b < s.toNat → (view m).length b < k.toNat := by
  have hhead : Beside 0 F 0 (peek m freeHead).toNat := h.linked.head
  refine find_from h hhead.right ?_ ?_
  · intro b hb hlt
    rcases hhead.between b hb with hle | hle
    · exact absurd (h.linked.above b hb) (Nat.not_lt.mpr hle)
    · exact absurd (hlt hle.1) (Nat.not_lt.mpr hle.2)
  · omega

end Z80Sbc.Bank.FreeList
