import Mathlib.Order.Lattice
import Mathlib.Logic.Function.Basic
import Mathlib.Tactic.Common

/-! # Sorted doubly linked lists

The members of a set in a linear order, linked both ways and in order. `nil` lies below every
member; it stands before the first of them and behind the last. Nothing is asked of the links of
what is no member, so a member can be taken out, and another put in, by writing at its
neighbours alone. -/

namespace Z80Sbc.Data.SortedLinks
variable {α : Type} [LinearOrder α] {nil a b c d e head : α} {F : α → Prop} {next back : α → α}

/-- No member lies between `d` and `e`. -/
structure Beside (nil : α) (F : α → Prop) (d e : α) : Prop where
  left : d = nil ∨ F d
  right : e = nil ∨ F e
  lt : e ≠ nil → d < e
  between : ∀ c, F c → c ≤ d ∨ (e ≠ nil ∧ e ≤ c)

structure Linked (nil : α) (F : α → Prop) (head : α) (next back : α → α) : Prop where
  above : ∀ b, F b → nil < b
  head : Beside nil F nil head
  next : ∀ b, F b → Beside nil F b (next b)
  back : ∀ b, F b → Beside nil F (back b) b

/-! ## Neighbours -/

theorem Beside.right_unique (h : Beside nil F d b) (h' : Beside nil F d e) : b = e := by
  rcases eq_or_ne b nil with hb | hb
  · by_contra hne
    have he : e ≠ nil := fun he => hne (hb.trans he.symm)
    have hF := h'.right.resolve_left he
    rcases h.between e hF with hle | hle
    · exact absurd (h'.lt he) (not_lt.mpr hle)
    · exact hle.1 hb
  · have hF := h.right.resolve_left hb
    rcases h'.between b hF with hle | hle
    · exact absurd (h.lt hb) (not_lt.mpr hle)
    · have hF' := h'.right.resolve_left hle.1
      rcases h.between e hF' with hle' | hle'
      · exact absurd (h'.lt hle.1) (not_lt.mpr hle')
      · exact le_antisymm hle'.2 hle.2

theorem Beside.left_unique (habove : ∀ b, F b → nil < b) (h : Beside nil F b e)
    (h' : Beside nil F d e) : b = d := by
  have hle : ∀ x y, Beside nil F x e → Beside nil F y e → x ≤ y := by
    intro x y hx hy
    rcases hx.left with rfl | hF
    · rcases hy.left with rfl | hF
      · exact le_refl _
      · exact (habove y hF).le
    · rcases hy.between x hF with hxy | hxy
      · exact hxy
      · exact absurd (hx.lt hxy.1) (not_lt.mpr hxy.2)
  exact le_antisymm (hle b d h h') (hle d b h' h)

theorem Linked.back_eq (h : Linked nil F head next back) (ha : F a)
    (hd : Beside nil F d a) : back a = d :=
  Beside.left_unique h.above (h.back a ha) hd

theorem Linked.congr (h : Linked nil F head next back) {next' back' : α → α}
    (hnext : ∀ b, F b → next' b = next b) (hback : ∀ b, F b → back' b = back b) :
    Linked nil F head next' back' := by
  refine ⟨h.above, h.head, fun b hb => ?_, fun b hb => ?_⟩
  · rw [hnext b hb]
    exact h.next b hb
  · rw [hback b hb]
    exact h.back b hb

/-! ## Taking a member out -/

theorem Beside.erase (hd : Beside nil F d a) (he : Beside nil F a e) (ha : nil < a) :
    Beside nil (fun b => F b ∧ b ≠ a) d e := by
  have hda : d < a := hd.lt ha.ne'
  constructor
  · exact hd.left.imp id fun hF => ⟨hF, hda.ne⟩
  · rcases eq_or_ne e nil with hnil | hnil
    · exact Or.inl hnil
    · exact he.right.imp id fun hF => ⟨hF, (he.lt hnil).ne'⟩
  · intro hnil
    exact hda.trans (he.lt hnil)
  · intro c hc
    rcases he.between c hc.1 with hle | hle
    · rcases hd.between c hc.1 with hle' | hle'
      · exact Or.inl hle'
      · exact absurd (le_antisymm hle hle'.2) hc.2
    · exact Or.inr hle

theorem Beside.erase_of_ne (h : Beside nil F d e) (hd : d ≠ a) (he : e ≠ a) :
    Beside nil (fun b => F b ∧ b ≠ a) d e :=
  ⟨h.left.imp id fun hF => ⟨hF, hd⟩, h.right.imp id fun hF => ⟨hF, he⟩, h.lt,
    fun c hc => h.between c hc.1⟩

theorem Linked.erase (h : Linked nil F head next back) (ha : F a) :
    Linked nil (fun b => F b ∧ b ≠ a) (if back a = nil then next a else head)
      (if back a = nil then next else Function.update next (back a) (next a))
      (if next a = nil then back else Function.update back (next a) (back a)) := by
  have hnil : nil < a := h.above a ha
  have hend : Beside nil (fun b => F b ∧ b ≠ a) (back a) (next a) :=
    (h.back a ha).erase (h.next a ha) hnil
  constructor
  · intro b hb
    exact h.above b hb.1
  · split
    next hd =>
      rw [hd] at hend
      exact hend
    next hd =>
      refine h.head.erase_of_ne hnil.ne fun he => hd (h.back_eq ha ?_)
      rw [← he]
      exact h.head
  · intro b hb
    have hnext : b ≠ back a → Beside nil (fun b => F b ∧ b ≠ a) b (next b) := by
      intro hne
      refine (h.next b hb.1).erase_of_ne hb.2 fun he => hne (h.back_eq ha ?_).symm
      rw [← he]
      exact h.next b hb.1
    split
    next hd => exact hnext fun he => (h.above b hb.1).ne' (he.trans hd)
    next hd =>
      rcases eq_or_ne b (back a) with he | hne
      · rw [he, Function.update_self]
        exact hend
      · rw [Function.update_of_ne hne]
        exact hnext hne
  · intro b hb
    have hback : b ≠ next a → Beside nil (fun b => F b ∧ b ≠ a) (back b) b := by
      intro hne
      refine (h.back b hb.1).erase_of_ne (fun he => hne ?_) hb.2
      have hbeside := h.back b hb.1
      rw [he] at hbeside
      exact hbeside.right_unique (h.next a ha)
    split
    next he => exact hback fun heq => (h.above b hb.1).ne' (heq.trans he)
    next he =>
      rcases eq_or_ne b (next a) with heq | hne
      · rw [heq, Function.update_self]
        exact hend
      · rw [Function.update_of_ne hne]
        exact hback hne

/-! ## Putting a member in -/

section
variable (hde : Beside nil F d e) (hdc : d < c) (hce : e = nil ∨ c < e)
include hde hdc hce

theorem Beside.insert_of_ne (habove : ∀ b, F b → nil < b) (h : Beside nil F a b) (hne : a ≠ d) :
    Beside nil (fun b => F b ∨ b = c) a b := by
  refine ⟨h.left.imp id Or.inl, h.right.imp id Or.inl, h.lt, ?_⟩
  rintro x (hx | rfl)
  · exact h.between x hx
  · have hbefore : a < d → b ≠ nil ∧ b ≤ x := by
      intro had
      have hFd : F d := by
        rcases hde.left with rfl | hF
        · rcases h.left with rfl | hFa
          · exact absurd had (lt_irrefl _)
          · exact absurd had (not_lt.mpr (habove a hFa).le)
        · exact hF
      rcases h.between d hFd with hle | hle
      · exact absurd had (not_lt.mpr hle)
      · exact ⟨hle.1, hle.2.trans hdc.le⟩
    rcases h.left with rfl | hFa
    · rcases hde.left with rfl | hFd
      · exact absurd rfl hne
      · exact Or.inr (hbefore (habove d hFd))
    · rcases hde.between a hFa with hle | hle
      · exact Or.inr (hbefore (lt_of_le_of_ne hle hne))
      · rcases hce with hnil | hlt
        · exact absurd hnil hle.1
        · exact Or.inl (hlt.le.trans hle.2)

theorem Linked.insert (h : Linked nil F head next back) (hc : ¬ F c) :
    Linked nil (fun b => F b ∨ b = c) (if d = nil then c else head)
      (if d = nil then Function.update next c e
        else Function.update (Function.update next c e) d c)
      (if e = nil then Function.update back c d
        else Function.update (Function.update back c d) e c) := by
  have hnil : nil < c := by
    rcases hde.left with rfl | hF
    · exact hdc
    · exact (h.above d hF).trans hdc
  have hbefore : Beside nil (fun b => F b ∨ b = c) d c := by
    refine ⟨hde.left.imp id Or.inl, Or.inr (Or.inr rfl), fun _ => hdc, ?_⟩
    rintro x (hx | rfl)
    · rcases hde.between x hx with hle | hle
      · exact Or.inl hle
      · exact Or.inr ⟨hnil.ne', (hce.resolve_left hle.1).le.trans hle.2⟩
    · exact Or.inr ⟨hnil.ne', le_refl _⟩
  have hbehind : Beside nil (fun b => F b ∨ b = c) c e := by
    refine ⟨Or.inr (Or.inr rfl), hde.right.imp id Or.inl, fun he => hce.resolve_left he, ?_⟩
    rintro x (hx | rfl)
    · rcases hde.between x hx with hle | hle
      · exact Or.inl (hle.trans hdc.le)
      · exact Or.inr hle
    · exact Or.inl (le_refl _)
  constructor
  · rintro b (hb | rfl)
    · exact h.above b hb
    · exact hnil
  · split
    next hd =>
      rw [hd] at hbefore
      exact hbefore
    next hd => exact hde.insert_of_ne hdc hce h.above h.head fun he => hd he.symm
  · intro b hb
    have hnext : b ≠ d → Beside nil (fun b => F b ∨ b = c) b (Function.update next c e b) := by
      intro hne
      rcases hb with hF | rfl
      · have hbc : b ≠ c := by
          rintro rfl
          exact hc hF
        rw [Function.update_of_ne hbc]
        exact hde.insert_of_ne hdc hce h.above (h.next b hF) hne
      · rw [Function.update_self]
        exact hbehind
    split
    next hd =>
      refine hnext fun he => ?_
      rcases hb with hF | rfl
      · exact (h.above b hF).ne' (he.trans hd)
      · exact hdc.ne he.symm
    next hd =>
      rcases eq_or_ne b d with rfl | hne
      · rw [Function.update_self]
        exact hbefore
      · rw [Function.update_of_ne hne]
        exact hnext hne
  · intro b hb
    have hback : b ≠ e → Beside nil (fun b => F b ∨ b = c) (Function.update back c d b) b := by
      intro hne
      rcases hb with hF | rfl
      · have hbc : b ≠ c := by
          rintro rfl
          exact hc hF
        rw [Function.update_of_ne hbc]
        refine hde.insert_of_ne hdc hce h.above (h.back b hF) fun he => hne ?_
        have hbeside := h.back b hF
        rw [he] at hbeside
        exact hbeside.right_unique hde
      · rw [Function.update_self]
        exact hbefore
    split
    next he =>
      refine hback fun heq => ?_
      rcases hb with hF | rfl
      · exact (h.above b hF).ne' (heq.trans he)
      · exact hnil.ne' (heq.trans he)
    next he =>
      rcases eq_or_ne b e with rfl | hne
      · rw [Function.update_self]
        exact hbehind
      · rw [Function.update_of_ne hne]
        exact hback hne

end

/-! ## As a list -/

/-- The members `l` behind `d`, each linked to the one before it and the one after it. -/
def Threaded (nil : α) (next back : α → α) : α → List α → Prop
  | _, [] => True
  | d, e :: es => back e = d ∧ next e = es.headD nil ∧ Threaded nil next back e es

/-- The first of the members above `d`, in order. -/
theorem beside_headD (habove : ∀ b, F b → nil < b) (hd : d = nil ∨ F d) {l : List α}
    (hsorted : l.Pairwise (· < ·)) (hl : ∀ b, b ∈ l ↔ F b ∧ d < b) :
    Beside nil F d (l.headD nil) := by
  cases l with
  | nil =>
    refine ⟨hd, Or.inl rfl, fun h => absurd rfl h, fun c hc => Or.inl (not_lt.mp fun hlt => ?_)⟩
    exact List.not_mem_nil ((hl c).mpr ⟨hc, hlt⟩)
  | cons e es =>
    have he := (hl e).mp List.mem_cons_self
    refine ⟨hd, Or.inr he.1, fun _ => he.2, fun c hc => ?_⟩
    rcases lt_or_ge d c with hlt | hle
    · refine Or.inr ⟨(habove e he.1).ne', ?_⟩
      rcases List.mem_cons.mp ((hl c).mpr ⟨hc, hlt⟩) with rfl | hmem
      · exact le_refl _
      · exact (List.rel_of_pairwise_cons hsorted hmem).le
    · exact Or.inl hle

theorem Linked.threaded_above (h : Linked nil F head next back) {l : List α}
    (hsorted : l.Pairwise (· < ·)) (hd : d = nil ∨ F d) (hl : ∀ b, b ∈ l ↔ F b ∧ d < b) :
    Threaded nil next back d l := by
  induction l generalizing d with
  | nil => trivial
  | cons e es ih =>
    have he := (hl e).mp List.mem_cons_self
    have htail := (List.pairwise_cons.mp hsorted).2
    have hmem : ∀ b, b ∈ es ↔ F b ∧ e < b := by
      intro b
      constructor
      · intro hb
        exact ⟨((hl b).mp (List.mem_cons_of_mem e hb)).1, List.rel_of_pairwise_cons hsorted hb⟩
      · intro hb
        rcases List.mem_cons.mp ((hl b).mpr ⟨hb.1, he.2.trans hb.2⟩) with rfl | hmem
        · exact absurd hb.2 (lt_irrefl _)
        · exact hmem
    refine ⟨h.back_eq he.1 (beside_headD h.above hd hsorted hl), ?_, ih htail (Or.inr he.1) hmem⟩
    exact (h.next e he.1).right_unique (beside_headD h.above (Or.inr he.1) htail hmem)

theorem Linked.threaded (h : Linked nil F head next back) {l : List α}
    (hsorted : l.Pairwise (· < ·)) (hl : ∀ b, b ∈ l ↔ F b) :
    head = l.headD nil ∧ Threaded nil next back nil l := by
  have hmem : ∀ b, b ∈ l ↔ F b ∧ nil < b := by
    intro b
    rw [hl b]
    exact ⟨fun hb => ⟨hb, h.above b hb⟩, And.left⟩
  exact ⟨h.head.right_unique (beside_headD h.above (Or.inl rfl) hsorted hmem),
    h.threaded_above hsorted (Or.inl rfl) hmem⟩

end Z80Sbc.Data.SortedLinks
