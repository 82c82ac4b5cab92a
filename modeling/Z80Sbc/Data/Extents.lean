import Mathlib.Logic.Function.Basic
import Mathlib.Tactic.Common

/-! # Consecutive extents

A range of pages is cut into extents, one behind the other. `len` holds the length of an extent at
its first page and zero at every other page of the range. -/

namespace Z80Sbc.Data.Extents
variable {lo hi a b c k p : Nat} {len previous : Nat → Nat}

structure Layout (lo hi : Nat) (len : Nat → Nat) : Prop where
  first : len lo ≠ 0
  fits : ∀ b, lo ≤ b → len b ≠ 0 → b + len b ≤ hi
  interior : ∀ b c, lo ≤ b → b < c → c < b + len b → len c = 0
  follows : ∀ b, lo ≤ b → len b ≠ 0 → b + len b < hi → len (b + len b) ≠ 0

theorem Layout.congr (h : Layout lo hi len) {len' : Nat → Nat}
    (heq : ∀ b, lo ≤ b → len' b = len b) : Layout lo hi len' := by
  constructor
  · rw [heq lo (Nat.le_refl lo)]
    exact h.first
  · intro b hb hlb
    rw [heq b hb] at hlb ⊢
    exact h.fits b hb hlb
  · intro b c hb hbc hc
    rw [heq b hb] at hc
    rw [heq c (by omega)]
    exact h.interior b c hb hbc hc
  · intro b hb hlb hend
    rw [heq b hb] at hlb hend ⊢
    rw [heq _ (by omega)]
    exact h.follows b hb hlb hend

theorem Layout.disjoint (h : Layout lo hi len) (ha : lo ≤ a) (hla : len a ≠ 0) (hb : lo ≤ b)
    (hlb : len b ≠ 0) (hne : a ≠ b) : a + len a ≤ b ∨ b + len b ≤ a := by
  by_contra hover
  rcases Nat.lt_or_gt_of_ne hne with hlt | hlt
  · exact hlb (h.interior a b ha hlt (by omega))
  · exact hla (h.interior b a hb hlt (by omega))

/-- Every page lies in an extent. -/
theorem Layout.covers (h : Layout lo hi len) (hp : lo ≤ p) (hhi : p < hi) :
    ∃ b, lo ≤ b ∧ b ≤ p ∧ p < b + len b := by
  induction hp with
  | refl =>
    have hfirst := h.first
    exact ⟨lo, Nat.le_refl lo, Nat.le_refl lo, by omega⟩
  | @step p hp ih =>
    have hlop : lo ≤ p := hp
    obtain ⟨b, hlo, hle, hlt⟩ := ih (by omega)
    rcases Nat.lt_or_ge (p + 1) (b + len b) with hin | hout
    · exact ⟨b, hlo, Nat.le_succ_of_le hle, hin⟩
    · have hend : b + len b = p + 1 := by omega
      have hnext := h.follows b hlo (by omega) (by omega)
      rw [hend] at hnext
      exact ⟨p + 1, by omega, Nat.le_refl _, by omega⟩

theorem Layout.exists_previous (h : Layout lo hi len) (ha : lo < a) (hla : len a ≠ 0) :
    ∃ b, lo ≤ b ∧ len b ≠ 0 ∧ b + len b = a := by
  have hfits := h.fits a (by omega) hla
  obtain ⟨b, hlo, hle, hlt⟩ := h.covers (p := a - 1) (by omega) (by omega)
  refine ⟨b, hlo, by omega, ?_⟩
  by_contra hne
  exact hla (h.interior b a hlo (by omega) (by omega))

theorem Layout.previous_unique (h : Layout lo hi len) (ha : lo ≤ a) (hla : len a ≠ 0)
    (hb : lo ≤ b) (hlb : len b ≠ 0) (he : a + len a = b + len b) : a = b := by
  by_contra hne
  rcases h.disjoint ha hla hb hlb hne with hle | hle <;> omega

/-! ## Splitting -/

def cut (len : Nat → Nat) (a k : Nat) : Nat → Nat :=
  Function.update (Function.update len a k) (a + k) (len a - k)

theorem cut_start (hk : 0 < k) : cut len a k a = k := by
  rw [cut, Function.update_of_ne (by omega), Function.update_self]

theorem cut_rest : cut len a k (a + k) = len a - k := by rw [cut, Function.update_self]

theorem cut_of_ne (hb : b ≠ a) (hb' : b ≠ a + k) : cut len a k b = len b := by
  rw [cut, Function.update_of_ne hb', Function.update_of_ne hb]

theorem Layout.cut (h : Layout lo hi len) (ha : lo ≤ a) (hk : 0 < k) (hlt : k < len a) :
    Layout lo hi (cut len a k) := by
  have hfits := h.fits a ha (by omega)
  have hrest : len (a + k) = 0 := h.interior a (a + k) ha (by omega) (by omega)
  constructor
  · rcases eq_or_ne lo a with rfl | hne
    · rw [cut_start hk]
      omega
    · rw [cut_of_ne hne (by omega)]
      exact h.first
  · intro b hb hlb
    rcases eq_or_ne b a with rfl | hne
    · rw [cut_start hk]
      omega
    rcases eq_or_ne b (a + k) with rfl | hne'
    · rw [cut_rest]
      omega
    rw [cut_of_ne hne hne'] at hlb ⊢
    exact h.fits b hb hlb
  · intro b c hb hbc hc
    rcases eq_or_ne b a with rfl | hne
    · rw [cut_start hk] at hc
      rw [cut_of_ne (by omega) (by omega)]
      exact h.interior b c hb hbc (by omega)
    rcases eq_or_ne b (a + k) with rfl | hne'
    · rw [cut_rest] at hc
      rw [cut_of_ne (by omega) (by omega)]
      exact h.interior a c ha (by omega) (by omega)
    rw [cut_of_ne hne hne'] at hc
    have hlb : len b ≠ 0 := by omega
    have hout := h.disjoint ha (by omega) hb hlb hne.symm
    rw [cut_of_ne (by omega) (by omega)]
    exact h.interior b c hb hbc hc
  · intro b hb hlb hend
    rcases eq_or_ne b a with rfl | hne
    · rw [cut_start hk, cut_rest]
      omega
    rcases eq_or_ne b (a + k) with rfl | hne'
    · rw [cut_rest] at hend ⊢
      have hsum : a + k + (len a - k) = a + len a := by omega
      rw [hsum] at hend ⊢
      rw [cut_of_ne (by omega) (by omega)]
      exact h.follows a ha (by omega) hend
    rw [cut_of_ne hne hne'] at hlb hend ⊢
    have hout := h.disjoint ha (by omega) hb hlb hne.symm
    rcases eq_or_ne (b + len b) a with he | he
    · rw [he, cut_start hk]
      omega
    · rw [cut_of_ne he (by omega)]
      exact h.follows b hb hlb hend

/-! ## Joining -/

/-- The extent at `a` takes in the one behind it. -/
def join (len : Nat → Nat) (a : Nat) : Nat → Nat :=
  Function.update (Function.update len (a + len a) 0) a (len a + len (a + len a))

theorem join_start : join len a a = len a + len (a + len a) := by rw [join, Function.update_self]

theorem join_end (hla : len a ≠ 0) : join len a (a + len a) = 0 := by
  rw [join, Function.update_of_ne (by omega), Function.update_self]

theorem join_of_ne (hb : b ≠ a) (hb' : b ≠ a + len a) : join len a b = len b := by
  rw [join, Function.update_of_ne hb, Function.update_of_ne hb']

theorem Layout.join (h : Layout lo hi len) (ha : lo ≤ a) (hla : len a ≠ 0)
    (hend : a + len a < hi) : Layout lo hi (join len a) := by
  have hnext := h.follows a ha hla hend
  have hfits := h.fits (a + len a) (by omega) hnext
  constructor
  · rcases eq_or_ne lo a with rfl | hne
    · rw [join_start]
      omega
    · rw [join_of_ne hne (by omega)]
      exact h.first
  · intro b hb hlb
    rcases eq_or_ne b a with rfl | hne
    · rw [join_start]
      omega
    rcases eq_or_ne b (a + len a) with rfl | hne'
    · exact absurd (join_end hla) hlb
    rw [join_of_ne hne hne'] at hlb ⊢
    exact h.fits b hb hlb
  · intro b c hb hbc hc
    rcases eq_or_ne c (a + len a) with rfl | hce
    · exact join_end hla
    rcases eq_or_ne b a with rfl | hne
    · rw [join_start] at hc
      rw [join_of_ne (by omega) hce]
      rcases Nat.lt_or_ge c (b + len b) with hin | hout
      · exact h.interior b c hb hbc hin
      · exact h.interior (b + len b) c (by omega) (by omega) (by omega)
    rcases eq_or_ne b (a + len a) with rfl | hne'
    · rw [join_end hla] at hc
      omega
    rw [join_of_ne hne hne'] at hc
    have hlb : len b ≠ 0 := by omega
    have hout := h.disjoint ha hla hb hlb hne.symm
    rw [join_of_ne (by omega) hce]
    exact h.interior b c hb hbc hc
  · intro b hb hlb hlt
    rcases eq_or_ne b a with rfl | hne
    · rw [join_start] at hlt ⊢
      rw [← Nat.add_assoc] at hlt ⊢
      rw [join_of_ne (by omega) (by omega)]
      exact h.follows (b + len b) (by omega) hnext hlt
    rcases eq_or_ne b (a + len a) with rfl | hne'
    · exact absurd (join_end hla) hlb
    rw [join_of_ne hne hne'] at hlb hlt ⊢
    have hkeep := h.follows b hb hlb hlt
    have he : b + len b ≠ a + len a := fun he => hne (h.previous_unique hb hlb ha hla he)
    rcases eq_or_ne (b + len b) a with hs | hs
    · rw [hs, join_start]
      omega
    · rw [join_of_ne hs he]
      exact hkeep

end Z80Sbc.Data.Extents
