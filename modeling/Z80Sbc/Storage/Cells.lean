import Mathlib.Data.List.Basic
import Mathlib.Data.List.GetD
import Mathlib.Tactic.Common

/-! # Byte-addressed storage

A storage is a function from addresses to cells. `overlay` replaces one range
of it, `window` reads one back as a list, `same` compares two ranges the way
`memcmp` does. The lemmas say how the three interact: inside the range, outside
it, and for two ranges that do not meet. -/

namespace Z80Sbc.Storage

/-- `m` with the `len` cells from `off` taken from `g`, which counts from 0. -/
def overlay {α : Type} (m : Nat → α) (off len : Nat) (g : Nat → α) : Nat → α := fun a =>
  if off ≤ a ∧ a < off + len then g (a - off) else m a

/-- The `len` cells from `off`, in address order. -/
def window {α : Type} (m : Nat → α) (off len : Nat) : List α :=
  (List.range len).map fun i => m (off + i)

/-- `memcmp` found no difference in `len` cells. -/
def same {α : Type} [DecidableEq α] (m : Nat → α) (off : Nat) (m' : Nat → α) (off' len : Nat) :
    Bool :=
  (List.range len).all fun i => m (off + i) == m' (off' + i)

section
variable {α : Type} {m m' g : Nat → α} {off off' len len' a i : Nat}

theorem overlay_inside (hi : i < len) : overlay m off len g (off + i) = g i := by
  simp [overlay, hi]

theorem overlay_mem (h₁ : off ≤ a) (h₂ : a < off + len) : overlay m off len g a = g (a - off) := by
  simp [overlay, h₁, h₂]

theorem overlay_outside (h : ¬(off ≤ a ∧ a < off + len)) : overlay m off len g a = m a := by
  simp only [overlay, if_neg h]

@[simp] theorem overlay_overlay_self (g' : Nat → α) :
    overlay (overlay m off len g) off len g' = overlay m off len g' := by
  funext a
  by_cases h : off ≤ a ∧ a < off + len
  · rw [overlay_mem h.1 h.2, overlay_mem h.1 h.2]
  · rw [overlay_outside h, overlay_outside h, overlay_outside h]

@[simp] theorem window_length : (window m off len).length = len := by simp [window]

@[simp] theorem window_zero : window m off 0 = [] := rfl

theorem window_succ : window m off (len + 1) = window m off len ++ [m (off + len)] := by
  simp [window, List.range_succ]

theorem window_getD {d : α} (hi : i < len) : (window m off len).getD i d = m (off + i) := by
  simp [window, List.getD, hi]

theorem window_congr (h : ∀ i < len, m (off + i) = m' (off' + i)) :
    window m off len = window m' off' len := by
  refine List.map_congr_left fun i hi => ?_
  exact h i (List.mem_range.mp hi)

theorem window_inj (h : window m off len = window m' off' len) (hi : i < len) :
    m (off + i) = m' (off' + i) := by
  have hg := congrArg (fun l => l[i]?) h
  simpa [window, hi] using hg

/-- Filling a storage one cell at a time. -/
theorem window_update_succ {v : α} :
    window (Function.update m len v) 0 (len + 1) = window m 0 len ++ [v] := by
  rw [window_succ, Nat.zero_add, Function.update_self]
  congr 1
  refine window_congr fun i hi => Function.update_of_ne ?_ _ _
  omega

theorem window_overlay : window (overlay m off len g) off len = window g 0 len :=
  window_congr fun i hi => by rw [overlay_inside hi, Nat.zero_add]

theorem window_overlay_disjoint (h : off' + len' ≤ off ∨ off + len ≤ off') :
    window (overlay m off len g) off' len' = window m off' len' :=
  window_congr fun i hi => overlay_outside (by omega)

/-- A range that holds the elements of a list. -/
theorem window_eq_list {l : List α} {d : α} (h : ∀ i < l.length, m (off + i) = l.getD i d) :
    window m off l.length = l := by
  refine List.ext_getElem window_length fun i h₁ h₂ => ?_
  simp only [window, List.getElem_map, List.getElem_range]
  rw [h i h₂, List.getD_eq_getElem _ _ h₂]

theorem same_iff [DecidableEq α] :
    same m off m' off' len = true ↔ ∀ i < len, m (off + i) = m' (off' + i) := by
  simp [same, List.all_eq_true]

end

-- the elaborator must not run a comparison of thousands of cells
attribute [irreducible] same

/-! ## Little-endian words -/

/-- The four bytes of a word, low byte first. -/
def le32 (v : UInt32) : List UInt8 :=
  [UInt8.ofNat v.toNat, UInt8.ofNat (v.toNat / 256), UInt8.ofNat (v.toNat / 65536),
    UInt8.ofNat (v.toNat / 16777216)]

/-- The word stored at address `a`. -/
def read32 (m : Nat → UInt8) (a : Nat) : UInt32 :=
  UInt32.ofNat ((m a).toNat + 256 * (m (a + 1)).toNat + 65536 * (m (a + 2)).toNat +
    16777216 * (m (a + 3)).toNat)

@[simp] theorem le32_length (v : UInt32) : (le32 v).length = 4 := rfl

/-- A word reassembled from its four bytes is the word. -/
theorem le32_join (v : UInt32) :
    UInt32.ofNat ((UInt8.ofNat v.toNat).toNat + 256 * (UInt8.ofNat (v.toNat / 256)).toNat +
      65536 * (UInt8.ofNat (v.toNat / 65536)).toNat +
      16777216 * (UInt8.ofNat (v.toNat / 16777216)).toNat) = v := by
  have hv := v.toNat_lt
  apply UInt32.toNat_inj.mp
  simp only [UInt8.toNat_ofNat', UInt32.toNat_ofNat']
  omega

/-- Reading a word back from a storage that holds its bytes. -/
theorem read32_of_le32 {m : Nat → UInt8} {a : Nat} {v : UInt32}
    (h : ∀ i < 4, m (a + i) = (le32 v).getD i 0) : read32 m a = v := by
  have h0 := h 0 (by omega)
  have h1 := h 1 (by omega)
  have h2 := h 2 (by omega)
  have h3 := h 3 (by omega)
  simp only [le32, List.getD_cons_zero, List.getD_cons_succ, Nat.add_zero] at h0 h1 h2 h3
  rw [read32, h0, h1, h2, h3]
  exact le32_join v

theorem read32_congr {m m' : Nat → UInt8} {a a' : Nat}
    (h : ∀ i < 4, m (a + i) = m' (a' + i)) : read32 m a = read32 m' a' := by
  have h0 : m a = m' a' := h 0 (by omega)
  rw [read32, read32, h0, h 1 (by omega), h 2 (by omega), h 3 (by omega)]

/-- Reading one word of a list of words stored back to back. -/
theorem read32_words {m : Nat → UInt8} {ws : List UInt32} {d : UInt8} {a : Nat}
    (h : ∀ i < 4 * ws.length, m (a + i) = (ws.flatMap le32).getD i d) {k : Nat}
    (hk : k < ws.length) : read32 m (a + 4 * k) = ws[k] := by
  induction ws generalizing a k with
  | nil => cases hk
  | cons w ws ih =>
    have hlen : (le32 w).length = 4 := le32_length w
    cases k with
    | zero =>
      show read32 m (a + 4 * 0) = w
      refine read32_of_le32 fun i hi => ?_
      have hb := h i (by simp only [List.length_cons]; omega)
      rw [List.flatMap_cons, List.getD_append _ _ _ _ (by omega)] at hb
      rw [Nat.mul_zero, Nat.add_zero, hb, List.getD_eq_getElem _ _ (by omega),
        List.getD_eq_getElem _ _ (by omega)]
    | succ k =>
      have htail := ih (a := a + 4) (k := k) (fun i hi => ?_) (by simpa using hk)
      · rw [show a + 4 * (k + 1) = a + 4 + 4 * k by omega]
        exact htail
      · have hb := h (4 + i) (by simp only [List.length_cons]; omega)
        rw [List.flatMap_cons, List.getD_append_right _ _ _ _ (by omega), hlen,
          Nat.add_sub_cancel_left, ← Nat.add_assoc] at hb
        exact hb

end Z80Sbc.Storage
