import Mathlib.Tactic.Common
import Mathlib.Logic.Function.Basic
import Mathlib.Data.Nat.ModEq

/-! # RingBuffer buffers

An array of `n` cells with a write index, a read index and a count. What it holds
is the list of cells from the read index on. -/

namespace Z80Sbc.Data

structure RingBuffer (α : Type) where
  cells : Nat → α
  head : Nat
  tail : Nat
  count : Nat

namespace RingBuffer
variable {α : Type} {n : Nat} {r : RingBuffer α}

/-- Append at the write index. -/
def push (n : Nat) (r : RingBuffer α) (a : α) : RingBuffer α :=
  { r with
    cells := Function.update r.cells r.head a
    head := (r.head + 1) % n
    count := r.count + 1 }

/-- Remove at the read index. -/
def pop (n : Nat) (r : RingBuffer α) : α × RingBuffer α :=
  (r.cells r.tail, { r with tail := (r.tail + 1) % n, count := r.count - 1 })

/-- Remove `k` elements. -/
def drain (n : Nat) : Nat → RingBuffer α → List α × RingBuffer α
  | 0, r => ([], r)
  | k + 1, r =>
    let (a, r) := r.pop n
    let (as, r) := drain n k r
    (a :: as, r)

def clear (r : RingBuffer α) : RingBuffer α := { r with head := 0, tail := 0, count := 0 }

def toList (n : Nat) (r : RingBuffer α) : List α :=
  (List.range r.count).map fun i => r.cells ((r.tail + i) % n)

/-- The indices agree with the count. -/
structure Ok (n : Nat) (r : RingBuffer α) : Prop where
  tail : r.tail < n
  count : r.count ≤ n
  head : r.head = (r.tail + r.count) % n

@[simp] theorem length_toList : (r.toList n).length = r.count := by simp [toList]

theorem toList_nil (h : r.count = 0) : r.toList n = [] := by simp [toList, h]

theorem Ok.clear (h : 0 < n) : (clear r).Ok n := ⟨h, Nat.zero_le _, (Nat.zero_mod _).symm⟩

/-- Below the capacity two cells of the ring are different cells of the array. -/
theorem index_inj {t i j : Nat} (hi : i < n) (hj : j < n) (h : (t + i) % n = (t + j) % n) :
    i = j := by
  have h : (t + i) ≡ (t + j) [MOD n] := h
  have hmod : i % n = j % n := Nat.ModEq.add_left_cancel' t h
  rwa [Nat.mod_eq_of_lt hi, Nat.mod_eq_of_lt hj] at hmod

theorem Ok.push (h : r.Ok n) (hlt : r.count < n) (a : α) : (r.push n a).Ok n := by
  refine ⟨h.tail, hlt, ?_⟩
  show (r.head + 1) % n = (r.tail + (r.count + 1)) % n
  rw [h.head, Nat.mod_add_mod, Nat.add_assoc]

theorem toList_push (h : r.Ok n) (hlt : r.count < n) (a : α) :
    (r.push n a).toList n = r.toList n ++ [a] := by
  show (List.range (r.count + 1)).map
    (fun i => Function.update r.cells r.head a ((r.tail + i) % n)) = _
  rw [List.range_succ, List.map_append]
  congr 1
  · refine List.map_congr_left fun i hi => Function.update_of_ne ?_ _ _
    have hi := List.mem_range.mp hi
    rw [h.head]
    intro heq
    have hij := index_inj (Nat.lt_trans hi hlt) hlt heq
    omega
  · rw [List.map_singleton, ← h.head, Function.update_self]

theorem Ok.pop (h : r.Ok n) (hpos : 0 < r.count) : (r.pop n).2.Ok n := by
  have hn : 0 < n := Nat.lt_of_lt_of_le hpos h.count
  refine ⟨Nat.mod_lt _ hn, Nat.le_trans (Nat.sub_le _ _) h.count, ?_⟩
  show r.head = ((r.tail + 1) % n + (r.count - 1)) % n
  rw [Nat.mod_add_mod, h.head, Nat.add_assoc, Nat.add_sub_cancel' hpos]

theorem toList_pop (h : r.Ok n) (hpos : 0 < r.count) :
    r.toList n = (r.pop n).1 :: (r.pop n).2.toList n := by
  obtain ⟨k, hk⟩ : ∃ k, r.count = k + 1 := ⟨r.count - 1, by omega⟩
  have hrest : (r.pop n).2.toList n =
      (List.range k).map fun i => r.cells ((r.tail + (i + 1)) % n) := by
    show (List.range (r.count - 1)).map (fun i => r.cells (((r.tail + 1) % n + i) % n)) = _
    rw [hk, Nat.add_sub_cancel]
    refine List.map_congr_left fun i _ => ?_
    rw [Nat.mod_add_mod, Nat.add_assoc, Nat.add_comm 1 i]
  rw [hrest, toList, hk, List.range_succ_eq_map, List.map_cons, List.map_map, Nat.add_zero,
    Nat.mod_eq_of_lt h.tail]
  rfl

/-- Draining gives the first elements and leaves the others. -/
theorem drain_spec {k : Nat} (h : r.Ok n) (hk : k ≤ r.count) :
    (drain n k r).2.Ok n ∧ (drain n k r).1 = (r.toList n).take k ∧
      (drain n k r).2.toList n = (r.toList n).drop k ∧ (drain n k r).2.count = r.count - k := by
  induction k generalizing r with
  | zero => exact ⟨h, List.take_zero.symm, List.drop_zero.symm, (Nat.sub_zero _).symm⟩
  | succ k ih =>
    have hpos : 0 < r.count := Nat.lt_of_lt_of_le (Nat.succ_pos k) hk
    obtain ⟨hok, htake, hdrop, hcount⟩ := ih (h.pop hpos) (Nat.le_sub_of_add_le hk)
    refine ⟨hok, ?_, ?_, ?_⟩
    · rw [toList_pop h hpos, List.take_succ_cons, ← htake]
      rfl
    · rw [toList_pop h hpos, List.drop_succ_cons, ← hdrop]
      rfl
    · show (drain n k (r.pop n).2).2.count = _
      rw [hcount]
      show r.count - 1 - k = r.count - (k + 1)
      omega

end RingBuffer

end Z80Sbc.Data
