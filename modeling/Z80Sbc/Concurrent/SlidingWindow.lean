import Mathlib.Tactic.Common

/-! # Sliding windows with cumulative acknowledgements

A sender numbers its frames from 1, keeps at most `n` of them unacknowledged and
may repeat each of these. The receiver takes frames in order, consumes them in
order and acknowledges the last one it consumed, as often as it likes. Both
directions are queues that lose nothing once a message is in them. -/

namespace Z80Sbc.Concurrent

/-- The counts of one direction, and the numbers in flight. -/
structure Window where
  total : Nat
  transmitted : Nat
  acked : Nat
  received : Nat
  consumed : Nat
  data : List Nat
  acks : List Nat

namespace Window
variable {n : Nat} {w w' : Window}

/-- Nothing sent. -/
def empty : Window := ⟨0, 0, 0, 0, 0, [], []⟩

inductive Step (n : Nat) : Window → Window → Prop
  | frame (w : Window) (hroom : w.total < w.acked + n) : Step n w { w with total := w.total + 1 }
  | transmit (w : Window) (k : Nat) (hkept : w.acked < k) (hnext : k ≤ w.transmitted + 1)
      (htotal : k ≤ w.total) :
      Step n w { w with transmitted := max w.transmitted k, data := w.data ++ [k] }
  | arrive (w : Window) (k : Nat) (rest : List Nat) (hdata : w.data = k :: rest) :
      Step n w { w with data := rest, received := max w.received k }
  | consume (w : Window) (hheld : w.consumed < w.received) :
      Step n w { w with consumed := w.consumed + 1 }
  | acknowledge (w : Window) : Step n w { w with acks := w.acks ++ [w.consumed] }
  | settle (w : Window) (m : Nat) (rest : List Nat) (hacks : w.acks = m :: rest) :
      Step n w { w with acks := rest, acked := max w.acked m }

/-- The frames in flight take a receiver from `r` to `t` without a gap, and
none of them is older than the window when it arrives. -/
def Flows (n : Nat) : Nat → List Nat → Nat → Prop
  | r, [], t => r = t
  | r, k :: ks, t => 1 ≤ k ∧ k ≤ r + 1 ∧ r + 1 ≤ k + n ∧ Flows n (max r k) ks t

theorem Flows.le {r t : Nat} {ks : List Nat} (h : Flows n r ks t) : r ≤ t := by
  induction ks generalizing r with
  | nil => exact Nat.le_of_eq h
  | cons k ks ih => exact Nat.le_trans (Nat.le_max_left r k) (ih h.2.2.2)

theorem Flows.head_le {r t k : Nat} {ks : List Nat} (h : Flows n r (k :: ks) t) : k ≤ t :=
  Nat.le_trans (Nat.le_max_right r k) h.2.2.2.le

theorem Flows.mem {r t k : Nat} {ks : List Nat} (h : Flows n r ks t) (hk : k ∈ ks) :
    1 ≤ k ∧ k ≤ t := by
  induction ks generalizing r with
  | nil => cases hk
  | cons j ks ih =>
    cases hk with
    | head => exact ⟨h.1, h.head_le⟩
    | tail _ hk => exact ih h.2.2.2 hk

theorem Flows.snoc {r t k : Nat} {ks : List Nat} (h : Flows n r ks t) (hpos : 1 ≤ k)
    (hnext : k ≤ t + 1) (hold : t + 1 ≤ k + n) : Flows n r (ks ++ [k]) (max t k) := by
  induction ks generalizing r with
  | nil =>
    have hr : r = t := h
    subst hr
    exact ⟨hpos, hnext, hold, rfl⟩
  | cons j ks ih => exact ⟨h.1, h.2.1, h.2.2.1, ih h.2.2.2⟩

/-- Numbers that never fall, between two bounds. -/
def Climbs : Nat → List Nat → Nat → Prop
  | lo, [], hi => lo ≤ hi
  | lo, m :: ms, hi => lo ≤ m ∧ Climbs m ms hi

theorem Climbs.le {lo hi : Nat} {ms : List Nat} (h : Climbs lo ms hi) : lo ≤ hi := by
  induction ms generalizing lo with
  | nil => exact h
  | cons m ms ih => exact Nat.le_trans h.1 (ih h.2)

theorem Climbs.snoc {lo hi : Nat} {ms : List Nat} (h : Climbs lo ms hi) :
    Climbs lo (ms ++ [hi]) hi := by
  induction ms generalizing lo with
  | nil => exact ⟨h, Nat.le_refl hi⟩
  | cons m ms ih => exact ⟨h.1, ih h.2⟩

theorem Climbs.mono {lo hi hi' : Nat} {ms : List Nat} (h : Climbs lo ms hi) (hle : hi ≤ hi') :
    Climbs lo ms hi' := by
  induction ms generalizing lo with
  | nil => exact Nat.le_trans h hle
  | cons m ms ih => exact ⟨h.1, ih h.2⟩

/-- What holds of a window of `n` frames after any steps. -/
structure Inv (n : Nat) (w : Window) : Prop where
  consumed : w.consumed ≤ w.received
  total : w.transmitted ≤ w.total
  room : w.total ≤ w.acked + n
  flows : Flows n w.received w.data w.transmitted
  climbs : Climbs w.acked w.acks w.consumed

theorem empty_inv : Inv n empty :=
  ⟨Nat.le_refl 0, Nat.le_refl 0, Nat.zero_le _, rfl, Nat.le_refl 0⟩

theorem Inv.step (h : Inv n w) (hstep : Step n w w') : Inv n w' := by
  have hacked := h.climbs.le
  have hreceived := h.flows.le
  cases hstep with
  | frame hroom => exact ⟨h.consumed, Nat.le_succ_of_le h.total, hroom, h.flows, h.climbs⟩
  | transmit k hkept hnext htotal =>
    have hroom := h.room
    have ht := h.total
    exact ⟨h.consumed, Nat.max_le.mpr ⟨h.total, htotal⟩, h.room,
      h.flows.snoc (by omega) hnext (by omega), h.climbs⟩
  | arrive k rest hdata =>
    have hflows := h.flows
    rw [hdata] at hflows
    exact ⟨Nat.le_trans h.consumed (Nat.le_max_left _ _), h.total, h.room, hflows.2.2.2, h.climbs⟩
  | consume hheld => exact ⟨hheld, h.total, h.room, h.flows, h.climbs.mono (Nat.le_succ _)⟩
  | acknowledge => exact ⟨h.consumed, h.total, h.room, h.flows, h.climbs.snoc⟩
  | settle m rest hacks =>
    have hclimbs := h.climbs
    rw [hacks] at hclimbs
    have hmax : max w.acked m = m := Nat.max_eq_right hclimbs.1
    refine ⟨h.consumed, h.total, ?_, h.flows, ?_⟩
    · show w.total ≤ max w.acked m + n
      have hroom := h.room
      omega
    · show Climbs (max w.acked m) rest w.consumed
      rw [hmax]
      exact hclimbs.2

/-- The next frame that arrives is the one awaited or one of the last `n`. -/
theorem Inv.arriving {k : Nat} {rest : List Nat} (h : Inv n w) (hdata : w.data = k :: rest) :
    1 ≤ k ∧ k ≤ w.received + 1 ∧ w.received + 1 ≤ k + n ∧ k ≤ w.transmitted := by
  have hflows := h.flows
  rw [hdata] at hflows
  exact ⟨hflows.1, hflows.2.1, hflows.2.2.1, hflows.head_le⟩

/-- The next acknowledgement is of a frame that was consumed, and never older
than the last one. -/
theorem Inv.settling {m : Nat} {rest : List Nat} (h : Inv n w) (hacks : w.acks = m :: rest) :
    w.acked ≤ m ∧ m ≤ w.consumed := by
  have hclimbs := h.climbs
  rw [hacks] at hclimbs
  exact ⟨hclimbs.1, hclimbs.2.le⟩

end Window

end Z80Sbc.Concurrent
