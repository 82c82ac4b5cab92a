import Mathlib.Tactic.Common
import Mathlib.Tactic.IntervalCases

/-! # Words, bytes and banked memory

Two banks of 64 KiB. A range of addresses is its first address and its length, and
may wrap around the end of the address space. -/

namespace Z80Sbc.Z80

abbrev Byte := BitVec 8
abbrev Word := BitVec 16

def hi (w : Word) : Byte := BitVec.ofNat 8 (w.toNat / 256)
def lo (w : Word) : Byte := BitVec.ofNat 8 w.toNat
def word (h l : Byte) : Word := BitVec.ofNat 16 (h.toNat * 256 + l.toNat)

theorem toNat_hi (w : Word) : (hi w).toNat = w.toNat / 256 := by
  have hw := w.isLt
  rw [hi, BitVec.toNat_ofNat]
  omega

theorem toNat_lo (w : Word) : (lo w).toNat = w.toNat % 256 := BitVec.toNat_ofNat ..

theorem toNat_word (h l : Byte) : (word h l).toNat = h.toNat * 256 + l.toNat := by
  have hh := h.isLt
  have hl := l.isLt
  rw [word, BitVec.toNat_ofNat]
  omega

@[simp] theorem hi_word (h l : Byte) : hi (word h l) = h := by
  have hl := l.isLt
  apply BitVec.eq_of_toNat_eq
  rw [toNat_hi, toNat_word]
  omega

@[simp] theorem lo_word (h l : Byte) : lo (word h l) = l := by
  have hl := l.isLt
  apply BitVec.eq_of_toNat_eq
  rw [toNat_lo, toNat_word]
  omega

@[simp] theorem word_hi_lo (w : Word) : word (hi w) (lo w) = w := by
  apply BitVec.eq_of_toNat_eq
  rw [toNat_word, toNat_hi, toNat_lo]
  omega

/-! ## Address arithmetic -/

@[simp] theorem add_eq_add {x a b : Word} : x + a = x + b ↔ a = b := by
  constructor
  · intro h
    bv_omega
  · rintro rfl
    rfl

/-- `a` is one of the `n` addresses from `base` on. -/
def Within (base : Word) (n : Nat) (a : Word) : Prop := (a - base).toNat < n

instance (base : Word) (n : Nat) (a : Word) : Decidable (Within base n a) :=
  inferInstanceAs (Decidable (_ < _))

/-- A range that does not wrap. -/
theorem within_iff {base a : Word} {n : Nat} (h : base.toNat + n ≤ 65536) :
    Within base n a ↔ base.toNat ≤ a.toNat ∧ a.toNat < base.toNat + n := by
  have ha := a.isLt
  have hb := base.isLt
  rw [Within, BitVec.toNat_sub]
  omega

theorem within_offset {base : Word} {n i : Nat} (hi : i < n) (hn : n ≤ 65536) :
    Within base n (base + BitVec.ofNat 16 i) := by
  have hsub : base + BitVec.ofNat 16 i - base = BitVec.ofNat 16 i := by bv_omega
  rw [Within, hsub, BitVec.toNat_ofNat]
  omega

/-- The two parts of a range. -/
theorem within_add {base a : Word} {n k : Nat} (h : n + k ≤ 65536) :
    Within base (n + k) a ↔ Within base n a ∨ Within (base + BitVec.ofNat 16 n) k a := by
  have ha := a.isLt
  have hb := base.isLt
  simp only [Within, BitVec.toNat_sub, BitVec.toNat_add, BitVec.toNat_ofNat]
  omega

theorem Within.mono {base a : Word} {n k : Nat} (h : Within base n a) (hle : n ≤ k) :
    Within base k a := Nat.lt_of_lt_of_le h hle

/-! ## Memory -/

abbrev Mem := Bool → Word → Byte

def store (m : Mem) (k : Bool) (a : Word) (v : Byte) : Mem := fun k' a' =>
  if k' = k ∧ a' = a then v else m k' a'

def fetch16 (m : Mem) (k : Bool) (a : Word) : Word := word (m k (a + 1)) (m k a)

def store16 (m : Mem) (k : Bool) (a w : Word) : Mem := store (store m k (a + 1) (hi w)) k a (lo w)

section
variable {m : Mem} {k k' : Bool} {a a' w : Word} {v : Byte}

@[simp] theorem store_same : store m k a v k a = v := by simp [store]

theorem store_ne (h : a' ≠ a) : store m k a v k' a' = m k' a' := by simp [store, h]

theorem store_bank (h : k' ≠ k) : store m k a v k' = m k' := by
  funext a'
  simp [store, h]

theorem store16_ne (h : a' ≠ a) (h' : a' ≠ a + 1) : store16 m k a w k' a' = m k' a' := by
  rw [store16, store_ne h, store_ne h']

theorem store16_outside (h : ¬(k' = k ∧ Within a 2 a')) : store16 m k a w k' a' = m k' a' := by
  by_cases hk : k' = k
  · have ha : ¬Within a 2 a' := fun hw => h ⟨hk, hw⟩
    refine store16_ne ?_ ?_
    · rintro rfl
      exact ha (by simp [Within])
    · rintro rfl
      exact ha (by unfold Within; bv_omega)
  · rw [store16, store_bank hk, store_bank hk]

theorem fetch16_outside (h : ¬Within a 2 a') (h' : ¬Within a 2 (a' + 1)) :
    fetch16 (store16 m k a w) k' a' = fetch16 m k' a' := by
  rw [fetch16, fetch16, store16_outside fun hw => h hw.2, store16_outside fun hw => h' hw.2]

theorem store16_bank (h : k' ≠ k) : store16 m k a w k' = m k' := by
  rw [store16, store_bank h, store_bank h]

theorem succ_ne (a : Word) : a + 1 ≠ a := by bv_omega

@[simp] theorem store16_lo : store16 m k a w k a = lo w := store_same

@[simp] theorem store16_hi : store16 m k a w k (a + 1) = hi w := by
  rw [store16, store_ne (succ_ne a), store_same]

@[simp] theorem fetch16_store16 : fetch16 (store16 m k a w) k a = w := by
  rw [fetch16, store16_lo, store16_hi, word_hi_lo]

theorem fetch16_congr {m' : Mem} (h : m' k a = m k a) (h' : m' k (a + 1) = m k (a + 1)) :
    fetch16 m' k a = fetch16 m k a := by
  rw [fetch16, fetch16, h, h']

end

/-! ## Ranges of memory -/

/-- `n` bytes from `dst` on in bank `k` replaced by those of `g`, which counts from 0. -/
def patch (m : Mem) (k : Bool) (dst : Word) (n : Nat) (g : Word → Byte) : Mem := fun k' a =>
  if k' = k ∧ Within dst n a then g (a - dst) else m k' a

/-- `n` bytes from `src` in bank `sk` copied to `dst` in bank `dk`. -/
def copied (m : Mem) (dk : Bool) (dst : Word) (sk : Bool) (src : Word) (n : Nat) : Mem :=
  patch m dk dst n fun o => m sk (src + o)

section
variable {m : Mem} {k k' : Bool} {dst a : Word} {n : Nat} {g : Word → Byte}

theorem patch_inside (h : Within dst n a) : patch m k dst n g k a = g (a - dst) := by
  simp [patch, h]

theorem patch_outside (h : ¬Within dst n a) : patch m k dst n g k' a = m k' a := by
  simp [patch, h]

theorem patch_bank (h : k' ≠ k) : patch m k dst n g k' = m k' := by
  funext a
  simp [patch, h]

theorem patch_zero : patch m k dst 0 g = m := by
  funext k' a
  simp [patch, Within]

/-- One more word in front. -/
theorem store16_patch (hn : n + 2 ≤ 65536) :
    store16 (patch m k (dst + 2) n fun o => g (o + 2)) k dst (word (g 1) (g 0)) =
      patch m k dst (n + 2) g := by
  funext k' a
  by_cases hk : k' = k
  · subst hk
    by_cases h0 : a = dst
    · subst h0
      rw [store16_lo, lo_word, patch_inside (by simp [Within]), BitVec.sub_self]
      rfl
    · by_cases h1 : a = dst + 1
      · subst h1
        have h : Within dst (n + 2) (dst + 1) := by unfold Within; bv_omega
        rw [store16_hi, hi_word, patch_inside h]
        congr 1
        bv_omega
      · rw [store16_ne h0 h1]
        by_cases h : Within (dst + 2) n a
        · have h' : Within dst (n + 2) a := by unfold Within at h ⊢; bv_omega
          rw [patch_inside h, patch_inside h']
          congr 1
          bv_omega
        · have h' : ¬Within dst (n + 2) a := by unfold Within at h ⊢; bv_omega
          rw [patch_outside h, patch_outside h']
  · rw [store16_bank hk, patch_bank hk, patch_bank hk]

/-- Two ranges that follow each other. -/
theorem patch_patch {i : Nat} (h : n + i ≤ 65536) :
    patch (patch m k dst n g) k (dst + BitVec.ofNat 16 n) i
      (fun o => g (o + BitVec.ofNat 16 n)) = patch m k dst (n + i) g := by
  funext k' a
  by_cases hk : k' = k
  · subst hk
    by_cases h2 : Within (dst + BitVec.ofNat 16 n) i a
    · have ha : Within dst (n + i) a := (within_add h).mpr (Or.inr h2)
      rw [patch_inside h2, patch_inside ha]
      congr 1
      bv_omega
    · rw [patch_outside h2]
      by_cases h1 : Within dst n a
      · rw [patch_inside h1, patch_inside (h1.mono (Nat.le_add_right n i))]
      · have ha : ¬Within dst (n + i) a := fun ha => ((within_add h).mp ha).elim h1 h2
        rw [patch_outside h1, patch_outside ha]
  · rw [patch_bank hk, patch_bank hk, patch_bank hk]

end

/-! ## Runs of words -/

def fetchWords (m : Mem) (k : Bool) : Word → Nat → List Word
  | _, 0 => []
  | a, n + 1 => fetch16 m k a :: fetchWords m k (a + 2) n

/-- The words from `a` on, stored from the last one down. -/
def storeWords (m : Mem) (k : Bool) : Word → List Word → Mem
  | _, [] => m
  | a, w :: ws => store16 (storeWords m k (a + 2) ws) k a w

theorem storeWords_fetchWords {m m' : Mem} {k k' : Bool} {dst src : Word} {n : Nat}
    (hn : 2 * n ≤ 65536) :
    storeWords m k dst (fetchWords m' k' src n) =
      patch m k dst (2 * n) fun o => m' k' (src + o) := by
  induction n generalizing dst src with
  | zero => exact patch_zero.symm
  | succ n ih =>
    rw [fetchWords, storeWords, ih (by omega)]
    have h (g : Word → Byte) :
        store16 (patch m k (dst + 2) (2 * n) fun o => g (o + 2)) k dst (word (g 1) (g 0)) =
          patch m k dst (2 * n + 2) g :=
      store16_patch (by omega)
    rw [show 2 * (n + 1) = 2 * n + 2 by omega, ← h]
    have hshift : (fun o => m' k' (src + 2 + o)) = fun o => m' k' (src + (o + 2)) := by
      funext o
      rw [BitVec.add_assoc, BitVec.add_comm 2 o]
    rw [hshift, fetch16, show src + 0 = src from BitVec.add_zero src]

end Z80Sbc.Z80
