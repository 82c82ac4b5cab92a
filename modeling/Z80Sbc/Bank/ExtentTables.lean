import Mathlib.Logic.Function.Basic
import Z80Sbc.Bank.Allocator
import Z80Sbc.Data.SortedLinks

/-! # The tables of the allocator

The four tables of 32 bytes at E700h, the head of the free list and the count of free pages, as
numbers. A block is an index of the tables; the selectors take five bits of a byte for it. -/

namespace Z80Sbc.Bank.ExtentTables
open Z80Sbc.Z80 Z80Sbc.Bank Allocator Z80Sbc.Data.SortedLinks

/-- The entries of one table. -/
def entries (p : Byte → Word) (m : Mem) (b : Nat) : Nat :=
  if b < 32 then (peek m (p (BitVec.ofNat 8 b))).toNat else 0

/-- What the tables say of the blocks. -/
@[ext] structure Tables where
  length : Nat → Nat
  previous : Nat → Nat
  next : Nat → Nat
  back : Nat → Nat
  head : Nat
  free : Nat

def view (m : Mem) : Tables where
  length := entries lengthPtr m
  previous := entries previousPtr m
  next := entries nextPtr m
  back := entries backPtr m
  head := (peek m freeHead).toNat
  free := (peek16 m freeBytes).toNat

/-! ## Selectors -/

theorem toNat_selected (l : Byte) : (l &&& 0x1F).toNat = l.toNat % 32 ∧
    (l &&& 0x1F ||| 0x20).toNat = 32 + l.toNat % 32 ∧
      (l &&& 0x1F ||| 0x40).toNat = 64 + l.toNat % 32 ∧
        (l &&& 0x1F ||| 0x60).toNat = 96 + l.toNat % 32 := by
  revert l
  decide

theorem toNat_block {b : Byte} (hb : b.toNat < 32) : (b &&& 31).toNat = b.toNat := by
  rw [show (31 : Byte) = 0x1F from rfl, (toNat_selected b).1, Nat.mod_eq_of_lt hb]

section
variable {l l' : Byte}

theorem toNat_lengthPtr : (lengthPtr l).toNat = 0xE700 + l.toNat % 32 := by
  rw [lengthPtr, toNat_word, (toNat_selected l).1]
  rfl

theorem toNat_previousPtr : (previousPtr l).toNat = 0xE720 + l.toNat % 32 := by
  rw [previousPtr, toNat_word, (toNat_selected l).2.1]
  have hhi : (0xE7 : Byte).toNat = 231 := rfl
  omega

theorem toNat_nextPtr : (nextPtr l).toNat = 0xE740 + l.toNat % 32 := by
  rw [nextPtr, toNat_word, (toNat_selected l).2.2.1]
  have hhi : (0xE7 : Byte).toNat = 231 := rfl
  omega

theorem toNat_backPtr : (backPtr l).toNat = 0xE760 + l.toNat % 32 := by
  rw [backPtr, toNat_word, (toNat_selected l).2.2.2]
  have hhi : (0xE7 : Byte).toNat = 231 := rfl
  omega

theorem ptr_eq_iff {p : Byte → Word} {base : Nat}
    (hp : ∀ l, (p l).toNat = base + l.toNat % 32) : p l = p l' ↔ l.toNat % 32 = l'.toNat % 32 := by
  rw [← BitVec.toNat_inj, hp, hp]
  omega

end

/-! ## Stores -/

section
variable {p q : Byte → Word} {base base' : Nat} {m : Mem} {l v : Byte} {a w : Word}

theorem entries_poke (hp : ∀ l, (p l).toNat = base + l.toNat % 32) :
    entries p (poke m (p l) v) = Function.update (entries p m) (l.toNat % 32) v.toNat := by
  funext b
  unfold entries
  by_cases hb : b < 32
  · rw [if_pos hb]
    have hmod : (BitVec.ofNat 8 b).toNat % 32 = b := by
      rw [BitVec.toNat_ofNat]
      omega
    by_cases he : b = l.toNat % 32
    · have hptr : p (BitVec.ofNat 8 b) = p l := (ptr_eq_iff hp).mpr (hmod.trans he)
      rw [hptr, peek_poke, he, Function.update_self]
    · have hptr : p (BitVec.ofNat 8 b) ≠ p l := fun h => he (hmod.symm.trans ((ptr_eq_iff hp).mp h))
      rw [peek_poke_ne hptr, Function.update_of_ne he, if_pos hb]
  · have hne : b ≠ l.toNat % 32 := by omega
    rw [if_neg hb, Function.update_of_ne hne, if_neg hb]

theorem entries_poke_ne (h : ∀ l', p l' ≠ a) : entries p (poke m a v) = entries p m := by
  funext b
  unfold entries
  rw [peek_poke_ne (h _)]

theorem entries_poke16 (h : ∀ l', p l' ≠ a) (h' : ∀ l', p l' ≠ a + 1) :
    entries p (poke16 m a w) = entries p m := by
  funext b
  unfold entries
  rw [peek_poke16_outside]
  intro hw
  have hcases : p (BitVec.ofNat 8 b) = a ∨ p (BitVec.ofNat 8 b) = a + 1 := by
    unfold Within at hw
    bv_omega
  rcases hcases with he | he
  · exact h _ he
  · exact h' _ he

end

/-! ## The view after a store -/

section
variable {m : Mem} {l v : Byte} {a w : Word}

theorem entries_aside {p : Byte → Word} {base : Nat}
    (hp : ∀ l, (p l).toNat = base + l.toNat % 32) (ha : a.toNat < base ∨ base + 32 ≤ a.toNat) :
    entries p (poke m a v) = entries p m := by
  refine entries_poke_ne fun l' he => ?_
  have hnat := congrArg BitVec.toNat he
  rw [hp] at hnat
  omega

theorem head_aside (ha : a ≠ freeHead) : peek (poke m a v) freeHead = peek m freeHead :=
  peek_poke_ne ha.symm

theorem free_aside (ha : a ≠ freeBytes) (ha' : a ≠ freeBytes + 1) :
    peek16 (poke m a v) freeBytes = peek16 m freeBytes := peek16_poke_ne ha.symm ha'.symm

theorem ne_of_toNat_lt {b : Word} (h : b.toNat < a.toNat) : a ≠ b := by
  rintro rfl
  exact Nat.lt_irrefl _ h

theorem toNat_freeHead : freeHead.toNat = 0xE610 := rfl
theorem toNat_freeBytes : freeBytes.toNat = 0xE614 := rfl
theorem toNat_freeBytes_succ : (freeBytes + 1).toNat = 0xE615 := rfl

theorem view_aside (ha : a.toNat < 0xE610 ∨ 0xE780 ≤ a.toNat) : view (poke m a v) = view m := by
  unfold view
  have hhead : a ≠ freeHead := by
    rintro rfl
    rw [toNat_freeHead] at ha
    omega
  have hfree : a ≠ freeBytes := by
    rintro rfl
    rw [toNat_freeBytes] at ha
    omega
  have hfree' : a ≠ freeBytes + 1 := by
    rintro rfl
    rw [toNat_freeBytes_succ] at ha
    omega
  rw [entries_aside (fun _ => toNat_lengthPtr) (by omega),
    entries_aside (fun _ => toNat_previousPtr) (by omega),
    entries_aside (fun _ => toNat_nextPtr) (by omega),
    entries_aside (fun _ => toNat_backPtr) (by omega), head_aside hhead, free_aside hfree hfree']

theorem view_table (ha : 0xE700 ≤ a.toNat) : view (poke m a v) =
    { view m with
      length := entries lengthPtr (poke m a v), previous := entries previousPtr (poke m a v),
      next := entries nextPtr (poke m a v), back := entries backPtr (poke m a v) } := by
  unfold view
  have hhead : a ≠ freeHead := ne_of_toNat_lt (by rw [toNat_freeHead]; omega)
  have hfree : a ≠ freeBytes := ne_of_toNat_lt (by rw [toNat_freeBytes]; omega)
  have hfree' : a ≠ freeBytes + 1 := ne_of_toNat_lt (by rw [toNat_freeBytes_succ]; omega)
  rw [head_aside hhead, free_aside hfree hfree']

variable (hl : l.toNat < 32)
include hl

theorem view_lengthPtr : view (poke m (lengthPtr l) v) =
    { view m with length := Function.update (view m).length l.toNat v.toNat } := by
  have ha : (lengthPtr l).toNat = 0xE700 + l.toNat % 32 := toNat_lengthPtr
  rw [view_table (by omega), entries_poke fun _ => toNat_lengthPtr, Nat.mod_eq_of_lt hl,
    entries_aside (fun _ => toNat_previousPtr) (by omega),
    entries_aside (fun _ => toNat_nextPtr) (by omega),
    entries_aside (fun _ => toNat_backPtr) (by omega)]
  rfl

theorem view_previousPtr : view (poke m (previousPtr l) v) =
    { view m with previous := Function.update (view m).previous l.toNat v.toNat } := by
  have ha : (previousPtr l).toNat = 0xE720 + l.toNat % 32 := toNat_previousPtr
  rw [view_table (by omega), entries_poke fun _ => toNat_previousPtr, Nat.mod_eq_of_lt hl,
    entries_aside (fun _ => toNat_lengthPtr) (by omega),
    entries_aside (fun _ => toNat_nextPtr) (by omega),
    entries_aside (fun _ => toNat_backPtr) (by omega)]
  rfl

theorem view_nextPtr : view (poke m (nextPtr l) v) =
    { view m with next := Function.update (view m).next l.toNat v.toNat } := by
  have ha : (nextPtr l).toNat = 0xE740 + l.toNat % 32 := toNat_nextPtr
  rw [view_table (by omega), entries_poke fun _ => toNat_nextPtr, Nat.mod_eq_of_lt hl,
    entries_aside (fun _ => toNat_lengthPtr) (by omega),
    entries_aside (fun _ => toNat_previousPtr) (by omega),
    entries_aside (fun _ => toNat_backPtr) (by omega)]
  rfl

theorem view_backPtr : view (poke m (backPtr l) v) =
    { view m with back := Function.update (view m).back l.toNat v.toNat } := by
  have ha : (backPtr l).toNat = 0xE760 + l.toNat % 32 := toNat_backPtr
  rw [view_table (by omega), entries_poke fun _ => toNat_backPtr, Nat.mod_eq_of_lt hl,
    entries_aside (fun _ => toNat_lengthPtr) (by omega),
    entries_aside (fun _ => toNat_previousPtr) (by omega),
    entries_aside (fun _ => toNat_nextPtr) (by omega)]
  rfl

theorem toNat_peek_length : (peek m (lengthPtr l)).toNat = (view m).length l.toNat := by
  show _ = entries lengthPtr m l.toNat
  rw [entries, if_pos hl, BitVec.ofNat_toNat, BitVec.setWidth_eq]

theorem toNat_peek_previous : (peek m (previousPtr l)).toNat = (view m).previous l.toNat := by
  show _ = entries previousPtr m l.toNat
  rw [entries, if_pos hl, BitVec.ofNat_toNat, BitVec.setWidth_eq]

theorem toNat_peek_next : (peek m (nextPtr l)).toNat = (view m).next l.toNat := by
  show _ = entries nextPtr m l.toNat
  rw [entries, if_pos hl, BitVec.ofNat_toNat, BitVec.setWidth_eq]

theorem toNat_peek_back : (peek m (backPtr l)).toNat = (view m).back l.toNat := by
  show _ = entries backPtr m l.toNat
  rw [entries, if_pos hl, BitVec.ofNat_toNat, BitVec.setWidth_eq]

end

/-- The predecessor is written unless the extent ends the pool. -/
theorem view_settle {m : Mem} {a v : Byte} (ha : a.toNat ≤ 30) :
    view (if a = 30 then m else poke m (previousPtr a) v) =
      { view m with
        previous := if a.toNat = 30 then (view m).previous
          else Function.update (view m).previous a.toNat v.toNat } := by
  by_cases h30 : a = 30
  · have hnat : a.toNat = 30 := by
      rw [h30]
      rfl
    rw [if_pos h30, if_pos hnat]
  · have hnat : a.toNat ≠ 30 := fun he => h30 (BitVec.eq_of_toNat_eq he)
    rw [if_neg h30, if_neg hnat, view_previousPtr (by omega)]

section
variable {m : Mem} {v : Byte} {w : Word}

theorem view_freeHead : view (poke m freeHead v) = { view m with head := v.toNat } := by
  unfold view
  rw [entries_aside (fun _ => toNat_lengthPtr) (by decide),
    entries_aside (fun _ => toNat_previousPtr) (by decide),
    entries_aside (fun _ => toNat_nextPtr) (by decide),
    entries_aside (fun _ => toNat_backPtr) (by decide), peek_poke,
    free_aside (by decide) (by decide)]

theorem entries_freeBytes {p : Byte → Word} {base : Nat}
    (hp : ∀ l, (p l).toNat = base + l.toNat % 32) (hbase : 0xE700 ≤ base) :
    entries p (poke16 m freeBytes w) = entries p m := by
  refine entries_poke16 (fun l => ?_) fun l => ?_
  · exact ne_of_toNat_lt (by rw [hp, toNat_freeBytes]; omega)
  · exact ne_of_toNat_lt (by rw [hp, toNat_freeBytes_succ]; omega)

theorem view_freeBytes : view (poke16 m freeBytes w) = { view m with free := w.toNat } := by
  unfold view
  rw [entries_freeBytes (fun _ => toNat_lengthPtr) (by decide),
    entries_freeBytes (fun _ => toNat_previousPtr) (by decide),
    entries_freeBytes (fun _ => toNat_nextPtr) (by decide),
    entries_freeBytes (fun _ => toNat_backPtr) (by decide), peek16_poke16,
    peek_poke16_outside (by decide)]

end

end Z80Sbc.Bank.ExtentTables
