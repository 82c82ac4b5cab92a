import Z80Sbc.Debugger.Value
import Mathlib.Algebra.Group.Nat.Defs

/-! # Assignment in the debugger

The reader undoes the writer, bit by bit of the storage unit. The writer converts a `_Bool`
before it knows of a bit-field and then stores the value as it was given; the reader has no
case for a `_Bool`. -/

namespace Z80Sbc.Debugger.Assignment
open Z80Sbc.Debugger

/-! ## Bytes -/

section
variable {memory : Memory} {address a : Address} {stored : BitVec 32} {n k i : Nat}

theorem storeBytes_inside (hn : n ≤ 65536) (hk : k < n) :
    storeBytes memory address stored n (address + BitVec.ofNat 16 k) =
      (stored >>> (k * 8)).setWidth 8 := by
  induction n with
  | zero => omega
  | succ n ih =>
    rw [storeBytes]
    dsimp only
    by_cases hlast : k = n
    · rw [if_pos (by rw [hlast]), hlast]
    · rw [if_neg (by bv_omega)]
      exact ih (by omega) (by omega)

theorem storeBytes_outside (h : ∀ k < n, a ≠ address + BitVec.ofNat 16 k) :
    storeBytes memory address stored n a = memory a := by
  induction n with
  | zero => rfl
  | succ n ih =>
    rw [storeBytes]
    dsimp only
    rw [if_neg (h n (Nat.lt_succ_self n))]
    exact ih fun k hk => h k (Nat.lt_succ_of_lt hk)

/-- The sizes of a scalar. -/
def ScalarSize (size : Int) : Prop := size = 1 ∨ size = 2 ∨ size = 4

/-- A byte of a storage unit. -/
theorem getLsbD_byte {b : BitVec 8} {shift : Nat} (hi : i < 32) :
    (b.setWidth 32 <<< shift).getLsbD i =
      if shift ≤ i ∧ i < shift + 8 then b.getLsbD (i - shift) else false := by
  rw [BitVec.getLsbD_shiftLeft, BitVec.getLsbD_setWidth]
  by_cases hlow : shift ≤ i
  · rw [decide_eq_true hi, decide_eq_false (Nat.not_lt.mpr hlow),
      decide_eq_true (show i - shift < 32 by omega)]
    by_cases hhigh : i < shift + 8
    · rw [if_pos ⟨hlow, hhigh⟩]
      rfl
    · rw [if_neg fun h => hhigh h.2, BitVec.getLsbD_of_ge _ _ (by omega)]
      rfl
  · rw [if_neg fun h => hlow h.1, decide_eq_true (Nat.not_le.mp hlow), Bool.not_true,
      Bool.and_false, Bool.false_and]

/-- The bits of a storage unit are those of its bytes. -/
theorem getLsbD_loadUnit {size : Int} (hsize : ScalarSize size) (hi : i < 8 * size.toNat) :
    (loadUnit memory address size).getLsbD i =
      (memory (address + BitVec.ofNat 16 (i / 8))).getLsbD (i % 8) := by
  have h32 : i < 32 := by
    rcases hsize with rfl | rfl | rfl <;> omega
  have hfirst : (memory address).setWidth 32 = (memory address).setWidth 32 <<< 0 :=
    (BitVec.shiftLeft_zero _).symm
  have hbyte (k : Nat) (hk : 8 * k ≤ i) (hk' : i < 8 * k + 8) : i / 8 = k ∧ i % 8 = i - 8 * k := by
    omega
  unfold loadUnit
  rw [hfirst]
  rcases hsize with rfl | rfl | rfl
  · obtain ⟨hd, hm⟩ := hbyte 0 (by omega) (by omega)
    rw [if_neg (by decide), if_neg (by decide), getLsbD_byte h32, if_pos (by omega), hd, hm]
    exact congrArg (fun a => (memory a).getLsbD i) (BitVec.add_zero address).symm
  · rw [if_neg (by decide), if_pos (by decide), BitVec.getLsbD_or, getLsbD_byte h32,
      getLsbD_byte h32]
    by_cases h8 : i < 8
    · obtain ⟨hd, hm⟩ := hbyte 0 (by omega) (by omega)
      rw [if_pos (by omega), if_neg (by omega), Bool.or_false, hd, hm]
      exact congrArg (fun a => (memory a).getLsbD i) (BitVec.add_zero address).symm
    · obtain ⟨hd, hm⟩ := hbyte 1 (by omega) (by omega)
      rw [if_neg (by omega), if_pos (by omega), Bool.false_or, hd, hm]
      rfl
  · rw [if_pos (by decide), if_pos (by decide), BitVec.getLsbD_or, BitVec.getLsbD_or,
      BitVec.getLsbD_or, getLsbD_byte h32, getLsbD_byte h32, getLsbD_byte h32, getLsbD_byte h32]
    by_cases h8 : i < 8
    · obtain ⟨hd, hm⟩ := hbyte 0 (by omega) (by omega)
      rw [if_pos (by omega), if_neg (by omega), if_neg (by omega), if_neg (by omega), hd, hm]
      simp only [Bool.or_false]
      exact congrArg (fun a => (memory a).getLsbD i) (BitVec.add_zero address).symm
    by_cases h16 : i < 16
    · obtain ⟨hd, hm⟩ := hbyte 1 (by omega) (by omega)
      rw [if_neg (by omega), if_pos (by omega), if_neg (by omega), if_neg (by omega), hd, hm]
      simp only [Bool.or_false, Bool.false_or]
      rfl
    by_cases h24 : i < 24
    · obtain ⟨hd, hm⟩ := hbyte 2 (by omega) (by omega)
      rw [if_neg (by omega), if_neg (by omega), if_pos (by omega), if_neg (by omega), hd, hm]
      simp only [Bool.or_false, Bool.false_or]
      rfl
    · obtain ⟨hd, hm⟩ := hbyte 3 (by omega) (by omega)
      rw [if_neg (by omega), if_neg (by omega), if_neg (by omega), if_pos (by omega), hd, hm]
      simp only [Bool.false_or]
      rfl

theorem loadUnit_high {size : Int} (hsize : ScalarSize size) (hi : 8 * size.toNat ≤ i) :
    (loadUnit memory address size).getLsbD i = false := by
  by_cases h32 : 32 ≤ i
  · exact BitVec.getLsbD_of_ge _ _ h32
  rw [Nat.not_le] at h32
  unfold loadUnit
  rcases hsize with rfl | rfl | rfl
  · rw [if_neg (by decide), if_neg (by decide), BitVec.getLsbD_setWidth,
      BitVec.getLsbD_of_ge _ _ (by omega), Bool.and_false]
  · rw [if_neg (by decide), if_pos (by decide), BitVec.getLsbD_or, BitVec.getLsbD_setWidth,
      BitVec.getLsbD_of_ge _ _ (by omega), getLsbD_byte h32, if_neg (by omega), Bool.and_false,
      Bool.or_false]
  · exact absurd h32 (by omega)

/-- What is read is what was written, cut to the size. -/
theorem loadUnit_storeBytes {size : Int} (hsize : ScalarSize size) (hi : i < 8 * size.toNat) :
    (loadUnit (storeBytes memory address stored size.toNat) address size).getLsbD i =
      stored.getLsbD i := by
  have hbound : size.toNat ≤ 65536 := by
    rcases hsize with rfl | rfl | rfl <;> decide
  rw [getLsbD_loadUnit hsize hi, storeBytes_inside hbound (by omega), BitVec.getLsbD_setWidth,
    BitVec.getLsbD_ushiftRight, decide_eq_true (Nat.mod_lt i (by decide)), Bool.true_and]
  congr 1
  omega

end

/-! ## Fields -/

section
variable {value : DebugValue} {i : Nat}

/-- A bit-field of at least one bit that fits a storage unit of a scalar size. -/
structure Field (value : DebugValue) : Prop where
  ok : value.misfits = false
  size : ScalarSize value.size
  width_pos : 0 < value.bitWidth
  width_le : value.bitWidth ≤ 32
  shift_nonneg : 0 ≤ value.bitShift
  fits : value.bitShift.toNat + value.bitWidth.toNat ≤ 8 * value.size.toNat

theorem Field.of (hsize : ScalarSize value.size) (hpos : 0 < value.bitWidth)
    (hok : value.misfits = false) : Field value := by
  have hfits := hok
  unfold DebugValue.misfits at hfits
  simp only [Bool.or_eq_false_iff, decide_eq_false_iff_not] at hfits
  have hnat : 0 ≤ value.size := by
    rcases hsize with h | h | h <;> omega
  exact ⟨hok, hsize, hpos, by omega, by omega, by omega⟩

theorem getLsbD_mask (hpos : 0 < value.bitWidth) (hle : value.bitWidth ≤ 32) :
    value.mask.getLsbD i = decide (i < value.bitWidth.toNat) := by
  unfold DebugValue.mask
  by_cases hall : value.bitWidth = 32
  · rw [if_pos hall, hall]
    have hones : (0xffffffff : BitVec 32) = BitVec.allOnes 32 := rfl
    rw [hones, BitVec.getLsbD_allOnes]
    rfl
  · rw [if_neg hall]
    obtain ⟨w, hw⟩ : ∃ w, value.bitWidth.toNat = w := ⟨_, rfl⟩
    have hlt : w < 32 := by omega
    have hnat : ((1 : BitVec 32) <<< w - 1).toNat = 2 ^ w - 1 := by
      have hpow : 2 ^ w < 2 ^ 32 := Nat.pow_lt_pow_right (by decide) hlt
      have hone : 0 < 2 ^ w := Nat.pow_pos (by decide)
      rw [BitVec.toNat_sub, BitVec.toNat_shiftLeft, Nat.shiftLeft_eq]
      show (2 ^ 32 - 1 + 1 * 2 ^ w % 2 ^ 32) % 2 ^ 32 = _
      rw [Nat.one_mul, Nat.mod_eq_of_lt hpow]
      omega
    rw [hw, BitVec.getLsbD, hnat, Nat.testBit_two_pow_sub_one]

/-- What is read of a field, from the bits of its unit. -/
theorem integer_field {memory : Memory} {x : BitVec 32} (h : Field value)
    (himmediate : value.immediate = false)
    (hbits : ∀ i < value.bitWidth.toNat,
      (loadUnit memory value.address value.size).getLsbD (value.bitShift.toNat + i) = x.getLsbD i) :
    integer memory value =
      if value.isUnsigned then (x.setWidth value.bitWidth.toNat).setWidth 32
      else (x.setWidth value.bitWidth.toNat).signExtend 32 := by
  have hpos := h.width_pos
  have hle := h.width_le
  unfold integer
  rw [himmediate, if_pos hpos, h.ok, if_neg Bool.false_ne_true, if_neg Bool.false_ne_true]
  dsimp only
  have hfield : (loadUnit memory value.address value.size >>> value.bitShift.toNat) &&&
      value.mask = (x.setWidth value.bitWidth.toNat).setWidth 32 := by
    refine BitVec.eq_of_getLsbD_eq fun i hi => ?_
    rw [BitVec.getLsbD_and, getLsbD_mask hpos hle, BitVec.getLsbD_ushiftRight,
      BitVec.getLsbD_setWidth, BitVec.getLsbD_setWidth, decide_eq_true hi, Bool.true_and]
    by_cases hw : i < value.bitWidth.toNat
    · rw [hbits i hw, decide_eq_true hw, Bool.and_true, Bool.true_and]
    · rw [decide_eq_false hw, Bool.and_false, Bool.false_and]
  rw [hfield]
  cases hsign : value.isUnsigned with
  | true =>
    rw [if_pos rfl]
    rfl
  | false =>
    rw [if_neg Bool.false_ne_true]
    obtain ⟨w, hw⟩ : ∃ w, value.bitWidth.toNat = w := ⟨_, rfl⟩
    have hlast : (value.bitWidth - 1).toNat = w - 1 := by omega
    have hw32 : decide (value.bitWidth < 32) = decide (w < 32) := by
      congr 1
      exact propext (by omega)
    rw [hw, hlast, hw32, Bool.not_false, Bool.true_and]
    have htest : ((x.setWidth w).setWidth 32 &&& ((1 : BitVec 32) <<< (w - 1)) ≠ 0) ↔
        (x.setWidth w).msb = true := by
      have hbit : (1 : BitVec 32) <<< (w - 1) = BitVec.twoPow 32 (w - 1) := rfl
      rw [hbit, BitVec.and_twoPow, BitVec.msb_eq_getLsbD_last, BitVec.getLsbD_setWidth,
        decide_eq_true (show w - 1 < 32 by omega), Bool.true_and]
      by_cases hset : (x.setWidth w).getLsbD (w - 1) = true
      · rw [if_pos hset]
        refine ⟨fun _ => hset, fun _ hzero => ?_⟩
        have hone := congrArg (fun b => b.getLsbD (w - 1)) hzero
        rw [BitVec.getLsbD_twoPow, decide_eq_true (show w - 1 < 32 by omega)] at hone
        simp at hone
      · rw [if_neg hset]
        exact ⟨fun hne => absurd rfl hne, fun hc => absurd hc hset⟩
    by_cases hmsb : (x.setWidth w).msb = true
    · by_cases hshort : w < 32
      · rw [if_pos (by rw [decide_eq_true hshort, decide_eq_true (htest.mpr hmsb)]; rfl)]
        refine BitVec.eq_of_getLsbD_eq fun i hi => ?_
        rw [BitVec.getLsbD_or, BitVec.getLsbD_not, getLsbD_mask hpos hle, hw,
          BitVec.getLsbD_signExtend, BitVec.getLsbD_setWidth, hmsb, decide_eq_true hi,
          Bool.true_and, Bool.true_and, Bool.true_and]
        by_cases hin : i < w
        · rw [if_pos hin, decide_eq_true hin, Bool.not_true, Bool.or_false]
        · rw [if_neg hin, decide_eq_false hin, Bool.not_false, Bool.or_true]
      · obtain rfl : w = 32 := by omega
        rw [if_neg (by rw [decide_eq_false hshort, Bool.false_and]; exact Bool.false_ne_true),
          BitVec.signExtend_eq]
        exact BitVec.setWidth_eq _
    · rw [if_neg]
      · exact (BitVec.signExtend_eq_setWidth_of_msb_false (Bool.eq_false_iff.mpr hmsb)).symm
      · rw [Bool.and_eq_true, decide_eq_true_iff]
        exact fun hc => hmsb (htest.mp (of_decide_eq_true hc.2))

end

/-! ## Conversion -/

/-- C's conversion of a value to the type of the object. -/
def converted (value : DebugValue) (newValue : BitVec 32) : BitVec 32 :=
  if value.base = 6 then (if newValue ≠ 0 then 1 else 0)
  else
    let width := if value.bitWidth > 0 then value.bitWidth.toNat else 8 * value.size.toNat
    if value.isUnsigned then (newValue.setWidth width).setWidth 32
    else (newValue.setWidth width).signExtend 32

/-- A field that is given `newValue` reads as a `_Bool`. -/
def ReadsBool (value : DebugValue) (newValue : BitVec 32) : Prop :=
  newValue = 0 ∨
    newValue.toNat % 2 ^ value.bitWidth.toNat = 1 ∧ (value.isUnsigned = true ∨ 2 ≤ value.bitWidth)

/-- What an assignment has to do. -/
structure Exact (memory : Memory) (value : DebugValue)
    (registerWriter : Option (DebugLocationKind → BitVec 32 → Bool)) (newValue : BitVec 32) :
    Prop where
  stored : (write memory value registerWriter newValue).1 = true →
    integer (write memory value registerWriter newValue).2 value = converted value newValue
  unit : 0 < value.bitWidth → ∀ i < 8 * value.size.toNat,
    i < value.bitShift.toNat ∨ value.bitShift.toNat + value.bitWidth.toNat ≤ i →
      (loadUnit (write memory value registerWriter newValue).2 value.address value.size).getLsbD i =
        (loadUnit memory value.address value.size).getLsbD i
  frame : ∀ a, (∀ k < value.size.toNat, a ≠ value.address + BitVec.ofNat 16 k) →
    (write memory value registerWriter newValue).2 a = memory a
  refused : (write memory value registerWriter newValue).1 = false →
    (write memory value registerWriter newValue).2 = memory

theorem signExtend_zero {w : Nat} : ((0 : BitVec 32).setWidth w).signExtend 32 = 0 := by
  refine BitVec.eq_of_getLsbD_eq fun i hi => ?_
  rw [BitVec.getLsbD_signExtend, BitVec.msb_eq_getLsbD_last]
  simp

theorem signExtend_eq_one {w : Nat} (hpos : 0 < w) (hle : w ≤ 32) {x : BitVec w} :
    x.signExtend 32 = 1 ↔ x.toNat = 1 ∧ 2 ≤ w := by
  by_cases hmsb : x.msb = true
  · constructor
    · intro hone
      by_cases h31 : 31 < w
      · obtain rfl : w = 32 := by omega
        rw [BitVec.signExtend_eq] at hone
        subst hone
        exact absurd hmsb (by decide)
      · have hbit := congrArg (fun b => b.getLsbD 31) hone
        rw [BitVec.getLsbD_signExtend, hmsb, if_neg h31] at hbit
        exact absurd hbit (by decide)
    · rintro ⟨hone, htwo⟩
      rw [BitVec.msb_eq_decide, decide_eq_true_iff, hone] at hmsb
      have hpow : 2 ^ 1 ≤ 2 ^ (w - 1) := Nat.pow_le_pow_right (by decide) (by omega)
      omega
  · rw [Bool.not_eq_true] at hmsb
    rw [BitVec.signExtend_eq_setWidth_of_msb_false hmsb, ← BitVec.toNat_inj, BitVec.toNat_setWidth]
    have hlt : x.toNat < 2 ^ 32 := Nat.lt_of_lt_of_le x.isLt (Nat.pow_le_pow_right (by decide) hle)
    rw [Nat.mod_eq_of_lt hlt]
    refine ⟨fun hone => ⟨hone, ?_⟩, fun h => h.1⟩
    rw [BitVec.msb_eq_decide, decide_eq_false_iff_not] at hmsb
    change x.toNat = 1 at hone
    rw [hone] at hmsb
    by_cases hw : w = 1
    · subst hw
      exact absurd (by decide) hmsb
    · omega

/-- When the bits of a field read as the truth of the value. -/
theorem reads_bool {value : DebugValue} {newValue : BitVec 32} (h : Field value) :
    (if value.isUnsigned then (newValue.setWidth value.bitWidth.toNat).setWidth 32
      else (newValue.setWidth value.bitWidth.toNat).signExtend 32) =
        (if newValue ≠ 0 then (1 : BitVec 32) else 0) ↔ ReadsBool value newValue := by
  have hpos := h.width_pos
  have hle := h.width_le
  unfold ReadsBool
  by_cases hzero : newValue = 0
  · subst hzero
    refine ⟨fun _ => Or.inl rfl, fun _ => ?_⟩
    have hfalse : (if (0 : BitVec 32) ≠ 0 then (1 : BitVec 32) else 0) = 0 := rfl
    rw [hfalse, signExtend_zero, BitVec.ofNat_eq_ofNat, BitVec.setWidth_zero,
      BitVec.setWidth_zero, ite_self]
  · rw [if_pos hzero]
    have hnat : (newValue.setWidth value.bitWidth.toNat).toNat =
        newValue.toNat % 2 ^ value.bitWidth.toNat := BitVec.toNat_setWidth _ _
    cases hsign : value.isUnsigned with
    | true =>
      rw [if_pos rfl, ← BitVec.toNat_inj, BitVec.toNat_setWidth, hnat]
      have hlt : newValue.toNat % 2 ^ value.bitWidth.toNat < 2 ^ 32 :=
        Nat.lt_of_le_of_lt (Nat.mod_le _ _) newValue.isLt
      rw [Nat.mod_eq_of_lt hlt]
      exact ⟨fun hone => Or.inr ⟨hone, Or.inl rfl⟩, fun hor => hor.elim (fun h => absurd h hzero)
        fun h => h.1⟩
    | false =>
      rw [if_neg Bool.false_ne_true, signExtend_eq_one (by omega) (by omega), hnat]
      constructor
      · rintro ⟨hone, htwo⟩
        exact Or.inr ⟨hone, Or.inr (by omega)⟩
      · rintro (hz | ⟨hone, hbad | htwo⟩)
        · exact absurd hz hzero
        · cases hbad
        · exact ⟨hone, by omega⟩

/-- A write to a field. -/
theorem write_field {memory : Memory} {value : DebugValue} {newValue : BitVec 32}
    {registerWriter : Option (DebugLocationKind → BitVec 32 → Bool)} (h : Field value)
    (himmediate : value.immediate = false) (hw : writable value registerWriter.isSome = true) :
    (write memory value registerWriter newValue).1 = true ∧
      (∀ a, (∀ k < value.size.toNat, a ≠ value.address + BitVec.ofNat 16 k) →
        (write memory value registerWriter newValue).2 a = memory a) ∧
      ∀ i < 8 * value.size.toNat,
        (loadUnit (write memory value registerWriter newValue).2 value.address
            value.size).getLsbD i =
          if value.bitShift.toNat ≤ i ∧ i < value.bitShift.toNat + value.bitWidth.toNat then
            newValue.getLsbD (i - value.bitShift.toNat)
          else (loadUnit memory value.address value.size).getLsbD i := by
  unfold write
  rw [hw, Bool.not_true, if_neg Bool.false_ne_true, himmediate]
  dsimp only
  rw [if_neg Bool.false_ne_true, if_pos h.width_pos, h.ok, if_neg Bool.false_ne_true]
  refine ⟨rfl, fun a ha => storeBytes_outside ha, fun i hi => ?_⟩
  have hi32 : i < 32 := by
    rcases h.size with hs | hs | hs <;> omega
  rw [loadUnit_storeBytes h.size hi, BitVec.getLsbD_or, BitVec.getLsbD_and, BitVec.getLsbD_and,
    BitVec.getLsbD_not, BitVec.getLsbD_shiftLeft, BitVec.getLsbD_shiftLeft, decide_eq_true hi32,
    Bool.true_and]
  by_cases hlow : i < value.bitShift.toNat
  · rw [if_neg (by omega), decide_eq_true hlow]
    simp only [Bool.not_true, Bool.false_and, Bool.and_false, Bool.not_false, Bool.and_true,
      Bool.or_false]
  · rw [decide_eq_false hlow, getLsbD_mask h.width_pos h.width_le]
    by_cases hin : i - value.bitShift.toNat < value.bitWidth.toNat
    · rw [if_pos (by omega), decide_eq_true hin]
      simp only [Bool.not_false, Bool.true_and, Bool.and_true, Bool.not_true, Bool.and_false,
        Bool.false_or]
    · rw [if_neg (by omega), decide_eq_false hin]
      simp only [Bool.and_false, Bool.not_false, Bool.and_true, Bool.or_false]

/-- A write to a whole object. -/
theorem write_object {memory : Memory} {value : DebugValue} {newValue : BitVec 32}
    {registerWriter : Option (DebugLocationKind → BitVec 32 → Bool)}
    (hsize : ScalarSize value.size) (hwidth : ¬0 < value.bitWidth)
    (himmediate : value.immediate = false) (hw : writable value registerWriter.isSome = true) :
    (write memory value registerWriter newValue).1 = true ∧
      (∀ a, (∀ k < value.size.toNat, a ≠ value.address + BitVec.ofNat 16 k) →
        (write memory value registerWriter newValue).2 a = memory a) ∧
      integer (write memory value registerWriter newValue).2 value = converted value newValue := by
  unfold write
  rw [hw, Bool.not_true, if_neg Bool.false_ne_true, himmediate]
  dsimp only
  rw [if_neg Bool.false_ne_true, if_neg hwidth]
  refine ⟨rfl, fun a ha => storeBytes_outside ha, ?_⟩
  generalize hstored : (if value.base = 6 then (if newValue ≠ 0 then (1 : BitVec 32) else 0)
    else newValue) = stored
  have hunit : loadUnit (storeBytes memory value.address stored value.size.toNat) value.address
      value.size = (stored.setWidth (8 * value.size.toNat)).setWidth 32 := by
    refine BitVec.eq_of_getLsbD_eq fun i hi => ?_
    rw [BitVec.getLsbD_setWidth, BitVec.getLsbD_setWidth, decide_eq_true hi, Bool.true_and]
    by_cases hin : i < 8 * value.size.toNat
    · rw [loadUnit_storeBytes hsize hin, decide_eq_true hin, Bool.true_and]
    · rw [loadUnit_high hsize (Nat.not_lt.mp hin), decide_eq_false hin, Bool.false_and]
  have hread : integer (storeBytes memory value.address stored value.size.toNat) value =
      if value.isUnsigned then (stored.setWidth (8 * value.size.toNat)).setWidth 32
      else (stored.setWidth (8 * value.size.toNat)).signExtend 32 := by
    unfold integer
    rw [himmediate, if_neg Bool.false_ne_true, hunit, if_neg hwidth]
    cases value.isUnsigned with
    | true => rfl
    | false =>
      rcases hsize with hs | hs | hs
      · rw [hs]
        exact congrArg (BitVec.signExtend 32) (BitVec.setWidth_setWidth_of_le _ (by decide))
      · rw [hs]
        exact congrArg (BitVec.signExtend 32) (BitVec.setWidth_setWidth_of_le _ (by decide))
      · rw [hs]
        exact (BitVec.signExtend_eq (x := (stored.setWidth 32).setWidth 32)).symm
  rw [hread]
  unfold converted
  rw [if_neg hwidth, ← hstored]
  by_cases hbool : value.base = 6
  · rw [if_pos hbool, if_pos hbool]
    have hkept (b : BitVec 32) (hb : b = 0 ∨ b = 1) :
        (b.setWidth (8 * value.size.toNat)).setWidth 32 = b ∧
          (b.setWidth (8 * value.size.toNat)).signExtend 32 = b := by
      rcases hsize with hs | hs | hs <;> rw [hs] <;> rcases hb with rfl | rfl <;> decide
    have htruth : (if newValue ≠ 0 then (1 : BitVec 32) else 0) = 0 ∨
        (if newValue ≠ 0 then (1 : BitVec 32) else 0) = 1 := by
      split
      · exact Or.inr rfl
      · exact Or.inl rfl
    rw [(hkept _ htruth).1, (hkept _ htruth).2, ite_self]
  · rw [if_neg hbool, if_neg hbool]

theorem writable_size {value : DebugValue} {registerWriter : Bool}
    (hw : writable value registerWriter = true) : ScalarSize value.size := by
  unfold writable at hw
  split at hw
  · cases hw
  next hscalar =>
  simp only [Bool.or_eq_true, not_or, Bool.not_eq_true, Bool.not_eq_false',
    decide_eq_true_iff] at hscalar
  exact (or_assoc.mp hscalar.2)

/-- A refused write changes nothing. -/
theorem write_refused {memory : Memory} {value : DebugValue} {newValue : BitVec 32}
    {registerWriter : Option (DebugLocationKind → BitVec 32 → Bool)}
    (himmediate : value.immediate = false)
    (h : writable value registerWriter.isSome = false ∨ 0 < value.bitWidth ∧ value.misfits = true) :
    write memory value registerWriter newValue = (false, memory) := by
  unfold write
  cases hw : writable value registerWriter.isSome with
  | false => rfl
  | true =>
    obtain hno | ⟨hpos, hmisfits⟩ := h
    · rw [hw] at hno
      cases hno
    · rw [Bool.not_true, if_neg Bool.false_ne_true, himmediate]
      dsimp only
      rw [if_neg Bool.false_ne_true, if_pos hpos, hmisfits, if_pos rfl]

theorem Exact.of_refused {memory : Memory} {value : DebugValue} {newValue : BitVec 32}
    {registerWriter : Option (DebugLocationKind → BitVec 32 → Bool)}
    (h : write memory value registerWriter newValue = (false, memory)) :
    Exact memory value registerWriter newValue := by
  constructor
  · intro hdone
    rw [h] at hdone
    cases hdone
  · intro _ i _ _
    rw [h]
  · intro a _
    rw [h]
  · intro _
    rw [h]

/-- The debugger assigns as C does, but for a field of type `_Bool`: such a field is given the low
bits of the value and not its truth, and a signed one of a single bit reads as -1. -/
theorem assignment_exact_iff (memory : Memory) (value : DebugValue)
    (registerWriter : Option (DebugLocationKind → BitVec 32 → Bool)) (newValue : BitVec 32)
    (hmemory : value.immediate = false) :
    Exact memory value registerWriter newValue ↔
      (writable value registerWriter.isSome = true → value.base = 6 → 0 < value.bitWidth →
        value.misfits = false → ReadsBool value newValue) := by
  by_cases hw : writable value registerWriter.isSome = true
  case neg =>
    exact ⟨fun _ hyes => absurd hyes hw,
      fun _ => Exact.of_refused (write_refused hmemory (Or.inl (Bool.eq_false_iff.mpr hw)))⟩
  have hsize := writable_size hw
  by_cases hwidth : 0 < value.bitWidth
  · by_cases hfits : value.misfits = true
    · refine ⟨fun _ _ _ _ hno => ?_,
        fun _ => Exact.of_refused (write_refused hmemory (Or.inr ⟨hwidth, hfits⟩))⟩
      rw [hfits] at hno
      cases hno
    rw [Bool.not_eq_true] at hfits
    have hfield := Field.of hsize hwidth hfits
    obtain ⟨hdone, hframe, hbits⟩ := @write_field memory value newValue registerWriter hfield hmemory hw
    have hinside := hfield.fits
    have hread := integer_field (x := newValue) hfield hmemory fun i hi => by
      rw [hbits _ (by omega), if_pos (by omega), Nat.add_sub_cancel_left]
    have hconverted : value.base ≠ 6 →
        integer (write memory value registerWriter newValue).2 value =
          converted value newValue := fun hbool => by
      rw [hread, converted, if_neg hbool, if_pos hwidth]
    have htruth : value.base = 6 →
        (integer (write memory value registerWriter newValue).2 value = converted value newValue ↔
          ReadsBool value newValue) := fun hbool => by
      rw [hread, converted, if_pos hbool]
      exact reads_bool hfield
    refine ⟨fun h _ hbool _ _ => (htruth hbool).mp (h.stored hdone),
      fun h => ⟨fun _ => ?_, ?_, hframe, ?_⟩⟩
    · by_cases hbool : value.base = 6
      · exact (htruth hbool).mpr (h hw hbool hwidth hfits)
      · exact hconverted hbool
    · intro _ i hi hout
      rw [hbits i hi, if_neg (by omega)]
    · intro hno
      rw [hdone] at hno
      cases hno
  · obtain ⟨hdone, hframe, hread⟩ := @write_object memory value newValue registerWriter hsize hwidth hmemory hw
    refine ⟨fun _ _ _ hpos => absurd hpos hwidth,
      fun _ => ⟨fun _ => hread, fun hpos => absurd hpos hwidth, hframe, fun hno => ?_⟩⟩
    rw [hdone] at hno
    cases hno

/-- A signed field of seven bits, in the middle of an `int`. -/
theorem assignment_exact_iff_seven :
    Exact (fun _ => 0xa5)
      ⟨0x8000, 2, 2, false, 0, false, .frame, false, 7, 3⟩ none 0x47 :=
  (assignment_exact_iff _ _ none 0x47 rfl).mpr fun _ h => absurd h (by decide)

/-- `_Bool b : 1`, unsigned: 2 is stored as 0. -/
theorem bool_field_loses_truth :
    ¬Exact (fun _ => 0) ⟨0x8000, 6 ||| 32, 1, false, 0, false, .frame, false, 1, 0⟩ none 2 := by
  intro h
  exact absurd (h.stored (by decide)) (by decide)

end Z80Sbc.Debugger.Assignment
