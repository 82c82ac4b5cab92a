import Z80Sbc.Z80.Memory

/-! # Bank 1 as its resident code sees it

The services of bank 1 are functions on its memory; the registers they pass are
arguments and results. The BDOS of bank 1 is a parameter: it is called with C and DE, and
what it keeps on the disks is its own type. -/

namespace Z80Sbc.Bank
open Z80Sbc.Z80

/-- The two banks, the address last given to the BIOS for its DMA (FC24h), and the disks. -/
structure Machine (δ : Type) where
  mem : Mem
  biosDma : Word
  disk : δ

/-- What a BDOS call returns. -/
structure Regs where
  a : Byte
  b : Byte
  hl : Word

/-- The BDOS at 0005h of bank 1, for a function number and DE. -/
abbrev Bdos (δ : Type) := Byte → Word → Machine δ → Regs × Machine δ

/-- The DMA pointer of the BDOS (A_F8B1). -/
def dmaPointer : Word := 0xFAF1

/-- The DMA buffer of the resident code. -/
def dmaBuffer : Word := 0xE400

/-! ## Memory of bank 1 -/

def peek (m : Mem) (a : Word) : Byte := m true a
def peek16 (m : Mem) (a : Word) : Word := fetch16 m true a
def poke (m : Mem) (a : Word) (v : Byte) : Mem := store m true a v
def poke16 (m : Mem) (a w : Word) : Mem := store16 m true a w

/-- LDIR, `n` rounds of it. -/
def ldir (m : Mem) (src dst : Word) : Nat → Mem
  | 0 => m
  | n + 1 => ldir (poke m dst (peek m src)) (src + 1) (dst + 1) n

/-- The rounds of LDIR that BC asks for. -/
def rounds (bc : Word) : Nat := if bc = 0 then 65536 else bc.toNat

namespace Machine
variable {δ : Type}

/-- The BIOS entry FC24h. -/
def setDma (s : Machine δ) (address : Word) : Machine δ := { s with biosDma := address }

/-- LD HL,address; LD (FAF1h),HL; then FC24h with it in BC. -/
def useDma (s : Machine δ) (address : Word) : Machine δ :=
  { s with mem := poke16 s.mem dmaPointer address }.setDma address

end Machine

/-! ## What a BDOS call may change -/

/-- The addresses that are the BDOS's and the BIOS's own: page zero, and what is above the
resident services. -/
def SystemByte (a : Word) : Prop := a.toNat < 0x100 ∨ 0xEE00 ≤ a.toNat

instance (a : Word) : Decidable (SystemByte a) := inferInstanceAs (Decidable (_ ∨ _))

/-- The functions that take an FCB in DE. -/
def takesFcb (function : Byte) : Bool :=
  [15, 16, 17, 19, 20, 21, 22, 23, 30, 33, 34, 35, 36, 40].contains function.toNat

/-- The functions that fill the DMA buffer: the searches and the reads. -/
def fillsDma (function : Byte) : Bool := [17, 18, 20, 33].contains function.toNat

/-- The functions that set the DMA address. -/
def setsDma (function : Byte) : Bool := [13, 26].contains function.toNat

/-- A call of CP/M 2.2 keeps bank 0, and all of bank 1 but its own memory, the FCB that it
takes and the DMA buffer that it fills; and the DMA address unless it sets it. -/
structure KeepsMemory {δ : Type} (bdos : Bdos δ) : Prop where
  bank0 : ∀ c de s, (bdos c de s).2.mem false = s.mem false
  bank1 : ∀ c de s a, ¬SystemByte a → ¬(takesFcb c = true ∧ Within de 36 a) →
    ¬(fillsDma c = true ∧ Within (peek16 s.mem dmaPointer) 128 a) →
      peek (bdos c de s).2.mem a = peek s.mem a
  dma : ∀ c de s, setsDma c = false →
    peek16 (bdos c de s).2.mem dmaPointer = peek16 s.mem dmaPointer

/-! ## Lemmas -/

section
variable {m : Mem} {a a' w : Word} {v : Byte}

@[simp] theorem peek_poke : peek (poke m a v) a = v := store_same

theorem peek_poke_ne (h : a' ≠ a) : peek (poke m a v) a' = peek m a' := store_ne h

@[simp] theorem peek16_poke16 : peek16 (poke16 m a w) a = w := fetch16_store16

theorem peek_poke16_outside (h : ¬Within a 2 a') : peek (poke16 m a w) a' = peek m a' :=
  store16_outside fun hw => h hw.2

theorem peek16_poke16_outside (h : ¬Within a 2 a') (h' : ¬Within a 2 (a' + 1)) :
    peek16 (poke16 m a w) a' = peek16 m a' := fetch16_outside h h'

theorem peek16_poke_ne (h : a' ≠ a) (h' : a' + 1 ≠ a) : peek16 (poke m a v) a' = peek16 m a' :=
  fetch16_congr (store_ne h) (store_ne h')

theorem peek16_congr {m' : Mem} (h : peek m' a = peek m a) (h' : peek m' (a + 1) = peek m (a + 1)) :
    peek16 m' a = peek16 m a := fetch16_congr h h'

theorem bank0_poke : poke m a v false = m false := store_bank (by decide)

theorem bank0_poke16 : poke16 m a w false = m false := store16_bank (by decide)

end

theorem ldir_outside {m : Mem} {src a x : Word} {n : Nat} (hn : n ≤ 65536) (h : ¬Within a n x) :
    peek (ldir m src a n) x = peek m x := by
  induction n generalizing m src a with
  | zero => rfl
  | succ n ih =>
    rw [ldir, ih (by omega) (by unfold Within at h ⊢; bv_omega)]
    refine peek_poke_ne fun he => h ?_
    subst he
    unfold Within
    bv_omega

/-- LDIR with its destination one above its source fills. -/
theorem peek_ldir_fill {m : Mem} {src x : Word} {n : Nat} (hsrc : src.toNat + n < 65536)
    (hx : Within src (n + 1) x) : peek (ldir m src (src + 1) n) x = peek m src := by
  by_cases hself : x = src
  · rw [hself]
    exact ldir_outside (by omega) (by unfold Within; bv_omega)
  induction n generalizing m src with
  | zero =>
    unfold Within at hx
    bv_omega
  | succ n ih =>
    rw [ldir]
    by_cases hnext : x = src + 1
    · rw [hnext, ldir_outside (by omega) (by unfold Within; bv_omega), peek_poke]
    · rw [ih (by bv_omega) (by unfold Within at hx ⊢; bv_omega) hnext, peek_poke]

/-- LDIR copies a range that its destination does not run into. -/
theorem ldir_eq {m : Mem} {src dst : Word} {n : Nat} (hsrc : src.toNat + n ≤ 65536)
    (hdst : dst.toNat + n ≤ 65536) (h : ∀ a, Within src n a → ¬Within dst n a) :
    ldir m src dst n = copied m true dst true src n := by
  induction n generalizing m src dst with
  | zero => exact patch_zero.symm
  | succ n ih =>
    have hnext : ldir (poke m dst (peek m src)) (src + 1) (dst + 1) n =
        copied (poke m dst (peek m src)) true (dst + 1) true (src + 1) n := by
      refine ih (by bv_omega) (by bv_omega) fun a ha hd => ?_
      exact h a (by unfold Within at ha ⊢; bv_omega) (by unfold Within at hd ⊢; bv_omega)
    rw [ldir, hnext]
    funext k a
    unfold copied patch
    by_cases hk : k = true
    swap
    · rw [if_neg fun hc => hk hc.1, if_neg fun hc => hk hc.1]
      exact congrFun (store_bank hk) a
    by_cases ha : Within (dst + 1) n a
    · -- a later byte: its source is not the byte just written
      have hsource : src + 1 + (a - (dst + 1)) = src + (a - dst) := by bv_omega
      have hfree : src + (a - dst) ≠ dst := by
        intro he
        refine h dst ?_ (by simp [Within])
        unfold Within at ha ⊢
        bv_omega
      rw [if_pos ⟨hk, ha⟩, if_pos ⟨hk, by unfold Within at ha ⊢; bv_omega⟩]
      show poke m dst (peek m src) true (src + 1 + (a - (dst + 1))) = m true (src + (a - dst))
      rw [hsource]
      exact store_ne hfree
    rw [if_neg fun hc => ha hc.2]
    by_cases hd : a = dst
    · subst hd
      rw [if_pos ⟨hk, by simp [Within]⟩, BitVec.sub_self, hk]
      exact store_same.trans (congrArg (m true) (BitVec.add_zero src).symm)
    · rw [if_neg fun hc => ?_]
      · exact store_ne hd
      · have hin := hc.2
        unfold Within at hin ha
        bv_omega

end Z80Sbc.Bank
