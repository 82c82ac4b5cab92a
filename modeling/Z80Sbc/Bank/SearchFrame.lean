import Z80Sbc.Bank.Context
import Z80Sbc.Bank.LoaderFrame
import Z80Sbc.Bank.ShimTransparency

/-! # What is kept for a search

A search goes on with the stable FCB, and with the variables that the proxy has saved. A LOAD and
the hooks of an INVOKE write neither. -/

namespace Z80Sbc.Bank.SearchFrame
open Z80Sbc.Z80 Z80Sbc.Bank Shim ShimTransparency

variable {δ : Type}

/-- The bytes of the stable FCB. -/
def pattern (m : Mem) : Fin 36 → Byte := bytes 36 (m true) stableFcb

/-- What is kept for a search: the stable FCB, the saved search variables and their flag. -/
def SearchByte (a : Word) : Prop := Within stableFcb 36 a ∨ Within searchSave 7 a ∨ a = searchFlag

instance (a : Word) : Decidable (SearchByte a) := inferInstanceAs (Decidable (_ ∨ _ ∨ _))

def KeepsSearch (m m' : Mem) : Prop := ∀ a, SearchByte a → m' true a = m true a

section
variable {m m' m'' : Mem} {a : Word}

theorem KeepsSearch.trans (h : KeepsSearch m m') (h' : KeepsSearch m' m'') : KeepsSearch m m'' :=
  fun a ha => (h' a ha).trans (h a ha)

theorem SearchByte.range (h : SearchByte a) : 0xE480 ≤ a.toNat ∧ a.toNat < 0xE4A4 ∨
    0xDF00 ≤ a.toNat ∧ a.toNat < 0xDF07 ∨ a.toNat = 0xDEAA := by
  rcases h with h | h | rfl
  · refine Or.inl ?_
    unfold Within stableFcb at h
    bv_omega
  · refine Or.inr (Or.inl ?_)
    unfold Within searchSave at h
    bv_omega
  · exact Or.inr (Or.inr rfl)

theorem KeepsSearch.pattern (h : KeepsSearch m m') : pattern m' = pattern m :=
  bytes_congr (by decide) fun x hx => h x (Or.inl hx)

theorem KeepsSearch.saved (h : KeepsSearch m m') :
    bytes 7 (m' true) searchSave = bytes 7 (m true) searchSave :=
  bytes_congr (by decide) fun x hx => h x (Or.inr (Or.inl hx))

theorem KeepsSearch.flag (h : KeepsSearch m m') : peek m' searchFlag = peek m searchFlag :=
  h _ (Or.inr (Or.inr rfl))

end

/-- None of the addresses is kept for a search. -/
def Aside (P : Word → Prop) : Prop := ∀ a, P a → ¬SearchByte a

/-! ## A LOAD -/

section
open Loader LoaderSafety LoaderFrame

variable {bdos : Bdos δ} {s t : Loader.State δ} {fuel : Nat} {hl de : Word}

end

/-! ## An INVOKE -/

section
open Context

variable {dma : DmaCell} {s t : Cpu} {base next : Word}

/-- The stack that a hook is called with is not in what is kept for a search. -/
def StackAside (s : Cpu) : Prop := Aside (Within (s.sp - 14) 14)

/-- What a library is invoked with: the service's registers, what it runs around the hooks, and
what that leaves of the disk. Neither side writes what is kept for a search, but both may search. -/
structure Invocation (δ : Type) where
  dma : DmaCell
  cpu : Cpu
  ready : Ready dma cpu
  visit : δ → Visit dma
  disk : δ → Cpu → δ
  callerKeeps : ∀ d s, KeepsSearch s.mem ((visit d).caller s).mem
  callerStack : ∀ d s, Ready dma s → StackAside ((visit d).caller s)
  bodyKeeps : ∀ d s, KeepsSearch s.mem ((visit d).body s).mem
  bodyStack : ∀ d s, Ready dma s → StackAside ((visit d).body s)

def Invocation.run (l : Invocation δ) (s : Machine δ) : Machine δ :=
  (((l.visit s.disk).trace { l.cpu with mem := s.mem }).map fun t =>
    { mem := t.after.mem
      biosDma := fetch16 t.after.mem true l.dma.address
      disk := l.disk s.disk t.left }).getD s

end

end Z80Sbc.Bank.SearchFrame
