import Z80Sbc.Bank.SearchFrame
import Z80Sbc.Concurrent.Run

/-! # A search that other calls come between

`bank1_bdos_proxy.asm` saves the search variables of the BDOS after each search and restores them
before a search-next. The FCB of the search they point to is in the staging buffer, where the shim
puts the FCB of every call that takes one. -/

namespace Z80Sbc.Bank.SearchNext
open Z80Sbc.Z80 Z80Sbc.Bank Shim ShimTransparency SearchFrame Concurrent
open Z80Sbc.Bank.Context hiding saveSearch restoreSearch

variable {δ : Type}

/-! ## What a search goes on with -/

/-- The search variables of the BDOS. -/
def search (m : Mem) : Fin 7 → Byte := fun i => m true (variableAt ⟨i.val + 2, by omega⟩)

/-! ## The calls -/

/-- The function and DE of a request, in bank 0. -/
def asked (s : State δ) : State δ :=
  { s with
    mem :=
      store16 (store s.mem false response s.functionNumber) false (response + 2) s.originalArg }

/-- A request is staged in bank 1, and the proxy not yet called. -/
def staged (s : State δ) : State δ :=
  let s := dmaCopyInIfNeeded (fcbCopyInIfNeeded (asked s))
  let s := { s with mem := bankWrite s.mem response request 16 }
  { s with mem := poke s.mem serviceStatus 0 }

/-- The machine that the BDOS of bank 1 is called with, for a function and DE. -/
def called (c : Byte) (de : Word) (s : State δ) : Machine δ :=
  proxyBefore (staged { s with functionNumber := c, originalArg := de }).toMachine

/-- What the BDOS answers. -/
def answered (bdos : Bdos δ) (c : Byte) (de : Word) (s : State δ) : Regs × Machine δ :=
  bdos (peek (called c de s).mem request) (peek16 (called c de s).mem (request + 2)) (called c de s)

/-- What comes to the system: a call of the BDOS, a LOAD or an INVOKE. -/
inductive Event (δ : Type) where
  | call (b c : Byte) (de : Word)
  | load (fuel : Nat) (de : Word)
  | invoke (l : Invocation δ)

/-- A call below 13 does not come to the disk part of the shim. -/
def step (bdos : Bdos δ) (s : State δ) : Event δ → State δ
  | .call b c de => ((bdosEntry bdos b c de s).map Prod.snd).getD s
  | .load fuel de =>
    { s with
      toMachine := ((Loader.loader bdos fuel de { toMachine := s.toMachine, written := [] }).map
        fun p => p.2.toMachine).getD s.toMachine }
  | .invoke l => { s with toMachine := l.run s.toMachine }

/-- The event is none that a search does not survive: a reset, another search, or a forwarded call
that takes an FCB. -/
def Quiet : Event δ → Prop
  | .call _ c _ => takesFcb c = false ∧ c ≠ 13 ∧ c ≠ 18
  | .load _ _ => True
  | .invoke _ => True

/-! ## What a call stages -/

section
variable {s : State δ}

end

/-! ## What the proxy does -/

section
variable {bdos : Bdos δ} {s : Machine δ} {m : Mem} {r : Regs}

end

/-! ## A call -/

section
variable {bdos : Bdos δ} {s t : State δ} {b c : Byte} {de : Word} {r : Regs}

end

/-! ## Runs -/

section
variable {bdos : Bdos δ} {s : State δ} {es : List (Event δ)} {b c : Byte} {de de' : Word}

end

def start : State Unit where
  mem := fun _ a => lo a
  biosDma := 0x80
  disk := ()
  functionNumber := 0
  originalArg := 0
  baseDma := 0x80

end Z80Sbc.Bank.SearchNext
