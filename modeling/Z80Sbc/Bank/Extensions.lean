import Z80Sbc.Bank.Allocator
import Z80Sbc.Bank.Context
import Z80Sbc.Bank.Loader

/-! # Library requests

`banked_extensions.asm` and `banked_descriptor.asm`: a request of 32 bytes at DF20h loads,
invalidates, describes or invokes the library of bank 1. Each label of the sources is a function
here. The context hooks are those of `Bank/Context`, less what they push. -/

namespace Z80Sbc.Bank.Extensions
open Z80Sbc.Z80 Z80Sbc.Bank Allocator

variable {δ : Type}

/-! ## Cells -/

def exportCount : Word := 0xE4D2
def generation : Word := 0xDFA0

/-- The fields of a request that are read. -/
def requestAction : Word := 0xDF24
def requestGeneration : Word := 0xDF28
def requestIndex : Word := 0xDF2A
def requestFrame : Word := 0xDF2C
def requestEpoch : Word := 0xDF3E

/-! ## Descriptor -/

def describeLibrary (m : Mem) : Mem :=
  let m := poke (poke (poke m 0xDF31 0) 0xDF33 0) 0xDF35 0
  let m := poke16 m requestGeneration (peek16 m generation)
  let m := poke m 0xDF30 (peek m ready)
  let m := poke m 0xDF32 (peek m exportCount)
  let m := poke m 0xDF34 12
  let m := poke16 m 0xDF36 (peek16 m 0xE4D4)
  let m := poke16 m 0xDF38 0xE300
  let m := poke16 m 0xDF3A 0x0100
  let m := poke16 m 0xDF3C 0xC000
  poke16 m requestEpoch (peek16 m epoch)

/-- The carry, and the memory. -/
def advanceGeneration (m : Mem) : Bool × Mem :=
  let hl := peek16 m generation + 1
  if hl = 0 then (true, m) else (false, poke16 m generation hl)

def resetLibraryContext (m : Mem) : Mem :=
  poke (ldir (poke m 0xDF80 0) 0xDF80 0xDF81 29) 0xDF80 0x80

/-! ## Context hooks -/

/-- The context is saved at `saved`, and the one at `next` loaded. -/
def swapContext (saved next : Word) (s : Machine δ) : Machine δ :=
  let s := { s with mem := Context.saved s.mem saved }
  let s := s.useDma (peek16 s.mem next)
  { s with mem := Shim.restoreSearch s.mem (next + 2) }

def enterContext : Machine δ → Machine δ := swapContext Context.callerContext Context.libraryContext

def leaveContext : Machine δ → Machine δ := swapContext Context.libraryContext Context.callerContext

/-! ## Requests -/

/-- Only ordinary extents of the pool; zero for any other. -/
def poolSize (m : Mem) (hl : Word) : Word :=
  if lo hl ≠ 0 then 0
  else if hi hl < 0xC8 then 0
  else if 0xDE ≤ hi hl then 0
  else
    let l := hi hl - 0xC0
    let d := peek m (word 0xE7 l)
    if peek m (word 0xE7 (l ||| 0x40)) ≠ 255 then 0 else word d 0

/-- What a request comes to: a return with HL, or the code of the library. -/
inductive Answer (δ : Type) where
  | done (hl : Word) (s : Machine δ)
  | runs (entry : Word) (s : Machine δ)

/-- The status, in its cell and in the request. -/
def finished (a : Byte) (m : Mem) : Mem :=
  poke (poke (poke m status a) requestStatus a) (requestStatus + 1) 0

def finish (a : Byte) (s : Machine δ) : Answer δ :=
  .done (word 0 a) { s with mem := finished a s.mem }

def invalidate (m : Mem) : Mem :=
  let m := poke (poke m ready 0) exportCount 0
  describeLibrary (resetLibraryContext (advanceGeneration m).2)

/-- From `advance_generation` on, without the carry. -/
def loadLibrary (bdos : Bdos δ) (fuel : Nat) (s : Machine δ) : Option (Answer δ) :=
  let m := poke (poke (poke s.mem ready 0) Loader.action 0) exportCount 0
  let m := resetLibraryContext m
  let m := ldir m (peek16 m requestFrame) Loader.libraryFcb 48
  let s := enterContext { s with mem := m }
  (Loader.loader bdos fuel (Loader.libraryFcb + 48) { toMachine := s, written := [] }).map fun p =>
    let s := leaveContext p.2.toMachine
    let s := { s with mem := describeLibrary s.mem }
    if lo p.1 = 0 then finish 0 s else if lo p.1 = 2 then finish 7 s else finish 8 s

def load (bdos : Bdos δ) (fuel : Nat) (s : Machine δ) : Option (Answer δ) :=
  if hi (poolSize s.mem (peek16 s.mem requestFrame)) = 0 then some (finish 3 s)
  else
    let (carry, m) := advanceGeneration s.mem
    if carry then some (finish 10 s) else loadLibrary bdos fuel { s with mem := m }

/-- The adapter of the export that HL numbers, 12 bytes to an entry. -/
def exportEntry (hl : Word) : Word :=
  let hl := hl + hl
  let hl := hl + hl
  let de := hl
  let hl := hl + hl
  hl + de + 0xE308

/-- The call of the code, by `execute_at` in the allocator. -/
def call (ix : Word) (s : Machine δ) : Answer δ :=
  let m := poke16 s.mem 0xE4D6 (peek16 s.mem 0xDF2E)
  let m := poke (poke m controlBusy 1) privateReturn 1
  match executeAt 0x0100 0xC000 ix m with
  | .error a =>
    let m := (error a m).2
    .done (word 0 (peek m requestStatus)) { s with mem := m }
  | .ok entry => .runs entry (enterContext { s with mem := m })

def invoke (s : Machine δ) : Answer δ :=
  let m := s.mem
  if peek m ready = 0 then finish 9 s
  else if peek16 m requestGeneration - peek16 m generation ≠ 0 then finish 9 s
  else if peek16 m requestEpoch - peek16 m epoch ≠ 0 then finish 9 s
  else if hi (poolSize m (peek16 m requestFrame)) < 2 then finish 3 s
  else
    let de := peek16 m (peek16 m requestFrame)
    if de = 0 then finish 2 s
    else if 256 < de then finish 2 s
    else
      let hl := peek16 m requestIndex
      if hi hl ≠ 0 then finish 2 s
      else if peek m exportCount < lo hl ∨ peek m exportCount = lo hl then finish 2 s
      else call (peek16 m (exportEntry hl)) s

/-- The end of a call, with HL the result of the code. -/
def stackReturn (hl : Word) (s : Machine δ) : Word × Machine δ :=
  let s := leaveContext s
  let m := Allocator.leave (completeControl hl s.mem)
  (word 0 (peek m requestStatus), { s with mem := m })

def libraryControl (bdos : Bdos δ) (fuel : Nat) (hl : Word) (s : Machine δ) : Option (Answer δ) :=
  let m := s.mem
  if hl ≠ 0xDF20 then some (finish 2 s)
  else if peek16 m 0xDF20 ≠ 32 then some (finish 2 s)
  else if peek16 m 0xDF22 ≠ 1 then some (finish 2 s)
  else if peek m 0xDF25 ≠ 0 then some (finish 2 s)
  else if peek m requestAction = 0 then load bdos fuel s
  else if peek m requestAction = 1 then some (finish 0 { s with mem := invalidate m })
  else if peek m requestAction = 2 then some (finish 0 { s with mem := describeLibrary m })
  else if peek m requestAction = 3 then some (invoke s)
  else some (finish 2 s)

/-- `application_start` -/
def applicationStart (m : Mem) : Word × Mem :=
  let m := poke (poke m ready 0) exportCount 0
  let m := poke16 m 0xE4D6 0
  let m := ldir (poke m 0xDFA0 0) 0xDFA0 0xDFA1 7
  let m := resetLibraryContext m
  reset (poke m privateReturn 1)

end Z80Sbc.Bank.Extensions
