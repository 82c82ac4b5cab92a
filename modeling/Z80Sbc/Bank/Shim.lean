import Z80Sbc.Bank.Machine

/-! # The BDOS shim of bank 0

The disk functions of `bank0_bdos_shim.asm`, and `bank1_bdos_proxy.asm`, which they reach
through the service E=6. Each label of the source is a function here. A bank transfer is the
copy that the transfer page makes, and none is rejected; what the two private stacks hold is
left out. -/

namespace Z80Sbc.Bank.Shim
open Z80Sbc.Z80

/-! ## Buffers -/

/-- The buffers of the shim, in bank 0. -/
def shimDmaBuffer : Word := 0xF400
def fcbBuffer : Word := 0xF480
def response : Word := 0xF4B0
def allocVectorMirror : Word := 0xF500
def diskParamsMirror : Word := 0xF520

/-- The stable FCB and the request, in bank 1. -/
def stableFcb : Word := 0xE480
def request : Word := 0xE4B0

/-- The cells of the proxy. -/
def savedDma : Word := 0xE4C0
def bdosReady : Word := 0xDEA9
def searchFlag : Word := 0xDEAA
def searchSave : Word := 0xDF00
def serviceStatus : Word := 0xDFA2

/-- The machine and the variables of the shim. -/
structure State (δ : Type) extends Machine δ where
  functionNumber : Byte
  originalArg : Word
  baseDma : Word

variable {δ : Type}

/-! ## Copies -/

/-- LDIR in the bank `k`, `n` rounds of it. -/
def ldirIn (k : Bool) (m : Mem) (src dst : Word) : Nat → Mem
  | 0 => m
  | n + 1 => ldirIn k (store m k dst (m k src)) (src + 1) (dst + 1) n

/-- FF03h: from HL in bank 0 to DE in bank 1. -/
def bankWrite (m : Mem) (hl de : Word) (n : Nat) : Mem := copied m true de false hl n

/-- FF00h: from DE in bank 1 to HL in bank 0. -/
def bankRead (m : Mem) (hl de : Word) (n : Nat) : Mem := copied m false hl true de n

/-! ## What is copied for a function -/

def isFcbFunction (c : Byte) : Bool :=
  if c < 15 then false
  else if c < 18 then true
  else if c = 19 then true
  else if c < 20 then false
  else if c < 24 then true
  else if c = 30 then true
  else if c < 33 then false
  else if c < 37 then true
  else c == 40

def fcbCopyInIfNeeded (s : State δ) : State δ :=
  if !isFcbFunction s.functionNumber then s
  else
    let m := ldirIn false s.mem s.originalArg fcbBuffer 36
    let m := store m false (fcbBuffer + 36) 0
    let m := ldirIn false m (fcbBuffer + 36) (fcbBuffer + 37) 11
    let m := bankWrite m fcbBuffer stableFcb 48
    { s with mem := store16 m false (response + 2) stableFcb }

def fcbCopyBackIfNeeded (s : State δ) : State δ :=
  if !isFcbFunction s.functionNumber then s
  else
    let m := bankRead s.mem fcbBuffer stableFcb 48
    { s with mem := ldirIn false m fcbBuffer s.originalArg 36 }

def dmaCopyInIfNeeded (s : State δ) : State δ :=
  let c := s.functionNumber
  if c = 21 ∨ c = 34 ∨ c = 40 then
    let m := ldirIn false s.mem s.baseDma shimDmaBuffer 128
    { s with mem := bankWrite m shimDmaBuffer dmaBuffer 128 }
  else s

def dmaCopyBackIfNeeded (s : State δ) : State δ :=
  let c := s.functionNumber
  if c = 17 ∨ c = 18 ∨ c = 20 ∨ c = 33 then
    let m := bankRead s.mem shimDmaBuffer dmaBuffer 128
    { s with mem := ldirIn false m shimDmaBuffer s.baseDma 128 }
  else s

/-! ## The proxy -/

/-- `save_search`: the search variables of the BDOS, packed at `de`. -/
def saveSearch (m : Mem) (de : Word) : Mem :=
  let m := ldirIn true m 0xFB14 de 1
  let m := ldirIn true m 0xFB18 (de + 1) 3
  ldirIn true m 0xFB29 (de + 4) 3

def restoreSearch (m : Mem) (hl : Word) : Mem :=
  let m := ldirIn true m hl 0xFB14 1
  let m := ldirIn true m (hl + 1) 0xFB18 3
  ldirIn true m (hl + 4) 0xFB29 3

/-- Up to `proxy_call`. -/
def proxyBefore (s : Machine δ) : Machine δ :=
  let s := { s with mem := poke16 s.mem savedDma (peek16 s.mem dmaPointer) }
  let s := s.useDma dmaBuffer
  if peek s.mem request = 18 ∧ peek s.mem searchFlag ≠ 0 then
    { s with mem := restoreSearch s.mem searchSave }
  else s

/-- The results, in the request. -/
def storeResults (m : Mem) (r : Regs) : Mem :=
  poke16 (poke (poke m (request + 6) r.a) (request + 7) r.b) (request + 8) r.hl

/-- `proxy_save_search`, after a search. -/
def proxySaveSearch (m : Mem) : Mem :=
  if peek m request = 17 ∨ peek m request = 18 then
    let m := saveSearch m searchSave
    poke m searchFlag (if peek m (request + 6) + 1 = 0 then 0 else 1)
  else m

/-- `proxy_after_search` -/
def proxyAfterSearch (m : Mem) : Mem :=
  if peek m request = 13 then poke (poke m bdosReady 1) searchFlag 0 else m

def bank1BdosProxy (bdos : Bdos δ) (s : Machine δ) : Machine δ :=
  let s := proxyBefore s
  let (r, s) := bdos (peek s.mem request) (peek16 s.mem (request + 2)) s
  let m := proxyAfterSearch (proxySaveSearch (storeResults s.mem r))
  { s with mem := m }.useDma (peek16 m savedDma)

/-! ## The entry -/

def forwardRequest (bdos : Bdos δ) (s : State δ) : State δ :=
  let s := { s with mem := store s.mem false response s.functionNumber }
  let s := { s with mem := store16 s.mem false (response + 2) s.originalArg }
  let s := dmaCopyInIfNeeded (fcbCopyInIfNeeded s)
  let s := { s with mem := bankWrite s.mem response request 16 }
  let s := { s with mem := poke s.mem serviceStatus 0 }
  let s := { s with toMachine := bank1BdosProxy bdos s.toMachine }
  { s with mem := bankRead s.mem response request 16 }

/-- `return_alloc_vector` and `return_disk_params`: `n` bytes that the result points to, in a
buffer of bank 0. -/
def returnMirror (mirror : Word) (n : Nat) (s : State δ) : Regs × State δ :=
  ({ a := lo mirror, b := hi mirror, hl := mirror },
    { s with mem := bankRead s.mem mirror (fetch16 s.mem false (response + 8)) n })

/-- `bdos_entry` with `b`, `c` and `de`, for the functions from 13 on; the others are those of
the console. -/
def bdosEntry (bdos : Bdos δ) (b c : Byte) (de : Word) (s : State δ) :
    Option (Regs × State δ) :=
  let s := { s with functionNumber := c, originalArg := de }
  if c < 13 then none
  else if c = 26 then some ({ a := 0, b := b, hl := 0 }, { s with baseDma := de })
  else
    let s := forwardRequest bdos s
    let s := if s.functionNumber = 13 then { s with baseDma := 0x80 } else s
    if c = 27 then some (returnMirror allocVectorMirror 32 s)
    else if c = 31 then some (returnMirror diskParamsMirror 16 s)
    else
      let s := dmaCopyBackIfNeeded (fcbCopyBackIfNeeded s)
      some
        ({ a := s.mem false (response + 6), b := s.mem false (response + 7)
           hl := fetch16 s.mem false (response + 8) }, s)

end Z80Sbc.Bank.Shim
