import Z80Sbc.Z80.Cpu

/-! # The mirrored transfer page

`banked_transfer.asm`, the page at FF00h that is the same in both banks. Each label
of the source is a function here, and its instructions are listed in its order. -/

namespace Z80Sbc.Bank
open Z80Sbc.Z80

/-! ## FF00h and FF03h -/

def invalid (s : Cpu) : Cpu := (s.exec [.ld (.r .a) (.n 2), .scf]).ret

def interruptsOff (s : Cpu) : Cpu := (s.exec [.xor (.r .a)]).ret

def restoreInterrupts (s : Cpu) : Cpu :=
  let s := s.exec [.pop .af]
  if !s.f.p then interruptsOff s
  else (s.exec [.xor (.r .a), .ei]).ret

def finish (s : Cpu) : Cpu := restoreInterrupts (s.exec [.ldMem16 .sp 0xFFF8, .pop .iy, .pop .ix])

/-- The code before `load_payload`, which it runs into. -/
def nextBurst (s : Cpu) : Cpu :=
  let s := s.exec [.rrca]
  let s := if s.f.c then s else s.exec [.inc (.r .a), .out 7, .dec (.r .a)]
  s.exec [.rlca]

/-- The payload is 16 bytes: BC, DE, HL, their alternates, the alternate AF, and IY. -/
def payload : List Instr :=
  [.ldMem16 .sp 0xFFF0,
    .pop .bc, .pop .de, .pop .hl, .exx, .pop .bc, .pop .de, .pop .hl,
    .exAf, .pop .af, .exAf, .pop .iy,
    .stMem16 0xFFF0 .sp, .out 7, .ldSp .ix,
    .push .iy, .exAf, .push .af, .exAf,
    .push .hl, .push .de, .push .bc, .exx, .push .hl, .push .de, .push .bc]

/-- `advance`, which comes back to `load_payload` through `next_burst`. -/
def advance (loadPayload : Cpu → Option Cpu) (s : Cpu) : Option Cpu :=
  let s := s.exec [.ld16 .de 16, .add16 .ix .de, .sub (.n 16), .cp (.n 16)]
  if !s.f.c then loadPayload (nextBurst s)
  else
    let s := s.exec [.ld16 .hl 0xFFF4, .dec .hl, .ld (.r .a) .hl, .inc (.r .a)]
    if s.f.z then some (finish s)
    else loadPayload (nextBurst (s.exec [.ld (.r .a) (.m 0xFFF6)]))

/-- `load_payload`; the first argument bounds the number of bursts. -/
def loadPayload : Nat → Cpu → Option Cpu
  | 0, _ => none
  | n + 1, s =>
    let s := s.exec payload
    -- a write finishes in bank 1
    let s := if !s.f.c then s else s.exec [.dec (.r .a), .out 7, .inc (.r .a)]
    advance (loadPayload n) s

def validated (s : Cpu) : Option Cpu :=
  let s := s.exec
    [.ldAI, .di, .push .af, .push .ix, .push .iy, .stMem16 0xFFF8 .sp,
      .ldMem16 .hl 0xFFF0, .ldMem16 .de 0xFFF2, .ld (.r .a) (.m 0xFFF6), .or (.r .a)]
  let s := if !s.f.z then s else s.exec [.exDeHl]
  let s := s.exec [.ld16 .ix 16, .add16 .ix .de, .ld (.r .a) (.r .c), .or (.r .a)]
  let s := if !s.f.z then s else s.exec [.dec (.r .b)]
  let s := s.exec
    [.ld (.r .a) (.r .b), .ld (.m 0xFFF4) (.r .a), .ld (.r .a) (.m 0xFFF6), .add (.r .c), .bit 0 .a]
  -- 4064 bursts make FE00h bytes
  if !s.f.z then loadPayload 4064 (nextBurst s)
  else loadPayload 4064 (s.exec [.inc (.r .a), .out 7, .dec (.r .a), .stMem16 0xFFF0 .hl])

def baseEndValid (s : Cpu) : Option Cpu :=
  let s := s.exec [.inc (.r .h)]
  if !s.f.z then validated s
  else
    let s := s.exec [.ld (.r .a) (.r .l), .or (.r .a)]
    if s.f.z then validated s else some (invalid s)

def transfer (s : Cpu) : Option Cpu :=
  let s := s.exec [.ld (.m 0xFFF6) (.r .a), .ld (.r .a) (.r .b), .or (.r .c)]
  if s.f.z then some s.ret
  else
    let s := s.exec [.ld (.r .a) (.r .c), .and (.n 15)]
    if !s.f.z then some (invalid s)
    else
      let s := s.exec [.ld (.r .a) (.r .h), .or (.r .a)]
      if s.f.z then some (invalid s)
      else
        let s := s.exec [.stMem16 0xFFF0 .hl, .stMem16 0xFFF2 .de, .add16 .hl .bc]
        if s.f.c then some (invalid s)
        else
          let s := s.exec [.exDeHl, .add16 .hl .bc]
          if s.f.c then some (invalid s)
          else
            let s := s.exec [.inc (.r .d)]
            if !s.f.z then baseEndValid s
            else
              let s := s.exec [.ld (.r .a) (.r .e), .or (.r .a)]
              if !s.f.z then some (invalid s) else baseEndValid s

def bankRead (s : Cpu) : Option Cpu := transfer (s.exec [.xor (.r .a)])

def bankWrite (s : Cpu) : Option Cpu := transfer (s.exec [.ld (.r .a) (.n 1)])

/-! ## FF10h and FF13h -/

/-- `heap_return`: bank 1 leaves the gateway. -/
def heapReturn (s : Cpu) : Cpu := restoreInterrupts (s.exec [.xor (.r .a), .out 7])

/-- `bank_malloc`; `service` is what runs at E640h in bank 1. -/
def bankMalloc (service : Cpu → Option Cpu) (s : Cpu) : Option Cpu :=
  service (s.exec [.ldAI, .di, .push .af, .ld (.r .a) (.n 1), .out 7])

end Z80Sbc.Bank
