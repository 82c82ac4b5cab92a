import Z80Sbc.Bank.Machine

/-! # The allocator of bank 1

`banked_allocator.asm`, the code at E800h. Each label of the source is a function here. The scratch
cells of the source are variables, and what the private stack holds is left out. The two walks over
the free list are bounded, and give none where they would run further. -/

namespace Z80Sbc.Bank.Allocator
open Z80Sbc.Z80

/-! ## Cells -/

def freeHead : Word := 0xE610
def freeBytes : Word := 0xE614
def epoch : Word := 0xDFA6

def status : Word := 0xDFA2
/-- The flags of `complete_control`, and of a return to the private stack. -/
def controlBusy : Word := 0xDFA4
def privateReturn : Word := 0xDFA5
/-- The status of the request. -/
def requestStatus : Word := 0xDF26
def ready : Word := 0xDE9F

/-! ## Table selectors

They replace the table bits of L. -/

def lengthPtr (l : Byte) : Word := word 0xE7 (l &&& 0x1F)
def previousPtr (l : Byte) : Word := word 0xE7 (l &&& 0x1F ||| 0x20)
def nextPtr (l : Byte) : Word := word 0xE7 (l &&& 0x1F ||| 0x40)
def backPtr (l : Byte) : Word := word 0xE7 (l &&& 0x1F ||| 0x60)

/-! ## Results, in HL -/

/-- `complete_control`, with HL the result. -/
def completeControl (hl : Word) (m : Mem) : Mem :=
  if peek m controlBusy = 0 then m
  else
    let m := poke m controlBusy 0
    let a := if peek m status ≠ 0 then peek m status else if hl - 1 = 0 then 0 else 6
    poke (poke (poke m status a) requestStatus a) (requestStatus + 1) 0

/-- `return` -/
def leave (m : Mem) : Mem := if peek m privateReturn = 0 then m else poke m privateReturn 0

def error (a : Byte) (m : Mem) : Word × Mem := (0, leave (completeControl 0 (poke m status a)))

def ok (m : Mem) : Word × Mem := (1, leave m)

/-! ## Extents -/

/-- The block of an allocated extent, or none. -/
def valid (m : Mem) (hl : Word) : Option Byte :=
  let validIndex (l : Byte) :=
    if peek m (word 0xE7 l) = 0 then none
    else if peek m (word 0xE7 (l ||| 0x40)) ≠ 255 then none
    else some (l &&& 31)
  if lo hl ≠ 0 then none
  else if hi hl = 1 then validIndex 1
  else if hi hl = 0xC0 then validIndex 2
  else if hi hl < 0xC8 then none
  else if 0xDE ≤ hi hl then none
  else validIndex (hi hl - 0xC0)

def size (hl : Word) (m : Mem) : Word × Mem :=
  match valid m hl with
  | none => error 3 m
  | some a => (word (peek m (lengthPtr a)) 0, leave m)

def available (m : Mem) : Word × Mem := (peek16 m freeBytes, leave m)

def reset (m : Mem) : Word × Mem :=
  let hl := peek16 m epoch + 1
  if hl = 0 then error 10 m
  else
    let m := poke16 m epoch hl
    let m := ldir (poke m 0xE700 0) 0xE700 0xE701 127
    let m := poke (poke m 0xE701 0xBF) 0xE702 8
    let m := poke (poke m 0xE722 1) 0xE728 2
    let m := poke (poke m 0xE741 255) 0xE742 255
    let m := poke m 0xE708 22
    let m := poke16 m freeBytes 0x1600
    ok (poke m freeHead 8)

/-! ## The free list -/

def unlink (m : Mem) (a : Byte) : Mem :=
  let e := peek m (nextPtr a)
  let d := peek m (backPtr a)
  let m := if d = 0 then poke m freeHead e else poke m (nextPtr d) e
  if e = 0 then m else poke m (backPtr e) d

/-- The last free extent below `c` and the first one that is not, from `a` on. -/
def insertWalk (m : Mem) (c : Byte) : Nat → Byte → Byte → Option (Byte × Byte)
  | 0, _, _ => none
  | n + 1, d, a =>
    if a = 0 then some (d, a)
    else if c ≤ a then some (d, a)
    else insertWalk m c n a (peek m (nextPtr a))

def insertHere (m : Mem) (c d e : Byte) : Mem :=
  let m := poke (poke m (nextPtr c) e) (backPtr c) d
  let m := if d = 0 then poke m freeHead c else poke m (nextPtr d) c
  if e = 0 then m else poke m (backPtr e) c

def insert (fuel : Nat) (m : Mem) (c : Byte) : Option Mem :=
  (insertWalk m c fuel 0 (peek m freeHead)).map fun p => insertHere m c p.1 p.2

/-! ## allocate -/

/-- The first free extent from `a` on that has `b` blocks. -/
def find (m : Mem) (b : Byte) : Nat → Byte → Option (Option Byte)
  | 0, _ => none
  | n + 1, a =>
    if a = 0 then some none
    else if b ≤ peek m (lengthPtr a) then some (some (a &&& 31))
    else find m b n (peek m (nextPtr a))

/-- What is left of a split extent, from `successor` on. -/
def split (fuel : Nat) (start successor remainder : Byte) (m : Mem) : Option Mem :=
  if remainder = 0 then some m
  else
    let m := poke m (lengthPtr successor) remainder
    let m := poke m (previousPtr successor) start
    let a := (successor &&& 31) + remainder
    let m := if a = 30 then m else poke m (previousPtr a) successor
    insert fuel m successor

def fit (fuel : Nat) (need start : Byte) (m : Mem) : Option (Word × Mem) :=
  let remainder := peek m (lengthPtr start) - need
  let m := poke (unlink m start) (lengthPtr start) need
  (split fuel start (start + need) remainder m).map fun m =>
    let m := poke m (nextPtr start) 255
    let hl := peek16 m freeBytes
    let m := poke16 m freeBytes (word (-(need - hi hl)) (lo hl))
    (word (start + 0xC0) 0, leave m)

def allocate (fuel : Nat) (hl : Word) (m : Mem) : Option (Word × Mem) :=
  if hl = 0 then some (error 2 m)
  else
    let need := hi (hl - 1) + 1
    if need = 0 then some (error 2 m)
    else if 23 ≤ need then some (error 2 m)
    else
      match find m need fuel (peek m freeHead) with
      | none => none
      | some none => some (error 4 m)
      | some (some start) => fit fuel need start m

/-! ## release -/

/-- The anchor and the length of the extent, when a free predecessor is merged. -/
def mergeLeft (anchor length : Byte) (m : Mem) : Byte × Byte × Mem :=
  let a := peek m (previousPtr anchor)
  if a = 0 then (anchor, length, m)
  else if peek m (nextPtr a) = 255 then (anchor, length, m)
  else
    let a := a &&& 31
    let m := poke (unlink m a) (lengthPtr anchor) 0
    (a, length + peek m (lengthPtr a), m)

def mergeRight (anchor length : Byte) (m : Mem) : Byte × Mem :=
  let a := length + anchor
  if a = 30 then (length, m)
  else if peek m (nextPtr a) = 255 then (length, m)
  else
    let a := a &&& 31
    let m := unlink m a
    (length + peek m (lengthPtr a), poke m (lengthPtr a) 0)

def commit (fuel : Nat) (anchor length : Byte) (m : Mem) : Option Mem :=
  let m := poke m (lengthPtr anchor) length
  let a := length + (anchor &&& 31)
  let m := if a = 30 then m else poke m (previousPtr a) anchor
  insert fuel m anchor

/-- The allocated extent `a` is freed. -/
def freeExtent (fuel : Nat) (a : Byte) (m : Mem) : Option Mem :=
  let length := peek m (lengthPtr a)
  let hl := peek16 m freeBytes
  let m := poke16 m freeBytes (word (hi hl + length) (lo hl))
  let left := mergeLeft a length m
  let right := mergeRight left.1 left.2.1 left.2.2
  commit fuel left.1 right.1 right.2

def release (fuel : Nat) (hl : Word) (m : Mem) : Option (Word × Mem) :=
  if hl = 0 then some (ok m)
  else
    match valid m hl with
    | none => some (error 3 m)
    | some a =>
      if a = 1 ∨ a = 2 then some (error 5 m)
      else (freeExtent fuel a m).map ok

/-! ## execute_at -/

/-- `module_ready`: no zero flag. -/
def moduleReady (m : Mem) (hl : Word) : Bool :=
  if hi hl ≠ 1 then true else if lo hl ≠ 0 then true else peek m ready != 0

/-- The address that the code is called at, or the status. -/
def executeAt (hl bc ix : Word) (m : Mem) : Except Byte Word :=
  if bc = 0 then .error 2
  else if bc - hl = 0 then .error 2
  else if !moduleReady m hl then .error 2
  else
    match valid m hl with
    | none => .error 3
    | some a =>
      let size := word (peek m (lengthPtr a)) 0
      if size < ix ∨ size = ix then .error 2
      else
        match valid m bc with
        | none => .error 3
        | some _ => .ok (hl + ix)

/-- `entry`, for the operations that return to the caller. -/
def heapCall (fuel : Nat) (e : Byte) (hl : Word) (m : Mem) : Option (Word × Mem) :=
  if e = 0 then allocate fuel hl m
  else if e = 1 then release fuel hl m
  else if e = 2 then some (size hl m)
  else if e = 3 then some (available m)
  else if e = 4 then some (reset m)
  else some (error 2 m)

end Z80Sbc.Bank.Allocator
