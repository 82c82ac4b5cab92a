import Mathlib.Tactic.Common

/-! # The JSON of a chat event

The validator of `chat_stream.c`. Its functions work on the text that is left, where the
source advances `p`; a text holds no NUL. A string is its code points; what the source
copies to a buffer is their ASCII. -/

namespace Z80Sbc.Chat

/-- A C string. -/
def text (s : List Char) : List UInt8 := s.map fun c => UInt8.ofNat c.toNat

def z80ChatLineMax : Nat := 4096

def hex (c : UInt8) : Option Nat :=
  if 48 ≤ c ∧ c ≤ 57 then some (c.toNat - 48)
  else if 97 ≤ c ∧ c ≤ 102 then some (c.toNat - 97 + 10)
  else if 65 ≤ c ∧ c ≤ 70 then some (c.toNat - 65 + 10)
  else none

/-- The byte that stands for a code point. -/
def ascii (cp : Nat) : UInt8 :=
  if cp = 10 ∨ cp = 13 ∨ cp = 9 ∨ (32 ≤ cp ∧ cp < 127) then UInt8.ofNat cp
  else if cp = 0xA0 then 32
  else if cp = 0x2018 ∨ cp = 0x2019 then 39
  else if cp = 0x201C ∨ cp = 0x201D then 34
  else if cp = 0x2013 ∨ cp = 0x2014 then 45
  else 63

/-- `json_t`; `text` is what goes to the stream. -/
structure Json where
  rest : List UInt8
  text : List UInt8
  contentSeen : Bool
  providerError : Bool
  deriving DecidableEq

def isSpace (c : UInt8) : Bool := c == 32 || c == 9 || c == 13 || c == 10

def whitespace (p : List UInt8) : List UInt8 := p.dropWhile isSpace

/-- The next byte, if it is `c`. -/
def expect (c : UInt8) : List UInt8 → Option (List UInt8)
  | [] => none
  | b :: p => if b = c then some p else none

/-! ## Strings -/

def unicodeEscape (p : List UInt8) : Option (Nat × List UInt8) := do
  match p with
  | a :: b :: c :: d :: p =>
    let a ← hex a
    let b ← hex b
    let c ← hex c
    let d ← hex d
    some (((a * 16 + b) * 16 + c) * 16 + d, p)
  | _ => none

/-- What stands behind `\u`. -/
def surrogates (p : List UInt8) : Option (Nat × List UInt8) := do
  let (cp, p) ← unicodeEscape p
  if 0xD800 ≤ cp ∧ cp ≤ 0xDBFF then
    let p ← expect 92 p
    let p ← expect 117 p
    let (low, p) ← unicodeEscape p
    if low < 0xDC00 ∨ 0xDFFF < low then none
    else some (0x10000 + (cp - 0xD800) * 1024 + low - 0xDC00, p)
  else if 0xDC00 ≤ cp ∧ cp ≤ 0xDFFF then none
  else some (cp, p)

def simpleEscape (c : UInt8) : Option Nat :=
  if c = 34 then some 34 else if c = 92 then some 92 else if c = 47 then some 47
  else if c = 98 then some 8 else if c = 102 then some 12 else if c = 110 then some 10
  else if c = 114 then some 13 else if c = 116 then some 9 else none

/-- What stands behind a backslash. -/
def escape : List UInt8 → Option (Nat × List UInt8)
  | [] => none
  | c :: p => if c = 117 then surrogates p else (simpleEscape c).map fun cp => (cp, p)

/-- The bytes of a character behind its first one. -/
def continuation : Nat → Nat → List UInt8 → Option (Nat × List UInt8)
  | 0, cp, p => some (cp, p)
  | _ + 1, _, [] => none
  | extra + 1, cp, c :: p =>
    if c &&& 0xC0 ≠ 0x80 then none else continuation extra (cp * 64 + (c &&& 0x3F).toNat) p

def scalar (minimum : Nat) : Option (Nat × List UInt8) → Option (Nat × List UInt8)
  | none => none
  | some (cp, p) =>
    if cp < minimum ∨ 0x10FFFF < cp ∨ (0xD800 ≤ cp ∧ cp ≤ 0xDFFF) then none else some (cp, p)

/-- A character of two or more bytes. -/
def multibyte (c : UInt8) (p : List UInt8) : Option (Nat × List UInt8) :=
  if 0xC2 ≤ c ∧ c ≤ 0xDF then scalar 0x80 (continuation 1 (c &&& 0x1F).toNat p)
  else if 0xE0 ≤ c ∧ c ≤ 0xEF then scalar 0x800 (continuation 2 (c &&& 0x0F).toNat p)
  else if 0xF0 ≤ c ∧ c ≤ 0xF4 then scalar 0x10000 (continuation 3 (c &&& 7).toNat p)
  else none

/-- One character of a string, behind its first byte. -/
def character (c : UInt8) (p : List UInt8) : Option (Nat × List UInt8) :=
  if c < 32 then none
  else if c = 92 then escape p
  else if 128 ≤ c then multibyte c p
  else some (c.toNat, p)

/-- The characters up to the closing quote; the first argument bounds their number. -/
def characters : Nat → List UInt8 → Option (List Nat × List UInt8)
  | 0, _ => none
  | _ + 1, [] => none
  | n + 1, c :: p =>
    if c = 34 then some ([], p)
    else do
      let (cp, p) ← character c p
      let (cps, p) ← characters n p
      some (cp :: cps, p)

/-- `string`: the code points, and what follows it. -/
def string (p : List UInt8) : Option (List Nat × List UInt8) := do
  let p ← expect 34 p
  characters (p.length + 1) p

/-! ## Values -/

def isDigit (c : UInt8) : Bool := 48 ≤ c && c ≤ 57

def literal (word p : List UInt8) : Option (List UInt8) :=
  if p.take word.length = word then some (p.drop word.length) else none

/-- At least one digit. -/
def someDigits (p : List UInt8) : Option (List UInt8) :=
  if (p.head?.any isDigit) then some (p.dropWhile isDigit) else none

def integer (p : List UInt8) : Option (List UInt8) :=
  match p with
  | [] => none
  | c :: rest => if c = 48 then some rest else someDigits p

def fraction (p : List UInt8) : Option (List UInt8) :=
  match p with
  | [] => some []
  | c :: rest => if c = 46 then someDigits rest else some p

def exponent (p : List UInt8) : Option (List UInt8) :=
  match p with
  | [] => some []
  | c :: rest =>
    if c = 101 ∨ c = 69 then
      match rest with
      | [] => none
      | d :: rest' => if d = 43 ∨ d = 45 then someDigits rest' else someDigits rest
    else some p

def number (p : List UInt8) : Option (List UInt8) := do
  let p := if p.head? = some 45 then p.drop 1 else p
  let p ← integer p
  let p ← fraction p
  exponent p

/-- A key that may be one of the names looked for: its C string, when it fits the buffer. -/
def keyIs (key : List Nat) (name : List Char) : Bool :=
  decide (key.length < 32) && (key.map ascii == text name)

/-- The path of the value behind a key. -/
def nextPath (path : Nat) (key : List Nat) : Nat :=
  if path = 4 ∧ keyIs key ['c', 'o', 'n', 't', 'e', 'n', 't'] then 5
  else if path = 3 ∧ keyIs key ['d', 'e', 'l', 't', 'a'] then 4
  else if path = 1 ∧ keyIs key ['c', 'h', 'o', 'i', 'c', 'e', 's'] then 2
  else 0

def isError (path : Nat) (key : List Nat) : Bool :=
  path = 1 && keyIs key ['e', 'r', 'r', 'o', 'r']

/-- The members of an object; the first argument bounds their number. -/
def members (value : Nat → Json → Option Json) (path : Nat) : Nat → Json → Option Json
  | 0, _ => none
  | n + 1, j => do
    let (key, p) ← string j.rest
    let p ← expect 58 (whitespace p)
    let j := { j with rest := p, providerError := j.providerError || isError path key }
    let j ← value (nextPath path key) j
    match whitespace j.rest with
    | [] => none
    | c :: p =>
      if c = 125 then some { j with rest := p }
      else if c ≠ 44 then none
      else members value path n { j with rest := whitespace p }

/-- The elements of an array from this index on. -/
def elements (value : Nat → Json → Option Json) (path : Nat) : Nat → Nat → Json → Option Json
  | 0, _, _ => none
  | n + 1, index, j => do
    let j ← value (if path = 2 ∧ index = 0 then 3 else 0) j
    match whitespace j.rest with
    | [] => none
    | c :: p =>
      if c = 93 then some { j with rest := p }
      else if c ≠ 44 then none
      else elements value path n (index + 1) { j with rest := p }

/-- A string as a value. -/
def stringValue (path : Nat) (j : Json) : Option Json :=
  if path = 5 ∧ j.contentSeen then none
  else
    match string j.rest with
    | none => none
    | some (cps, p) =>
      if path ≠ 5 then some { j with rest := p }
      else if z80ChatLineMax ≤ cps.length then none
      else some { j with rest := p, text := cps.map ascii, contentSeen := true }

def plainValue (c : UInt8) (j : Json) : Option Json :=
  let next :=
    if c = 116 then literal (text ['t', 'r', 'u', 'e']) j.rest
    else if c = 102 then literal (text ['f', 'a', 'l', 's', 'e']) j.rest
    else if c = 110 then literal (text ['n', 'u', 'l', 'l']) j.rest
    else number j.rest
  next.map fun p => { j with rest := p }

/-- `value`, for values that at most 16 arrays and objects are around; the first argument
is 17 less their number. -/
def value : Nat → Nat → Json → Option Json
  | 0, _, _ => none
  | levels + 1, path, j =>
    let j := { j with rest := whitespace j.rest }
    match j.rest with
    | [] => none
    | c :: p =>
      if c = 123 then
        let p := whitespace p
        if p.head? = some 125 then some { j with rest := p.drop 1 }
        else members (value levels) path (p.length + 1) { j with rest := p }
      else if c = 91 then
        let p := whitespace p
        if p.head? = some 93 then some { j with rest := p.drop 1 }
        else elements (value levels) path (p.length + 1) 0 { j with rest := p }
      else if c = 34 then stringValue path j
      else plainValue c j

/-! ## Events -/

/-- What an event gives: its text, or an error. -/
inductive Event where
  | done
  | text (content : List UInt8)
  | error (message : String)
  deriving DecidableEq

/-- `event`, for the payload of a `data:` line. -/
def eventData (data : List UInt8) : Event :=
  if data = text ['[', 'D', 'O', 'N', 'E', ']'] then .done
  else
    let p := whitespace data
    if p.head? ≠ some 123 then .error "Malformed chat SSE JSON"
    else
      match value 17 1 ⟨p, [], false, false⟩ with
      | none => .error "Malformed chat SSE JSON"
      | some j =>
        if whitespace j.rest ≠ [] then .error "Trailing data in chat SSE JSON"
        else if j.providerError then .error "Provider reported a streaming error"
        else .text j.text

end Z80Sbc.Chat
