import Mathlib.Tactic.Common

/-! # The HTTP response decoder

`http_stream.c`. A line is kept without its terminating NUL, and holds no other one.
`feed` offers the bytes of the body to `emit`, which may refuse one. -/

namespace Z80Sbc.Http

def ascii (s : List Char) : List UInt8 := s.map fun c => UInt8.ofNat c.toNat

def toLower (c : UInt8) : UInt8 := if 65 ≤ c ∧ c ≤ 90 then c + 32 else c

/-- `!strcasecmp(a, b)` -/
def equalsIgnoreCase (a b : List UInt8) : Bool := a.map toLower == b.map toLower

def z80HttpUrlMax : Nat := 768
/-- `sizeof(s->line)` -/
def lineSize : Nat := 1024

inductive StreamState where
  | status | headers | bodyLength | bodyClose | chunkSize | chunkBody | chunkCr | chunkLf | trailers
  deriving DecidableEq

/-- `z80_http_stream_t` -/
structure Stream where
  state : StreamState
  status : Nat
  headerBytes : Nat
  remaining : UInt32
  haveLength : Bool
  chunked : Bool
  done : Bool
  error : Option String
  line : List UInt8
  location : List UInt8

def streamInit : Stream := ⟨.status, 0, 0, 0, false, false, false, none, [], []⟩

def digitOf (c : UInt8) : Option UInt32 :=
  if 48 ≤ c ∧ c ≤ 57 then some (c - 48).toUInt32
  else if 97 ≤ c ∧ c ≤ 102 then some ((c - 97).toUInt32 + 10)
  else if 65 ≤ c ∧ c ≤ 70 then some ((c - 65).toUInt32 + 10)
  else none

/-- The loop of `number`: whether it got to the end, and the value so far. -/
def numberFrom (base : UInt32) : UInt32 → List UInt8 → Bool × UInt32
  | result, [] => (true, result)
  | result, c :: p =>
    if base = 16 ∧ c = 59 then (true, result)
    else
      match digitOf c with
      | none => (false, result)
      | some digit =>
        if base ≤ digit ∨ (0xFFFFFFFF - digit) / base < result then (false, result)
        else numberFrom base (result * base + digit) p

/-- At least one digit is wanted. -/
def number (base : UInt32) (p : List UInt8) : Bool × UInt32 :=
  let (ok, result) := numberFrom base 0 p
  (ok && !(p = [] ∨ (base = 16 ∧ p.head? = some 59)), result)

def isDigit (c : UInt8) : Bool := 48 ≤ c && c ≤ 57

def blank (c : UInt8) : Bool := c == 32 || c == 9

/-- The characters of a header name. -/
def tokenByte (c : UInt8) : Bool :=
  (97 ≤ c && c ≤ 122) || (65 ≤ c && c ≤ 90) || isDigit c ||
    [33, 35, 36, 37, 38, 39, 42, 43, 45, 46, 94, 95, 96, 124, 126].contains c

/-- A value without the blanks around it. -/
def trim (p : List UInt8) : List UInt8 :=
  ((p.dropWhile blank).reverse.dropWhile blank).reverse

def statusLine (p : List UInt8) (s : Stream) : Stream :=
  let version := p.take 9
  let d1 := p.getD 9 0
  let d2 := p.getD 10 0
  let d3 := p.getD 11 0
  if p.length < 12 ∨ (version ≠ ascii ['H', 'T', 'T', 'P', '/', '1', '.', '0', ' '] ∧
      version ≠ ascii ['H', 'T', 'T', 'P', '/', '1', '.', '1', ' ']) ∨
      d1 < 49 ∨ 53 < d1 ∨ !isDigit d2 ∨ !isDigit d3 ∨ (12 < p.length ∧ p.getD 12 0 ≠ 32) then
    { s with error := some "Invalid HTTP status line" }
  else
    { s with
      status := (d1 - 48).toNat * 100 + (d2 - 48).toNat * 10 + (d3 - 48).toNat
      state := .headers }

/-- The empty line after the headers. -/
def endHeaders (s : Stream) : Stream :=
  if s.haveLength && s.chunked then { s with error := some "Ambiguous HTTP framing" }
  else if 100 ≤ s.status ∧ s.status < 200 ∧ s.status ≠ 101 then
    { s with state := .status, haveLength := false, chunked := false, remaining := 0, location := [] }
  else if s.status ∈ [301, 302, 303, 307, 308] then
    if s.location = [] then { s with error := some "Redirect without Location" }
    else { s with done := true }
  else if s.status ≠ 200 ∧ s.status ≠ 204 then
    { s with error := some "HTTP server returned an error" }
  else
    { s with
      state := if s.chunked then .chunkSize else if s.haveLength then .bodyLength else .bodyClose
      done := s.status = 204 || (s.haveLength && s.remaining = 0) }

def headerField (name value : List UInt8) (s : Stream) : Stream :=
  if equalsIgnoreCase name (ascii "Content-Length".toList) then
    if s.haveLength then { s with error := some "Invalid Content-Length", haveLength := true }
    else
      let (ok, remaining) := number 10 value
      { s with
        remaining := remaining
        error := if ok then s.error else some "Invalid Content-Length"
        haveLength := true }
  else if equalsIgnoreCase name (ascii "Transfer-Encoding".toList) then
    { s with
      error := if s.chunked ∨ !equalsIgnoreCase value (ascii "chunked".toList) then
        some "Unsupported Transfer-Encoding" else s.error
      chunked := true }
  else if equalsIgnoreCase name (ascii "Content-Encoding".toList) then
    if equalsIgnoreCase value (ascii "identity".toList) then s
    else { s with error := some "Compressed files are not supported" }
  else if equalsIgnoreCase name (ascii "Location".toList) then
    if s.location ≠ [] ∨ z80HttpUrlMax ≤ value.length then
      { s with error := some "Invalid redirect Location" }
    else { s with location := value }
  else s

/-- A header or a trailer. -/
def header (p : List UInt8) (s : Stream) : Stream :=
  let name := p.takeWhile (· != 58)
  let value := (p.dropWhile (· != 58)).drop 1
  if !p.contains 58 ∨ name = [] ∨ (p.head?.any blank) then
    { s with error := some "Invalid HTTP header" }
  else if !name.all tokenByte then { s with error := some "Invalid HTTP header name" }
  else if s.state = .trailers then s
  else headerField name (trim value) s

/-- `line`, on the line in the buffer. -/
def line (s : Stream) : Stream :=
  let p := s.line
  match s.state with
  | .status => statusLine p s
  | .chunkSize =>
    let (ok, remaining) := number 16 p
    if !ok then { s with remaining := remaining, error := some "Invalid chunk size" }
    else
      { s with
        remaining := remaining
        state := if remaining ≠ 0 then .chunkBody else .trailers }
  | _ =>
    if p = [] then
      if s.state = .trailers then { s with done := true } else endHeaders s
    else header p s

def inBody (s : Stream) : Bool :=
  s.state = .bodyLength || s.state = .bodyClose || s.state = .chunkBody

/-- A byte of the body has been emitted. -/
def bodyByte (s : Stream) : Stream :=
  if s.state = .bodyClose then s
  else
    let s := { s with remaining := s.remaining - 1 }
    if s.remaining ≠ 0 then s
    else if s.state = .bodyLength then { s with done := true }
    else { s with state := .chunkCr }

/-- A newline ends the line. -/
def endLine (s : Stream) : Stream :=
  if s.line.getLast? ≠ some 13 then { s with error := some "Missing HTTP CRLF" }
  else
    let s := { s with line := s.line.dropLast }
    if s.line.contains 13 then { s with error := some "Unexpected HTTP carriage return" }
    else
      let s := { line s with line := [] }
      if s.state = .chunkBody then { s with headerBytes := 0 } else s

/-- A byte of the metadata. -/
def metaByte (c : UInt8) (s : Stream) : Stream :=
  let s := { s with headerBytes := s.headerBytes + 1 }
  if 8192 < s.headerBytes then { s with error := some "HTTP metadata too large" }
  else if c = 10 then endLine s
  else if c = 0 ∨ c = 127 ∨ (c < 32 ∧ c ≠ 13 ∧ c ≠ 9) ∨ s.line.length = lineSize - 1 then
    { s with error := some "Invalid or oversized HTTP line" }
  else { s with line := s.line ++ [c] }

def delimiterByte (c : UInt8) (s : Stream) : Stream :=
  if c ≠ (if s.state = .chunkCr then 13 else 10) then
    { s with error := some "Missing chunk delimiter" }
  else { s with state := if s.state = .chunkCr then .chunkLf else .chunkSize }

/-- A byte that is not refused. -/
def consume (c : UInt8) (s : Stream) : Stream :=
  if inBody s then bodyByte s
  else if s.state = .chunkCr ∨ s.state = .chunkLf then delimiterByte c s
  else metaByte c s

/-- No more is read. -/
def halted (s : Stream) : Bool := s.error.isSome || s.done

/-- `z80_http_stream_feed`: the number of bytes used, the decoder, and what `emit` is left with. -/
def feed {κ : Type} (emit : κ → UInt8 → Option κ) : List UInt8 → Stream → κ → Nat × Stream × κ
  | [], s, k => (0, s, k)
  | c :: data, s, k =>
    if halted s then (0, s, k)
    else if inBody s then
      match emit k c with
      | none => (0, s, k)
      | some k =>
        let (used, s, k) := feed emit data (consume c s) k
        (used + 1, s, k)
    else
      let (used, s, k) := feed emit data (consume c s) k
      (used + 1, s, k)

def streamClose (s : Stream) : Stream :=
  if !s.done && s.error.isNone then
    if s.state = .bodyClose then { s with done := true }
    else { s with error := some "Truncated HTTP response" }
  else s

/-! ## The whole response -/

/-- The body that a whole response decodes to. -/
def decode : List UInt8 → Stream → Stream × List UInt8
  | [], s => (s, [])
  | c :: data, s =>
    if halted s then (s, [])
    else
      let (t, body) := decode data (consume c s)
      (t, if inBody s then c :: body else body)

theorem decode_halted {s : Stream} (h : halted s = true) (data : List UInt8) :
    decode data s = (s, []) := by
  cases data with
  | nil => rfl
  | cons c data => simp [decode, h]

theorem decode_append (a b : List UInt8) (s : Stream) :
    decode (a ++ b) s =
      ((decode b (decode a s).1).1, (decode a s).2 ++ (decode b (decode a s).1).2) := by
  induction a generalizing s with
  | nil => rfl
  | cons c a ih =>
    by_cases h : halted s = true
    · simp [decode_halted h]
    · simp only [List.cons_append, decode, h, if_false, Bool.false_eq_true, ih]
      cases inBody s <;> simp

/-- A feed uses a prefix of its data, and emits what that prefix decodes to. -/
theorem feed_decode {κ : Type} {emit : κ → UInt8 → Option κ} {out : κ → List UInt8}
    {ok : κ → Prop} (hemit : ∀ k c k', ok k → emit k c = some k' → ok k' ∧ out k' = out k ++ [c])
    (data : List UInt8) (s : Stream) (k : κ) (hk : ok k) :
    let r := feed emit data s k
    r.1 ≤ data.length ∧ r.2.1 = (decode (data.take r.1) s).1 ∧ ok r.2.2 ∧
      out r.2.2 = out k ++ (decode (data.take r.1) s).2 := by
  induction data generalizing s k with
  | nil => exact ⟨Nat.le_refl _, rfl, hk, (List.append_nil _).symm⟩
  | cons c data ih =>
    by_cases h : halted s = true
    · simp [feed, h, hk, decode]
    by_cases hbody : inBody s = true
    · cases hc : emit k c with
      | none => simp [feed, h, hbody, hc, hk, decode]
      | some k' =>
        obtain ⟨hk', hout⟩ := hemit k c k' hk hc
        obtain ⟨hle, hstream, hok, hsent⟩ := ih (consume c s) k' hk'
        simp only [feed, h, hbody, hc, if_true, if_false, Bool.false_eq_true]
        refine ⟨Nat.succ_le_succ hle, ?_, hok, ?_⟩
        · simpa [decode, h] using hstream
        · rw [hsent, hout]
          simp [decode, h, hbody]
    · obtain ⟨hle, hstream, hok, hsent⟩ := ih (consume c s) k hk
      simp only [feed, h, hbody, if_false, Bool.false_eq_true]
      refine ⟨Nat.succ_le_succ hle, ?_, hok, ?_⟩
      · simpa [decode, h] using hstream
      · rw [hsent]
        simp [decode, h, hbody]

end Z80Sbc.Http
