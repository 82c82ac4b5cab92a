import Z80Sbc.Chat.Json

/-! # The chat stream decoder

`chat_stream.c`. A byte is consumed only when the text of the last event has been emitted;
`emit` may refuse a byte, and the next feed goes on from there. The line buffer is kept
without its terminating NUL. -/

namespace Z80Sbc.Chat

inductive Phase where
  | statusLine | headers | body
  deriving DecidableEq

inductive ChunkPhase where
  | size | sizeLf | data | cr | lf | trailers
  deriving DecidableEq

/-- `z80_chat_stream_t` -/
structure Stream where
  line : List UInt8
  content : List UInt8
  position : Nat
  headerBytes : Nat
  remaining : UInt32
  chunkSize : UInt32
  phase : Phase
  chunkPhase : ChunkPhase
  status : UInt32
  chunked : Bool
  haveLength : Bool
  eventStream : Bool
  done : Bool
  extension : Bool
  chunkDigits : Nat
  error : Option String

def streamInit : Stream where
  line := []
  content := []
  position := 0
  headerBytes := 0
  remaining := 0
  chunkSize := 0
  phase := .statusLine
  chunkPhase := .size
  status := 0
  chunked := false
  haveLength := false
  eventStream := false
  done := false
  extension := false
  chunkDigits := 0
  error := none

/-! ## Lines -/

def toLower (c : UInt8) : UInt8 := if 65 ≤ c ∧ c ≤ 90 then c + 32 else c

/-- `equal_ci` -/
def equalCi (a b : List UInt8) : Bool := a.map toLower == b.map toLower

def blank (c : UInt8) : Bool := c == 32 || c == 9

/-- `isspace`, which a space in a format and the blanks before `%u` go by. -/
def cSpace (c : UInt8) : Bool := c == 32 || (9 ≤ c && c ≤ 13)

/-- `%3u` behind its blanks: the value and how many bytes it takes. -/
def scanUnsigned (field : List UInt8) : Option (UInt32 × Nat) :=
  let sign := field.head? = some 43 ∨ field.head? = some 45
  let digits := ((if sign then field.drop 1 else field).takeWhile isDigit)
  if digits = [] then none
  else
    let n := digits.foldl (fun (n : UInt32) c => n * 10 + (c - 48).toUInt32) 0
    some (if field.head? = some 45 then 0 - n else n, digits.length + if sign then 1 else 0)

/-- `sscanf(line, "HTTP/1.%*1[01] %3u%n", ..)`: the status, and `used`. -/
def scanStatus (line : List UInt8) : Option (UInt32 × Nat) :=
  if line.take 7 ≠ text ['H', 'T', 'T', 'P', '/', '1', '.'] then none
  else if line.getD 7 0 ≠ 48 ∧ line.getD 7 0 ≠ 49 then none
  else
    let rest := line.drop 8
    let blanks := (rest.takeWhile cSpace).length
    (scanUnsigned ((rest.drop blanks).take 3)).map fun (n, used) => (n, 8 + blanks + used)

def statusError (status : UInt32) : String :=
  if status = 401 ∨ status = 403 then "HTTP authentication rejected (401/403)"
  else if status = 429 then "HTTP rate limit exceeded (429)"
  else "Chat HTTP status is not 200"

def statusLine (s : Stream) : Stream :=
  match scanStatus s.line with
  | none => { s with error := some "Invalid chat HTTP status", phase := .headers }
  | some (status, used) =>
    let behind := s.line.drop used
    { s with
      status := status
      phase := .headers
      error :=
        if used ≠ 12 ∨ (behind ≠ [] ∧ behind.head? ≠ some 32) then some "Invalid chat HTTP status"
        else if status ≠ 200 then some (statusError status)
        else s.error }

/-- The digits of a Content-Length. -/
def contentLength : UInt32 → List UInt8 → Option UInt32
  | n, [] => some n
  | n, c :: p =>
    if c < 48 ∨ 57 < c ∨ (0xFFFFFFFF - 9) / 10 < n then none
    else contentLength (n * 10 + (c - 48).toUInt32) p

def trim (p : List UInt8) : List UInt8 :=
  ((p.dropWhile blank).reverse.dropWhile blank).reverse

def header (s : Stream) : Stream :=
  if !s.line.contains 58 then { s with error := some "Malformed chat HTTP header" }
  else
    let name := s.line.takeWhile (· != 58)
    let value := trim ((s.line.dropWhile (· != 58)).drop 1)
    if equalCi name (text "Transfer-Encoding".toList) then
      { s with
        error := if s.chunked || s.haveLength || !equalCi value (text "chunked".toList) then
          some "Unsupported chat HTTP transfer encoding" else s.error
        chunked := true }
    else if equalCi name (text "Content-Length".toList) then
      if s.haveLength || s.chunked || value.isEmpty then
        { s with error := some "Invalid chat HTTP content length" }
      else
        match contentLength 0 value with
        | none => { s with error := some "Invalid chat HTTP content length" }
        | some n => { s with remaining := n, haveLength := true }
    else if equalCi name (text "Content-Type".toList) then
      { s with
        eventStream := equalCi (value.takeWhile (· != 59)) (text "text/event-stream".toList) }
    else if equalCi name (text "Content-Encoding".toList) && !equalCi value (text "identity".toList) then
      { s with error := some "Unsupported compressed chat response" }
    else s

/-- `event` -/
def event (s : Stream) : Stream :=
  if s.line.take 5 ≠ text ['d', 'a', 't', 'a', ':'] then s
  else
    let data := s.line.drop 5
    let data := if data.head? = some 32 then data.drop 1 else data
    match eventData data with
    | .done => { s with done := true }
    | .text content => { s with content := content, position := 0 }
    | .error message => { s with content := [], position := 0, error := some message }

/-- A whole line. -/
def wholeLine (s : Stream) : Stream :=
  match s.phase with
  | .statusLine => statusLine s
  | .headers =>
    if s.line ≠ [] then header s
    else if !s.eventStream then { s with error := some "Chat response is not text/event-stream" }
    else { s with phase := .body }
  | .body =>
    if s.chunkPhase = .trailers ∧ s.chunked then
      if s.line = [] then { s with error := some "Chat stream ended without [DONE]" } else s
    else if s.line ≠ [] then event s
    else s

/-- `line` -/
def line (s : Stream) (byte : UInt8) : Stream :=
  if byte = 0 then { s with error := some "NUL in chat HTTP/SSE" }
  else if byte ≠ 10 then
    if s.line.length + 1 = z80ChatLineMax then
      { s with error := some "Chat HTTP/SSE line exceeds 4095 bytes" }
    else { s with line := s.line ++ [byte] }
  else
    let s := { s with line := if s.line.getLast? = some 13 then s.line.dropLast else s.line }
    { wholeLine s with line := [] }

/-! ## Feeding -/

def ended (s : Stream) : Stream := { s with error := some "Chat stream ended without [DONE]" }

def plainByte (c : UInt8) (s : Stream) : Stream :=
  if s.haveLength && s.remaining == 0 then ended s
  else
    let s := line s c
    if s.haveLength then
      let s := { s with remaining := s.remaining - 1 }
      if s.remaining = 0 ∧ !s.done then ended s else s
    else s

def sizeByte (c : UInt8) (s : Stream) : Stream :=
  if c = 13 ∧ s.chunkDigits ≠ 0 then { s with chunkPhase := .sizeLf }
  else if c = 59 ∧ s.chunkDigits ≠ 0 then { s with extension := true }
  else if s.extension ∧ 32 ≤ c ∧ c < 127 then
    let s := { s with headerBytes := s.headerBytes + 1 }
    if 4096 < s.headerBytes then { s with error := some "Chat chunk extensions too large" } else s
  else
    match hex c with
    | some digit =>
      if !s.extension ∧ s.chunkDigits < 8 then
        { s with
          chunkSize := (s.chunkSize <<< 4) ||| UInt32.ofNat digit
          chunkDigits := s.chunkDigits + 1 }
      else { s with error := some "Invalid chat HTTP chunk size" }
    | none => { s with error := some "Invalid chat HTTP chunk size" }

def delimiter (wanted c : UInt8) (next : Stream → Stream) (s : Stream) : Stream :=
  if c ≠ wanted then { s with error := some "Invalid chat HTTP chunk delimiter" } else next s

def chunkByte (c : UInt8) (s : Stream) : Stream :=
  match s.chunkPhase with
  | .size => sizeByte c s
  | .sizeLf =>
    delimiter 10 c (fun s =>
      { s with chunkPhase := if s.chunkSize ≠ 0 then .data else .trailers }) s
  | .data =>
    let s := line s c
    let s := { s with chunkSize := s.chunkSize - 1 }
    if s.chunkSize = 0 then { s with chunkPhase := .cr } else s
  | .cr => delimiter 13 c (fun s => { s with chunkPhase := .lf }) s
  | .lf =>
    delimiter 10 c (fun s =>
      { s with chunkPhase := .size, chunkDigits := 0, extension := false }) s
  | .trailers =>
    let s := { s with headerBytes := s.headerBytes + 1 }
    if 8192 < s.headerBytes then { s with error := some "Chat HTTP trailers too large" }
    else line s c

/-- One byte, when there is no text to emit. -/
def consume (c : UInt8) (s : Stream) : Stream :=
  if s.phase ≠ .body then
    let s := { s with headerBytes := s.headerBytes + 1 }
    if 4096 < s.headerBytes then { s with error := some "Chat HTTP headers exceed 4096 bytes" }
    else line s c
  else if !s.chunked then plainByte c s
  else chunkByte c s

/-- The text that is still to be emitted. -/
def pending (s : Stream) : List UInt8 :=
  if s.error.isSome then [] else s.content.drop s.position

def halted (s : Stream) : Bool := s.error.isSome || s.done

/-- Emit the text; whether all of it was taken. -/
def flush {κ : Type} (emit : κ → UInt8 → Option κ) :
    List UInt8 → Stream → κ → Bool × Stream × κ
  | [], s, k => (true, s, k)
  | c :: cs, s, k =>
    match emit k c with
    | none => (false, s, k)
    | some k => flush emit cs { s with position := s.position + 1 } k

/-- `z80_chat_stream_feed`: the number of bytes used, the decoder, and what `emit` is left
with. -/
def feed {κ : Type} (emit : κ → UInt8 → Option κ) :
    List UInt8 → Stream → κ → Nat × Stream × κ
  | [], s, k =>
    let (_, s, k) := flush emit (pending s) s k
    (0, s, k)
  | c :: data, s, k =>
    let (taken, s, k) := flush emit (pending s) s k
    if !taken || halted s then (0, s, k)
    else
      let (used, s, k) := feed emit data (consume c s) k
      (used + 1, s, k)

end Z80Sbc.Chat
