import Z80Sbc.Http.Stream

/-! # The decoder of a whole response

`weather_http.c`. The response is decoded in its buffer, which ends with the NUL behind the
response. What the compaction of the chunks reads and writes is noted on the way. -/

namespace Z80Sbc.Http.Weather
open Z80Sbc.Http

def z80WeatherBodyMax : Nat := 8192

/-- The bytes from `first` up to `last` are read, or written. -/
structure Access where
  write : Bool
  first : Nat
  last : Nat

/-- The buffer, and what was done to it with the last access first. -/
structure Wire where
  bytes : List UInt8
  accesses : List Access

def lineEnd : List UInt8 := [13, 10]
def headersEnd : List UInt8 := [13, 10, 13, 10]

/-- `strstr`: where the text first goes on with the needle. -/
def strstr (needle : List UInt8) : List UInt8 → Option Nat
  | [] => none
  | c :: text =>
    if needle.isPrefixOf (c :: text) then some 0
    else if c = 0 then none
    else (strstr needle text).map (· + 1)

/-! ## Headers -/

/-- The loop of `decimal`. -/
def decimalFrom (value : Nat) : List UInt8 → Option Nat
  | [] => some value
  | c :: text =>
    if c < 48 ∨ 57 < c ∨ (z80WeatherBodyMax - (c.toNat - 48)) / 10 < value then none
    else decimalFrom (value * 10 + (c.toNat - 48)) text

def decimal (text : List UInt8) : Option Nat := if text = [] then none else decimalFrom 0 text

/-- The status line, from the start of the buffer to its first line end. -/
def statusOf (p : List UInt8) : Option Nat :=
  if p.length < 12 ∨ (p.take 9 ≠ ascii ['H', 'T', 'T', 'P', '/', '1', '.', '0', ' '] ∧
      p.take 9 ≠ ascii ['H', 'T', 'T', 'P', '/', '1', '.', '1', ' ']) ∨
      p.getD 9 0 < 49 ∨ 53 < p.getD 9 0 ∨ !isDigit (p.getD 10 0) ∨ !isDigit (p.getD 11 0) ∨
      (12 < p.length ∧ p.getD 12 0 ≠ 32) then none
  else
    some ((p.getD 9 0 - 48).toNat * 100 + (p.getD 10 0 - 48).toNat * 10 + (p.getD 11 0 - 48).toNat)

/-- What the headers say about the body. -/
structure Framing where
  chunked : Bool
  haveLength : Bool
  contentLength : Nat

def field (name value : List UInt8) (f : Framing) : Option Framing :=
  if equalsIgnoreCase name (ascii "Content-Length".toList) then
    if f.haveLength then none
    else (decimal value).map fun n => { f with haveLength := true, contentLength := n }
  else if equalsIgnoreCase name (ascii "Transfer-Encoding".toList) then
    if f.chunked ∨ !equalsIgnoreCase value (ascii "chunked".toList) then none
    else some { f with chunked := true }
  else if equalsIgnoreCase name (ascii "Content-Encoding".toList) then
    if equalsIgnoreCase value (ascii "identity".toList) then some f else none
  else some f

/-- A line of the headers. -/
def headerLine (p : List UInt8) (f : Framing) : Option Framing :=
  if p.contains 58 then
    field (p.takeWhile (· != 58)) (trim ((p.dropWhile (· != 58)).drop 1)) f
  else none

/-- The loop over the headers, from a line on. -/
def headerLines (bytes : List UInt8) (headerEnd : Nat) : Nat → Nat → Framing → Option Framing
  | 0, _, _ => none
  | fuel + 1, line, f =>
    if line < headerEnd then
      match strstr lineEnd (bytes.drop line) with
      | none => none
      | some n =>
        if headerEnd < line + n then none
        else
          match headerLine ((bytes.drop line).take n) f with
          | none => none
          | some f => headerLines bytes headerEnd fuel (line + n + 2) f
    else some f

/-- The status, the framing, and where the body begins. -/
def decodeHead (fuel : Nat) (bytes : List UInt8) : Option (Nat × Framing × Nat) :=
  match strstr headersEnd bytes, strstr lineEnd bytes with
  | some headerEnd, some line =>
    if 2048 < headerEnd then none
    else
      match statusOf (bytes.take line) with
      | none => none
      | some status =>
        match headerLines bytes headerEnd fuel (line + 2) ⟨false, false, 0⟩ with
        | none => none
        | some f => some (status, f, headerEnd + 4)
  | _, _ => none

/-! ## Compaction -/

def Wire.note (first last : Nat) (w : Wire) : Wire :=
  { w with accesses := ⟨false, first, last⟩ :: w.accesses }

/-- What `strstr` reads: all up to the line end, or up to the NUL. -/
def Wire.search (first : Nat) (w : Wire) : Wire :=
  w.note first
    (((strstr lineEnd (w.bytes.drop first)).map fun n => first + n + 2).getD w.bytes.length)

/-- `memmove(wire + write, wire + read, count)` -/
def Wire.move (write read count : Nat) (w : Wire) : Wire where
  bytes := w.bytes.take write ++ (w.bytes.drop read).take count ++ w.bytes.drop (write + count)
  accesses := ⟨true, write, write + count⟩ :: ⟨false, read, read + count⟩ :: w.accesses

/-- The NUL behind the body. -/
def Wire.terminate (index : Nat) (w : Wire) : Wire where
  bytes := w.bytes.set index 0
  accesses := ⟨true, index, index + 1⟩ :: w.accesses

/-- The loop over the digits of a chunk size. -/
def sizeFrom (chunk : Nat) : List UInt8 → Option Nat
  | [] => some chunk
  | c :: text =>
    if c = 59 then some chunk
    else
      match digitOf c with
      | none => none
      | some value =>
        if (z80WeatherBodyMax - value.toNat) / 16 < chunk then none
        else sizeFrom (chunk * 16 + value.toNat) text

/-- The size in a line, which has at least one digit. -/
def chunkSize (p : List UInt8) : Option Nat :=
  match sizeFrom 0 p with
  | none => none
  | some chunk => if p = [] ∨ p.head? = some 59 then none else some chunk

/-- The loop over the trailers: whether they are in order, and end the response. -/
def trailers (last : Nat) : Nat → Nat → Wire → Bool × Wire
  | 0, _, w => (false, w)
  | fuel + 1, read, w =>
    match strstr lineEnd (w.bytes.drop read) with
    | none => (false, w.search read)
    | some n =>
      if n = 0 then (read + 2 = last, w.search read)
      else if ((w.bytes.drop read).take n).contains 58 then
        trailers last fuel (read + n + 2) ((w.search read).note read (read + n))
      else (false, (w.search read).note read (read + n))

/-- A chunk is followed by a line end; only what lies in the response is looked at. -/
def chunkEnds (bytes : List UInt8) (index : Nat) : Bool :=
  bytes.getD index 0 == 13 && bytes.getD (index + 1) 0 == 10

/-- The loop over the chunks: the length of the body, if they are in order. -/
def compact (data last : Nat) : Nat → Nat → Nat → Wire → Option Nat × Wire
  | 0, _, _, w => (none, w)
  | fuel + 1, read, write, w =>
    match strstr lineEnd (w.bytes.drop read) with
    | none => (none, w.search read)
    | some n =>
      if 64 < n ∨ n = 0 then (none, w.search read)
      else
        let size := read + n + 2
        let w' := (w.search read).note read (read + n)
        match chunkSize ((w.bytes.drop read).take n) with
        | none => (none, w')
        | some 0 =>
          let (ok, w) := trailers last fuel size w'
          (if ok then some (write - data) else none, w)
        | some chunk =>
          if last - size < chunk + 2 ∨ z80WeatherBodyMax < write - data + chunk then (none, w')
          else
            let w' := w'.note (size + chunk) (size + chunk + 2)
            if chunkEnds w.bytes (size + chunk) then
              compact data last fuel (size + chunk + 2) (write + chunk) (w'.move write size chunk)
            else (none, w')

/-- The length of the body, which is at `data` when it is accepted. -/
def decodeBody (fuel data : Nat) (f : Framing) (last : Nat) (w : Wire) : Option Nat × Wire :=
  if !f.chunked then
    if z80WeatherBodyMax < last - data ∨ (f.haveLength ∧ last - data ≠ f.contentLength) then
      (none, w)
    else (some (last - data), w.terminate (data + (last - data)))
  else if f.haveLength then (none, w)
  else
    match compact data last fuel data data w with
    | (none, w) => (none, w)
    | (some n, w) => (some n, w.terminate (data + n))

/-- What a response that is accepted gives. -/
structure Decoded where
  status : Nat
  body : List UInt8

def decodeWith (fuel : Nat) (text : List UInt8) : Option Decoded × Wire :=
  let w : Wire := ⟨text ++ [0], []⟩
  if text.contains 0 then (none, w)
  else
    match decodeHead fuel w.bytes with
    | none => (none, w)
    | some (status, f, data) =>
      match decodeBody fuel data f text.length w with
      | (none, w) => (none, w)
      | (some n, w) => (some ⟨status, (w.bytes.drop data).take n⟩, w)

/-- `z80_weather_http_decode`, of a response with the NUL behind it. -/
def decode (text : List UInt8) : Option Decoded × Wire := decodeWith (text.length + 2) text

end Z80Sbc.Http.Weather
