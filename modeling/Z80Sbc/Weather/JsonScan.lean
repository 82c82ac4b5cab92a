/-! # The JSON scanner

`json_scan.c`. A range is the bytes from its start to its end; what lies behind the end is read
by the number parser alone. The fuel of a scan is the length of the range. -/

namespace Z80Sbc.Weather

/-- What is not modelled of floating point: `strtod` with the characters it takes and whether it
sets `ERANGE`, the comparisons with two bounds, and the rounding to an `int`. -/
structure Floats where
  Double : Type
  strtod : List UInt8 → Double × Nat × Bool
  isfinite : Double → Bool
  /-- Not below the first bound and not above the second. -/
  within : Int → Int → Double → Bool
  /-- `INT_MIN - 0.5 < value < INT_MAX + 0.5` -/
  fitsInt : Double → Bool
  round : Double → Int

namespace JsonScan

def text (s : String) : List UInt8 := s.toList.map Char.toUInt8

def isSpace (c : UInt8) : Bool := c == 32 || c == 9 || c == 13 || c == 10

def skipWs (range : List UInt8) : List UInt8 := range.dropWhile isSpace

/-- The text behind the colon of the first quoted `key` that a colon follows. -/
def findKeyFrom (pattern : List UInt8) : Nat → List UInt8 → Option (List UInt8)
  | 0, _ => none
  | fuel + 1, range =>
    if pattern.length ≤ range.length ∧ range.headD 0 ≠ 0 then
      if range.take pattern.length = pattern then
        let cursor := skipWs (range.drop pattern.length)
        if cursor.head? = some 58 then some (skipWs (cursor.drop 1))
        else findKeyFrom pattern fuel (cursor.drop 1)
      else findKeyFrom pattern fuel (range.drop 1)
    else none

def findKey (range : List UInt8) (key : List UInt8) : Option (List UInt8) :=
  let pattern := 34 :: key ++ [34]
  if 64 ≤ pattern.length then none else findKeyFrom pattern (range.length + 1) range

/-- The length of the text up to the bracket that closes the first one. -/
def matchEndFrom (opening closing : UInt8) : List UInt8 → Nat → Bool → Bool → Nat → Option Nat
  | [], _, _, _, _ => none
  | c :: range, depth, inString, escaped, length =>
    if c = 0 then none
    else if inString then
      if escaped then matchEndFrom opening closing range depth true false (length + 1)
      else if c = 92 then matchEndFrom opening closing range depth true true (length + 1)
      else matchEndFrom opening closing range depth (c != 34) false (length + 1)
    else if c = 34 then matchEndFrom opening closing range depth true false (length + 1)
    else if c = opening then matchEndFrom opening closing range (depth + 1) false false (length + 1)
    else if c = closing then
      if depth = 1 then some (length + 1)
      else matchEndFrom opening closing range (depth - 1) false false (length + 1)
    else matchEndFrom opening closing range depth false false (length + 1)

/-- The text from an opening bracket to the bracket that closes it. -/
def matchEnd (range : List UInt8) : Option (List UInt8) :=
  let opening := range.headD 0
  (matchEndFrom opening (if opening = 123 then 125 else 93) range 0 false false 0).map range.take

/-- The loop of `json_scan_get_string`: the text as it is stored, and whether it ends with a
quote. The number is the room left for characters. -/
def stringFrom (range : List UInt8) (room : Nat) : List UInt8 × Bool :=
  match range with
  | [] => ([], false)
  | c :: rest =>
    if c = 0 then ([], false)
    else if c = 34 then ([], true)
    else
      let plain (ch : UInt8) (next : List UInt8 × Bool) :=
        if 0 < room then (ch :: next.1, next.2) else next
      if c = 92 then
        match rest with
        | [] => plain 92 ([], false)
        | e :: rest' =>
          if e = 0 then plain 92 ([], false)
          else if e = 110 ∨ e = 114 ∨ e = 116 ∨ e = 98 ∨ e = 102 then
            plain 32 (stringFrom rest' (room - 1))
          else if e = 117 then
            plain 63 (stringFrom (rest'.drop (min 4 (rest'.takeWhile (· ≠ 0)).length)) (room - 1))
          else plain e (stringFrom rest' (room - 1))
      else plain c (stringFrom rest (room - 1))
termination_by range.length
decreasing_by
  all_goals
    subst_vars
    simp only [List.length_cons, List.length_drop]
    omega

/-- What is stored in the `dstLen` bytes, and whether the string was found whole. -/
def getString (range : List UInt8) (key : List UInt8) (dstLen : Nat) : List UInt8 × Bool :=
  match findKey range key with
  | none => ([], false)
  | some cursor =>
    if cursor.head? = some 34 then stringFrom (cursor.drop 1) (dstLen - 1) else ([], false)

def decimal (n : Int) : List UInt8 := text (toString n)

/-- What may follow a number. -/
def endsNumber (c : UInt8) : Bool := c == 44 || c == 125 || c == 93 || isSpace c

/-- `behind` is the memory after the range. -/
def getNumber (floats : Floats) (range behind : List UInt8) (key : List UInt8) (dstLen : Nat) :
    List UInt8 × Bool :=
  match findKey range key with
  | none => ([], false)
  | some cursor =>
    if cursor = [] then ([], false)
    else
      let parsed := floats.strtod (cursor ++ behind)
      let taken := parsed.2.1
      if parsed.2.2 || taken == 0 || decide (cursor.length < taken) || !floats.isfinite parsed.1 ||
          !floats.fitsInt parsed.1 ||
          (decide (taken < cursor.length) && !endsNumber ((cursor.drop taken).headD 0)) then ([], false)
      else ((decimal (floats.round parsed.1)).take (dstLen - 1), true)

/-- `strtol(text, &end, 10)`: the value and the number of characters taken. -/
def strtol (source : List UInt8) : Int × Nat :=
  let spaces := (source.takeWhile fun c => c = 32 ∨ 9 ≤ c ∧ c ≤ 13).length
  let rest := source.drop spaces
  let negative := rest.head? = some 45
  let signed := negative ∨ rest.head? = some 43
  let digits := (if signed then rest.drop 1 else rest).takeWhile fun c => 48 ≤ c ∧ c ≤ 57
  let magnitude := digits.foldl (fun (n : Int) c => n * 10 + ((c.toNat : Int) - 48)) 0
  if digits = [] then (0, 0)
  else (if negative then -magnitude else magnitude, spaces + (if signed then 1 else 0) + digits.length)

def fitsInt (n : Int) : Bool := -2147483648 ≤ n && n ≤ 2147483647

/-- A number, or a string that is a number. What does not fit a `long` does not fit an `int`. -/
def getInt (range behind : List UInt8) (key : List UInt8) : Option Int :=
  match findKey range key with
  | none => none
  | some cursor =>
    if cursor = [] then none
    else if cursor.head? = some 34 then
      let tmp := getString range key 12
      let parsed := strtol tmp.1
      if tmp.2 && parsed.2 != 0 && parsed.2 == tmp.1.length && fitsInt parsed.1 then some parsed.1
      else none
    else
      let parsed := strtol (cursor ++ behind)
      if parsed.2 == 0 || decide (cursor.length < parsed.2) || !fitsInt parsed.1 then none
      else some parsed.1

/-- An object with what lies behind it. -/
structure Object where
  bytes : List UInt8
  behind : List UInt8

def objectFrom (key : List UInt8) (behind : List UInt8) : Nat → List UInt8 → Option Object
  | 0, _ => none
  | fuel + 1, search =>
    if search = [] then none
    else
      match findKey search key with
      | none => none
      | some cursor =>
        let cursor := skipWs cursor
        if cursor.head? = some 123 then
          (matchEnd cursor).map fun object => ⟨object, cursor.drop object.length ++ behind⟩
        else objectFrom key behind fuel (cursor.drop 1)

def object (range : Object) (key : List UInt8) : Option Object :=
  objectFrom key range.behind (range.bytes.length + 1) range.bytes

/-- The first object of an array. -/
def firstObject (array behind : List UInt8) : Option Object :=
  let cursor := (skipWs (array.drop 1)).dropWhile fun c => c ≠ 0 ∧ c ≠ 123
  if cursor.head? = some 123 then
    (matchEnd cursor).map fun object => ⟨object, cursor.drop object.length ++ behind⟩
  else none

def firstArrayObjectFrom (key : List UInt8) (behind : List UInt8) :
    Nat → List UInt8 → Option Object
  | 0, _ => none
  | fuel + 1, search =>
    if search = [] then none
    else
      match findKey search key with
      | none => none
      | some cursor =>
        let cursor := skipWs cursor
        if cursor.head? = some 91 then
          (matchEnd cursor).bind fun array => firstObject array (cursor.drop array.length ++ behind)
        else firstArrayObjectFrom key behind fuel (cursor.drop 1)

def firstArrayObject (range : Object) (key : List UInt8) : Option Object :=
  firstArrayObjectFrom key range.behind (range.bytes.length + 1) range.bytes

end JsonScan

end Z80Sbc.Weather
