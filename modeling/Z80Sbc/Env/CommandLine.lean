import Mathlib.Data.List.DropRight
import Z80Sbc.Env.Table

/-! # The ENV command line

The text functions of `environment_io.c`: responses, tokens, assignments, deltas
and the integer expressions. Texts are C strings, a list of bytes without a NUL;
where the code looks behind a terminator the text is a buffer, and says so. -/

namespace Z80Sbc.Env

def ascii (s : String) : List UInt8 := s.toList.map Char.toUInt8

/-- A response buffer, and `s_response_overflow`. -/
structure Response where
  text : List UInt8 := []
  overflow : Bool := false
  deriving DecidableEq

/-- `env_append_text`; a capacity of 0 is no buffer. -/
def appendText (capacity : Nat) (r : Response) (text : List UInt8) : Response :=
  if capacity = 0 ∨ capacity - 1 ≤ r.text.length then
    { r with overflow := r.overflow || decide (text ≠ []) }
  else
    let room := capacity - 1 - r.text.length
    { text := r.text ++ text.take room, overflow := r.overflow || decide (room < text.length) }

def writeText (capacity : Nat) (r : Response) (text : List UInt8) : Response :=
  if capacity = 0 then r else appendText capacity { r with text := [] } text

/-- `env_format_response`, given what `vsnprintf` prints. -/
def formatResponse (capacity : Nat) (r : Response) (printed : List UInt8) : Response :=
  if capacity = 0 then r
  else if capacity ≤ printed.length then { text := printed.take (capacity - 1), overflow := true }
  else { r with text := printed }

/-! ## Words -/

def isBlank (c : UInt8) : Bool := c = ' '.toUInt8 || c = '\t'.toUInt8

def isSign (c : UInt8) : Bool := c = '+'.toUInt8 || c = '-'.toUInt8

def isdigit (c : UInt8) : Bool := '0'.toUInt8 ≤ c && c ≤ '9'.toUInt8

def skipSpaces (text : List UInt8) : List UInt8 := text.dropWhile isBlank

def trimText (text : List UInt8) : List UInt8 := (skipSpaces text).rdropWhile isBlank

/-- `env_next_token` with a buffer of `size` bytes: the word, and what follows it. -/
def nextToken (size : Nat) (text : List UInt8) : List UInt8 × List UInt8 :=
  let text := skipSpaces text
  ((text.takeWhile fun c => !isBlank c).take (size - 1),
    skipSpaces (text.dropWhile fun c => !isBlank c))

def isNumber (text : List UInt8) : Bool :=
  let digits := if (text.head?.map isSign).getD false then text.drop 1 else text
  decide (digits ≠ []) && digits.all isdigit

def isNow (text : List UInt8) : Bool := text.map toupper = ascii "NOW"

def isHelp (text : List UInt8) : Bool :=
  let word :=
    match text with
    | c :: rest => if (c = '-'.toUInt8 || c = '/'.toUInt8) && decide (rest ≠ []) then rest else text
    | [] => text
  word = ascii "?" || word.map toupper = ascii "H" || word.map toupper = ascii "HELP"

/-! ## Assignments and deltas -/

/-- `env_parse_assignment`: the key and the value, and the name buffer, which the
code leaves with a NUL in place of its first `=`. -/
def parseAssignment (name rest : List UInt8) :
    Option (List UInt8 × List UInt8) × List UInt8 :=
  match name.findIdx? (· = '='.toUInt8) with
  | some equals =>
    let key := normalizeKey (name.take equals)
    let value := copyText envValueSize (name.drop (equals + 1))
    let value :=
      if rest ≠ [] then
        let value := if value ≠ [] then
            value ++ (ascii " ").take (envValueSize - value.length - 1) else value
        value ++ rest.take (envValueSize - value.length - 1)
      else value
    let value := trimText value
    (if key ≠ [] then some (key, value) else none, name.set equals 0)
  | none =>
    let rest := skipSpaces rest
    if rest.head? ≠ some '='.toUInt8 then (none, name)
    else
      let key := normalizeKey name
      let value := trimText (copyText envValueSize (skipSpaces (rest.drop 1)))
      (if key ≠ [] then some (key, value) else none, name)

/-- `env_split_delta` of a name buffer, in which the code may look behind a NUL that
stands first. -/
def splitDelta (text : List UInt8) : Option (List UInt8 × List UInt8) :=
  match (cstr (text.drop 1)).findIdx? isSign with
  | none => none
  | some i =>
    let op := i + 1
    let keyLen := if envKeySize ≤ op then envKeySize - 1 else op
    let key := trimText (cstr (text.take keyLen))
    let number := skipSpaces (cstr (text.drop (op + 1)))
    if number = [] then none
    else
      let delta := trimText (text.getD op 0 :: number.take (envValueSize - 2))
      if isNumber delta then some (key, delta) else none

def parseDelta (name rest : List UInt8) : Option (List UInt8 × List UInt8) :=
  match splitDelta name with
  | some (key, delta) => some (normalizeKey key, delta)
  | none =>
    let text := cstr name
    let deltaText := skipSpaces rest
    if 1 < text.length ∧ isSign (text.getLastD 0) ∧ deltaText ≠ [] then
      let delta := text.getLastD 0 :: (nextToken (envValueSize - 1) deltaText).1
      if isNumber delta then some (normalizeKey text.dropLast, delta) else none
    else if isSign (deltaText.headD 0) then
      let delta := deltaText.headD 0 :: (nextToken (envValueSize - 1) (skipSpaces (deltaText.drop 1))).1
      if isNumber delta then some (normalizeKey text, delta) else none
    else
      let delta := (nextToken envValueSize rest).1
      if delta ≠ [] ∧ isNumber delta then some (normalizeKey text, delta) else none

/-! ## Numbers -/

def int64Min : Int := -9223372036854775808
def int64Max : Int := 9223372036854775807

/-- The sum or difference, none when it overflows. -/
def calculate (left right : Int) (subtract : Bool) : Option Int :=
  if (if subtract then
        (decide (right > 0) && decide (left < int64Min + right)) ||
          (decide (right < 0) && decide (left > int64Max + right))
      else
        (decide (right > 0) && decide (left > int64Max - right)) ||
          (decide (right < 0) && decide (left < int64Min - right))) then none
  else some (if subtract then left - right else left + right)

def isspace (c : UInt8) : Bool := c = ' '.toUInt8 || (9 ≤ c && c ≤ 13)

/-- `strtoll(text, &end, 10)`: the value, whether it is out of range, and the text
from `end` on. -/
def strtoll (text : List UInt8) : Int × Bool × List UInt8 :=
  let body := text.dropWhile isspace
  let unsigned := if (body.head?.map isSign).getD false then body.drop 1 else body
  let digits := unsigned.takeWhile isdigit
  if digits = [] then (0, false, text)
  else
    let n : Int := digits.foldl (fun n c => n * 10 + (c.toNat - 48)) 0
    let value := if body.head? = some '-'.toUInt8 then -n else n
    let rest := unsigned.dropWhile isdigit
    if value < int64Min then (int64Min, true, rest)
    else if int64Max < value then (int64Max, true, rest)
    else (value, false, rest)

/-- `%u`, `%llu`. -/
def printNat (n : Nat) : List UInt8 := (Nat.toDigits 10 n).map Char.toUInt8

/-- `%lld`. -/
def printInt (v : Int) : List UInt8 :=
  if v < 0 then '-'.toUInt8 :: printNat v.natAbs else printNat v.natAbs

def envNow (millis : Nat) : List UInt8 := printNat (millis / 1000)

/-! ## Values -/

/-- `env_get_value` into a buffer of `size` bytes; none is `ENV_STATUS_NOT_FOUND`. -/
def getValue (entries : List Entry) (key : List UInt8) (size : Nat) : Option (List UInt8) :=
  if !keyValid key then none
  else (findIndex entries key).map fun i => copyText size ((entries.map Entry.value).getD i [])

def envErrorSize : Nat := 128

def overflowText : List UInt8 := ascii "Error: numeric overflow\r\n"

/-- `env_value_to_i64`; the error is what `s_error` holds. `millis` is the clock. -/
def valueToI64 (entries : List Entry) (millis : Nat) (expr : List UInt8) : Except Response Int :=
  let parse (text : List UInt8) : Except Response Int :=
    let (value, erange, rest) := strtoll text
    if erange ∨ rest ≠ [] then .error (writeText envErrorSize {} overflowText) else .ok value
  if isNumber expr then parse expr
  else
    match if isNow expr then some (envNow millis)
      else getValue entries (normalizeKey expr) envValueSize with
    | none => .error (formatResponse envErrorSize {}
        (ascii "Error: " ++ expr ++ ascii " not found\r\n"))
    | some text =>
      if !isNumber text then .error (formatResponse envErrorSize {}
        (ascii "Error: " ++ expr ++ ascii " not numeric\r\n"))
      else parse text

/-- The three results of `env_eval_value`: 0, 1 and -1. -/
inductive Evaluated where
  | unchanged
  | value (text : List UInt8)
  | error (message : Response)

/-- `env_eval_value`; `millis n` is what the clock shows when it is read the `n`-th
time. -/
def evalValue (entries : List Entry) (millis : Nat → Nat) (expr : List UInt8) : Evaluated :=
  match (expr.drop 1).findIdx? isSign with
  | none =>
    if isNumber expr then .unchanged
    else if isNow expr then .value (envNow (millis 0))
    else
      match getValue entries (normalizeKey expr) envValueSize with
      | some text => .value text
      | none => .unchanged
  | some i =>
    let op := i + 1
    let left := trimText (expr.take (if envValueSize ≤ op then envValueSize - 1 else op))
    let right := trimText (copyText envValueSize (expr.drop (op + 1)))
    match valueToI64 entries (millis 0) left with
    | .error message => .error message
    | .ok left =>
      match valueToI64 entries (millis 1) right with
      | .error message => .error message
      | .ok right =>
        match calculate left right (expr.getD op 0 = '-'.toUInt8) with
        | none => .error (writeText envErrorSize {} overflowText)
        | some value => .value (printInt value)

def helpText : List UInt8 := ascii (
  "ENV - Environment Variable Manager\r\n" ++
  "==================================\r\n" ++
  "Stored in Pico flash; available from CP/M through DXENV.\r\n" ++
  "\r\n" ++
  "Commands:\r\n" ++
  "  ENV                 List all variables\r\n" ++
  "  ENV NAME            Show NAME\r\n" ++
  "  ENV NAME=VALUE      Set NAME to VALUE\r\n" ++
  "  ENV NAME=VALUE TWO  Set NAME to text with spaces\r\n" ++
  "  ENV NAME=OTHER      Copy value from OTHER if OTHER exists\r\n" ++
  "  ENV NAME=A+B        Store numeric A plus B\r\n" ++
  "  ENV NAME=A-B        Store numeric A minus B\r\n" ++
  "  ENV NAME+N          Add N to numeric NAME, default 0\r\n" ++
  "  ENV NAME-N          Subtract N from numeric NAME\r\n" ++
  "  ENV NOW             Show emulator uptime seconds\r\n" ++
  "  ENV -I NAME=VALUE   Set only if NAME is undefined\r\n" ++
  "  ENV -D NAME         Delete NAME\r\n" ++
  "  ENV -N              Show variable count\r\n" ++
  "  ENV -H | HELP | ?   Show this help\r\n" ++
  "\r\n" ++
  "Spaces around =, +, and - are optional.\r\n" ++
  "Limits: names 16 chars, values 255 chars. Names stored uppercase.\r\n" ++
  "Service group 48; ports: command/status 2, request 3, response 4.\r\n")

end Z80Sbc.Env
