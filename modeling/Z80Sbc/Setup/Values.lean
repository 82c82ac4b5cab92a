import Mathlib.Logic.Function.Basic
import Z80Sbc.Chat.Endpoint
import Z80Sbc.Weather.JsonScan

/-! # Values of the network setup

The fields of `network_setup.c` and the tests of their values. -/

namespace Z80Sbc.Setup
open Z80Sbc.Env (ascii isdigit)
open Z80Sbc.Weather (Floats)

/-- What a buffer of 256 bytes can hold. -/
structure Text where
  bytes : List UInt8
  nul : 0 ∉ bytes
  fits : bytes.length < 256
  deriving DecidableEq

def Text.empty : Text := ⟨[], List.not_mem_nil, by decide⟩

inductive Field where
  | ssid | password | server | provider | endpoint | apiKey | model | tokens | temperature
  | thinking | weatherKey | location | units | timezone
  deriving DecidableEq, Repr

namespace Field

/-- The order of the enumeration. -/
def all : List Field :=
  [ssid, password, server, provider, endpoint, apiKey, model, tokens, temperature, thinking,
    weatherKey, location, units, timezone]

def index (f : Field) : Nat := all.idxOf f

/-- `first + i` -/
def after (first : Field) (i : Nat) : Field := all.getD (first.index + i) first

def key : Field → List UInt8
  | ssid => ascii "WIFI_SSID"
  | password => ascii "WIFI_PASSWORD"
  | server => ascii "FS_SERVER"
  | provider => ascii "CHAT_PROVIDER"
  | endpoint => ascii "CHAT_ENDPOINT"
  | apiKey => ascii "CHAT_OPENAI_KEY"
  | model => ascii "CHAT_MODEL"
  | tokens => ascii "CHAT_MAX_TOKENS"
  | temperature => ascii "CHAT_TEMPERATURE"
  | thinking => ascii "CHAT_THINK"
  | weatherKey => ascii "OWM_KEY"
  | location => ascii "OWM_LOCATION"
  | units => ascii "OWM_UNITS"
  | timezone => ascii "TZ"

def label : Field → List UInt8
  | ssid => ascii "Wi-Fi SSID"
  | password => ascii "Wi-Fi password"
  | server => ascii "Remote FS server IPv4 (stored only)"
  | provider => ascii "Chat provider"
  | endpoint => ascii "Full http(s) chat completions URL"
  | apiKey => ascii "OpenAI API key"
  | model => ascii "Chat model"
  | tokens => ascii "Maximum tokens (positive integer)"
  | temperature => ascii "Temperature (0-2)"
  | thinking => ascii "Thinking (false, true, default)"
  | weatherKey => ascii "OpenWeatherMap API key"
  | location => ascii "Location (city,country or lat=...&lon=...)"
  | units => ascii "Units (metric, imperial, standard)"
  | timezone => ascii "POSIX timezone (e.g. AEST-10 or UTC0)"

def limit : Field → Nat
  | ssid => 32
  | password => 64
  | server => 15
  | provider => 15
  | endpoint => 255
  | apiKey => 255
  | model => 64
  | tokens => 8
  | temperature => 8
  | thinking => 7
  | weatherKey => 40
  | location => 64
  | units => 12
  | timezone => 255

def secret : Field → Bool
  | password | apiKey | weatherKey => true
  | _ => false

end Field

/-! ## Tests of a value -/

def decimalDigits (digits : List UInt8) : Nat :=
  digits.foldl (fun value c => value * 10 + (c.toNat - 48)) 0

/-- A part of an address: its value, and what stands behind it. -/
def serverPart (address : List UInt8) : Option (Nat × List UInt8) :=
  let digits := address.takeWhile isdigit
  if digits = [] ∨ 3 < digits.length ∨ 255 < decimalDigits digits then none
  else some (decimalDigits digits, address.drop digits.length)

/-- What stands behind `n` parts, each with its dot. -/
def serverParts : Nat → List UInt8 → Option (List UInt8)
  | 0, address => some address
  | n + 1, address =>
    if address.head? = some '.'.toUInt8 then
      (serverPart (address.drop 1)).bind fun part => serverParts n part.2
    else none

def validServer (address : List UInt8) : Bool :=
  match serverPart address with
  | none => false
  | some (first, rest) =>
    decide (serverParts 3 rest = some []) && decide (0 < first) && decide (first < 224) &&
      decide (first ≠ 127)

def isxdigit (c : UInt8) : Bool :=
  isdigit c || ('a'.toUInt8 ≤ c && c ≤ 'f'.toUInt8) || ('A'.toUInt8 ≤ c && c ≤ 'F'.toUInt8)

def validPassword (password : List UInt8) : Bool :=
  if password.length = 0 ∨ 8 ≤ password.length ∧ password.length ≤ 63 then true
  else if password.length ≠ 64 then false
  else password.all isxdigit

def decimal (floats : Floats) (text : List UInt8) (min max : Int) : Bool :=
  let (value, taken, _) := floats.strtod text
  decide (text ≠ []) && text.all (fun c => isdigit c || c = '.'.toUInt8) &&
    decide (taken = text.length) && floats.isfinite value && floats.within min max value

def validLocation (floats : Floats) (text : List UInt8) : Bool :=
  if text.take 4 ≠ ascii "lat=" then true
  else
    let (latitude, taken, _) := floats.strtod (text.drop 4)
    let rest := text.drop (4 + taken)
    if taken = 0 ∨ !floats.isfinite latitude ∨ !floats.within (-90) 90 latitude ∨
        rest.take 5 ≠ ascii "&lon=" then false
    else
      let lon := rest.drop 5
      let (longitude, taken, _) := floats.strtod lon
      decide (taken ≠ 0) && decide (taken = lon.length) && floats.isfinite longitude &&
        floats.within (-180) 180 longitude

/-! ## Values -/

def validValue (floats : Floats) (field : Field) (text : List UInt8) : Bool :=
  if field.limit < text.length then false
  else if text = [] then true
  else
    match field with
    | .password => validPassword text
    | .server => validServer text
    | .provider => text = ascii "openai" || text = ascii "compatible" || text = ascii "ollama"
    | .endpoint => (Chat.parseEndpoint text .zero).1
    | .tokens => text.all isdigit && decide (0 < decimalDigits text)
    | .temperature => decimal floats text 0 2
    | .thinking => text = ascii "false" || text = ascii "true" || text = ascii "default"
    | .location => validLocation floats text
    | .units => text = ascii "metric" || text = ascii "imperial" || text = ascii "standard"
    | .apiKey | .weatherKey | .timezone => text.all fun c => 32 < c && c < 127
    | _ => true

end Z80Sbc.Setup
