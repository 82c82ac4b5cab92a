import Z80Sbc.Chat.Json
import Z80Sbc.Env.CommandLine

/-! # The endpoint of a request

`chat_endpoint.h`, the settings of `chat.c`, and the header of `chat_network.cpp`. A C string is
the bytes before its NUL. -/

namespace Z80Sbc.Chat
open Z80Sbc.Env (Entry getValue normalizeKey)

/-- `z80_chat_endpoint_t` -/
structure Endpoint where
  https : Bool
  port : Nat
  host : List UInt8
  authority : List UInt8
  path : List UInt8
  key : List UInt8
  deriving DecidableEq

/-- `memset(&endpoint, 0, sizeof(endpoint))` -/
def Endpoint.zero : Endpoint := ⟨false, 0, [], [], [], []⟩

def hostSize : Nat := 96
def authoritySize : Nat := 104
def pathSize : Nat := 160
def keySize : Nat := 256

/-! ## The URL -/

/-- The digits of a port. -/
def portDigits : List UInt8 → Nat → Option Nat
  | [], port => if port = 0 then none else some port
  | c :: cs, port =>
    if c < 48 ∨ 57 < c ∨ 6553 < port then none
    else
      let port := port * 10 + (c.toNat - 48)
      if 65535 < port then none else portDigits cs port

/-- What no URL has: controls, blanks, DEL and above, and three marks. -/
def refusedByte (c : UInt8) : Bool :=
  decide (c ≤ 32) || decide (127 ≤ c) || c == 64 || c == 35 || c == 92

def hostByte (c : UInt8) : Bool :=
  decide (97 ≤ c ∧ c ≤ 122) || decide (65 ≤ c ∧ c ≤ 90) || decide (48 ≤ c ∧ c ≤ 57) ||
    c == 46 || c == 45

/-- What stands behind the scheme. -/
def parseHost (host : List UInt8) (endpoint : Endpoint) : Bool × Endpoint :=
  let authority := host.takeWhile (· ≠ 47)
  let path := host.dropWhile (· ≠ 47)
  if path = [] ∨ authority = [] ∨ authoritySize ≤ authority.length ∨ pathSize ≤ path.length then
    (false, endpoint)
  else if host.any refusedByte then (false, endpoint)
  else
    let endpoint := { endpoint with authority, path }
    let name := authority.takeWhile (· ≠ 58)
    if name = [] ∨ hostSize ≤ name.length then (false, endpoint)
    else if !name.all hostByte then (false, endpoint)
    else
      let endpoint := { endpoint with host := name }
      match authority.dropWhile (· ≠ 58) with
      | [] => (true, endpoint)
      | _ :: digits =>
        match portDigits digits 0 with
        | none => (false, endpoint)
        | some port => (true, { endpoint with port })

def httpsScheme : List UInt8 := text "https://".toList
def httpScheme : List UInt8 := text "http://".toList

/-- `z80_chat_parse_endpoint` -/
def parseEndpoint (url : List UInt8) (endpoint : Endpoint) : Bool × Endpoint :=
  if httpsScheme.isPrefixOf url then
    parseHost (url.drop 8) { endpoint with https := true, port := 443 }
  else if httpScheme.isPrefixOf url then
    parseHost (url.drop 7) { endpoint with https := false, port := 80 }
  else (false, endpoint)

/-! ## The settings -/

/-- `setting`, for the entries that ENV has; none when the value is too long. -/
def setting (entries : List Entry) (name : List UInt8) (capacity : Nat) : Option (List UInt8) :=
  match getValue entries (normalizeKey name) 256 with
  | none => some []
  | some value => if capacity ≤ value.length then none else some value

def providerName : List UInt8 := text "CHAT_PROVIDER".toList
def keyName : List UInt8 := text "CHAT_OPENAI_KEY".toList
def endpointName : List UInt8 := text "CHAT_ENDPOINT".toList

def openai : List UInt8 := text "openai".toList
def openaiUrl : List UInt8 := text "https://api.openai.com/v1/chat/completions".toList

/-- The end of `load_settings`. -/
def parsed (url : List UInt8) (endpoint : Endpoint) : Option (List UInt8) × Endpoint :=
  let (ok, endpoint) := parseEndpoint url endpoint
  (if ok then none
    else some (text "Invalid CHAT_ENDPOINT; use a full http(s) IPv4/DNS URL".toList), endpoint)

/-- `load_settings`: the message when it fails, and the endpoint. ENV may not be readable. -/
def loadSettings (env : Option (List Entry)) : Option (List UInt8) × Endpoint :=
  let tooLong := text "CHAT setting exceeds its size limit".toList
  match env with
  | none => (some (text "Cannot read CHAT ENV settings".toList), .zero)
  | some entries =>
    match setting entries providerName 16 with
    | none => (some tooLong, .zero)
    | some provider =>
      if provider = [] ∨ provider = openai then
        match setting entries keyName keySize with
        | none => (some tooLong, .zero)
        | some key =>
          let endpoint := { Endpoint.zero with key }
          if key = [] then (some (text "Set CHAT_OPENAI_KEY in ENV".toList), endpoint)
          else if key.any fun c => decide (c ≤ 32) || decide (127 ≤ c) then
            (some (text "Invalid CHAT_OPENAI_KEY".toList), endpoint)
          else parsed openaiUrl endpoint
      else if provider = text "compatible".toList ∨ provider = text "ollama".toList then
        match setting entries endpointName 256 with
        | none => (some tooLong, .zero)
        | some url => parsed url .zero
      else (some (text "CHAT_PROVIDER must be openai, compatible or ollama".toList), .zero)

/-! ## The header -/

/-- `%u` -/
def decimal (n : Nat) : List UInt8 := text (Nat.toDigits 10 n)

/-- The text that `start` formats. -/
def headerText (endpoint : Endpoint) (length : Nat) : List UInt8 :=
  text "POST ".toList ++ endpoint.path ++ text " HTTP/1.1\r\nHost: ".toList ++
    endpoint.authority ++ text "\r\nContent-Type: application/json\r\n".toList ++
    text "Accept: text/event-stream\r\nAccept-Encoding: identity\r\n".toList ++
    text "Connection: close\r\nContent-Length: ".toList ++ decimal length ++ text "\r\n".toList ++
    (if endpoint.key = [] then [] else text "Authorization: Bearer ".toList) ++ endpoint.key ++
    (if endpoint.key = [] then [] else text "\r\n".toList) ++ text "\r\n".toList

end Z80Sbc.Chat
