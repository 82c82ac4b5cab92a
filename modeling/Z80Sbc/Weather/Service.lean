import Z80Sbc.Weather.JsonScan

/-! # The weather service

`weather.c`. The settings, the clock, and whether a request could be started are inputs. -/

namespace Z80Sbc.Weather
open JsonScan

def FIELD_COUNT : Nat := 15
def FIELD_BYTES : Nat := 96
def CONFIG_MS : BitVec 64 := 1000
def SETTLE_MS : BitVec 64 := 5000
def RETRY_MS : BitVec 64 := 120000
def REFRESH_MS : BitVec 64 := 1200000
def Z80_WEATHER_BODY_MAX : Nat := 8192

inductive Status
  | none | fetching | ready | error
deriving DecidableEq, Repr

/-- The error is the whole buffer, with what is left behind its end. -/
structure Config where
  key : List UInt8
  location : List UInt8
  units : List UInt8
  error : List UInt8
deriving DecidableEq

def Config.zero : Config := ⟨[], [], [], List.replicate 64 0⟩

/-- The text that a buffer holds. -/
def held (buffer : List UInt8) : List UInt8 := buffer.takeWhile (· ≠ 0)

/-- `snprintf` of a text into a buffer. -/
def print (buffer source : List UInt8) : List UInt8 :=
  let written := source.take (buffer.length - 1)
  written ++ 0 :: buffer.drop (written.length + 1)

abbrev Fields := Nat → List UInt8

def Fields.blank : Fields := fun _ => []
def Fields.put (f : Fields) (k : Nat) (value : List UInt8) : Fields :=
  fun j => if j = k then value else f j

structure State where
  config : Config
  fields : Fields
  pending : Fields
  enabled : Bool
  haveData : Bool
  wasOnline : Bool
  status : Status
  phase : Nat
  startupRetries : BitVec 32
  configDue : BitVec 64
  fetchDue : BitVec 64
  lastFetch : BitVec 64

def State.initial : State :=
  { config := .zero, fields := .blank, pending := .blank, enabled := false, haveData := false
    wasOnline := false, status := .none, phase := 0, startupRetries := 0, configDue := 0
    fetchDue := 0, lastFetch := 0 }

/-- `z80_weather_init` -/
def init (w : State) : State := { w with enabled := true }

/-- `now` is the clock as it reads it. -/
def fail (message : List UInt8) (now : BitVec 64) (w : State) : State :=
  let retry := !w.haveData && decide (w.startupRetries < 5)
  { w with
    fields := w.fields.put 12 (message.take (FIELD_BYTES - 1))
    status := .error
    phase := 0
    startupRetries := if w.haveData then w.startupRetries else w.startupRetries + 1
    fetchDue := now + if retry then RETRY_MS else REFRESH_MS }

/-! ## Settings -/

/-- The variables as the weather service finds them. -/
structure Settings where
  readable : Bool
  key : Option (List UInt8)
  location : Option (List UInt8)
  units : Option (List UInt8)

/-- The text to keep, and the error buffer. -/
def readSetting (name : List UInt8) (value : Option (List UInt8)) (capacity : Nat)
    (error : List UInt8) : List UInt8 × List UInt8 :=
  match value with
  | none => ([], error)
  | some value =>
    if capacity ≤ value.length then ([], print error (name ++ text " is too long"))
    else (value, error)

def nextConfig (settings : Settings) : Config :=
  if !settings.readable then
    { Config.zero with error := print Config.zero.error (text "Cannot read weather ENV settings") }
  else
    let key := readSetting (text "OWM_KEY") settings.key 41 Config.zero.error
    let location := readSetting (text "OWM_LOCATION") settings.location 65 key.2
    let units := readSetting (text "OWM_UNITS") settings.units 12 location.2
    let name := if units.1 = [] then text "metric" else units.1
    let error := units.2
    let error :=
      if held error = [] ∧ (key.1 = [] ∨ location.1 = []) then
        print error (text "Set OWM_KEY and OWM_LOCATION in ENV")
      else error
    let error :=
      if held error = [] ∧ name ≠ text "metric" ∧ name ≠ text "imperial" ∧ name ≠ text "standard" then
        print error (text "OWM_UNITS must be metric, imperial or standard")
      else error
    ⟨key.1, location.1, name, error⟩

def unitSymbol (config : Config) : List UInt8 :=
  if config.units = text "imperial" then text "F"
  else if config.units = text "standard" then text "K" else text "C"

/-- Whether the settings have changed; if so the request is cancelled. -/
def loadConfig (settings : Settings) (now : BitVec 64) (w : State) : State × Bool :=
  let next := nextConfig settings
  if next = w.config then (w, false)
  else
    let w := { w with
      config := next, fields := Fields.blank.put 11 (unitSymbol next), haveData := false, phase := 0
      startupRetries := 0, status := .none }
    (if held next.error ≠ [] then fail (held next.error) now w else w, true)

/-! ## Requests -/

def hexDigit (n : UInt8) : UInt8 := if n < 10 then 48 + n else 55 + n

def encode (source : List UInt8) : List UInt8 :=
  source.flatMap fun c =>
    if (97 ≤ c ∧ c ≤ 122) ∨ (65 ≤ c ∧ c ≤ 90) ∨ (48 ≤ c ∧ c ≤ 57) ∨ c = 45 ∨ c = 95 ∨ c = 46 ∨ c = 126
    then [c] else [37, hexDigit (c >>> 4), hexDigit (c &&& 15)]

/-- The location as a query, if it is valid. -/
def encodeLocation (floats : Floats) (location : List UInt8) : Option (List UInt8) :=
  if location.take 4 = text "lat=" then
    let lat := location.drop 4
    let latitude := floats.strtod lat
    let rest := lat.drop latitude.2.1
    if latitude.2.1 = 0 ∨ !floats.isfinite latitude.1 ∨ !floats.within (-90) 90 latitude.1 ∨
        rest.take 5 ≠ text "&lon=" then none
    else
      let lon := rest.drop 5
      let longitude := floats.strtod lon
      if longitude.2.1 = 0 ∨ lon.drop longitude.2.1 ≠ [] ∨ !floats.isfinite longitude.1 ∨
          !floats.within (-180) 180 longitude.1 then none
      else some (text "lat=" ++ encode (lat.take latitude.2.1) ++ text "&lon=" ++ encode lon)
  else some (text "q=" ++ encode location)

def buildPath (floats : Floats) (config : Config) (forecast : Bool) : Option (List UInt8) :=
  match encodeLocation floats config.location with
  | none => none
  | some location =>
    let path := text "/data/2.5/" ++ (if forecast then text "forecast" else text "weather") ++
      text "?" ++ location ++ text "&appid=" ++ encode config.key ++ text "&units=" ++ config.units ++
      (if forecast then text "&cnt=1" else [])
    if path.length < 512 then some path else none

/-! ## Replies -/

/-- What the network gives to `z80_weather_result`; an error has a text. -/
structure Reply where
  httpStatus : Nat
  body : Option (List UInt8)
  error : Option { message : List UInt8 // message ≠ [] }

/-- Stores a text; what follows is done if it was found. -/
def store (k : Nat) (found : List UInt8 × Bool) (next : Fields → Fields × Bool) (output : Fields) :
    Fields × Bool :=
  if found.2 then next (output.put k found.1) else (output.put k found.1, false)

/-- The first letter in upper case. -/
def capitalize : List UInt8 → List UInt8
  | [] => []
  | c :: rest => (if 97 ≤ c ∧ c ≤ 122 then c - 32 else c) :: rest

def parseConditions (floats : Floats) (item : Object) (output : Fields) (forecast : Bool) :
    Fields × Bool :=
  let base := if forecast then 6 else 1
  match object item (text "main"), firstArrayObject item (text "weather") with
  | some main, some weather =>
    store base (getString weather.bytes (text "main") FIELD_BYTES) (fun output =>
      store (base + 1) (getString weather.bytes (text "description") FIELD_BYTES) (fun output =>
        store (if forecast then 8 else 3)
          (getNumber floats main.bytes main.behind (text "temp") FIELD_BYTES) (fun output =>
            store (if forecast then 14 else 13)
              (getNumber floats main.bytes main.behind (text "feels_like") FIELD_BYTES) (fun output =>
                let output := output.put (base + 1) (capitalize (output (base + 1)))
                if forecast then
                  store 9 (getString item.bytes (text "dt_txt") FIELD_BYTES)
                    (fun output => (output, true)) output
                else
                  store 0 (getString item.bytes (text "name") FIELD_BYTES) (fun output =>
                    store 4 (getNumber floats main.bytes main.behind (text "humidity") FIELD_BYTES)
                      (fun output =>
                        match object item (text "wind") with
                        | none => (output, false)
                        | some wind =>
                          store 5
                            (getNumber floats wind.bytes wind.behind (text "speed") FIELD_BYTES)
                            (fun output => (output, true)) output) output) output)
              output) output) output) output
  | _, _ => (output, false)

/-- The error of a reply and the fields after it has been parsed. -/
def parseReply (floats : Floats) (reply : Reply) (forecast : Bool) (pending : Fields) :
    List UInt8 × Fields :=
  match reply.error with
  | some error => (error.1.take (FIELD_BYTES - 1), pending)
  | none =>
    if reply.httpStatus ≠ 200 then
      (text "OpenWeatherMap HTTP " ++ decimal (reply.httpStatus % 0x100000000), pending)
    else
      match reply.body with
      | none => (text "Invalid weather response", pending)
      | some body =>
        if body.length = 0 ∨ Z80_WEATHER_BODY_MAX < body.length ∨ body.contains 0 then
          (text "Invalid weather response", pending)
        else
          let first := skipWs body
          let trimmed := (first.reverse.dropWhile isSpace).reverse
          let root : Object := ⟨body, [0]⟩
          if trimmed.head? = some 123 ∧ trimmed.getLast? = some 125 ∧
              getInt body [0] (text "cod") = some 200 then
            let parsed :=
              if forecast then
                match firstArrayObject root (text "list") with
                | none => (pending, false)
                | some item => parseConditions floats item pending true
              else parseConditions floats root pending false
            (if parsed.2 then [] else text "Invalid weather JSON fields", parsed.1)
          else (text "Invalid weather JSON fields", pending)

/-- `z80_weather_result` -/
def result (floats : Floats) (reply : Reply) (now : BitVec 64) (w : State) : State :=
  if w.phase ≠ 1 ∧ w.phase ≠ 3 then w
  else
    let parsed := parseReply floats reply (w.phase = 3) w.pending
    let message := parsed.1
    let w := { w with pending := parsed.2 }
    if w.phase = 1 then
      if message ≠ [] then fail message now w else { w with phase := 2, fetchDue := now }
    else
      let pending :=
        if message ≠ [] then
          (((((w.pending.put 6 []).put 7 []).put 8 []).put 9 []).put 14 []).put 12
            (text "Forecast: " ++ message.take 80)
        else w.pending
      { w with
        pending := pending, fields := pending, haveData := true, lastFetch := now, status := .ready
        phase := 0, fetchDue := now + REFRESH_MS }

/-- What a call of `z80_weather_poll` sees of its surroundings. -/
structure Poll where
  online : Bool
  now : BitVec 64
  /-- The clock as it is read later in the call. -/
  later : BitVec 64
  settings : Settings
  /-- What `start_request` returns. -/
  started : Bool

/-- What a call asks of the network, in this order. -/
inductive Call
  | cancel
  | start (forecast : Bool) (path : List UInt8)
deriving DecidableEq

/-- The configuration is read when it is due. -/
def pollConfig (p : Poll) (w : State) : State × Bool :=
  if w.configDue ≤ p.now then
    loadConfig p.settings p.now { w with configDue := p.now + CONFIG_MS }
  else (w, false)

def pollOffline (w : State) : State × List Call :=
  if w.phase ≠ 0 then
    ({ w with
      phase := 0, status := if w.haveData then .ready else .none
      fields := w.fields.put 12 (text "Network or synchronized time unavailable")
      wasOnline := false }, [.cancel])
  else ({ w with wasOnline := false }, [])

def cannotStart : Reply :=
  ⟨0, none, some ⟨text "Cannot start weather HTTPS request", by decide⟩⟩

/-- Once the network is there. -/
def pollOnline (floats : Floats) (p : Poll) (changed : Bool) (w : State) : State × List Call :=
  let fetchDue := if !w.wasOnline || changed then p.now + SETTLE_MS else w.fetchDue
  let w := { w with fetchDue := fetchDue, wasOnline := true }
  if held w.config.error ≠ [] ∨ (w.phase ≠ 0 ∧ w.phase ≠ 2) ∨ p.now < w.fetchDue then (w, [])
  else
    let forecast : Bool := w.phase = 2
    match buildPath floats w.config forecast with
    | none => (fail (text "Invalid OWM_LOCATION; use a city or lat=...&lon=...") p.later w, [])
    | some path =>
      let w := { w with
        pending := if forecast then w.pending else Fields.blank.put 11 (w.fields 11)
        phase := if forecast then 3 else 1, status := .fetching }
      (if p.started then w else result floats cannotStart p.later w, [.start forecast path])

/-- `z80_weather_poll` -/
def poll (floats : Floats) (p : Poll) (w : State) : State × List Call :=
  if !w.enabled then (w, [])
  else
    let loaded := pollConfig p w
    let next := if p.online then pollOnline floats p loaded.2 loaded.1 else pollOffline loaded.1
    (next.1, (if loaded.2 then [.cancel] else []) ++ next.2)

/-- What the Z80 reads of a field: the age of the data has its own text. -/
def readField (w : State) (now : BitVec 64) (field : Nat) : Option (List UInt8) :=
  if !w.enabled ∨ FIELD_COUNT ≤ field then none
  else if field ≠ 11 ∧ field ≠ 12 ∧ !w.haveData then none
  else if field = 10 then some (text (toString ((now - w.lastFetch).toNat / 1000)))
  else some (w.fields field)

end Z80Sbc.Weather
