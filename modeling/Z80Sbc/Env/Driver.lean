import Z80Sbc.Env.CommandLine

/-! # The environment driver

`environment_io.c` in its flash build: the state of the driver, its commands, and
its entry points. What a command needs from outside is an `Io`. -/

namespace Z80Sbc.Env
open Z80Sbc.Storage

def envRequestSize : Nat := 512

def environmentPortCommand : Nat := 71
def environmentPortData : Nat := 72

/-- The bus for the snapshot writes, the capacity of the caller's buffer (0 for none),
the clock at each reading, and the bytes that stand behind `s_request` in memory. -/
structure Io where
  bus : Nat → BusOutcome
  capacity : Nat
  millis : Nat → Nat
  beyond : List UInt8

structure Driver where
  entries : List Entry
  request : List UInt8
  status : Int
  initialized : Bool

/-- The static initialisers, and what `environment_io_close` leaves. -/
def Driver.closed : Driver :=
  { entries := [], request := [], status := envStatusOk, initialized := false }

/-! ## The table and the flash -/

def loadFile (f : Flash) : Int × List Entry :=
  match snapshotLoad z80EnvSnapshotBytes f with
  | (status, snapshot) => if status ≠ envStatusOk then (status, []) else decode [] snapshot

def saveFile (bus : Nat → BusOutcome) (entries : List Entry) : Prog Int :=
  match encode [] entries with
  | none => return envStatusFull
  | some snapshot => snapshotSave bus snapshot

/-- The status, and the table afterwards: reloaded when the save failed. -/
def commit (bus : Nat → BusOutcome) (entries : List Entry) : Prog (Int × List Entry) := do
  let status ← saveFile bus entries
  if status ≠ envStatusOk then
    let f ← Prog.contents
    let (loaded, entries) := loadFile f
    return (if loaded ≠ envStatusOk then envStatusRead else status, entries)
  else return (status, entries)

def setValue (bus : Nat → BusOutcome) (entries : List Entry) (key value : List UInt8) :
    Prog (Int × List Entry) :=
  if !keyValid key then return (envStatusWrite, entries)
  else
    let value := copyText envValueSize value
    match findIndex entries key with
    | some i => commit bus (entries.modify i fun e => { e with value })
    | none =>
      if envMaxEntries ≤ entries.length then return (envStatusFull, entries)
      else commit bus (entries ++ [⟨key, value⟩])

def deleteValue (bus : Nat → BusOutcome) (entries : List Entry) (key : List UInt8) :
    Prog (Int × List Entry) :=
  if !keyValid key then return (envStatusNotFound, entries)
  else
    match findIndex entries key with
    | none => return (envStatusNotFound, entries)
    | some i => commit bus (entries.eraseIdx i)

def clearValues (bus : Nat → BusOutcome) : Prog (Int × List Entry) := commit bus []

def listValues (capacity : Nat) (entries : List Entry) : Response :=
  entries.foldl (fun r e =>
    let r := appendText capacity r e.key
    let r := appendText capacity r (ascii "=")
    let r := appendText capacity r e.value
    appendText capacity r (ascii "\r\n")) {}

/-! ## Commands -/

/-- The end of every path of `env_execute_cli`. -/
def Driver.answer (d : Driver) (status : Int) (entries : List Entry) (r : Response) :
    Driver × Response :=
  ({ d with entries, status, request := [] }, r)

/-- Store a value and report it. -/
def setAndReport (io : Io) (d : Driver) (key value : List UInt8) : Prog (Driver × Response) := do
  let (status, entries) ← setValue io.bus d.entries key value
  return d.answer status entries (formatResponse io.capacity {}
    (if status = envStatusOk then key ++ ascii "=" ++ value ++ ascii "\r\n"
      else ascii "Error setting " ++ key ++ ascii "\r\n"))

def deleteAndReport (io : Io) (d : Driver) (key : List UInt8) : Prog (Driver × Response) := do
  let (status, entries) ← deleteValue io.bus d.entries key
  return d.answer status entries (formatResponse io.capacity {}
    (if status = envStatusOk then key ++ ascii " deleted\r\n"
      else if status = envStatusNotFound then key ++ ascii " not found\r\n"
      else ascii "Error deleting " ++ key ++ ascii "\r\n"))

/-- `ENV NAME+N` and its other spellings. -/
def executeDelta (io : Io) (d : Driver) (key delta : List UInt8) : Prog (Driver × Response) :=
  let overflow := d.answer envStatusRead d.entries (writeText io.capacity {} overflowText)
  match strtoll delta with
  | (_, true, _) => return overflow
  | (delta, false, _) =>
    let update (current : Int) : Prog (Driver × Response) :=
      match calculate current delta false with
      | none => return overflow
      | some updated => setAndReport io d key (printInt updated)
    match getValue d.entries key envValueSize with
    | none => update 0
    | some value =>
      if !isNumber value then
        return d.answer envStatusRead d.entries (formatResponse io.capacity {}
          (ascii "Error: " ++ key ++ ascii " is not numeric\r\n"))
      else
        match strtoll value with
        | (_, true, _) => return overflow
        | (current, false, _) => update current

/-- `s_arg1[0] == '-' && toupper(s_arg1[1]) == option`. -/
def isOption (option : Char) (arg : List UInt8) : Bool :=
  arg.headD 0 = '-'.toUInt8 && toupper (arg.getD 1 0) = option.toUInt8

def executeCli (io : Io) (d : Driver) : Prog (Driver × Response) :=
  let (arg1, rest) := nextToken envValueSize (cstr d.request)
  if arg1 = [] then
    let r := listValues io.capacity d.entries
    return d.answer envStatusOk d.entries
      (if r.text = [] then writeText io.capacity r (ascii "(no variables set)\r\n") else r)
  else if isHelp arg1 then
    return d.answer envStatusOk d.entries (writeText io.capacity {} helpText)
  else if isOption 'N' arg1 then
    return d.answer envStatusOk d.entries (formatResponse io.capacity {}
      (printNat d.entries.length ++ ascii " variable(s) set\r\n"))
  else if isOption 'D' arg1 then
    let (arg2, _) := nextToken envValueSize rest
    if arg2 = [] then
      return d.answer envStatusRead d.entries
        (writeText io.capacity {} (ascii "Usage: ENV -D NAME\r\n"))
    else deleteAndReport io d (normalizeKey arg2)
  else if isOption 'I' arg1 then
    let (arg2, rest) := nextToken envValueSize rest
    match parseAssignment arg2 rest with
    | (none, _) =>
      return d.answer envStatusRead d.entries
        (writeText io.capacity {} (ascii "Usage: ENV -I NAME=VAL\r\n"))
    | (some (key, value), _) =>
      match getValue d.entries key envValueSize with
      | some _ =>
        return d.answer envStatusOk d.entries
          (formatResponse io.capacity {} (key ++ ascii " already defined\r\n"))
      | none => setAndReport io d key value
  else
    match parseAssignment arg1 rest with
    | (some (key, value), _) =>
      match evalValue d.entries io.millis value with
      | .error message =>
        return d.answer envStatusRead d.entries
          (writeText io.capacity { overflow := message.overflow } message.text)
      | .value evaled => setAndReport io d key (copyText envValueSize evaled)
      | .unchanged => setAndReport io d key value
    | (none, name) =>
      match parseDelta name rest with
      | some (key, delta) => executeDelta io d key delta
      | none =>
        let name := cstr name
        if isNow name then
          return d.answer envStatusOk d.entries (formatResponse io.capacity {}
            (ascii "NOW=" ++ envNow (io.millis 0) ++ ascii "\r\n"))
        else
          let key := normalizeKey name
          match getValue d.entries key envValueSize with
          | some value =>
            return d.answer envStatusOk d.entries (formatResponse io.capacity {}
              (key ++ ascii "=" ++ value ++ ascii "\r\n"))
          | none =>
            return d.answer envStatusNotFound d.entries
              (formatResponse io.capacity {} (key ++ ascii " not found\r\n"))

/-- What `second` of command SET points to: the text behind the key, in the rest of the
zero-filled request buffer, or behind the buffer when the key fills it. -/
def secondText (io : Io) (request : List UInt8) : List UInt8 :=
  let used := (cstr request).length + 1
  if used < envRequestSize then cstr (request.drop used) else cstr io.beyond

/-- The switch of `env_execute_command`: the return code and the response. -/
def commandSwitch (io : Io) (d : Driver) (command : Nat) : Prog (Driver × Int × Response) := do
  let key := normalizeKey d.request
  match command with
  | 1 =>
    let f ← Prog.contents
    let (rc, entries) := loadFile f
    return ({ d with entries }, rc, {})
  | 2 =>
    match getValue d.entries key envValueSize with
    | some value => return (d, envStatusOk, writeText io.capacity {} value)
    | none => return (d, envStatusNotFound, {})
  | 3 =>
    let (rc, entries) ← setValue io.bus d.entries key (secondText io d.request)
    return ({ d with entries }, rc, {})
  | 4 =>
    let (rc, entries) ← deleteValue io.bus d.entries key
    return ({ d with entries }, rc, {})
  | 5 => return (d, envStatusOk, listValues io.capacity d.entries)
  | 6 => return (d, envStatusOk, formatResponse io.capacity {} (printNat d.entries.length))
  | 7 =>
    let (rc, entries) ← clearValues io.bus
    return ({ d with entries }, rc, {})
  | 8 =>
    match getValue d.entries key envValueSize with
    | some _ => return (d, envStatusOk, {})
    | none => return (d, envStatusNotFound, {})
  | 9 =>
    let (d, r) ← executeCli io d
    return (d, d.status, r)
  | _ => return (d, envStatusRead, {})

def executeCommand (io : Io) (d : Driver) (command : Nat) : Prog (Driver × Response) := do
  let (d, rc, r) ← commandSwitch io d command
  let status := if r.overflow then envStatusFull else rc
  return ({ d with status, request := if command = 9 then d.request else [] }, r)

def appendByte (d : Driver) (data : UInt8) : Driver :=
  if d.request.length < envRequestSize - 1 then { d with request := d.request ++ [data] }
  else { d with status := envStatusFull }

/-! ## Entry points -/

/-- `environment_io_init`, which every entry point below calls first. -/
def environmentIoInit (d : Driver) : Prog Driver :=
  if d.initialized then return d
  else do
    let f ← Prog.contents
    let (status, entries) := loadFile f
    return { entries, request := [], status, initialized := true }

def environmentOutput (io : Io) (port : Nat) (data : UInt8) (d : Driver) :
    Prog (Driver × Response) := do
  let d ← environmentIoInit d
  if port = environmentPortData then return (appendByte d data, {})
  else if port = environmentPortCommand then
    if data = 0 then return ({ d with request := [], status := envStatusOk }, {})
    else executeCommand io d data.toNat
  else return (d, {})

/-- `environment_io_get` with a buffer of `size` bytes. -/
def environmentIoGet (key : List UInt8) (size : Nat) (d : Driver) :
    Prog (Driver × Option (List UInt8)) := do
  let d ← environmentIoInit d
  return (d, getValue d.entries (normalizeKey key) size)

end Z80Sbc.Env
