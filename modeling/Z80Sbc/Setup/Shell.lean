import Z80Sbc.Setup.Values

/-! # The network setup shell

The state machine of `network_setup.c`. Every function returns the state and the bytes it prints.
The store is what ENV holds under the keys of the fields. -/

namespace Z80Sbc.Setup
open Z80Sbc.Env (ascii toupper printNat printInt)
open Z80Sbc.Weather (Floats)

inductive SettingsState where
  | unknown | missing | ready | error
  deriving DecidableEq

inductive Step where
  | idle | loading | menu | editing | saving | reboot
  deriving DecidableEq

inductive Menu where
  | main | wifi | fs | chat | weather | time
  deriving DecidableEq

inductive Request where
  | load | save
  deriving DecidableEq

/-- `z80_network_config_t` -/
structure Config where
  ssid : List UInt8 := []
  password : List UInt8 := []
  fsServer : List UInt8 := []

/-- The variables that hold no text; the queues hold one item each. -/
structure Control where
  settingsState : SettingsState := .unknown
  savePending : Bool := false
  step : Step := .idle
  menu : Menu := .main
  editCount : Nat := 0
  editPosition : Nat := 0
  editFields : Nat → Field := fun _ => .ssid
  lineOverflow : Bool := false
  previousCr : Bool := false
  autoPrompted : Bool := false
  settingsLoaded : Bool := false
  changed : Bool := false
  rebootRequested : Bool := false
  requests : Option Request := none
  results : Option Int := none

/-- The texts, and the store. -/
structure Texts where
  values : Field → Text
  editing : Nat → Text
  line : Text
  config : Config
  env : Field → Option Text

structure Shell extends Control, Texts

abbrev Printed := List UInt8

/-- `z80_network_setup_init` over a store. -/
def networkSetupInit (env : Field → Option Text) : Shell :=
  { toControl := {}, toTexts := ⟨fun _ => .empty, fun _ => .empty, .empty, {}, env⟩ }

def clearEdit (s : Shell) : Shell :=
  { s with editing := fun _ => .empty, line := .empty, lineOverflow := false }

/-- `memset(values, 0, sizeof(values))` -/
def forgetValues (s : Shell) : Shell := { s with values := fun _ => .empty }

/-! ## Menus -/

def Menu.title : Menu → List UInt8
  | .main => ascii "System configuration"
  | .wifi => ascii "Wi-Fi"
  | .fs => ascii "Remote filesystem"
  | .chat => ascii "OpenAI / Ollama / compatible chat"
  | .weather => ascii "OpenWeatherMap"
  | .time => ascii "Timezone"

def Menu.body : Menu → List UInt8
  | .main => ascii (
      "  1 - Wi-Fi\n  2 - Remote filesystem\n" ++
      "  3 - OpenAI / Ollama / compatible chat\n" ++
      "  4 - OpenWeatherMap\n  5 - Timezone\n" ++
      "  S - show all settings (secrets masked)\n" ++
      "  Q - return to terminal\n")
  | .wifi => ascii (
      "  C - configure SSID and password\n" ++
      "  U - clear Wi-Fi credentials (disconnects Wi-Fi)\n")
  | .fs => ascii (
      "  C - configure server IPv4\n  U - clear server address\n" ++
      "  Remote FS I/O is not implemented.\n")
  | .chat => ascii (
      "  1 - configure OpenAI\n" ++
      "  2 - configure OpenAI-compatible endpoint\n" ++
      "  3 - configure Ollama (OpenAI-compatible /v1/chat/completions)\n" ++
      "  4 - configure model\n  5 - configure maximum tokens\n" ++
      "  6 - configure temperature\n" ++
      "  7 - configure thinking (false, true, default)\n" ++
      "  Thinking applies only to compatible/Ollama models that support it.\n" ++
      "  Only OpenAI uses CHAT_OPENAI_KEY; it is never sent to other " ++
      "providers.\n")
  | .weather => ascii "  C - configure API key, location and units\n"
  | .time => ascii (
      "  C - configure POSIX TZ\n" ++
      "  POSIX signs are reversed: AEST-10 means UTC+10.\n" ++
      "  Full daylight-saving rules are supported; clearing uses UTC.\n")

def printMenu (s : Shell) : Printed :=
  ascii "\n" ++ s.menu.title ++ ascii "\n" ++ s.menu.body ++
    (if s.menu ≠ .main then ascii "  S - show current settings\n  Q - return to main menu\n" else []) ++
    ascii "config> "

def inMenu (menu : Menu) (field : Field) : Bool :=
  menu = .main || (menu = .wifi && field.index ≤ Field.password.index) ||
    (menu = .fs && field = .server) ||
    (menu = .chat && Field.provider.index ≤ field.index && field.index ≤ Field.thinking.index) ||
    (menu = .weather && Field.weatherKey.index ≤ field.index && field.index ≤ Field.units.index) ||
    (menu = .time && field = .timezone)

/-- A value as it is shown, or what stands for it. -/
def shown (field : Field) (value : Text) (unset hidden : List UInt8) : Printed :=
  if value.bytes = [] then unset else if field.secret then hidden else value.bytes

def showSettings (s : Shell) : Printed :=
  ascii "\n" ++ Field.all.flatMap fun field =>
    if inMenu s.menu field then
      ascii "  " ++ field.key ++ ascii ": " ++
        shown field (s.values field) (ascii "(not set; service default)") (ascii "(set; hidden)") ++
        ascii "\n"
    else []

/-! ## Requests -/

def submit (request : Request) (state : Step) (s : Shell) : Bool × Shell × Printed :=
  if s.requests.isSome then
    (false, s, ascii "\n[config] FAIL: settings queue busy; retry Ctrl-] c.\n")
  else (true, { s with requests := some request, step := state, savePending := true }, [])

def networkSetupRequest (s : Shell) : Shell × Printed :=
  if s.step = .saving ∨ s.step = .loading ∨ s.step = .reboot then
    (s, ascii "\n[config] Operation in progress; please wait.\n")
  else
    let s := { clearEdit s with
      previousCr := false, autoPrompted := true, settingsLoaded := false, menu := .main }
    let (_, s, out) := submit .load .loading s
    (s, ascii "\n[config] Loading ENV. Secrets are hidden; ENV storage is plaintext.\n" ++ out)

/-- A result that was queued for the terminal. -/
def takeResult (connected running : Bool) (s : Shell) : Shell × Printed :=
  match s.results with
  | none => (s, [])
  | some result =>
    let saved := s.step = .saving
    let s := { clearEdit { s with results := none } with
      step := .menu, settingsLoaded := decide (result = 0) }
    let out :=
      if result ≠ 0 then
        ascii "\n[config] FAIL: ENV status=" ++ printInt result ++
          ascii (". Settings may be partially updated; " ++ "retry Ctrl-] c before editing.\n")
      else if saved then
        ascii "\n[config] Settings saved in ENV." ++
          (if s.changed then ascii " A reboot is required when you quit this shell."
            else ascii " No changes; no reboot required.") ++ ascii "\n"
      else []
    (s, out ++ if connected && running then printMenu s else [])

def networkSetupUsbService (connected running : Bool) (s : Shell) : Shell × Printed :=
  let (s, out) := takeResult connected running s
  if s.step = .reboot then (s, out)
  else if !connected || !running then
    let (s, out) :=
      if s.step ≠ .saving ∧ s.step ≠ .loading then
        (forgetValues (clearEdit { s with step := .idle }),
          out ++ if connected ∧ s.step ≠ .idle then
            ascii "\n[config] Cancelled: CP/M is stopping or stopped.\n" else [])
      else (s, out)
    (if connected then s else { s with autoPrompted := false }, out)
  else if !s.autoPrompted ∧ s.step = .idle ∧ s.settingsState ≠ .unknown then
    let s := { s with autoPrompted := true }
    if s.settingsState = .missing then
      let (s, more) := networkSetupRequest s
      (s, out ++ ascii ("\n[config] Wi-Fi is not configured. Select 1 to configure it; " ++
        "Q continues using USB only.\n") ++ more)
    else if s.settingsState = .error then
      (s, out ++ ascii "\n[config] FAIL: cannot read ENV. Use Ctrl-] c to retry.\n")
    else (s, out)
  else (s, out)

/-! ## Editing -/

/-- `edit_fields[edit_position]` -/
def Control.field (c : Control) : Field := c.editFields c.editPosition

def prompt (s : Shell) : Shell × Printed :=
  ({ s with line := .empty, lineOverflow := false },
    ascii "\n" ++ s.field.label ++ ascii " [" ++
      shown s.field (s.values s.field) (ascii "not set") (ascii "set; hidden") ++ ascii "]: ")

def beginEdit (first : Field) (count position : Nat) (s : Shell) : Shell × Printed :=
  let s := clearEdit s
  let s := { s with
    editCount := count, editPosition := position
    editFields := fun i => if i < count then first.after i else s.editFields i
    editing := fun i => if i < count then s.values (first.after i) else s.editing i
    step := .editing }
  let (s, out) := prompt s
  (s, ascii ("\nEnter keeps the current value; '-' clears it " ++
    "(empty Wi-Fi password selects open network). ESC cancels unsaved " ++ "edits.\n") ++ out)

def saveEdits (s : Shell) : Shell × Printed :=
  match submit .save .saving s with
  | (true, s, out) => (s, out ++ ascii "\n[config] Saving to ENV...\n")
  | (false, s, out) =>
    let s := { clearEdit s with step := .menu }
    (s, out ++ printMenu s)

/-- `strcpy(editing[i], text)` -/
def setEditing (i : Nat) (text : Text) (s : Shell) : Shell :=
  { s with editing := Function.update s.editing i text }

def openai : Text := ⟨ascii "openai", by decide, by decide⟩
def compatible : Text := ⟨ascii "compatible", by decide, by decide⟩
def ollama : Text := ⟨ascii "ollama", by decide, by decide⟩

/-- Leaving the main menu. -/
def quit (s : Shell) : Shell × Printed :=
  if s.changed then
    (forgetValues (clearEdit { s with step := .reboot, rebootRequested := true }),
      ascii ("\n[config] Configuration changed; reboot required. " ++
        "Flushing disks and stopping CP/M before reboot...\n"))
  else
    (forgetValues (clearEdit { s with step := .idle }), ascii "\n[config] Returning to terminal.\n")

/-- The command U: everything in the menu is cleared. -/
def clearSettings (s : Shell) : Shell × Printed :=
  let (s, out) := if s.menu = .wifi then beginEdit .ssid 2 0 s else beginEdit .server 1 0 s
  let (s, more) := saveEdits { s with editing := fun _ => .empty }
  (s, out ++ more)

/-- The commands 1 to 3 of the chat menu. -/
def configureProvider (command : UInt8) (s : Shell) : Shell × Printed :=
  if command = '1'.toUInt8 then
    let (s, out) := beginEdit .provider 3 2 s
    (setEditing 1 .empty (setEditing 0 openai s), out)
  else
    let (s, out) := beginEdit .provider 2 1 s
    (setEditing 0 (if command = '2'.toUInt8 then compatible else ollama) s, out)

def Menu.ofCommand (command : UInt8) : Menu :=
  if command = '1'.toUInt8 then .wifi
  else if command = '2'.toUInt8 then .fs
  else if command = '3'.toUInt8 then .chat
  else if command = '4'.toUInt8 then .weather
  else .time

def menuCommand (command : UInt8) (s : Shell) : Shell × Printed :=
  let command := toupper command
  if command = 'Q'.toUInt8 then
    if s.menu = .main then quit s
    else
      let s := { s with menu := .main }
      (s, printMenu s)
  else if !s.settingsLoaded then
    (s, ascii "\n[config] Cannot read ENV. Use Ctrl-] c to retry, or Q to quit.\n" ++ printMenu s)
  else if command = 'S'.toUInt8 then (s, showSettings s ++ printMenu s)
  else if s.menu = .main ∧ '1'.toUInt8 ≤ command ∧ command ≤ '5'.toUInt8 then
    let s := { s with menu := .ofCommand command }
    (s, printMenu s)
  else if s.menu = .wifi ∧ command = 'C'.toUInt8 then beginEdit .ssid 2 0 s
  else if (s.menu = .wifi ∨ s.menu = .fs) ∧ command = 'U'.toUInt8 then clearSettings s
  else if s.menu = .fs ∧ command = 'C'.toUInt8 then beginEdit .server 1 0 s
  else if s.menu = .chat ∧ '1'.toUInt8 ≤ command ∧ command ≤ '3'.toUInt8 then
    configureProvider command s
  else if s.menu = .chat ∧ '4'.toUInt8 ≤ command ∧ command ≤ '7'.toUInt8 then
    beginEdit (Field.model.after (command.toNat - 52)) 1 0 s
  else if s.menu = .weather ∧ (command = 'C'.toUInt8 ∨ command = '1'.toUInt8) then
    beginEdit .weatherKey 3 0 s
  else if s.menu = .time ∧ command = 'C'.toUInt8 then beginEdit .timezone 1 0 s
  else if command ≠ '\r'.toUInt8 ∧ command ≠ '\n'.toUInt8 then
    (s, ascii "\n[config] Unknown command.\n" ++ printMenu s)
  else (s, printMenu s)

/-- The text that a line stands for: what is there already, nothing, or the line. -/
def candidate (s : Shell) : Text :=
  if s.line.bytes = [] then s.editing s.editPosition
  else if s.line.bytes = ascii "-" then .empty
  else s.line

/-- What follows a value that was accepted. -/
def nextField (s : Shell) : Shell × Printed :=
  let s := { s with editPosition := s.editPosition + 1 }
  if s.editPosition = s.editCount then
    if s.editFields 0 = .provider ∧ (s.editing 0).bytes ≠ ascii "openai" ∧
        (s.editing 1).bytes = [] then
      let (s, out) := prompt { s with editPosition := 1 }
      (s, ascii "\n[config] A compatible/Ollama endpoint URL is required.\n" ++ out)
    else saveEdits s
  else prompt s

/-- The end of a line. -/
def submitLine (floats : Floats) (s : Shell) : Shell × Printed :=
  if s.lineOverflow ∨ !validValue floats s.field (candidate s).bytes then
    let (s', out) := prompt s
    (s', ascii "\n[config] Invalid value or length (maximum " ++ printNat s.field.limit ++
      ascii " bytes); retry.\n" ++ out)
  else nextField (if s.line.bytes ≠ [] then setEditing s.editPosition (candidate s) s else s)

def Text.dropLast (t : Text) : Text :=
  ⟨t.bytes.dropLast, fun h => t.nul ((List.dropLast_sublist _).subset h), by
    have := t.fits
    rw [List.length_dropLast]
    omega⟩

def backspace (s : Shell) : Shell × Printed :=
  if s.line.bytes ≠ [] then
    ({ s with line := s.line.dropLast }, if s.field.secret then [] else [8, 32, 8])
  else (s, [])

/-- A byte that is part of a text. -/
def printable (value : UInt8) : Prop := 32 ≤ value.toNat ∧ value.toNat ≠ 127

instance (value : UInt8) : Decidable (printable value) := inferInstanceAs (Decidable (_ ∧ _))

theorem printable_nul {value : UInt8} (h : printable value) : value ≠ 0 := by
  rintro rfl
  exact absurd h.1 (by decide)

def Text.push (t : Text) (value : UInt8) (h : printable value) (hroom : t.bytes.length < 255) :
    Text :=
  ⟨t.bytes ++ [value], fun hmem => by
    rcases List.mem_append.mp hmem with hmem | hmem
    · exact t.nul hmem
    · exact printable_nul h (List.mem_singleton.mp hmem).symm, by
    rw [List.length_append, List.length_singleton]
    omega⟩

def typeByte (value : UInt8) (h : printable value) (s : Shell) : Shell × Printed :=
  if hroom : s.line.bytes.length < 255 then
    ({ s with line := s.line.push value h hroom }, if s.field.secret then [] else [value])
  else ({ s with lineOverflow := true }, [])

def networkSetupInput (floats : Floats) (value : UInt8) (s : Shell) : Shell × Printed :=
  if s.step = .idle ∨ s.step = .saving ∨ s.step = .loading ∨ s.step = .reboot then (s, [])
  else if value = '\n'.toUInt8 ∧ s.previousCr = true then ({ s with previousCr := false }, [])
  else
    let s := { s with previousCr := decide (value = '\r'.toUInt8) }
    if value = 0x1B then
      let s := { clearEdit s with step := .menu }
      (s, ascii "\n[config] Unsaved edits cancelled.\n" ++ printMenu s)
    else if s.step = .menu then
      if value ≠ ' '.toUInt8 ∧ value ≠ '\t'.toUInt8 then menuCommand value s else (s, [])
    else if value = '\r'.toUInt8 ∨ value = '\n'.toUInt8 then submitLine floats s
    else if value = 8 ∨ value = 127 then backspace s
    else if h : printable value then typeByte value h s
    else (s, [])

/-! ## Core 1 -/

/-- The statuses of one service call in their order: of each reload, and of the save of each edit,
with whether a save that reports an error has reached the store. -/
structure Outcome where
  reload : Nat → Int
  save : Nat → Int × Bool

def stored (o : Option Text) : Text := o.getD .empty

def reloadConfig (status : Int) (s : Shell) : Shell :=
  if status = 0 then
    let ssid := (stored (s.env .ssid)).bytes
    let password := (stored (s.env .password)).bytes
    let server := (stored (s.env .server)).bytes
    let validSsid := (s.env .ssid).isSome ∧ ssid ≠ [] ∧ ssid.length < 33
    let valid := validSsid ∧ validPassword password ∧ password.length < 65
    { s with
      config :=
        { ssid := if validSsid then ssid else []
          password := if valid then password else []
          fsServer := if (s.env .server).isSome ∧ validServer server then server else [] }
      settingsState := if valid then .ready else .missing }
  else { s with config := {}, settingsState := .error }

/-- An edit that changes nothing. -/
def unchanged (value : Text) (current : Option Text) : Bool :=
  match current with
  | some current => current.bytes = value.bytes
  | none => value.bytes = []

/-- `save_value` or `delete_value` of an edit. -/
def saveField (outcome : Int × Bool) (field : Field) (value : Text) (s : Shell) : Int × Shell :=
  if value.bytes ≠ [] ∨ field = .password then
    (outcome.1, if outcome.1 = 0 ∨ outcome.2 then
      { s with env := Function.update s.env field (some value) } else s)
  else if (s.env field).isNone then (0, s)
  else
    (outcome.1, if outcome.1 = 0 ∨ outcome.2 then
      { s with env := Function.update s.env field none } else s)

/-- The loop over the edits. -/
def saveFrom (outcome : Outcome) : List Nat → Shell → Int × Shell
  | [], s => (0, s)
  | i :: rest, s =>
    if unchanged (s.editing i) (s.env (s.editFields i)) then saveFrom outcome rest s
    else
      let (status, s) := saveField (outcome.save i) (s.editFields i) (s.editing i) s
      if status = 0 then saveFrom outcome rest { s with changed := true } else (status, s)

/-- A request that was taken from the queue, up to the status that is reported. -/
def serveRequest (outcome : Outcome) (request : Request) (s : Shell) : Int × Shell :=
  let status := outcome.reload 1
  let s := reloadConfig status s
  if request = .save ∧ status = 0 then
    let (status, s) := saveFrom outcome (List.range s.editCount) s
    (if status = 0 then outcome.reload 2 else status, reloadConfig (outcome.reload 2) s)
  else (status, s)

/-- The settings as they are now, and the result for the terminal. -/
def reportStatus (status : Int) (s : Shell) : Shell × Printed :=
  let s := clearEdit { s with
    values := fun field => if status = 0 then stored (s.env field) else .empty }
  let s' := { s with savePending := false }
  if s.results.isSome then
    (s', ascii "[config] FAIL: result queue full; ENV status=" ++ printInt status ++ ascii "\n")
  else ({ s' with results := some status }, [])

def firstLoad (outcome : Outcome) (s : Shell) : Shell × Printed :=
  if s.settingsState = .unknown then
    (reloadConfig (outcome.reload 0) s,
      if outcome.reload 0 ≠ 0 then
        ascii "[config] FAIL: ENV read status=" ++ printInt (outcome.reload 0) ++ ascii "\n" else [])
  else (s, [])

def networkSetupCore1Service (outcome : Outcome) (s : Shell) : Shell × Printed :=
  let (s, out) := firstLoad outcome s
  match s.requests with
  | none => (s, out)
  | some request =>
    let (status, s) := serveRequest outcome request { s with requests := none }
    let (s, more) := reportStatus status s
    (s, out ++ more)

/-! ## Runs -/

inductive Event where
  | request
  | usb (connected running : Bool)
  | input (value : UInt8)
  | core1 (outcome : Outcome)
  | rebootQueued

def Event.step (floats : Floats) : Event → Shell → Shell × Printed
  | .request, s => networkSetupRequest s
  | .usb connected running, s => networkSetupUsbService connected running s
  | .input value, s => networkSetupInput floats value s
  | .core1 outcome, s => networkSetupCore1Service outcome s
  | .rebootQueued, s => ({ s with rebootRequested := false }, [])

/-- All that is printed. -/
def run (floats : Floats) : List Event → Shell → Printed
  | [], _ => []
  | e :: rest, s => (e.step floats s).2 ++ run floats rest (e.step floats s).1

end Z80Sbc.Setup
