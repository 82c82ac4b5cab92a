import Z80Sbc.Oled.Picture

/-! # The status display

`oled_display.cpp` with its bus and its panel. The clock, the network and the bus are in the
input of a call. A scan of `next_page` that leaves its page has no result. -/

namespace Z80Sbc.Oled

inductive State
  | uninitialized | scanning | initializing | ready | page | enable | failed
deriving DecidableEq, Repr

inductive Failure
  | none | noDevice | nack | bus
deriving DecidableEq, Repr

/-- What `display_i2c::poll` returns. -/
inductive Result
  | pending | complete | nack | failed
deriving DecidableEq, Repr

def ALL_PAGES : Byte := ((1 : Byte) <<< PAGES) - 1
def CONTRAST : Byte := 0x40
def UINT64_MAX : Nat := 0xffffffffffffffff

structure Display where
  state : State
  failure : Failure
  address : Byte
  transferActive : Bool
  enabled : Bool
  framebuffer : Picture
  confirmed : Picture
  validPages : Byte
  dirtyPages : Byte
  page : Nat
  firstColumn : Nat
  columnCount : Nat
  nextTickUs : BitVec 64
  uptimeMinute : Nat
  cachedIp : List Char
  ipValid : Bool
  seenAddressGeneration : BitVec 32
  heartbeat : Bool
  webDot : Bool
  publishedStatus : BitVec 32
  lastPublishedStatus : BitVec 32
  addressError : Bool

def Display.initial : Display :=
  { state := .uninitialized, failure := .none, address := 0x3c, transferActive := false
    enabled := false, framebuffer := fun _ => 0, confirmed := fun _ => 0, validPages := 0
    dirtyPages := 0, page := 0, firstColumn := 0, columnCount := 0, nextTickUs := 0
    uptimeMinute := UINT64_MAX, cachedIp := [], ipValid := false, seenAddressGeneration := 0
    heartbeat := false, webDot := false, publishedStatus := 0
    lastPublishedStatus := 0xffffffff, addressError := false }

/-- What one call of `publish` sees of its surroundings. -/
structure Input where
  updatesAllowed : Bool
  /-- The clock as the fast path reads it. -/
  idleTime : BitVec 64
  time : BitVec 64
  result : Result
  generation : BitVec 32
  networkAddress : Address
  browserConnected : Bool
  /-- What `display_i2c::begin` returns. -/
  accepted : Bool
  busFailure : BitVec 32

/-! ## Rendering -/

/-- The first page is compared first; both bytes of a position have the same index. -/
def pageDiffers (d : Display) (page : Nat) : Bool :=
  (List.range WIDTH).any fun c =>
    d.framebuffer (page * WIDTH + c) != d.confirmed (page * WIDTH + c)

def renderAddress (i : Input) (d : Display) (changedPages : Byte) : Display × Byte :=
  if !d.ipValid || i.generation ≠ d.seenAddressGeneration then
    let ip := (getNetworkAddress i.networkAddress).1
    let ipLength := (getNetworkAddress i.networkAddress).2
    let addressError : Bool := ipLength = 0 && ip ≠ []
    let ipText :=
      if addressError then "ERROR".toList else if ipLength ≠ 0 then ip else "OFFLINE".toList
    let d := { d with seenAddressGeneration := i.generation, addressError := addressError }
    if !d.ipValid || d.cachedIp ≠ ipText then
      let line := ("IP: ".toList ++ ipText).take 23
      ({ d with
        framebuffer := text (clearField d.framebuffer IP_Y 0) IP_Y line 0
        cachedIp := ipText.take 15, ipValid := true }, changedPages ||| 0x03)
    else (d, changedPages)
  else (d, changedPages)

def renderUptime (seconds : Nat) (d : Display) (changedPages : Byte) : Display × Byte :=
  if seconds / 60 ≠ d.uptimeMinute then
    let framebuffer :=
      if d.uptimeMinute = UINT64_MAX then drawPort d.framebuffer else d.framebuffer
    ({ d with
      framebuffer :=
        text (clearField framebuffer UPTIME_Y UPTIME_X) UPTIME_Y (uptimeText seconds) UPTIME_X
      uptimeMinute := seconds / 60 }, changedPages ||| 0x0c)
  else (d, changedPages)

def renderDots (i : Input) (seconds : Nat) (d : Display) (changedPages : Byte) : Display × Byte :=
  let dot : Bool := seconds % 2 = 1
  let web := dot && i.browserConnected
  let changed := dot != d.heartbeat || web != d.webDot
  let d := if changed then { d with heartbeat := dot, webDot := web } else d
  ({ d with
    framebuffer := setDot (setDot d.framebuffer HEARTBEAT_COLUMN d.heartbeat) WEB_DOT_COLUMN
      d.webDot },
    if changed then changedPages ||| 0x08 else changedPages)

def setDirty (d : Display) (changedPages : Byte) : Display :=
  { d with
    dirtyPages := (List.range PAGES).foldl (fun dirty p =>
      if changedPages.getLsbD p && (!d.validPages.getLsbD p || pageDiffers d p) then
        dirty ||| ((1 : Byte) <<< p)
      else dirty) 0 }

def render (i : Input) (d : Display) : Display :=
  let seconds := i.time.toNat / 1000000
  let changedPages := if d.validPages = ALL_PAGES then 0 else ALL_PAGES
  let address := renderAddress i d changedPages
  let uptime := renderUptime seconds address.1 address.2
  let dots := renderDots i seconds uptime.1 uptime.2
  setDirty dots.1 dots.2

/-! ## The next page -/

/-- The first of `fuel` places from `column` on. -/
def scanUp (stops : Nat → Bool) : Nat → Nat → Option Nat
  | 0, _ => none
  | fuel + 1, column => if stops column then some column else scanUp stops fuel (column + 1)

/-- The last place before `column`. -/
def scanDown (stops : Nat → Bool) : Nat → Option Nat
  | 0 => none
  | column + 1 => if stops column then some column else scanDown stops column

/-- The first and the last column to send. -/
def columns (d : Display) (page : Nat) : Option (Nat × Nat) :=
  let differs := fun c => d.framebuffer (page * WIDTH + c) != d.confirmed (page * WIDTH + c)
  if d.validPages.getLsbD page then
    (scanUp differs WIDTH 0).bind fun first => (scanDown differs WIDTH).map fun last => (first, last)
  else some (0, WIDTH - 1)

def nextPage (d : Display) : Option Display :=
  if d.dirtyPages = 0 then some { d with state := if d.enabled then .ready else .enable }
  else
    (scanUp d.dirtyPages.getLsbD 8 0).bind fun page =>
      (columns d page).map fun window =>
        { d with
          page := page, firstColumn := window.1, columnCount := window.2 - window.1 + 1
          state := .page }

/-! ## Transfers -/

def setup : List Byte :=
  [0x00, 0xae, 0xd5, 0x80, 0xa8, 0x1f, 0xd3, 0x00, 0x40, 0x8d, 0x14, 0x20, 0x02, 0xa1, 0xc8, 0xda,
    0x02, 0x81, CONTRAST, 0xd9, 0xf1, 0xdb, 0x20, 0xa4, 0xa6]

def enableCommand : List Byte := [0x00, 0xaf]

/-- The pixels of a page after the commands that set the page and the column. -/
def pageData (d : Display) : List Byte :=
  0x80 :: (0xb0 ||| BitVec.ofNat 8 d.page) :: 0x80 :: (BitVec.ofNat 8 d.firstColumn &&& 0xf) ::
    0x80 :: (0x10 ||| (BitVec.ofNat 8 d.firstColumn >>> 4)) :: 0x40 ::
    (List.range d.columnCount).map fun c => d.framebuffer (d.page * WIDTH + d.firstColumn + c)

/-- What the state has to send. -/
def transfer (d : Display) : Option (List Byte) :=
  match d.state with
  | .scanning => some []
  | .initializing => some setup
  | .page => some (pageData d)
  | .enable => some enableCommand
  | _ => none

/-- The end of `service`: the transfer that is begun, if any. -/
def start (i : Input) (d : Display) : Display × Option (List Byte) :=
  let d := { d with transferActive := (transfer d).isSome && i.accepted }
  if !d.transferActive && d.state ≠ .ready then
    ({ d with failure := .bus, state := .failed }, none)
  else (d, if d.transferActive then transfer d else none)

/-- The result of a transfer. -/
def settle (result : Result) (d : Display) : Option Display :=
  let d := { d with transferActive := false }
  if result = .failed then some { d with failure := .bus, state := .failed }
  else if d.state = .scanning then
    if result = .complete then some { d with state := .initializing }
    else if d.address = 0x3c then some { d with address := 0x3d }
    else some { d with failure := .noDevice, state := .failed }
  else if result = .nack then some { d with failure := .nack, state := .failed }
  else if d.state = .initializing then some { d with state := .ready }
  else if d.state = .page then
    let first := d.page * WIDTH + d.firstColumn
    nextPage { d with
      confirmed := copyBytes d.confirmed first d.framebuffer first d.columnCount
      validPages := d.validPages ||| ((1 : Byte) <<< d.page)
      dirtyPages := d.dirtyPages &&& ~~~((1 : Byte) <<< d.page) }
  else some { d with enabled := true, state := .ready }

/-- What follows when no transfer is under way. -/
def proceed (i : Input) (d : Display) : Option (Display × Option (List Byte)) :=
  if !i.updatesAllowed then some (d, none)
  else
    let d := if d.state = .uninitialized then { d with state := .scanning } else d
    if d.state = .ready then
      if i.time < d.nextTickUs then some (d, none)
      else
        (nextPage { render i d with
          nextTickUs := BitVec.ofNat 64 ((i.time.toNat / 1000000 + 1) * 1000000) }).map (start i)
    else some (start i d)

def service (i : Input) (d : Display) : Option (Display × Option (List Byte)) :=
  if d.transferActive then
    if i.result = .pending then some (d, none)
    else
      (settle i.result d).bind fun d => if d.state = .failed then some (d, none) else proceed i d
  else proceed i d

def State.code : State → BitVec 32
  | .uninitialized => 0 | .scanning => 1 | .initializing => 2 | .ready => 3
  | .page => 4 | .enable => 5 | .failed => 6

def Failure.code : Failure → BitVec 32
  | .none => 0 | .noDevice => 1 | .nack => 2 | .bus => 3

def statusWord (i : Input) (d : Display) : BitVec 32 :=
  d.state.code ||| (d.address.setWidth 32 <<< 8) ||| (d.failure.code <<< 16) |||
    (i.busFailure <<< 24) ||| ((if d.addressError then 1 else 0 : BitVec 32) <<< 28)

def publishStatus (i : Input) (d : Display) : Display :=
  let snapshot := statusWord i d
  if snapshot ≠ d.lastPublishedStatus then
    { d with lastPublishedStatus := snapshot, publishedStatus := snapshot }
  else d

/-- Nothing in flight and no tick due. -/
def idle (i : Input) (d : Display) : Bool :=
  d.state = .failed ||
    d.state = .ready && !d.transferActive && (!i.updatesAllowed || decide (i.idleTime < d.nextTickUs))

def publish (i : Input) (d : Display) : Option (Display × Option (List Byte)) :=
  if idle i d then some (d, none)
  else (service i d).map fun result => (publishStatus i result.1, result.2)

/-! ## The panel -/

/-- A byte that was never written is `none`. -/
abbrev Panel := Nat → Option Byte

/-- The panel is given an acknowledged transfer. -/
def receive (data : List Byte) (panel : Panel) : Panel :=
  match data with
  | c₀ :: page :: c₁ :: low :: c₂ :: high :: c₃ :: pixels =>
    if c₀ = 0x80 ∧ c₁ = 0x80 ∧ c₂ = 0x80 ∧ c₃ = 0x40 then
      let first := (page &&& 7).toNat * WIDTH + ((high &&& 0xf).toNat * 16 + (low &&& 0xf).toNat)
      fun k => if first ≤ k ∧ k < first + pixels.length then pixels[k - first]? else panel k
    else panel
  | _ => panel

structure System where
  display : Display
  panel : Panel
  /-- The bytes that the bus has copied. -/
  inFlight : List Byte
  /-- What the last call has begun to send. -/
  sent : Option (List Byte)

def System.initial : System :=
  { display := .initial, panel := fun _ => none, inFlight := [], sent := none }

/-- The call takes the result of a transfer. -/
def settles (i : Input) (d : Display) : Bool :=
  !idle i d && d.transferActive && decide (i.result ≠ .pending)

/-- One call of `publish`. -/
def step (i : Input) (s : System) : Option System :=
  (publish i s.display).map fun result =>
    { display := result.1
      panel :=
        if settles i s.display && decide (i.result = .complete) then receive s.inFlight s.panel
        else s.panel
      inFlight := result.2.getD s.inFlight
      sent := result.2 }

end Z80Sbc.Oled
