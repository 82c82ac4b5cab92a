import Z80Sbc.Http.Stream
import Z80Sbc.Data.RingBuffer

/-! # The HTTP file port

`http_io.c`: ports 21 and 22 on core 0, the worker and its decoder on core 1, and the
mailbox between them. A step of either core is one load or store of `session` or
`slot_state` and what it does up to the next one. Network events happen on core 1
between two calls of its service. URLs and the environment are left open.

`opens`, `slotOpen`, `workerOpen` and `history` are not in the source: they number
the sessions, of which the code keeps 32 bits, and record what happened in each. -/

namespace Z80Sbc.Http
open Z80Sbc.Data

def httpCommandPort : UInt8 := 21
def httpDataPort : UInt8 := 22

def httpIdle : UInt8 := 0
def httpDataReady : UInt8 := 1
def httpEof : UInt8 := 2
def httpBusy : UInt8 := 3
def httpMissingBaseUrl : UInt8 := 4
def httpError : UInt8 := 255

def httpSetFilename : UInt8 := 1
def httpRequestChunk : UInt8 := 3
def httpClose : UInt8 := 4

def ringSize : Nat := 1024
/-- `sizeof(slot.data)` -/
def slotSize : Nat := 256

/-- `http_target_result_t`, with the target. -/
inductive Target (Url : Type) where
  | ok (url : Url)
  | invalid
  | missingBaseUrl

/-- `load_target` and `z80_http_url_redirect`. -/
structure Web (Url Env : Type) where
  loadTarget : Env → List UInt8 → Target Url
  redirect : Url → List UInt8 → Option Url

inductive SlotState where
  | idle | pending | done
  deriving DecidableEq

structure Slot where
  session : BitVec 32
  filename : List UInt8
  length : Nat
  status : UInt8
  data : Nat → UInt8

/-- Core 0's `port`; the length of the name is that of the list. -/
structure Port where
  filename : List UInt8
  length : Nat
  position : Nat
  status : UInt8
  finalStatus : UInt8
  collecting : Bool
  overflow : Bool
  wantChunk : Bool

def Port.zero : Port := ⟨[], 0, 0, httpIdle, httpIdle, false, false, false⟩

/-- What core 1 owns. -/
structure Worker (Url : Type) where
  workerSession : BitVec 32
  networkGeneration : UInt32
  transferNetwork : UInt32
  installed : Bool
  online : Bool
  opened : Bool
  active : Bool
  backendRunning : Bool
  redirects : Nat
  workerErrorStatus : UInt8
  target : Option Url
  stream : Stream
  ring : RingBuffer UInt8

/-- A request that was started, and the bytes of its response. -/
structure Connection (Url : Type) where
  target : Url
  wire : List UInt8
  closed : Bool

/-- One session: its name, its requests with the last one first, the body bytes that went
into the slot, and those that the Z80 has read. -/
structure Session (Url : Type) where
  name : List UInt8
  connections : List (Connection Url)
  taken : List UInt8
  reads : List UInt8

def Session.empty {Url : Type} : Session Url := ⟨[], [], [], []⟩

/-- What follows `pump`. -/
inductive After where
  | out
  | inp (address : UInt8)

/-- Where core 0 is. -/
inductive Core0 where
  | idle
  | pump (k : After)
  | take (k : After)
  | release (k : After)
  | post (k : After)
  | publish (k : After)
  | read (address : UInt8)
  | free

/-- Where core 1 is in `z80_http_io_core1_service`, with the session it has loaded. -/
inductive Core1 where
  | outside
  | check (current : BitVec 32)
  | serve (current : BitVec 32)
  | finish (current : BitVec 32)

structure Machine (Url : Type) where
  port : Port
  session : BitVec 32
  core0 : Core0
  slotState : SlotState
  slot : Slot
  worker : Worker Url
  core1 : Core1
  /-- a chunk was requested, and its outcome not yet seen -/
  awaiting : Bool
  opens : Nat
  slotOpen : Nat
  workerOpen : Nat
  history : Nat → Session Url

section
variable {Url Env : Type}

/-- After `z80_http_io_init`. -/
def Machine.start : Machine Url where
  port := .zero
  session := 1
  core0 := .idle
  slotState := .idle
  slot := ⟨0, [], 0, 0, fun _ => 0⟩
  worker :=
    { workerSession := 0
      networkGeneration := 0
      transferNetwork := 0
      installed := false
      online := false
      opened := false
      active := false
      backendRunning := false
      redirects := 0
      workerErrorStatus := 0
      target := none
      stream := streamInit
      ring := ⟨fun _ => 0, 0, 0, 0⟩ }
  core1 := .outside
  awaiting := false
  opens := 1
  slotOpen := 0
  workerOpen := 0
  history := fun _ => .empty

def Machine.note (n : Nat) (f : Session Url → Session Url) (m : Machine Url) : Machine Url :=
  { m with history := Function.update m.history n (f (m.history n)) }

/-! ## Core 0 -/

/-- SET_FILENAME and CLOSE, up to the load of the slot's state. -/
def openSession (collecting : Bool) (m : Machine Url) : Machine Url :=
  { m with
    session := m.session + 1
    port := { Port.zero with collecting := collecting }
    core0 := .pump .out
    awaiting := false
    opens := m.opens + 1 }

/-- `z80_http_io_out` -/
def out (address data : UInt8) (m : Machine Url) : Machine Url :=
  if address = httpCommandPort then
    if data = httpSetFilename ∨ data = httpClose then openSession (data = httpSetFilename) m
    else if data = httpRequestChunk then
      if m.port.wantChunk ∨ m.port.position < m.port.length then m
      else if m.port.collecting ∨ m.port.overflow ∨ m.port.filename = [] ∨
          m.port.status = httpError then { m with port := { m.port with status := httpError } }
      else if m.port.status = httpEof then m
      else
        { m with
          port := { m.port with wantChunk := true, status := httpBusy }
          core0 := .pump .out
          awaiting := true }
    else m
  else if address = httpDataPort ∧ m.port.collecting then
    if data = 0 then
      { m with
        port :=
          { m.port with
            collecting := false
            status := if m.port.overflow ∨ m.port.filename = [] then httpError
              else m.port.status } }
    else if m.port.filename.length < z80HttpUrlMax - 1 ∧ !m.port.overflow then
      { m with port := { m.port with filename := m.port.filename ++ [data] } }.note m.opens
        fun s => { s with name := s.name ++ [data] }
    else { m with port := { m.port with overflow := true, status := httpError } }
  else m

/-- `z80_http_io_in`, up to its first load. -/
def inp (address : UInt8) (m : Machine Url) : Machine Url :=
  { m with
    core0 := if m.port.length ≤ m.port.position then .pump (.inp address) else .read address }

def After.next : After → Core0
  | out => .idle
  | inp address => .read address

/-- The slot is idle: a chunk that is wanted is posted. -/
def Machine.idleSlot (k : After) (m : Machine Url) : Machine Url :=
  { m with core0 := if m.port.wantChunk then .post k else k.next }

/-- The slot is done: its chunk is taken, or dropped. -/
def takeSlot (k : After) (m : Machine Url) : Machine Url :=
  if m.slot.session = m.session ∧ m.port.wantChunk then
    { m with
      port :=
        { m.port with
          wantChunk := false
          length := if m.slot.length ≠ 0 then m.slot.length + 1 else 0
          position := 0
          finalStatus := m.slot.status
          status := if m.slot.length ≠ 0 then httpDataReady else m.slot.status }
      core0 := if m.slot.length ≠ 0 then k.next else .release k }
  else { m with core0 := .release k }

def readStatus (m : Machine Url) : Machine Url :=
  { m with core0 := .idle, awaiting := m.awaiting && m.port.status = httpBusy }

/-- The count, and then the bytes of the chunk. -/
def chunkByte (m : Machine Url) : UInt8 :=
  if m.port.position ≠ 0 then m.slot.data (m.port.position - 1) else UInt8.ofNat m.slot.length

/-- A byte of the chunk is read; after the last one the slot is given back. -/
def readByte (m : Machine Url) : Machine Url :=
  { m with
    port :=
      { m.port with
        position := m.port.position + 1
        status := if m.port.position + 1 = m.port.length then m.port.finalStatus
          else m.port.status }
    core0 := if m.port.position + 1 = m.port.length then .free else .idle
    awaiting := false }.note m.opens
    fun s => { s with reads := if m.port.position ≠ 0 then s.reads ++ [chunkByte m] else s.reads }

/-- The end of `z80_http_io_in`. -/
def readPort (address : UInt8) (m : Machine Url) : UInt8 × Machine Url :=
  if address = httpCommandPort then (m.port.status, readStatus m)
  else if address ≠ httpDataPort ∨ m.port.length ≤ m.port.position then
    (0, { m with core0 := .idle })
  else (chunkByte m, readByte m)

/-- The next step of core 0. -/
def core0Step (m : Machine Url) : Machine Url :=
  match m.core0 with
  | .idle => m
  | .pump k =>
    match m.slotState with
    | .done => { m with core0 := .take k }
    | .idle => m.idleSlot k
    | .pending => { m with core0 := k.next }
  | .take k => takeSlot k m
  | .release k => { m with slotState := .idle }.idleSlot k
  | .post k =>
    { m with
      slot := { m.slot with session := m.session, filename := m.port.filename }
      slotOpen := m.opens
      core0 := .publish k }
  | .publish k => { m with slotState := .pending, core0 := k.next }
  | .read address => (readPort address m).2
  | .free => { m with slotState := .idle, core0 := .idle }

/-! ## Core 1 -/

/-- `z80_http_io_error` -/
def ioError (message : String) (w : Worker Url) : Worker Url :=
  { w with
    stream := { w.stream with error := w.stream.error.or (some message) }
    active := false }

def emit (r : RingBuffer UInt8) (c : UInt8) : Option (RingBuffer UInt8) :=
  if r.count = ringSize then none else some (r.push ringSize c)

/-- An error of the decoder ends the transfer. -/
def settle (w : Worker Url) : Worker Url :=
  match w.stream.error with
  | some message => ioError message w
  | none => w

def Session.received (data : List UInt8) (s : Session Url) : Session Url :=
  { s with
    connections :=
      match s.connections with
      | [] => []
      | c :: cs => { c with wire := c.wire ++ data } :: cs }

def Session.closed (s : Session Url) : Session Url :=
  { s with
    connections :=
      match s.connections with
      | [] => []
      | c :: cs => { c with closed := true } :: cs }

def Session.started (url : Url) (s : Session Url) : Session Url :=
  { s with connections := ⟨url, [], false⟩ :: s.connections }

/-- `z80_http_io_receive` -/
def receive (data : List UInt8) (m : Machine Url) : Machine Url :=
  if !m.worker.active then m
  else
    let (used, stream, ring) := feed emit data m.worker.stream m.worker.ring
    { m with worker := settle { m.worker with stream := stream, ring := ring } }.note m.workerOpen
      (Session.received (data.take used))

/-- `z80_http_io_remote_close` -/
def remoteClose (m : Machine Url) : Machine Url :=
  { m with worker := settle { m.worker with stream := streamClose m.worker.stream } }.note
    m.workerOpen Session.closed

/-- The start of a request to `url`, which may fail at once. -/
def startRequest (url : Url) (ok : Bool) (message : String) (m : Machine Url) : Machine Url :=
  let w := { m.worker with target := some url, backendRunning := true }
  { m with worker := if ok then w else ioError message w }.note m.workerOpen (Session.started url)

/-- A session that core 1 has not seen yet. -/
def newSession (m : Machine Url) : Machine Url :=
  if m.session ≠ m.worker.workerSession then
    { m with
      workerOpen := m.opens
      worker :=
        { m.worker with
          backendRunning := false
          workerSession := m.session
          opened := false
          active := false
          ring := m.worker.ring.clear
          redirects := 0
          workerErrorStatus := httpError
          stream := streamInit } }
  else m

def checkNetwork (w : Worker Url) : Worker Url :=
  if w.active ∧ (!w.online ∨ w.transferNetwork ≠ w.networkGeneration) then
    ioError "Network disconnected or reconfigured" w
  else w

/-- A response that is complete is a redirect, or the end. -/
def finishResponse (web : Web Url Env) (startOk : Bool) (m : Machine Url) : Machine Url :=
  if m.worker.active ∧ m.worker.stream.done then
    let m := { m with worker := { m.worker with backendRunning := false } }
    if 300 ≤ m.worker.stream.status then
      let m := { m with worker := { m.worker with redirects := m.worker.redirects + 1 } }
      match if 5 < m.worker.redirects then none
          else m.worker.target.bind fun url => web.redirect url m.worker.stream.location with
      | none =>
        { m with
          worker :=
            ioError "Invalid redirect, HTTPS downgrade or redirect limit exceeded" m.worker }
      | some url =>
        startRequest url startOk "Cannot start HTTP redirect"
          { m with worker := { m.worker with stream := streamInit } }
    else { m with worker := { m.worker with active := false } }
  else m

/-- A backend that has failed is cancelled. -/
def cancelFailed (w : Worker Url) : Worker Url :=
  if !w.active ∧ w.stream.error.isSome then { w with backendRunning := false } else w

/-- The service from its load of the session to its load of the slot's state. -/
def enter (web : Web Url Env) (startOk : Bool) (m : Machine Url) : Machine Url :=
  let current := m.session
  let m := newSession m
  let m := finishResponse web startOk { m with worker := checkNetwork m.worker }
  { m with worker := cancelFailed m.worker, core1 := .check current }

/-- The first chunk of a session starts its request. -/
def openTarget (web : Web Url Env) (env : Env) (startOk : Bool) (m : Machine Url) : Machine Url :=
  if m.worker.opened then m
  else
    let w := { m.worker with opened := true, transferNetwork := m.worker.networkGeneration }
    if !w.installed ∨ !w.online then
      { m with worker := ioError "HTTP network unavailable" w }
    else
      match web.loadTarget env m.slot.filename with
      | .missingBaseUrl =>
        { m with
          worker :=
            ioError "Missing or empty HTTP_BASE_URL; set it in ENV"
              { w with workerErrorStatus := httpMissingBaseUrl } }
      | .invalid => { m with worker := ioError "Invalid URL or HTTP_BASE_URL" w }
      | .ok url =>
        startRequest url startOk "Cannot start HTTP request"
          { m with worker := { w with active := true } }

/-- The chunk goes from the ring into the slot. -/
def fillSlot (m : Machine Url) : Machine Url :=
  let length := min m.worker.ring.count slotSize
  let (bytes, ring) := m.worker.ring.drain ringSize length
  { m with
    worker := { m.worker with ring := ring }
    slot :=
      { m.slot with
        length := length
        data := fun i => bytes.getD i (m.slot.data i)
        status :=
          if !m.worker.active ∧ m.worker.stream.done ∧ ring.count = 0 then httpEof
          else httpIdle } }.note m.workerOpen
    fun s => { s with taken := s.taken ++ bytes }

/-- The service with the slot in its hands; it may leave it pending. -/
def serve (web : Web Url Env) (env : Env) (startOk : Bool) (current : BitVec 32)
    (m : Machine Url) : Machine Url :=
  if m.slot.session ≠ current then
    { m with slot := { m.slot with length := 0, status := httpIdle }, core1 := .finish current }
  else
    let m := openTarget web env startOk m
    if m.worker.stream.error.isSome then
      { m with
        worker := { m.worker with ring := { m.worker.ring with count := 0 } }
        slot := { m.slot with length := 0, status := m.worker.workerErrorStatus }
        core1 := .finish current }
    else if m.worker.ring.count < slotSize ∧ (m.worker.active ∨ !m.worker.stream.done) then
      { m with core1 := .outside }
    else { fillSlot m with core1 := .finish current }

/-- The next step of core 1's service. -/
def core1Step (web : Web Url Env) (env : Env) (startOk : Bool) (m : Machine Url) : Machine Url :=
  match m.core1 with
  | .outside => enter web startOk m
  | .check current =>
    { m with core1 := if m.slotState = .pending then .serve current else .outside }
  | .serve current => serve web env startOk current m
  | .finish _ => { m with slotState := .done, core1 := .outside }

/-! ## Steps -/

inductive Action (Env : Type) where
  | out (address data : UInt8)
  | inp (address : UInt8)
  | core0
  | core1 (env : Env) (startOk : Bool)
  | install
  | networkState (connected : Bool) (generation : UInt32)
  | receive (data : List UInt8)
  | remoteClose
  | error (message : String)

def Core0.isIdle : Core0 → Bool
  | idle => true
  | _ => false

def Core1.isOutside : Core1 → Bool
  | outside => true
  | _ => false

/-- Core 0 takes a port operation when it has finished the last one, and core 1 a network
event between two calls of its service. -/
def step (web : Web Url Env) (m : Machine Url) : Action Env → Machine Url
  | .out address data => if m.core0.isIdle then out address data m else m
  | .inp address => if m.core0.isIdle then inp address m else m
  | .core0 => core0Step m
  | .core1 env startOk => core1Step web env startOk m
  | .install =>
    if m.core1.isOutside then { m with worker := { m.worker with installed := true } } else m
  | .networkState connected generation =>
    if m.core1.isOutside then
      { m with
        worker := { m.worker with online := connected, networkGeneration := generation } }
    else m
  | .receive data => if m.core1.isOutside then receive data m else m
  | .remoteClose => if m.core1.isOutside then remoteClose m else m
  | .error message =>
    if m.core1.isOutside then { m with worker := ioError message m.worker } else m

end

end Z80Sbc.Http
