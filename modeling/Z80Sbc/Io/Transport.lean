import Mathlib.Tactic.Common
import Mathlib.Logic.Function.Basic

/-! # The service transport

Ports 2, 3 and 4 of `io_ports.c`, which core 0 answers, and the job slot of
`io_service.c`, through which it hands a request to the worker on core 1. A port
operation runs up to its poll of the slot and what follows from it; a submission is
three more steps, and the worker's are between them in any order. The worker's
services are left open: it may write anything into its result until it is done.

`history` is not in the source. It keeps, for each transaction, what went through
the ports and the slot. -/

namespace Z80Sbc.Io

def ioServiceCommandPort : UInt8 := 0x02
def ioServiceRequestPort : UInt8 := 0x03
def ioServiceResponsePort : UInt8 := 0x04
def ioServiceMaxPayload : Nat := 2048

def ioServiceAck : UInt8 := 0x00
def ioServiceReset : UInt8 := 0x01
def ioServiceIdentify : UInt8 := 0x02
def ioServiceTimers : UInt8 := 0x10
def ioServiceStopwatches : UInt8 := 0x11
def ioServiceClock : UInt8 := 0x20
def ioServiceUtility : UInt8 := 0x21
def ioServiceEnvironment : UInt8 := 0x30
def ioServiceWeather : UInt8 := 0x40
def ioServiceChat : UInt8 := 0x50
def ioServiceSenseHat : UInt8 := 0x60

/-- `io_service_status_t` -/
inductive Status where
  | ready | complete | responseReady | collecting | busy | error
  deriving DecidableEq

def Status.toByte : Status → UInt8
  | ready => 0
  | complete => 1
  | responseReady => 2
  | collecting => 3
  | busy => 4
  | error => 0xFF

/-- `io_service_error_t` -/
inductive ServiceError where
  | ok | unknownGroup | unknownOperation | invalidLength | invalidParameter | unavailable
  | busyError | timeout | invalidState | underflow | storageOpen | storageRead | storageWrite
  | capacity | notFound | clockUnsynced | rebootConfirmation
  deriving DecidableEq

def ServiceError.toByte : ServiceError → UInt8
  | ok => 0
  | unknownGroup => 1
  | unknownOperation => 2
  | invalidLength => 3
  | invalidParameter => 4
  | unavailable => 5
  | busyError => 6
  | timeout => 7
  | invalidState => 8
  | underflow => 9
  | storageOpen => 0x10
  | storageRead => 0x11
  | storageWrite => 0x12
  | capacity => 0x13
  | notFound => 0x14
  | clockUnsynced => 0x15
  | rebootConfirmation => 0x16

/-- What `transport.response` points to. -/
inductive Response where
  | localResponse | result
  deriving DecidableEq

structure Transport where
  status : Status
  command : UInt8
  lengthBytes : Nat
  requestLength : UInt16
  requestPosition : Nat
  responseLength : Nat
  responsePosition : Nat
  generation : BitVec 32
  resetRequired : Bool
  request : Nat → UInt8
  localResponse : Nat → UInt8
  response : Response

structure Timers where
  deadlinesUs : Nat → UInt64
  stopwatches : Nat → UInt64

/-- What `z80_service_millis` and `z80_service_micros` return. -/
structure Clock where
  millis : UInt64
  micros : UInt64

inductive Work where
  | idle | pending | done
  deriving DecidableEq

/-- The first `length` bytes of a buffer. -/
def bytes (data : Nat → UInt8) (length : Nat) : List UInt8 := (List.range length).map data

/-- The worker's `request`, with the transaction that submitted it. -/
structure Job where
  transaction : Nat
  generation : BitVec 32
  command : UInt8
  length : Nat
  data : Nat → UInt8

/-- What a service leaves in the result. -/
structure Answer where
  error : ServiceError
  hasResponse : Bool
  length : Nat
  data : Nat → UInt8

structure Result extends Answer where
  generation : BitVec 32

/-- A command group and its payload. -/
structure Request where
  command : UInt8
  payload : List UInt8
  deriving DecidableEq

def Job.request (j : Job) : Request := ⟨j.command, bytes j.data j.length⟩

/-- One transaction: the payload bytes it took, the request it submitted, what the worker
answered to which request, a reply made on core 0, and what port 4 gave of a reply. -/
structure Transaction where
  typed : List UInt8
  submitted : Option Request
  answered : Option (Request × Answer)
  replied : Option (List UInt8)
  reads : List UInt8

def Transaction.empty : Transaction := ⟨[], none, none, none, []⟩

/-- Where core 0 is in `z80_io_service_submit`. -/
inductive Core0 where
  | idle | checking | filling | publishing
  deriving DecidableEq

structure System where
  transport : Transport
  timers : Timers
  work : Work
  job : Job
  result : Result
  /-- core 1 has seen the job -/
  serving : Bool
  core0 : Core0
  current : Nat
  history : Nat → Transaction

/-- Change the record of the current transaction. -/
def System.note (s : System) (f : Transaction → Transaction) : System :=
  { s with history := Function.update s.history s.current (f (s.history s.current)) }

/-! ## The transport -/

def resetTransport (s : System) : System :=
  { s with
    current := s.current + 1
    transport :=
      { s.transport with
        generation := s.transport.generation + 1
        status := .ready
        lengthBytes := 0
        requestLength := 0
        requestPosition := 0
        responseLength := 0
        responsePosition := 0
        response := .localResponse
        resetRequired := false } }

def fail (error : ServiceError) (resetRequired : Bool) (s : System) : System :=
  { s with
    current := s.current + 1
    transport :=
      { s.transport with
        generation := s.transport.generation + 1
        localResponse := Function.update s.transport.localResponse 0 error.toByte
        response := .localResponse
        responseLength := 1
        responsePosition := 0
        resetRequired := s.transport.resetRequired || resetRequired
        status := .error } }

/-- A reply made by core 0 itself. -/
def replyLocal (data : Nat → UInt8) (length : Nat) (s : System) : System :=
  { s with
    transport :=
      { s.transport with
        localResponse := data
        response := .localResponse
        responseLength := length
        responsePosition := 0
        status := .responseReady } }.note fun t => { t with replied := some (bytes data length) }

def startTimer (id : UInt8) (duration : UInt16) (now : UInt64) (t : Timers) : Timers :=
  let deadline :=
    if id = 3 then (now / 1000 + duration.toUInt64) * 1000 else now + duration.toUInt64
  { t with deadlinesUs := Function.update t.deadlinesUs id.toNat (deadline * 1000) }

def timerRunning (id : UInt8) (now : UInt64) (t : Timers) : UInt8 :=
  if now < t.deadlinesUs id.toNat then 1 else 0

def stopwatchValue (id : UInt8) (milliseconds : Bool) (now : UInt64) (t : Timers) : UInt32 :=
  let elapsed := now - t.stopwatches id.toNat
  (if milliseconds then elapsed else elapsed / 1000).toUInt32

/-- A response of no bytes completes the transaction. -/
def completeLocal (s : System) : System :=
  { s with
    transport :=
      { s.transport with
        response := .localResponse, responseLength := 0, responsePosition := 0
        status := .complete } }

def timerService (clock : Clock) (s : System) : System :=
  let request := s.transport.request
  let operation := request 0
  let countdown := s.transport.command = ioServiceTimers
  if operation > (if countdown then 1 else 2) then fail .unknownOperation false s
  else if s.transport.requestLength ≠ (if countdown ∧ operation = 0 then 6 else 2) then
    fail .invalidLength false s
  else
    let id := request 1
    if id > (if countdown then 3 else 2) then fail .invalidParameter false s
    else if countdown ∧ operation = 0 then
      if request 4 ≠ 0 ∨ request 5 ≠ 0 ∨ (id = 3 ∧ request 3 ≠ 0) then
        fail .invalidParameter false s
      else
        let duration := (request 2).toUInt16 ||| ((request 3).toUInt16 <<< 8)
        completeLocal { s with timers := startTimer id duration clock.millis s.timers }
    else if countdown then
      let running := timerRunning id clock.micros s.timers
      replyLocal (Function.update s.transport.localResponse 0 running) 1 s
    else if operation = 0 then
      completeLocal
        { s with
          timers :=
            { s.timers with
              stopwatches := Function.update s.timers.stopwatches id.toNat clock.millis } }
    else
      let value := stopwatchValue id (operation = 2) clock.millis s.timers
      replyLocal
        (fun i => if i < 4 then (value >>> (8 * UInt32.ofNat i)).toUInt8
          else s.transport.localResponse i) 4 s

/-- The slot is polled; what is in it is taken or dropped. -/
def pollService (s : System) : System :=
  if s.work ≠ .done then s
  else
    let s := { s with work := .idle }
    if s.result.generation ≠ s.transport.generation ∨ s.transport.status ≠ .busy then s
    else if s.result.error ≠ .ok then fail s.result.error false s
    else if ioServiceMaxPayload < s.result.length then fail .capacity false s
    else
      { s with
        transport :=
          { s.transport with
            response := .result
            responseLength := s.result.length
            responsePosition := 0
            status := if s.result.hasResponse then .responseReady else .complete } }

def identity : List UInt8 := [82, 79, 77, 76, 69, 83, 83, 45, 83, 86, 67, 47, 49]

def commandOut (command : UInt8) (s : System) : System :=
  if command = ioServiceReset then resetTransport s
  else if command = ioServiceAck then
    if !s.transport.resetRequired ∧ (s.transport.status = .complete ∨ (s.transport.status = .error ∧
        s.transport.responsePosition = s.transport.responseLength + 2)) then resetTransport s
    else fail .invalidState s.transport.resetRequired s
  else if s.transport.status ≠ .ready then fail .busyError true s
  else if command = ioServiceIdentify then
    replyLocal (fun i => identity.getD i (s.transport.localResponse i)) identity.length s
  else if command ∈ [ioServiceTimers, ioServiceStopwatches, ioServiceClock, ioServiceUtility,
      ioServiceEnvironment, ioServiceWeather, ioServiceChat, ioServiceSenseHat] then
    { s with
      transport :=
        { s.transport with
          command := command
          lengthBytes := 0
          requestLength := 0
          requestPosition := 0
          status := .collecting } }
  else fail .unknownGroup false s

/-- A byte of the length, the low one first. -/
def takeLength (data : UInt8) (s : System) : System :=
  { s with
    transport :=
      { s.transport with
        requestLength := s.transport.requestLength |||
          (data.toUInt16 <<< (8 * UInt16.ofNat s.transport.lengthBytes))
        lengthBytes := s.transport.lengthBytes + 1 } }

/-- A byte of the payload. -/
def takeByte (data : UInt8) (s : System) : System :=
  { s with
    transport :=
      { s.transport with
        request := Function.update s.transport.request s.transport.requestPosition data
        requestPosition := s.transport.requestPosition + 1 } }.note
    fun t => { t with typed := t.typed ++ [data] }

/-- `request_out`, which goes on with `z80_io_service_submit` when the payload is full. -/
def requestOut (data : UInt8) (clock : Clock) (s : System) : System :=
  if s.transport.status ≠ .collecting then
    fail .invalidState (s.transport.status = .busy) s
  else if s.transport.lengthBytes < 2 then
    let s := takeLength data s
    if s.transport.lengthBytes = 2 ∧ (s.transport.requestLength = 0 ∨
        ioServiceMaxPayload < s.transport.requestLength.toNat) then fail .invalidLength false s
    else s
  else
    let s := takeByte data s
    if s.transport.requestPosition ≠ s.transport.requestLength.toNat then s
    else
      let s := pollService s
      if s.transport.command = ioServiceTimers ∨ s.transport.command = ioServiceStopwatches then
        timerService clock s
      else { s with core0 := .checking }

def portOut (port data : UInt8) (clock : Clock) (s : System) : System :=
  if port = ioServiceCommandPort then commandOut data (pollService s)
  else if port = ioServiceRequestPort then
    requestOut data clock (if s.transport.status ≠ .collecting then pollService s else s)
  else s

/-- What `transport.response` holds. -/
def System.response (s : System) : Nat → UInt8 :=
  match s.transport.response with
  | .localResponse => s.transport.localResponse
  | .result => s.result.data

/-- The byte of a response or of an error. -/
def responseByte (s : System) : UInt8 :=
  let position := s.transport.responsePosition
  if position < 2 then UInt8.ofNat (s.transport.responseLength >>> (8 * position))
  else s.response (position - 2)

def nextByte (s : System) : System :=
  { s with
    transport := { s.transport with responsePosition := s.transport.responsePosition + 1 } }

def readResponse (s : System) : UInt8 × System :=
  if (s.transport.status ≠ .responseReady ∧ s.transport.status ≠ .error) ∨
      s.transport.responseLength + 2 ≤ s.transport.responsePosition then
    (0, fail .underflow (s.transport.status = .busy) s)
  else
    let data := responseByte s
    let s := nextByte s
    if s.transport.status ≠ .responseReady then (data, s)
    else
      let s := s.note fun t => { t with reads := t.reads ++ [data] }
      (data, if s.transport.responsePosition = s.transport.responseLength + 2 then resetTransport s
        else s)

def portIn (port : UInt8) (s : System) : UInt8 × System :=
  if port = ioServiceCommandPort then
    let s := pollService s
    (s.transport.status.toByte, s)
  else if port = ioServiceResponsePort then
    readResponse (if s.transport.status = .busy then pollService s else s)
  else (0, s)

/-! ## The slot -/

def submitCheck (s : System) : System :=
  if s.work ≠ .idle then fail .busyError true { s with core0 := .idle }
  else { s with core0 := .filling }

def submitFill (s : System) : System :=
  { s with
    core0 := .publishing
    job :=
      { transaction := s.current
        generation := s.transport.generation
        command := s.transport.command
        length := s.transport.requestLength.toNat
        data := fun i =>
          if i < s.transport.requestLength.toNat then s.transport.request i else s.job.data i } }

def submitPublish (s : System) : System :=
  { s with
    core0 := .idle
    work := .pending
    transport := { s.transport with status := .busy } }.note
    fun t => { t with submitted := some s.job.request }

/-- The next step of `z80_io_service_submit`. -/
def submit (s : System) : System :=
  match s.core0 with
  | .idle => s
  | .checking => submitCheck s
  | .filling => submitFill s
  | .publishing => submitPublish s

inductive Action where
  | out (port data : UInt8) (clock : Clock)
  | inp (port : UInt8)
  | submit
  | workerStart
  | workerWrite (answer : Answer)
  | workerDone (answer : Answer)

/-- `z80_io_ports_core1_service` finds a job, and clears the result for it. -/
def workerStart (s : System) : System :=
  if s.work = .pending ∧ s.serving = false then
    { s with serving := true, result := ⟨⟨.ok, false, 0, fun _ => 0⟩, s.job.generation⟩ }
  else s

def workerWrite (answer : Answer) (s : System) : System :=
  if s.serving then { s with result := { s.result with toAnswer := answer } } else s

def workerDone (answer : Answer) (s : System) : System :=
  if s.serving then
    { s with
      result := { s.result with toAnswer := answer }
      work := .done
      serving := false
      history := Function.update s.history s.job.transaction
        { s.history s.job.transaction with answered := some (s.job.request, answer) } }
  else s

/-- One step. Core 0 takes a port operation when it has finished the last one. -/
def step (s : System) : Action → System
  | .out port data clock => if s.core0 = .idle then portOut port data clock s else s
  | .inp port => if s.core0 = .idle then (portIn port s).2 else s
  | .submit => submit s
  | .workerStart => workerStart s
  | .workerWrite answer => workerWrite answer s
  | .workerDone answer => workerDone answer s

/-- After `z80_io_ports_init`. -/
def System.start : System where
  transport :=
    { status := .ready
      command := 0
      lengthBytes := 0
      requestLength := 0
      requestPosition := 0
      responseLength := 0
      responsePosition := 0
      generation := 1
      resetRequired := false
      request := fun _ => 0
      localResponse := fun _ => 0
      response := .localResponse }
  timers := ⟨fun _ => 0, fun _ => 0⟩
  work := .idle
  job := ⟨0, 0, 0, 0, fun _ => 0⟩
  result := ⟨⟨.ok, false, 0, fun _ => 0⟩, 0⟩
  serving := false
  core0 := .idle
  current := 0
  history := fun _ => .empty

end Z80Sbc.Io
