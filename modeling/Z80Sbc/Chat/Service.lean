import Z80Sbc.Chat.Fragments
import Z80Sbc.Data.RingBuffer
import Z80Sbc.Io.Transport

/-! # The chat service

`chat.c`: the request text, the ring of response bytes, the text of the first error, and the
operations of the service. What `start_request` and the settings give are inputs.

The fields from `emitted` on are not in the source. They keep, since the response was last
cleared, the bytes that the decoder has emitted, those that a read has returned, the
messages of the errors, and the data that the decoder has used from the state it had then. -/

namespace Z80Sbc.Chat
open Z80Sbc.Data

def z80ChatRequestMax : Nat := 8192
def z80ChatResponseBytes : Nat := 4096
/-- `IO_SERVICE_MAX_PAYLOAD` -/
def maxPayload : Nat := 2048

def z80ChatEof : UInt8 := 0
def z80ChatWaiting : UInt8 := 1
def z80ChatDataReady : UInt8 := 2

structure Service where
  stream : Stream
  request : List UInt8
  ring : RingBuffer UInt8
  errorText : List UInt8
  errorPosition : Nat
  active : Bool
  online : Bool
  generation : UInt32
  emitted : List UInt8
  returned : List UInt8
  errors : List (List UInt8)
  opened : Stream
  used : List UInt8

def serviceInit : Service where
  stream := streamInit
  request := []
  ring := ⟨fun _ => 0, 0, 0, 0⟩
  errorText := []
  errorPosition := 0
  active := false
  online := false
  generation := 0
  emitted := []
  returned := []
  errors := []
  opened := streamInit
  used := []

/-- `clear_response` -/
def clearResponse (s : Service) : Service :=
  { s with
    ring := s.ring.clear
    errorText := []
    errorPosition := 0
    emitted := []
    returned := []
    errors := []
    opened := s.stream
    used := [] }

/-- `snprintf(error_text, sizeof(error_text), "\nChat: %s\n", message)` -/
def errorTextOf (message : List UInt8) : List UInt8 :=
  (text ['\n', 'C', 'h', 'a', 't', ':', ' '] ++ message ++ [10]).take 159

/-- `z80_chat_error` -/
def chatError (message : List UInt8) (s : Service) : Service :=
  { s with
    errorText := if s.errorText = [] then errorTextOf message else s.errorText
    active := false
    errors := s.errors ++ [message] }

/-- `emit`, with the bytes emitted so far. -/
def emit (out : RingBuffer UInt8 × List UInt8) (c : UInt8) :
    Option (RingBuffer UInt8 × List UInt8) :=
  if out.1.count = z80ChatResponseBytes then none
  else some (out.1.push z80ChatResponseBytes c, out.2 ++ [c])

/-- `z80_chat_receive` -/
def chatReceive (data : List UInt8) (s : Service) : Nat × Service :=
  if !s.active then (0, s)
  else
    let (consumed, stream, ring, emitted) := feed emit data s.stream (s.ring, s.emitted)
    let s := { s with stream, ring, emitted, used := s.used ++ data.take consumed }
    match stream.error with
    | some message => (consumed, chatError (text message.toList) s)
    | none => (consumed, if stream.done then { s with active := false } else s)

/-- `z80_chat_network_poll` -/
def networkPoll (connected : Bool) (generation : UInt32) (s : Service) : Service :=
  let s :=
    if s.active && (!connected || generation != s.generation) then
      chatError (text "Network disconnected or reconfigured".toList) s
    else s
  (chatReceive [] { s with online := connected, generation := generation }).2

/-- What a start meets outside: the message of a setting that cannot be used, and whether the
request can be started. -/
structure Start where
  refused : Option (List UInt8)
  started : Bool

def status (s : Service) : UInt8 :=
  if s.ring.count ≠ 0 ∨ s.errorText.drop s.errorPosition ≠ [] then z80ChatDataReady
  else if s.active then z80ChatWaiting else z80ChatEof

/-- Operation 3, when it is allowed. -/
def startRequest (o : Start) (s : Service) : Service :=
  let s := clearResponse { s with stream := streamInit }
  if !s.online then chatError (text "Wi-Fi unavailable".toList) s
  else
    match o.refused with
    | some message => chatError message s
    | none =>
      let s := { s with active := true }
      if o.started then s else chatError (text "Cannot start HTTP request".toList) s

/-- The bytes of a read, from the ring and then from the error. -/
def readBytes (maximum : Nat) (s : Service) : List UInt8 × Service :=
  let (fromRing, ring) := s.ring.drain z80ChatResponseBytes (min maximum s.ring.count)
  let fromError := (s.errorText.drop s.errorPosition).take (maximum - fromRing.length)
  (fromRing ++ fromError,
    { s with
      ring
      errorPosition := s.errorPosition + fromError.length
      returned := s.returned ++ (fromRing ++ fromError) })

/-- `z80_chat_service`: the error or the response, and the new state. -/
def chatService (o : Start) (data : List UInt8) (s : Service) :
    Io.ServiceError × List UInt8 × Service :=
  match data with
  | [] => (.invalidLength, [], s)
  | operation :: rest =>
    if 5 < operation then (.unknownOperation, [], s)
    else if (operation = 1 ∧ rest.length < 1) ∨
        (if operation = 5 then rest.length ≠ 2 else operation ≠ 1 ∧ rest.length ≠ 0) then
      (.invalidLength, [], s)
    else if operation = 0 then (.ok, [], { s with active := false, request := [] })
    else if operation = 1 then
      if s.active then (.busyError, [], s)
      else if z80ChatRequestMax - 1 - s.request.length < rest.length then (.capacity, [], s)
      else if rest.contains 0 then (.invalidParameter, [], s)
      else (.ok, [], { s with request := s.request ++ rest })
    else if operation = 2 then (.ok, [], clearResponse { s with active := false })
    else if operation = 3 then
      if s.active then (.busyError, [], s)
      else if s.request = [] then (.invalidState, [], s)
      else (.ok, [], startRequest o s)
    else if operation = 4 then (.ok, [status s], s)
    else
      let maximum := (rest.getD 0 0).toNat + (rest.getD 1 0).toNat * 256
      if maximum = 0 ∨ maxPayload - 3 < maximum then (.invalidParameter, [], s)
      else
        let (bytes, s) := readBytes maximum s
        (.ok, status s :: UInt8.ofNat bytes.length :: UInt8.ofNat (bytes.length / 256) :: bytes, s)

/-- What can happen: the network side receives, polls or fails, and core 0 asks. -/
inductive ServiceEvent where
  | receive (data : List UInt8)
  | poll (connected : Bool) (generation : UInt32)
  | error (message : List UInt8)
  | request (o : Start) (data : List UInt8)

def step (s : Service) : ServiceEvent → Service
  | .receive data => (chatReceive data s).2
  | .poll connected generation => networkPoll connected generation s
  | .error message => chatError message s
  | .request o data => (chatService o data s).2.2

def run (events : List ServiceEvent) : Service := events.foldl step serviceInit

end Z80Sbc.Chat
