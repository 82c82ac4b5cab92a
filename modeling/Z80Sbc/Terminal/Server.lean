import Z80Sbc.Supervisor.Control
import Z80Sbc.Terminal.Queue

/-! # The terminal server

One WebSocket session of `web_terminal.cpp`. The socket holds what the server
has queued and the browser has not received. Whether a message is queued and
whether a time is reached are inputs; what the connection itself does, the
pings among it, can only end the session. -/

namespace Z80Sbc.Terminal
open Storage
open Supervisor (WebReboot)

def frameBytes : Nat := 512
def inputBytes : Nat := 64
def headerBytes : Nat := 5
def outputWindow : Nat := 4
def protocolVersion : UInt32 := 4

namespace MessageType

def output : UInt8 := 1
def input : UInt8 := 2
def outputAck : UInt8 := 3
def inputAck : UInt8 := 4
def hello : UInt8 := 5
def ready : UInt8 := 6
def reboot : UInt8 := 7
def rebootStatus : UInt8 := 8

end MessageType

/-- The value of a `z80_web_reboot_status_t`. -/
def rebootCode : WebReboot → UInt32
  | .idle => 0
  | .requested => 1
  | .flushing => 2
  | .restarting => 3
  | .storageError => 4
  | .timeout => 5
  | .rejected => 6
  | .cpmReady => 7

structure OutputFrame where
  data : Nat → UInt8
  length : Nat
  /-- `retry` is `nil_time` -/
  retryNil : Bool
  sent : Bool

/-- Why a session is given up for what the browser sent. -/
inductive ServerError where
  | invalidProtocol | invalidFrame | changedInput | outOfOrder
  deriving DecidableEq

/-- What `enqueueMessage` returns. -/
inductive SendResult where
  | queued | wouldBlock | failed
  deriving DecidableEq

structure Server where
  queue : Queue
  outputFrames : Nat → OutputFrame
  outputHead : Nat
  outputCount : Nat
  retainedOutputBytes : Nat
  stagedOutputLength : Nat
  /-- `output_batch_deadline` is `nil_time` -/
  batchNil : Bool
  pendingInput : List UInt8
  outputSequence : UInt32
  inputSequence : UInt32
  inputAckPending : Bool
  protocolReady : Bool
  rebootStatus : WebReboot
  reportedRebootStatus : UInt32
  /-- `active_connection` is the connection of this session -/
  active : Bool
  error : Option ServerError
  socket : List (List UInt8)
  /-- the bytes the Z80 wrote into its ring -/
  printed : List UInt8
  /-- the bytes taken from that ring -/
  taken : List UInt8
  /-- the bytes received into the ring of the Z80 -/
  delivered : List UInt8
  /-- the bytes the Z80 read from it -/
  read : List UInt8

namespace Server

/-- `process_events` has taken a new connection: `reset_session`, and the rings are empty. -/
def start (frames : Nat → OutputFrame) (rx tx : Nat → UInt8) (status : WebReboot) : Server where
  queue := browserConnect rx tx
  outputFrames := frames
  outputHead := 0
  outputCount := 0
  retainedOutputBytes := 0
  stagedOutputLength := 0
  batchNil := true
  pendingInput := []
  outputSequence := 1
  inputSequence := 1
  inputAckPending := false
  protocolReady := false
  rebootStatus := status
  reportedRebootStatus := 0xFFFFFFFF
  active := true
  error := none
  socket := []
  printed := []
  taken := []
  delivered := []
  read := []

/-- `disconnect_client`. What it clears is of no more use to this session. -/
def disconnect (error : Option ServerError) (s : Server) : Server :=
  { s with active := false, error }

def sendControl (type : UInt8) (sequence : UInt32) (queued : Bool) (s : Server) : Bool × Server :=
  (queued, if queued then { s with socket := s.socket ++ [type :: le32 sequence] } else s)

def reportRebootStatus (queued : Bool) (s : Server) : Server :=
  let status := rebootCode s.rebootStatus
  if s.protocolReady ∧ status ≠ s.reportedRebootStatus then
    let (sent, s) := s.sendControl MessageType.rebootStatus status queued
    if sent then { s with reportedRebootStatus := status } else s
  else s

/-! ## Input -/

def retryInputAck (queued : Bool) (s : Server) : Server :=
  if s.inputAckPending then
    let (sent, s) := s.sendControl MessageType.inputAck (s.inputSequence - 1) queued
    if sent then { s with inputAckPending := false } else s
  else s

def acceptPendingInput (queued : Bool) (s : Server) : Server :=
  if s.pendingInput.length = 0 then s
  else
    let (accepted, queue) := s.queue.browserTryReceive s.pendingInput
    if accepted then
      retryInputAck queued
        { s with
          queue
          delivered := s.delivered ++ s.pendingInput.map crlf
          pendingInput := []
          inputSequence := s.inputSequence + 1
          inputAckPending := true }
    else { s with queue }

/-- The `INPUT` branch of `on_message`. -/
def input (sequence : UInt32) (bytes : List UInt8) (queued : Bool) (s : Server) : Server :=
  if sequence = s.inputSequence then
    if s.pendingInput.length ≠ 0 ∧ s.pendingInput ≠ bytes then s.disconnect (some .changedInput)
    else acceptPendingInput queued { s with pendingInput := bytes }
  else if sequence = s.inputSequence - 1 then retryInputAck queued { s with inputAckPending := true }
  else s.disconnect (some .outOfOrder)

/-! ## Output -/

/-- The `i`-th frame that is not acknowledged. -/
def frame (i : Nat) (s : Server) : OutputFrame :=
  s.outputFrames ((s.outputHead + i) % outputWindow)

/-- `frame` changed in its place. -/
def setFrame (i : Nat) (frame : OutputFrame) (s : Server) : Server :=
  { s with
    outputFrames := Function.update s.outputFrames ((s.outputHead + i) % outputWindow) frame }

/-- The first frame that was sent with the sequence number. -/
def candidate (sequence : UInt32) (s : Server) : Option Nat :=
  (List.range s.outputCount).find? fun i =>
    (s.frame i).sent && read32 (s.frame i).data 1 == sequence

/-- The `OUTPUT_ACK` branch of `on_message`. -/
def outputAck (sequence : UInt32) (s : Server) : Server :=
  match s.candidate sequence with
  | none => s
  | some i =>
    { s with
      retainedOutputBytes := (List.range (i + 1)).foldl
        (fun bytes j => bytes - ((s.frame j).length - headerBytes)) s.retainedOutputBytes
      outputHead := (s.outputHead + i + 1) % outputWindow
      outputCount := s.outputCount - (i + 1) }

/-- `z80_terminal_supply` fills the staging slot. -/
def supplySlot (s : Server) : Server :=
  let frame := s.frame s.outputCount
  let (bytes, queue) := s.queue.supply (frameBytes - s.stagedOutputLength)
  let data := overlay frame.data (headerBytes + s.stagedOutputLength) bytes.length (bytes.getD · 0)
  { s.setFrame s.outputCount { frame with data } with
    queue
    taken := s.taken ++ bytes
    stagedOutputLength := s.stagedOutputLength + bytes.length }

/-- The staging slot becomes a frame. -/
def closeSlot (s : Server) : Server :=
  let frame := s.frame s.outputCount
  let data := overlay (Function.update frame.data 0 MessageType.output) 1 4
    ((le32 s.outputSequence).getD · 0)
  { s.setFrame s.outputCount
      { data, length := headerBytes + s.stagedOutputLength, retryNil := true, sent := false } with
    outputSequence := s.outputSequence + 1
    retainedOutputBytes := s.retainedOutputBytes + s.stagedOutputLength
    outputCount := s.outputCount + 1
    stagedOutputLength := 0
    batchNil := false }

/-- One turn of the staging loop of `poll_output`. -/
def stageOutput (batchReached : Bool) (s : Server) : Server :=
  if s.protocolReady ∧ s.outputCount < outputWindow then
    let s := s.supplySlot
    if s.stagedOutputLength = 0 then s
    else if s.stagedOutputLength < frameBytes ∧ ¬(s.batchNil ∨ batchReached) then s
    else s.closeSlot
  else s

/-- The sending loop of `poll_output`, with `n` frames to go from the `i`-th on. -/
def sendFrames (retryReached : Nat → Bool) (result : Nat → SendResult) :
    Nat → Nat → Server → Server
  | 0, _, s => s
  | n + 1, i, s =>
    let frame := s.frame i
    if frame.retryNil ∨ retryReached i then
      match result i with
      | .wouldBlock => s
      | .failed => s.disconnect none
      | .queued =>
        sendFrames retryReached result n (i + 1)
          { s.setFrame i { frame with sent := true, retryNil := false } with
            socket := s.socket ++ [window frame.data 0 frame.length] }
    else if frame.sent = false then s
    else sendFrames retryReached result n (i + 1) s

def sendOutput (retryReached : Nat → Bool) (result : Nat → SendResult) (s : Server) : Server :=
  if s.protocolReady then sendFrames retryReached result s.outputCount 0 s else s

/-- The greeting of `poll_output`. -/
def sendHello (retryReached queued : Bool) (s : Server) : Server :=
  if s.protocolReady = false ∧ retryReached then
    (s.sendControl MessageType.hello protocolVersion queued).2
  else s

/-! ## Messages -/

/-- The `REBOOT` branch of `on_message`. -/
def requestReboot (s : Server) : Server :=
  let status := s.rebootStatus
  { s with
    rebootStatus :=
      if status ≠ .requested ∧ status ≠ .flushing ∧ status ≠ .restarting ∧ status ≠ .timeout then
        .requested
      else status
    reportedRebootStatus := 0xFFFFFFFF }

def onMessage (message : List UInt8) (queued : Bool) (s : Server) : Server :=
  if message.length < headerBytes then s.disconnect (some .invalidProtocol)
  else
    let type := message.getD 0 0
    let sequence := read32 (message.getD · 0) 1
    if type = MessageType.ready ∧ message.length = headerBytes ∧ sequence = protocolVersion then
      reportRebootStatus queued { s with protocolReady := true }
    else if type = MessageType.reboot ∧ s.protocolReady ∧ message.length = headerBytes ∧
        sequence = 0 then
      s.requestReboot
    else if type = MessageType.outputAck ∧ s.protocolReady ∧ message.length = headerBytes then
      s.outputAck sequence
    else if type = MessageType.input ∧ s.protocolReady ∧ message.length > headerBytes ∧
        message.length ≤ headerBytes + inputBytes then
      s.input sequence (message.drop headerBytes) queued
    else s.disconnect (some .invalidFrame)

/-! ## The ports of the Z80 -/

def z80Out (port value : UInt8) (s : Server) : Server :=
  let queue := s.queue.ioWrite port value
  { s with
    queue
    printed := if queue.tx.count = s.queue.tx.count then s.printed else s.printed ++ [value] }

def z80In (port : UInt8) (s : Server) : Server :=
  let (value, queue) := s.queue.ioRead port
  { s with
    queue
    read := if queue.rx.count = s.queue.rx.count then s.read else s.read ++ [value] }

end Server

end Z80Sbc.Terminal
