import Z80Sbc.Chat.Endpoint
import Z80Sbc.Chat.Service

/-! # The network side of a chat

`chat_network.cpp`, with the requests of `chat.c` that reach it. The callbacks of lwIP run between
the services, and what lwIP, mbedTLS, the clock and ENV give is in the events. A connection is
known by its number, which stands for its `altcp_pcb`.

The fields from `number` on are not in the source: the generations taken, the request that is
being made, the requests made so far, and for every connection what was done to it. -/

namespace Z80Sbc.Chat
open Z80Sbc.Env (Entry)

def workBytes : Nat := 512
def receiveMax : Nat := 16384
def headerSize : Nat := 768

/-- What `start` was called for: its generation, ENV, and the text of the request. -/
structure Request where
  number : Nat
  env : Option (List Entry)
  body : List UInt8

/-- A name that lwIP looks up, with the argument of its callback. -/
structure Query where
  token : UInt32
  name : List UInt8
  number : Nat

/-- An `altcp_pcb`: its argument, the name that TLS verifies, the host and the port that it
connects to, and the bytes that were accepted. One that is released keeps its argument, so that
what comes from it late is in the runs as well. -/
structure Connection where
  token : UInt32
  tls : Bool
  hostname : Option (List UInt8)
  connect : Option (List UInt8 × Nat)
  written : List UInt8
  request : Request

structure Network where
  service : Service
  /-- The endpoint of `chat.c`, which `chat_network.cpp` has a pointer to. -/
  endpoint : Endpoint
  initialized : Bool
  /-- `active` of `chat_network.cpp`. -/
  running : Bool
  handshakeReady : Bool
  remoteClosed : Bool
  failure : Option (List UInt8)
  client : Option Nat
  pending : Option (List UInt8)
  pendingOffset : Nat
  /-- The buffer up to `header_length`. -/
  header : List UInt8
  headerSent : Nat
  bodyLength : Nat
  bodySent : Nat
  generation : UInt32
  queries : List Query
  connections : List Connection
  number : Nat
  request : Request
  started : List Request

namespace Network

def init : Network where
  service := serviceInit
  endpoint := .zero
  initialized := false
  running := false
  handshakeReady := false
  remoteClosed := false
  failure := none
  client := none
  pending := none
  pendingOffset := 0
  header := []
  headerSent := 0
  bodyLength := 0
  bodySent := 0
  generation := 0
  queries := []
  connections := []
  number := 0
  request := ⟨0, none, []⟩
  started := []

/-! ## Requests -/

/-- `release_client` -/
def releaseClient (n : Network) : Network :=
  { n with
    client := none
    pending := none
    pendingOffset := 0
    header := n.header.map fun _ => 0 }

/-- `cancel` -/
def cancel (n : Network) : Network :=
  let generation := n.generation + 1
  releaseClient
    { n with
      generation := if generation = 0 then generation + 1 else generation
      running := false
      number := n.number + 1 }

/-- `current` -/
def current (n : Network) (token : UInt32) : Bool := n.running && token == n.generation

/-- What `resolved` meets: the connection, its TLS context with the host name, and the start of
the connect. -/
structure Opening where
  allocated : Bool
  verified : Bool
  connecting : Bool

def fail (message : String) (n : Network) : Network :=
  { n with failure := some (text message.toList) }

/-- `resolved`, for the name that was looked up. -/
def resolved (name : List UInt8) (found : Bool) (token : UInt32) (o : Opening) (n : Network) :
    Network :=
  if !n.current token || n.failure.isSome || !n.service.active then n
  else if !found then n.fail "DNS lookup failed"
  else if !o.allocated then { n with client := none }.fail "TCP/TLS allocation failed"
  else
    let n := { n with client := some n.connections.length }
    let pcb : Connection := ⟨0, n.endpoint.https, none, none, [], n.request⟩
    if n.endpoint.https && !o.verified then
      { n with connections := n.connections ++ [pcb] }.fail "TLS hostname verification setup failed"
    else
      let hostname := if n.endpoint.https then some n.endpoint.host else none
      let pcb := { pcb with token, hostname, connect := some (name, n.endpoint.port) }
      let n := { n with connections := n.connections ++ [pcb] }
      if o.connecting then n else n.fail "TCP connection start failed"

/-- What `dns_gethostbyname` gives. -/
inductive Lookup where
  | found
  | inProgress
  | failed

/-- What `start` meets: the time, the TLS configuration, and the start of the lookup. -/
structure Starting where
  timeKnown : Bool
  configured : Bool
  lookup : Lookup
  opening : Opening

/-- `start`, for the endpoint and the text of `chat.c`. -/
def start (env : Option (List Entry)) (i : Starting) (n : Network) : Bool × Network :=
  let n := n.cancel
  let request : Request := ⟨n.number, env, n.service.request⟩
  let n := { n with
    bodyLength := n.service.request.length
    bodySent := 0
    headerSent := 0
    failure := none
    remoteClosed := false
    handshakeReady := false
    request
    started := n.started ++ [request] }
  let used := headerText n.endpoint n.bodyLength
  if headerSize ≤ used.length then (false, { n with header := used.take (headerSize - 1) })
  else
    let n := { n with header := used, running := true }
    if n.endpoint.https && !i.timeKnown then (true, n.fail "TLS needs synchronized SNTP time")
    else if n.endpoint.https && !i.configured then (true, n.fail "TLS trust configuration failed")
    else
      match i.lookup with
      | .found => (true, resolved n.endpoint.host true n.generation i.opening n)
      | .inProgress =>
        (true, { n with queries := n.queries ++ [⟨n.generation, n.endpoint.host, n.number⟩] })
      | .failed => (true, n.fail "DNS lookup start failed")

/-- `z80_chat_service`, with the network side of it. -/
def serve (env : Option (List Entry)) (i : Starting) (data : List UInt8) (n : Network) :
    Network :=
  let served (o : Start) (n : Network) : Network :=
    { n with service := (chatService o data n.service).2.2 }
  if !n.initialized then n
  else if data = [0] ∨ data = [2] then served ⟨none, true⟩ n.cancel
  else if data = [3] ∧ !n.service.active ∧ n.service.request ≠ [] ∧ n.service.online then
    let settings := loadSettings env
    let n := { n with endpoint := settings.2 }
    match settings.1 with
    | some message => served ⟨some message, false⟩ n
    | none =>
      let (ok, n) := start env i (served ⟨none, true⟩ n)
      if ok then n
      else { n with service := chatError (text "Cannot start HTTP request".toList) n.service }
  else served ⟨none, true⟩ n

/-! ## Sending -/

/-- What `altcp_write` and `altcp_output` give. -/
inductive Written where
  | ok
  | memory
  | error

/-- The end of `send_request`. -/
def flush (output : Written) (n : Network) : Network :=
  match output with
  | .error => n.fail "HTTP request flush failed"
  | _ => n

def accept (data : List UInt8) (n : Network) : Network :=
  match n.client with
  | none => n
  | some i =>
    let connections := n.connections.modify i fun c => { c with written := c.written ++ data }
    { n with connections }

/-- `send_request` -/
def sendRequest (write output : Written) (n : Network) : Network :=
  if !n.handshakeReady || n.failure.isSome then n
  else
    let inHeader := decide (n.headerSent < n.header.length)
    let data := if inHeader then n.header.drop n.headerSent else n.service.request.drop n.bodySent
    let remaining :=
      if inHeader then n.header.length - n.headerSent else n.bodyLength - n.bodySent
    if remaining = 0 then n.flush output
    else
      let length := min remaining workBytes
      match write with
      | .ok =>
        let n := n.accept (data.take length)
        (if inHeader then { n with headerSent := n.headerSent + length }
          else { n with bodySent := n.bodySent + length }).flush output
      | .memory => n.flush output
      | .error => n.fail "HTTP request write failed"

/-! ## Receiving -/

/-- The bytes of the retained chain that the parser takes. -/
def deliver (copied : Bool) (n : Network) : Network :=
  match n.pending with
  | none => n
  | some chain =>
    let length := min workBytes (chain.length - n.pendingOffset)
    if !copied then n.fail "HTTP receive chain copy failed"
    else
      let (consumed, service) := chatReceive ((chain.drop n.pendingOffset).take length) n.service
      let offset := n.pendingOffset + consumed
      if offset = chain.length then { n with service, pending := none, pendingOffset := 0 }
      else { n with service, pendingOffset := offset }

/-- What `z80_chat_network_service` meets. -/
structure Polling where
  online : Bool
  generation : UInt32
  timeout : Bool
  write : Written
  output : Written
  copied : Bool

/-- `z80_chat_network_poll`, with the cancel. -/
def pollChat (i : Polling) (n : Network) : Network :=
  let lost := n.service.active && (!i.online || i.generation != n.service.generation)
  let n := if lost then n.cancel else n
  { n with service := networkPoll i.online i.generation n.service }

/-- A failure is the error of a request that is not over. -/
def report (n : Network) : Network :=
  match n.failure with
  | some message =>
    if n.service.active then { n with service := chatError message n.service } else n
  | none => n

/-- The end of the service. -/
def finish (n : Network) : Network :=
  let n :=
    if n.service.active && n.remoteClosed && n.pending.isNone && n.failure.isNone then
      n.fail "Chat stream closed before [DONE]"
    else n
  let n := n.report
  if n.service.active then n else { n with running := false }.releaseClient

/-- `z80_chat_network_service` -/
def networkService (i : Polling) (n : Network) : Network :=
  let n := pollChat i { n with initialized := true }
  if !n.running then n
  else
    let n :=
      if n.service.active && n.failure.isNone && i.timeout then
        n.fail "HTTP stream timed out (120 seconds)"
      else n
    let n :=
      if n.service.active && n.failure.isNone && n.client.isSome then n.sendRequest i.write i.output
      else n
    let n := if n.service.active && n.failure.isNone then n.deliver i.copied else n
    n.finish

/-! ## Callbacks -/

/-- `socket_error` -/
def socketError (token : UInt32) (n : Network) : Network :=
  if !n.current token then n else { n with client := none }.fail "DNS/TCP/TLS connection failed"

/-- `connected` -/
def connected (token : UInt32) (pcb : Nat) (ok : Bool) (n : Network) : Network :=
  if !n.current token || n.client != some pcb then n
  else if !ok then n.fail "TCP/TLS connection failed"
  else { n with handshakeReady := true }

/-- `receive`; the chain is retained or stays with lwIP. -/
def receive (token : UInt32) (pcb : Nat) (data : Option (List UInt8)) (ok : Bool) (n : Network) :
    Network :=
  if !n.current token || n.client != some pcb then n
  else
    match data with
    | none =>
      let n := { n with remoteClosed := true }
      if ok then n else n.fail "HTTP receive failed"
    | some chain =>
      if !ok then n.fail "HTTP receive failed"
      else if receiveMax < chain.length then n.fail "HTTP receive chain exceeds 16384 bytes"
      else if n.pending.isSome then n
      else { n with pending := some chain, pendingOffset := 0 }

/-! ## Runs -/

/-- A callback of a connection has the argument of the connection. What it takes for its
`altcp_pcb` may be any, for a new one may have the address of one that is gone. -/
inductive Callback where
  | error
  | connected (pcb : Nat) (ok : Bool)
  | receive (pcb : Nat) (data : Option (List UInt8)) (ok : Bool)

inductive Event where
  | request (env : Option (List Entry)) (i : Starting) (data : List UInt8)
  | service (i : Polling)
  | resolved (query : Nat) (found : Bool) (o : Opening)
  | callback (connection : Nat) (c : Callback)

def call (token : UInt32) (n : Network) : Callback → Network
  | .error => n.socketError token
  | .connected pcb ok => n.connected token pcb ok
  | .receive pcb data ok => n.receive token pcb data ok

/-- The callback of a name; a name is looked up once. -/
def answer (query : Nat) (found : Bool) (o : Opening) (n : Network) : Network :=
  match n.queries[query]? with
  | none => n
  | some q => { n with queries := n.queries.eraseIdx query }.resolved q.name found q.token o

def called (connection : Nat) (c : Callback) (n : Network) : Network :=
  match n.connections[connection]? with
  | none => n
  | some k => n.call k.token c

def step (n : Network) : Event → Network
  | .request env i data => n.serve env i data
  | .service i => n.networkService i
  | .resolved query found o => n.answer query found o
  | .callback connection c => n.called connection c

def run (events : List Event) : Network := events.foldl step init

end Network

end Z80Sbc.Chat
