import RemoteServer.Lts.Pool
import RemoteServer.Lts.Run
import RemoteServer.Relay.Lists
import RemoteServer.Rendezvous.Messages

/-!
# The relay server

A client connects to the relay and presents a `RequestRelay`.  The first one of two
clients with the same uuid waits in the table `PEERS`; the task of the second one takes
the stream of the first out of the table and copies the data of both until the session
ends.  The task of the first one only sleeps for 30 seconds, removes what is still its own
entry, and ends.  Every task holds a permit of `connection_slots` from its start to its
end.

The number of a connection is that of its task, so the stream of a waiting client is the
number of the task that accepted it.  A task only loses control at an `.await`, and its
`Stage` says at which one it is.

* `handleConnection`, `message`, `pair`, `expire` and `turn` are the steps of a task.
* `step` takes an action: a socket arrives, a task makes its next step, time passes.

Left out are the bytes of a session, its limiters and the table `USAGE`, which only the
console reads.  `NEXT_PENDING_GENERATION` is a natural number here: the counter of the
source has 64 bits.
-/

namespace RemoteServer.Relay

open RustStd Lts Rendezvous

structure Config where
  key : String
  maxConnections : Nat
  /-- The bounds of `MAX_RELAY_CONNECTIONS`. -/
  bounds : 64 ≤ maxConnections ∧ maxConnections ≤ 65536
  runtimeConsole : Bool
  trustProxyHeaders : Bool
  parseIp : String → Option IpAddr

def maxPendingRelays : Nat := 4096
def maxPendingRelaysPerIp : Nat := 32

structure PendingRelay where
  stream : Nat
  sourceIp : IpAddr
  generation : Nat
deriving DecidableEq

/-- What `relay` keeps of the time. -/
structure Session where
  /-- The last periodic check. -/
  tm : Nat
  lastRecvTime : Nat
deriving DecidableEq

inductive Stage where
  /-- The task of a console connection. -/
  | console
  | upgrading
  /-- Waiting for the first message since that instant. -/
  | reading (since : Nat)
  /-- Before the lock of `PEERS`. -/
  | pairing (rf : RequestRelay)
  /-- The stream was put into the table at that instant, and the task sleeps. -/
  | sleeping (uuid : String) (generation since : Nat)
  /-- `remove_pending_if_generation`, before the lock of `PEERS`. -/
  | expiring (uuid : String) (generation : Nat)
  /-- `relay`, with the stream of `peer`. -/
  | relaying (peer : Nat) (session : Session)
  | ended
deriving DecidableEq

structure Conn where
  /-- The source of the socket. -/
  socket : SocketAddr
  /-- The address that the task works with. -/
  addr : SocketAddr
  ws : Bool
  /-- The message that the client has presented. -/
  request : Option RequestRelay
  stage : Stage
deriving DecidableEq

structure State where
  now : Nat
  conns : List Conn
  peers : HashMap String PendingRelay
  nextPendingGeneration : Nat
  /-- The free permits of `connection_slots`. -/
  slots : Nat
  lists : Lists

inductive Event where
  /-- There was no permit for a socket. -/
  | refused (addr : SocketAddr)
  | blocked (addr : SocketAddr)
deriving DecidableEq

namespace State

/-- Task `i` goes on. -/
def advance (s : State) (i : Nat) (conn : Conn) : State :=
  { s with conns := Lts.advance s.conns i conn [] }

/-- Task `i` ends and gives its permit back. -/
def finish (s : State) (i : Nat) (conn : Conn) : State :=
  { s.advance i { conn with stage := .ended } with slots := s.slots + 1 }

/-- A task is started with a permit. -/
def spawn (s : State) (addr : SocketAddr) (ws : Bool) (stage : Stage) : State :=
  { s with conns := s.conns ++ [⟨addr, addr, ws, none, stage⟩], slots := s.slots - 1 }

end State

/-- The admission check of `handle_connection`. -/
def admissionCheck (blocklist : HashSet String) (addr : SocketAddr) : Bool :=
  blocklist.contains (tryIntoV4 addr).ip.toString

/-- `handle_connection`. -/
def handleConnection (cfg : Config) (s : State) (addr : SocketAddr) (ws : Bool) :
    State × List Event :=
  if s.slots = 0 then (s, [.refused addr])
  else if cfg.runtimeConsole && !ws && (tryIntoV4 addr).ip.isLoopback then
    (s.spawn addr ws .console, [])
  else if admissionCheck s.lists.blocklist addr then (s, [.blocked addr])
  else (s.spawn addr ws (if ws then .upgrading else .reading s.now), [])

/-- The proxy headers of an upgrade; a header whose value is no text is `some none`. -/
structure Headers where
  xRealIp : Option (Option String)
  xForwardedFor : Option (Option String)

/-- The client address that the headers name. -/
def Headers.realIp (cfg : Config) (headers : Headers) : Option IpAddr :=
  if cfg.trustProxyHeaders then
    ((headers.xRealIp <|> headers.xForwardedFor).bind fun header => header).bind fun value =>
      let ip := Str.trim ((Str.split ',' value).head?.getD "")
      if ip.isEmpty then none else cfg.parseIp ip
  else none

/-- The same socket address with another IP. -/
def withIp (addr : SocketAddr) : IpAddr → SocketAddr
  | .v4 ip => .v4 ip addr.port
  | .v6 ip => .v6 ip addr.port 0 0

/-- `valid_relay_uuid` of the relay server, which is that of the rendezvous server. -/
def validRelayUuid (uuid : String) : Bool := Rendezvous.validRelayUuid uuid

/-- The first message of connection `i`: none when it is no `RequestRelay`. -/
def message (cfg : Config) (s : State) (i : Nat) (conn : Conn) (msg : Option RequestRelay) :
    State :=
  match msg with
  | none => s.finish i conn
  | some rf =>
    let conn := { conn with request := some rf }
    if !cfg.key.isEmpty && decide (rf.licenceKey ≠ cfg.key) then s.finish i conn
    else if validRelayUuid rf.uuid && decide (rf.licenceKey.utf8ByteSize ≤ 128) then
      s.advance i { conn with stage := .pairing rf }
    else s.finish i conn

/-- The entries of one source. -/
def pendingForIp (peers : HashMap String PendingRelay) (ip : IpAddr) : Nat :=
  peers.entries.countP fun entry => decide (entry.2.sourceIp = ip)

/-- `make_pair_` with the lock of `PEERS`. -/
def pair (s : State) (i : Nat) (conn : Conn) (rf : RequestRelay) : State :=
  match s.peers.get rf.uuid with
  | some pending =>
    { s.advance i { conn with stage := .relaying pending.stream ⟨s.now, s.now⟩ } with
      peers := s.peers.remove rf.uuid }
  | none =>
    if maxPendingRelays ≤ s.peers.len ∨ maxPendingRelaysPerIp ≤ pendingForIp s.peers conn.addr.ip then
      s.finish i conn
    else
      { s.advance i { conn with stage := .sleeping rf.uuid s.nextPendingGeneration s.now } with
        peers := s.peers.insert rf.uuid ⟨i, conn.addr.ip, s.nextPendingGeneration⟩
        nextPendingGeneration := s.nextPendingGeneration + 1 }

/-- `remove_pending_if_generation`. -/
def removePendingIfGeneration (peers : HashMap String PendingRelay) (uuid : String)
    (generation : Nat) : HashMap String PendingRelay :=
  match peers.get uuid with
  | some pending => if pending.generation = generation then peers.remove uuid else peers
  | none => peers

/-- What one turn of the loop of `relay` waits for. -/
inductive Ready where
  /-- Data of one of the two clients, and whether it could be sent on. -/
  | data (sent : Bool)
  /-- One of the two streams has ended or failed. -/
  | closed
  | timer
deriving DecidableEq

/-- The check of `relay` every second. -/
def periodicCheck (blocklist : HashSet String) (addr : SocketAddr) : Bool :=
  blocklist.contains addr.ip.toString

/-- The part of a turn of `relay` before its periodic check: none when the session ends. -/
def received (now : Nat) (session : Session) : Ready → Option Session
  | .data sent => if sent then some { session with lastRecvTime := now } else none
  | .closed => none
  | .timer => if 30 < Instant.elapsedSecs now session.lastRecvTime then none else some session

/-- One turn of the loop of `relay` on the task of the second client. -/
def turn (s : State) (i : Nat) (conn : Conn) (peer : Nat) (session : Session) (ready : Ready) :
    State :=
  match received s.now session ready with
  | none => s.finish i conn
  | some session =>
    if 1000 ≤ Instant.elapsedMillis s.now session.tm then
      if periodicCheck s.lists.blocklist conn.addr then s.finish i conn
      else s.advance i { conn with stage := .relaying peer { session with tm := s.now } }
    else s.advance i { conn with stage := .relaying peer session }

inductive Action where
  | tick (d : Nat)
  | accept (addr : SocketAddr) (ws : Bool)
  | upgrade (i : Nat) (headers : Headers)
  | message (i : Nat) (msg : Option RequestRelay)
  /-- The connection fails or times out before its first message. -/
  | drop (i : Nat)
  | pair (i : Nat)
  | wake (i : Nat)
  | expire (i : Nat)
  | turn (i : Nat) (ready : Ready)
  /-- A command arrives at the console, or nothing within its timeout. -/
  | command (i : Nat) (cmd : Option String)

/-- The step of a task. -/
def stepConn (cfg : Config) (s : State) (i : Nat) (conn : Conn) : Action → Option State
  | .upgrade _ headers =>
    if conn.stage = .upgrading then
      some (s.advance i { conn with
        addr := ((headers.realIp cfg).map (withIp conn.addr)).getD conn.addr
        stage := .reading s.now })
    else none
  | .message _ msg =>
    match conn.stage with
    | .reading since =>
      if Instant.elapsedMillis s.now since ≤ 30000 then some (message cfg s i conn msg) else none
    | _ => none
  | .drop _ =>
    match conn.stage with
    | .upgrading => some (s.finish i conn)
    | .reading _ => some (s.finish i conn)
    | _ => none
  | .pair _ =>
    match conn.stage with
    | .pairing rf => some (pair s i conn rf)
    | _ => none
  | .wake _ =>
    match conn.stage with
    | .sleeping uuid generation since =>
      if 30 ≤ Instant.elapsedSecs s.now since then
        some (s.advance i { conn with stage := .expiring uuid generation })
      else none
    | _ => none
  | .expire _ =>
    match conn.stage with
    | .expiring uuid generation =>
      some { s.finish i conn with peers := removePendingIfGeneration s.peers uuid generation }
    | _ => none
  | .turn _ ready =>
    match conn.stage with
    | .relaying peer session => some (turn s i conn peer session ready)
    | _ => none
  | .command _ cmd =>
    match conn.stage, cmd with
    | .console, some cmd =>
      some { s.finish i conn with lists := (checkCmd cfg.parseIp s.lists cmd).1 }
    | .console, none => some (s.finish i conn)
    | _, _ => none
  | _ => none

/-- The task of an action. -/
def Action.task? : Action → Option Nat
  | .tick _ => none
  | .accept _ _ => none
  | .upgrade i _ => some i
  | .message i _ => some i
  | .drop i => some i
  | .pair i => some i
  | .wake i => some i
  | .expire i => some i
  | .turn i _ => some i
  | .command i _ => some i

def step (cfg : Config) (s : State) (a : Action) : Option (State × List Event) :=
  match a with
  | .tick d => some ({ s with now := s.now + d }, [])
  | .accept addr ws => some (handleConnection cfg s addr ws)
  | a =>
    (a.task?).bind fun i => (s.conns[i]?).bind fun conn =>
      (stepConn cfg s i conn a).map fun s' => (s', [])

/-- The state in which the relay starts, with the lists that it has loaded. -/
def State.initial (cfg : Config) (now : Nat) (lists : Lists) : State where
  now := now
  conns := []
  peers := .empty
  nextPendingGeneration := 1
  slots := cfg.maxConnections
  lists := lists

/-! ## Concrete runs -/

def sampleConfig : Config where
  key := "key"
  maxConnections := 64
  bounds := by decide
  runtimeConsole := true
  trustProxyHeaders := true
  parseIp := fun _ => none

/-- An address of host `host`. -/
def sampleAddr (host : UInt8) : SocketAddr := .v4 ⟨192, 0, 2, host⟩ 5000

def sampleRequest (uuid : String) : RequestRelay where
  id := PeerStore.sampleId
  uuid := uuid
  socketAddr := []
  relayServer := ""
  licenceKey := "key"
  token := ""
  switchCode := ""
  rendezvousToken := []
  controlPermissions := none
  controlledContext := none

/-- Client `i` connects and presents its request. -/
def connects (i : Nat) (addr : SocketAddr) (uuid : String) : List Action :=
  [.accept addr false, .message i (some (sampleRequest uuid)), .pair i]

/-- A relay that has loaded no lists. -/
def sampleStart (cfg : Config) : State := .initial cfg 0 ⟨.empty, .empty⟩

end RemoteServer.Relay
