import RemoteServer.Rendezvous.Pending

/-!
# Connections, sinks and the handlers of a rendezvous

Every control connection has a task that reads its messages and handles one after
the other, and a bounded channel of messages for it.  The sender of a channel is in
`tcp_punch` under the canonical source address of the connection, and that is how
another handler finds it.  The UDP socket has one more task.

As in the peer store, a handler only loses control at an `.await`, so the state of
a connection says at which one its handler is.

* `Shared` is what the handlers work on: the peer store, the table of pending
  rendezvous and `tcp_punch`, which are the `Tables`, and the channels.
* `Handler` are the points of `handle_tcp_msg` and of what it calls, and `Responding`
  those of the answers, which the UDP task has as well.
* `step` takes an action: a connection opens, sends a message or ends, a handler or a
  task of the store makes its next step, a channel is emptied.

A handler that calls the peer store starts a task there and waits for its end, so a
run of this system contains a run of the store.

Left out are the upstream request of the API proxy, whose result is part of an
action (`Choice`), and the log of punch-hole requests, which only the console reads.
-/

namespace RemoteServer.Rendezvous

open RustStd

structure Config where
  peerStore : PeerStore.Config
  protocol : Protocol
  /-- The key that a `PunchHoleRequest` has to bring. -/
  key : String
  /-- The local network, if one is configured. -/
  mask : Option (Ipv4Addr → Bool)
  localIp : String

/-- `is_lan`. -/
def Config.isLan (cfg : Config) (addr : SocketAddr) : Bool :=
  match cfg.mask with
  | none => false
  | some network =>
    match addr.ip with
    | .v4 ip => network ip
    | .v6 ip => ip.toIpv4.any network

/-! ## What the handlers share -/

def connectionQueueCapacity : Nat := 64

/-- The channel of a connection. -/
structure Channel where
  queue : List ServerMessage
  /-- Whether the receiving end still exists. -/
  receiver : Bool

/-- What the handlers look things up in. -/
structure Tables where
  store : PeerStore.State
  pending : PendingTable
  /-- `tcp_punch`; a sender is the number of its connection. -/
  tcpPunch : HashMap SocketAddr Nat

/-- A call of the peer store: its task gets the next number. -/
def Tables.call (s : Tables) (r : PeerStore.Request) : Tables :=
  { s with store := { s.store with tasks := s.store.tasks ++ [r.start] } }

/-- `ProxyRate`: the requests of one source in the current window. -/
structure ProxyRate where
  startedAt : Nat
  requests : Nat
deriving DecidableEq, Repr

structure Shared extends Tables where
  /-- The channel of each connection. -/
  channels : List Channel
  /-- `ROTATION_RELAY_SERVER`. -/
  rotation : Nat
  /-- `ALWAYS_USE_RELAY`. -/
  alwaysUseRelay : Bool
  /-- `http_proxy_rates`. -/
  proxyRates : HashMap IpAddr ProxyRate
  /-- The free permits of `http_proxy_slots`. -/
  proxySlots : Nat
  /-- The connections whose `health_keepalive_started` is set. -/
  healthChecked : List Nat
  /-- The connections whose keep-alive task runs. -/
  keepAlives : List Nat

namespace Shared

/-- `try_send`: fails on a full channel and on one without a receiver. -/
def trySend (s : Shared) (c : Nat) (msg : ServerMessage) : Option Shared :=
  match s.channels[c]? with
  | some ch =>
    if ch.receiver && decide (ch.queue.length < connectionQueueCapacity) then
      some { s with channels := s.channels.set c { ch with queue := ch.queue ++ [msg] } }
    else none
  | none => none

/-- `send_to_sink` on the connection's own sender. -/
def sendToSink (s : Shared) (c : Nat) (msg : ServerMessage) : Shared × Bool :=
  match s.trySend c msg with
  | some s' => (s', true)
  | none => (s, false)

/-- `send_to_tcp_sync`: the connection that got the message. -/
def sendToTcpSync (proto : Protocol) (s : Shared) (msg : ServerMessage) (addr : SocketAddr) :
    Option (Nat × Shared) :=
  (s.tcpPunch.get (proto.tryIntoV4 addr)).bind fun c => (s.trySend c msg).map fun s' => (c, s')

/-- `send_to_tcp`: the sender is taken out of the map. -/
def sendToTcp (proto : Protocol) (s : Shared) (msg : ServerMessage) (addr : SocketAddr) :
    Shared × Option Nat :=
  let removed := { s with tcpPunch := s.tcpPunch.remove (proto.tryIntoV4 addr) }
  match (s.tcpPunch.get (proto.tryIntoV4 addr)).bind fun c =>
      (removed.trySend c msg).map fun s' => (c, s') with
  | some (c, s') => (s', some c)
  | none => (removed, none)

def call (s : Shared) (r : PeerStore.Request) : Shared :=
  { s with toTables := s.toTables.call r }

/-- `get_relay_server` on the list that a connection has, with the counter after it. -/
def getRelayServer (s : Shared) (relayServers : List String) : Shared × String :=
  match relayServers with
  | [] => (s, "")
  | [server] => (s, server)
  | servers =>
    ({ s with rotation := (s.rotation + 1) % 2 ^ 64 }, servers.getD (s.rotation % servers.length) "")

end Shared

/-! ## Requests that the server answers itself -/

def onlineQueryMaxPeers : Nat := 256
def httpProxyMaxConcurrency : Nat := 64
def httpProxyRateWindowSecs : Nat := 60
def httpProxyRatePerIp : Nat := 120
def httpProxyMaxTrackedIps : Nat := 4096

/-- `allow_http_proxy_request`. -/
def allowHttpProxyRequest (rates : HashMap IpAddr ProxyRate) (ip : IpAddr) (now : Nat) :
    HashMap IpAddr ProxyRate × Bool :=
  let full := !rates.containsKey ip && decide (httpProxyMaxTrackedIps ≤ rates.len)
  let rates :=
    if full then
      rates.retain fun _ rate =>
        decide (Instant.elapsedSecs now rate.startedAt < httpProxyRateWindowSecs)
    else rates
  if full && decide (httpProxyMaxTrackedIps ≤ rates.len) then (rates, false)
  else
    let rate := (rates.get ip).getD ⟨now, 0⟩
    let rate :=
      if httpProxyRateWindowSecs ≤ Instant.elapsedSecs now rate.startedAt then ⟨now, 0⟩ else rate
    if httpProxyRatePerIp ≤ rate.requests then (rates.insert ip rate, false)
    else (rates.insert ip { rate with requests := rate.requests + 1 }, true)

/-- `http_proxy_authorized` on an encrypted connection. -/
def httpProxyAuthorized (key licenceKey : String) : Bool :=
  !key.isEmpty && decide (licenceKey = key)

/-- The zeroed states of `build_online_response` for `n` ids. -/
def offlineStates (n : Nat) : Bytes := List.replicate ((n + 7) / 8) 0

/-- The bit of the `i`-th id is set when the peer is online. -/
def setOnline (states : Bytes) (i : Nat) (online : Bool) : Bytes :=
  if online then states.modify (i / 8) fun byte => byte ||| 1 <<< (UInt8.ofNat (7 - i % 8))
  else states

/-- The answer to a `TestNatRequest`. -/
def testNatResponse (cfg : Config) (addr : SocketAddr) (serial : Int) : ServerMessage :=
  .testNatResponse addr.port
    (if serial < cfg.peerStore.serial then
      some ⟨cfg.peerStore.serial, cfg.peerStore.rendezvousServers⟩
    else none)

/-! ## Requests for a peer -/

/-- A request that is to be routed to a peer. -/
inductive Ask where
  | punchHole (ph : PunchHoleRequest)
  | relay (rf : RequestRelay)
deriving DecidableEq

def Ask.id : Ask → PeerId
  | .punchHole ph => ph.id
  | .relay rf => rf.id

/-- What is decided about a request before its token is reserved. -/
structure Route where
  ask : Ask
  peerAddr : SocketAddr
  kind : PendingRendezvousKind
  relayServer : String
deriving DecidableEq

/-- The message for the peer. -/
def Route.message (proto : Protocol) (route : Route) (addr : SocketAddr) (token : Bytes) :
    ServerMessage :=
  match route.ask with
  | .punchHole ph =>
    if route.kind = .localAddr then
      .fetchLocalAddr ⟨proto.mangle addr, route.relayServer, ph.socketAddrV6, token⟩
    else
      .punchHole ⟨proto.mangle addr, ph.natType, route.relayServer, ph.forceRelay,
        ph.socketAddrV6, token⟩
  | .relay rf =>
    .requestRelay ({ rf with
      socketAddr := proto.mangle addr
      rendezvousToken := token
      relayServer := route.relayServer } : RequestRelay).stripUntrustedMetadata

/-- Whether both ends have the same source IP, in the same address family. -/
def sameIp : SocketAddr → SocketAddr → Bool
  | .v4 a _, .v4 b _ => decide (a = b)
  | .v6 a _ _ _, .v6 b _ _ _ => decide (a = b)
  | _, _ => false

/-- `handle_punch_hole_request` from the online check to the reservation. -/
def routePunchHole (cfg : Config) (s : Shared) (relayServers : List String) (ws : Bool)
    (addr : SocketAddr) (ph : PunchHoleRequest) (peerAddr : SocketAddr) : Shared × Route :=
  let peerIsLan := cfg.isLan peerAddr
  let isLan := cfg.isLan addr
  let (s, relayServer) := s.getRelayServer relayServers
  let forced := s.alwaysUseRelay || (peerIsLan != isLan)
  let relayServer := if forced && peerIsLan then cfg.localIp else relayServer
  let ph := if forced then { ph with natType := .known .symmetric } else ph
  let sameIntranet := !ph.forceRelay && !ws && (peerIsLan && isLan || sameIp peerAddr addr)
  (s, ⟨.punchHole ph, peerAddr, if sameIntranet then .localAddr else .direct, relayServer⟩)

/-- The same part of the handling of a `RequestRelay`. -/
def routeRelay (cfg : Config) (s : Shared) (relayServers : List String) (rf : RequestRelay)
    (peerAddr : SocketAddr) : Shared × Route :=
  if cfg.isLan peerAddr then (s, ⟨.relay rf, peerAddr, .relay, cfg.localIp⟩)
  else
    let (s, relayServer) := s.getRelayServer relayServers
    (s, ⟨.relay rf, peerAddr, .relay, relayServer⟩)

/-! ## Answers of a peer -/

/-- One of the three answers. -/
inductive Response where
  | holeSent (phs : PunchHoleSent)
  | localAddr (la : LocalAddr)
  | relay (rr : RelayResponse)
deriving DecidableEq

namespace Response

def id : Response → PeerId
  | holeSent phs => phs.id
  | localAddr la => la.id
  | relay rr => rr.id

def token : Response → Bytes
  | holeSent phs => phs.rendezvousToken
  | localAddr la => la.rendezvousToken
  | relay rr => rr.rendezvousToken

/-- The requester that the answer names, as it stands in the message. -/
def socketAddr : Response → Bytes
  | holeSent phs => phs.socketAddr
  | localAddr la => la.socketAddr
  | relay rr => rr.socketAddr

def version : Response → String
  | holeSent phs => phs.version
  | localAddr la => la.version
  | relay rr => rr.version

/-- The kind of request that the message answers. -/
def kind : Response → PendingRendezvousKind
  | holeSent _ => .direct
  | localAddr _ => .localAddr
  | relay _ => .relay

def wellFormed (proto : Protocol) : Response → Bool
  | holeSent phs => phs.wellFormed proto
  | localAddr la => la.wellFormed proto
  | relay rr => rr.wellFormed proto

/-- The message for the controller: `pk` is the signed key, and `addr` and `isUdp` say
where the answer came from. -/
def reply (proto : Protocol) (resp : Response) (addr : SocketAddr) (isUdp : Bool)
    (consumed : ConsumedRendezvous) (pk : Bytes) : ServerMessage :=
  match resp with
  | holeSent phs =>
    .punchHoleResponse {
      socketAddr := proto.mangle addr
      pk := pk
      relayServer := consumed.relayServer
      socketAddrV6 := phs.socketAddrV6
      isUdp := isUdp
      union :=
        match phs.natType.enumValue with
        | some natType => .natType natType
        | none => .unset }
  | localAddr la =>
    .punchHoleResponse {
      socketAddr := la.localAddr
      pk := pk
      relayServer := consumed.relayServer
      socketAddrV6 := la.socketAddrV6
      union := .isLocal true }
  | relay rr =>
    .relayResponse { rr with
      socketAddr := []
      rendezvousToken := []
      union := .pk pk
      relayServer := if rr.refuseReason.isEmpty then consumed.relayServer else "" }

end Response

/-! ## Events -/

/-- A token that was reserved for the request of a connection. -/
structure Reservation where
  conn : Nat
  token : Bytes
  entry : PendingRendezvous
deriving DecidableEq, Repr

/-- What an observer sees. -/
inductive Event where
  /-- An event of the peer store. -/
  | store (e : PeerStore.Event)
  | reserved (r : Reservation)
  /-- An entry was removed because of its age. -/
  | expired (token : Bytes)
  /-- The request of `conn` for the peer `id` was put on the channel of `target`. -/
  | pushed (conn target : Nat) (id : PeerId) (msg : ServerMessage)
  | undelivered (conn : Nat) (token : Bytes)
  /-- `conn` removed its token again. -/
  | withdrawn (conn : Nat) (token : Bytes)
  | accepted (resp : Response) (consumed : ConsumedRendezvous) (now : Nat)
  | rejected (resp : Response) (err : Rejection)
  /-- The answer was sent on, if `target` is a connection. -/
  | replied (resp : Response) (addr : SocketAddr) (msg : ServerMessage) (target : Option Nat)
deriving DecidableEq

/-! ## The points of a handler -/

/-- The handling of an answer. -/
inductive Responding where
  /-- Before the lock of the table. -/
  | consume (resp : Response)
  /-- Waiting for `get_pk`, which is task `j` of the store. -/
  | getPk (resp : Response) (consumed : ConsumedRendezvous) (j : Nat)
  /-- `send_to_tcp`, before the lock of `tcp_punch`. -/
  | reply (resp : Response) (consumed : ConsumedRendezvous) (pk : Bytes)
deriving DecidableEq

inductive Register where
  | peer (rp : RegisterPeer)
  | pk (rk : RegisterPk)
deriving DecidableEq

def Register.request (origin : PeerStore.Origin) : Register → PeerStore.Request
  | .peer rp => .registerPeer origin rp
  | .pk rk => .registerPk origin rk

inductive Handler where
  /-- `cache_sink`, before the lock of `tcp_punch`. -/
  | cacheSink (r : Register)
  /-- Waiting for `register_peer_common` or `register_pk_common`. -/
  | register (j : Nat)
  /-- A `RegisterPeer` was answered; before the `ConfigureUpdate` is sent. -/
  | configure (cu : PeerStore.ConfigUpdate)
  /-- Waiting for the lookup of the peer. -/
  | find (ask : Ask) (j : Nat)
  /-- `reserve_pending_rendezvous`, before the lock of the table. -/
  | reserve (route : Route)
  /-- `send_to_tcp_sync` to the peer, before the lock of `tcp_punch`. -/
  | forward (route : Route) (token : Bytes)
  /-- The peer could not be reached; before the lock of the table. -/
  | withdraw (ask : Ask) (token : Bytes)
  /-- `send_to_tcp_sync` of a `PunchHoleResponse` to the connection's own address. -/
  | answer (failure : Failure)
  | respond (r : Responding)
  /-- `build_online_response`, waiting for the lookup of the `i`-th id. -/
  | online (rest : List PeerId) (i : Nat) (states : Bytes) (j : Nat)
  /-- `allow_http_proxy_request`, before the lock of the rates. -/
  | proxyRate
  /-- Waiting for `handle_http_proxy_request`, with a permit. -/
  | proxyCall
deriving DecidableEq

/-- How a handler goes on: to its next point, or it returns, and the connection stays
open or not. -/
inductive Next where
  | go (h : Handler)
  | ret (keep : Bool)
deriving DecidableEq

structure Outcome where
  shared : Shared
  next : Next
  events : List Event := []

/-- What the outside decides at a step of a handler. -/
structure Choice where
  /-- The tokens that the random number generator yields. -/
  draws : List (Vector UInt8 32) := []
  /-- What `handle_http_proxy_request` returns, `none` for an error. -/
  upstream : Option HttpProxyResponse := none

/-- What does not change about a connection. -/
structure Link where
  addr : SocketAddr
  ws : Bool
  /-- The relay list that the task of the connection got when it was started. -/
  relayServers : List String
deriving DecidableEq

/-! ## One step of a handler -/

/-- `get_pk` from the answer of the store. -/
def signedKey (proto : Protocol) (id : PeerId) : Option Bytes → Bytes
  | some pk => proto.sign id pk
  | none => []

/-- One step of the handling of an answer from `addr`; no next point when it is over. -/
def stepResponding (cfg : Config) (s : Shared) (addr : SocketAddr) (isUdp : Bool) :
    Responding → Option (Shared × Option Responding × List Event)
  | .consume resp =>
    match consumePendingRendezvous cfg.protocol s.pending resp.token resp.id resp.socketAddr
        (some resp.kind) s.store.now with
    | (pending, .ok consumed) =>
      some (({ s with pending := pending } : Shared).call (.getPk resp.version resp.id),
        some (.getPk resp consumed s.store.tasks.length),
        [.accepted resp consumed s.store.now])
    | (pending, .error err) =>
      some ({ s with pending := pending }, none,
        (if err = .expiredToken then [.expired resp.token] else []) ++ [.rejected resp err])
  | .getPk resp consumed j =>
    match s.store.tasks[j]? with
    | some (.done (.getPk _ signed)) =>
      some (s, some (.reply resp consumed (signedKey cfg.protocol resp.id signed)), [])
    | _ => none
  | .reply resp consumed pk =>
    let msg := resp.reply cfg.protocol addr isUdp consumed pk
    let (s', target) := s.sendToTcp cfg.protocol msg consumed.requester
    some (s', none, [.replied resp consumed.requester msg target])

/-- A `PunchHoleResponse` that says why the peer cannot be reached. -/
def punchHoleFailure (failure : Failure) : ServerMessage :=
  .punchHoleResponse { failure := failure }

/-- `send_relay_failure`, which is the end of the handler. -/
def sendRelayFailure (s : Shared) (c : Nat) (reason : String) (events : List Event) : Outcome :=
  let (s', keep) := s.sendToSink c (.relayResponse { refuseReason := reason })
  ⟨s', .ret keep, events⟩

/-- What the lookup of a request handler has seen: whether the peer is online, and its
address. -/
def seen? : PeerStore.Task → Option (Except String (Option (Bool × SocketAddr)))
  | .hold _ _ online addr => some (.ok (some (online, addr)))
  | .done (.seen _ result) => some result
  | _ => none

/-- Whether the lookup has seen a peer that is online. -/
def sawOnline : Except String (Option (Bool × SocketAddr)) → Bool
  | .ok (some (online, _)) => online
  | _ => false

/-- `send_to_sink` at the end of a handler, which returns its result. -/
def replyToSink (s : Shared) (c : Nat) (msg : ServerMessage) : Outcome :=
  let (s', keep) := s.sendToSink c msg
  ⟨s', .ret keep, []⟩

/-- The answer of a registration.  A `ConfigureUpdate` may follow it. -/
def answerRegistration (s : Shared) (c : Nat) : PeerStore.Answer → Option Outcome
  | .registerPeer _ _ (.ok (requestPk, cu)) =>
    match s.trySend c (.registerPeerResponse requestPk) with
    | none => some ⟨s, .ret false, []⟩
    | some s' =>
      match cu with
      | none => some ⟨s', .ret true, []⟩
      | some cu => some ⟨s', .go (.configure cu), []⟩
  | .registerPk _ _ (.ok result) => some (replyToSink s c (.registerPkResponse result))
  | .registerPeer _ _ (.error _) => some ⟨s, .ret false, []⟩
  | .registerPk _ _ (.error _) => some ⟨s, .ret false, []⟩
  | _ => none

/-- A request goes on with what its lookup has seen. -/
def stepFind (cfg : Config) (s : Shared) (c : Nat) (link : Link) (ask : Ask) :
    Except String (Option (Bool × SocketAddr)) → Outcome
  | .error _ => ⟨s, .ret false, []⟩
  | .ok none =>
    match ask with
    | .punchHole _ => ⟨s, .go (.answer .idNotExist), []⟩
    | .relay _ => sendRelayFailure s c "Peer is offline" []
  | .ok (some (false, _)) =>
    match ask with
    | .punchHole _ => ⟨s, .go (.answer .offline), []⟩
    | .relay _ => sendRelayFailure s c "Peer is offline" []
  | .ok (some (true, peerAddr)) =>
    match ask with
    | .punchHole ph =>
      let (s', route) := routePunchHole cfg s link.relayServers link.ws link.addr ph peerAddr
      ⟨s', .go (.reserve route), []⟩
    | .relay rf =>
      let (s', route) := routeRelay cfg s link.relayServers rf peerAddr
      ⟨s', .go (.reserve route), []⟩

/-- The tokens of the entries that a reservation removes because of their age. -/
def expiredTokens (pending : PendingTable) (now : Nat) : List Bytes :=
  (pending.entries.filter fun e => e.2.expired now).map Prod.fst

/-- The reservation of a token for a request. -/
def stepReserve (cfg : Config) (s : Shared) (c : Nat) (link : Link) (ch : Choice) (route : Route) :
    Outcome :=
  let expired := (expiredTokens s.pending s.store.now).map Event.expired
  match reservePendingRendezvous cfg.protocol s.pending link.addr route.ask.id route.kind
      route.relayServer ch.draws s.store.now with
  | (pending, .ok token) =>
    ⟨{ s with pending := pending }, .go (.forward route token), expired ++ [.reserved ⟨c, token,
      ⟨cfg.protocol.tryIntoV4 link.addr, route.ask.id, route.kind, route.relayServer, s.store.now⟩⟩]⟩
  | (pending, .error _) =>
    match route.ask with
    | .punchHole _ => ⟨{ s with pending := pending }, .ret false, expired⟩
    | .relay _ =>
      sendRelayFailure { s with pending := pending } c "Rendezvous server is busy" expired

/-- `build_online_response` after the lookup of the `i`-th id. -/
def stepOnline (s : Shared) (c : Nat) (i : Nat) (states : Bytes) : List PeerId → Outcome
  | [] => replyToSink s c (.onlineResponse states)
  | id :: rest =>
    ⟨s.call (.requestRelay id), .go (.online rest (i + 1) states s.store.tasks.length), []⟩

def httpProxyFailure (status : Int) (error : String) : ServerMessage :=
  .httpProxyResponse { status := status, error := error }

/-- The rate limit of the API proxy, and the permit. -/
def stepProxyRate (s : Shared) (c : Nat) (link : Link) : Outcome :=
  let (rates, allowed) := allowHttpProxyRequest s.proxyRates link.addr.ip s.store.now
  let s := { s with proxyRates := rates }
  if !allowed then replyToSink s c (httpProxyFailure 429 "API proxy rate limit exceeded")
  else if s.proxySlots = 0 then replyToSink s c (httpProxyFailure 503 "API proxy is busy")
  else ⟨{ s with proxySlots := s.proxySlots - 1 }, .go .proxyCall, []⟩

/-- One step of the handler of connection `c`; `none` when it has to wait. -/
def stepHandler (cfg : Config) (s : Shared) (c : Nat) (link : Link) (ch : Choice) :
    Handler → Option Outcome
  | .cacheSink r =>
    let cached := { s with tcpPunch := s.tcpPunch.insert (cfg.protocol.tryIntoV4 link.addr) c }
    some ⟨cached.call (r.request ⟨c, link.addr⟩), .go (.register s.store.tasks.length), []⟩
  | .register j =>
    match s.store.tasks[j]? with
    | some (.done answer) => answerRegistration s c answer
    | _ => none
  | .configure cu => some (replyToSink s c (.configureUpdate cu))
  | .find ask j => ((s.store.tasks[j]?).bind seen?).map (stepFind cfg s c link ask)
  | .reserve route => some (stepReserve cfg s c link ch route)
  | .forward route token =>
    let msg := route.message cfg.protocol link.addr token
    match s.sendToTcpSync cfg.protocol msg route.peerAddr with
    | some (target, s') => some ⟨s', .ret true, [.pushed c target route.ask.id msg]⟩
    | none => some ⟨s, .go (.withdraw route.ask token), [.undelivered c token]⟩
  | .withdraw ask token =>
    let withdrawn := { s with pending := s.pending.remove token }
    match ask with
    | .punchHole _ => some ⟨withdrawn, .go (.answer .offline), [.withdrawn c token]⟩
    | .relay _ => some (sendRelayFailure withdrawn c "Peer is offline" [.withdrawn c token])
  | .answer failure =>
    match s.sendToTcpSync cfg.protocol (punchHoleFailure failure) link.addr with
    | some (_, s') => some ⟨s', .ret true, []⟩
    | none => some ⟨s, .ret false, []⟩
  | .respond r =>
    -- `handle_tcp_msg` returns `false` after an answer, also after an accepted one
    match stepResponding cfg s link.addr false r with
    | some (s', some r', events) => some ⟨s', .go (.respond r'), events⟩
    | some (s', none, events) => some ⟨s', .ret false, events⟩
    | none => none
  | .online rest i states j =>
    ((s.store.tasks[j]?).bind seen?).map fun result =>
      stepOnline s c i (setOnline states i (sawOnline result)) rest
  | .proxyRate => some (stepProxyRate s c link)
  | .proxyCall =>
    let resp := ch.upstream.getD { status := 502, error := "API upstream request failed" }
    some (replyToSink { s with proxySlots := s.proxySlots + 1 } c (.httpProxyResponse resp))

/-- A message of connection `c` up to the first `.await` of its handler. -/
def receive (cfg : Config) (s : Shared) (c : Nat) (link : Link) : ClientMessage → Shared × Next
  | .registerPeer rp => (s, if validPeerId rp.id then .go (.cacheSink (.peer rp)) else .ret true)
  | .registerPk rk => (s, .go (.cacheSink (.pk rk)))
  | .punchHoleRequest ph =>
    if !ph.wellFormed cfg.protocol then (s, .go (.answer .idNotExist))
    else if !cfg.key.isEmpty && decide (ph.licenceKey ≠ cfg.key) then
      (s, .go (.answer .licenseMismatch))
    else (s.call (.punchHole ph.id), .go (.find (.punchHole ph) s.store.tasks.length))
  | .requestRelay rf =>
    if rf.wellFormed then (s.call (.requestRelay rf.id), .go (.find (.relay rf) s.store.tasks.length))
    else (s, .ret false)
  | .punchHoleSent phs => (s, receiveResponse (.holeSent phs))
  | .localAddr la => (s, receiveResponse (.localAddr la))
  | .relayResponse rr => (s, receiveResponse (.relay rr))
  | .testNatRequest serial =>
    -- this arm has no `return`, so the handler ends with `false`
    ((s.sendToSink c (testNatResponse cfg link.addr serial)).1, .ret false)
  | .onlineRequest peers =>
    if decide (onlineQueryMaxPeers < peers.length) || peers.any fun id => !validPeerId id then
      (s, .ret false)
    else
      match peers with
      | [] => replyNow (.onlineResponse [])
      | id :: rest =>
        (s.call (.requestRelay id),
          .go (.online rest 0 (offlineStates peers.length) s.store.tasks.length))
  | .httpProxyRequest licenceKey =>
    if httpProxyAuthorized cfg.key licenceKey then (s, .go .proxyRate)
    else replyNow (httpProxyFailure 403 "API proxy authorization failed")
  | .hc token =>
    if token.isEmpty || decide (256 < token.utf8ByteSize) || s.healthChecked.contains c then
      (s, .ret true)
    else
      ({ s with healthChecked := c :: s.healthChecked, keepAlives := c :: s.keepAlives }, .ret true)
  | .keyExchange => (s, .ret true)
  | .other => (s, .ret false)
where
  replyNow (msg : ServerMessage) : Shared × Next :=
    let (s', keep) := s.sendToSink c msg
    (s', .ret keep)
  receiveResponse (resp : Response) : Next :=
    if resp.wellFormed cfg.protocol then .go (.respond (.consume resp)) else .ret false

/-! ## The system -/

/-- The task of a connection. -/
inductive Status where
  | idle
  | busy (h : Handler)
  /-- The loop was left and the sender is still in `tcp_punch`. -/
  | ending
  | ended
deriving DecidableEq

structure Conn where
  link : Link
  status : Status
deriving DecidableEq

structure State extends Shared where
  conns : List Conn
  /-- The datagram that the UDP task handles, with its source. -/
  udp : Option (SocketAddr × Responding)

inductive Action where
  | tick (d : Nat)
  /-- A connection is through its handshake and its sender is inserted. -/
  | accept (link : Link)
  | message (c : Nat) (msg : ClientMessage)
  | handle (c : Nat) (ch : Choice)
  /-- A `PunchHoleSent` arrives over UDP. -/
  | datagram (addr : SocketAddr) (phs : PunchHoleSent)
  | handleUdp
  | store (i : Nat) (ch : PeerStore.Choice)
  | evictTimer
  /-- The next message of a channel is written to its connection. -/
  | deliver (c : Nat)
  /-- The keep-alive task of a connection ticks. -/
  | keepAlive (c : Nat)
  /-- The connection is closed, has timed out or fails. -/
  | hangUp (c : Nat)
  /-- The forwarding task of a WebSocket connection is gone. -/
  | dropReceiver (c : Nat)
  /-- The last lines of `handle_listener_inner`. -/
  | close (c : Nat)
  | setAlwaysUseRelay (b : Bool)

/-- The receiver goes with the loop of a TCP connection.  That of a WebSocket connection
belongs to the forwarding task, which is aborted at about the same time. -/
def Shared.leaveLoop (s : Shared) (c : Nat) (ws : Bool) : Shared :=
  if ws then s
  else { s with channels := s.channels.modify c fun ch => { ch with receiver := false } }

/-- Connection `c` goes on. -/
def State.resume (s : State) (c : Nat) (conn : Conn) (shared : Shared) : Next → State
  | .go h => { shared with conns := s.conns.set c { conn with status := .busy h }, udp := s.udp }
  | .ret true => { shared with conns := s.conns.set c { conn with status := .idle }, udp := s.udp }
  | .ret false =>
    { shared.leaveLoop c conn.link.ws with
      conns := s.conns.set c { conn with status := .ending }
      udp := s.udp }

/-- One action of the system. -/
def step (cfg : Config) (s : State) : Action → Option (State × List Event)
  | .tick d => some ({ s with store := { s.store with now := s.store.now + d } }, [])
  | .accept link =>
    -- a source port is never 0
    if link.addr.port = 0 then none
    else
      some ({ s with
        tcpPunch := s.tcpPunch.insert (cfg.protocol.tryIntoV4 link.addr) s.conns.length
        channels := s.channels ++ [⟨[], true⟩]
        conns := s.conns ++ [⟨link, .idle⟩] }, [])
  | .message c msg =>
    match s.conns[c]? with
    | some ⟨link, .idle⟩ =>
      let (shared, next) := receive cfg s.toShared c link msg
      some (s.resume c ⟨link, .idle⟩ shared next, [])
    | _ => none
  | .handle c ch =>
    match s.conns[c]? with
    | some ⟨link, .busy h⟩ =>
      (stepHandler cfg s.toShared c link ch h).map fun out =>
        (s.resume c ⟨link, .busy h⟩ out.shared out.next, out.events)
    | _ => none
  | .datagram addr phs =>
    match s.udp with
    | none =>
      if phs.wellFormed cfg.protocol then
        some ({ s with udp := some (addr, .consume (.holeSent phs)) }, [])
      else some (s, [])
    | some _ => none
  | .handleUdp =>
    match s.udp with
    | some (addr, r) =>
      (stepResponding cfg s.toShared addr true r).map fun (shared, next, events) =>
        ({ shared with conns := s.conns, udp := next.map fun r' => (addr, r') }, events)
    | none => none
  | .store i ch =>
    (PeerStore.step cfg.peerStore s.store (.run i ch)).map fun (store, events) =>
      ({ s with store := store }, events.map Event.store)
  | .evictTimer => some ({ s with toShared := s.toShared.call .evictTimer }, [])
  | .deliver c =>
    match s.conns[c]?, s.channels[c]? with
    | some conn, some ⟨_ :: queue, true⟩ =>
      -- the loop of a TCP connection reads its channel between two messages
      if conn.link.ws || decide (conn.status = .idle) then
        some ({ s with channels := s.channels.set c ⟨queue, true⟩ }, [])
      else none
    | _, _ => none
  | .keepAlive c =>
    if s.keepAlives.contains c then
      match s.trySend c .healthCheckResponse with
      | some shared => some ({ s with toShared := shared }, [])
      | none => some ({ s with keepAlives := s.keepAlives.erase c }, [])
    else none
  | .hangUp c =>
    match s.conns[c]? with
    | some ⟨link, .idle⟩ => some (s.resume c ⟨link, .idle⟩ s.toShared (.ret false), [])
    | _ => none
  | .dropReceiver c =>
    match s.conns[c]? with
    | some conn =>
      if conn.link.ws then
        some ({ s with
          channels := s.channels.modify c fun ch => { ch with receiver := false } }, [])
      else none
    | none => none
  | .close c =>
    match s.conns[c]? with
    | some ⟨link, .ending⟩ =>
      let key := cfg.protocol.tryIntoV4 link.addr
      let tcpPunch := if s.tcpPunch.get key = some c then s.tcpPunch.remove key else s.tcpPunch
      some ({ s with tcpPunch := tcpPunch, conns := s.conns.set c ⟨link, .ended⟩ }, [])
    | _ => none
  | .setAlwaysUseRelay b => some ({ s with alwaysUseRelay := b }, [])

/-- The state in which the server starts. -/
def State.initial (now : Nat) (db : Database) : State where
  store := .initial now db
  pending := .empty
  tcpPunch := .empty
  channels := []
  rotation := 0
  alwaysUseRelay := false
  proxyRates := .empty
  proxySlots := httpProxyMaxConcurrency
  healthChecked := []
  keepAlives := []
  conns := []
  udp := none

/-! ## Data of the concrete runs -/

/-- `try_into_v4` of the protocol crate: mapped and compatible addresses become V4 ones. -/
def plainTryIntoV4 : SocketAddr → SocketAddr
  | .v6 ip port flowinfo scopeId =>
    if ip.isLoopback then .v6 ip port flowinfo scopeId
    else
      match ip.toIpv4 with
      | some v4 => .v4 v4 port
      | none => .v6 ip port flowinfo scopeId
  | .v4 ip port => .v4 ip port

/-- The octets of a V4 address and of its port; a V6 address is not encoded. -/
def plainMangle : SocketAddr → Bytes
  | .v4 ip port => [ip.a, ip.b, ip.c, ip.d, (port >>> 8).toUInt8, port.toUInt8]
  | .v6 _ _ _ _ => []

def plainTryDecode : Bytes → Option SocketAddr
  | [a, b, c, d, hi, lo] => some (.v4 ⟨a, b, c, d⟩ (hi.toUInt16 <<< 8 ||| lo.toUInt16))
  | _ => none

/-- A protocol crate without encryption: a signature is the key itself. -/
def Protocol.plain : Protocol where
  tryIntoV4 := plainTryIntoV4
  mangle := plainMangle
  tryDecode := plainTryDecode
  sign := fun _ pk => pk
  tryIntoV4_idem := by
    intro addr
    cases addr with
    | v4 => rfl
    | v6 ip port flowinfo scopeId =>
      by_cases hloop : ip.isLoopback = true
      · simp [plainTryIntoV4, hloop]
      · cases hv4 : ip.toIpv4 <;> simp [plainTryIntoV4, hloop, hv4]
  tryIntoV4_port := by
    intro addr
    cases addr with
    | v4 => rfl
    | v6 ip port flowinfo scopeId =>
      by_cases hloop : ip.isLoopback = true
      · simp [plainTryIntoV4, hloop, SocketAddr.port]
      · cases hv4 : ip.toIpv4 <;> simp [plainTryIntoV4, hloop, hv4, SocketAddr.port]

def sampleConfig : Config where
  peerStore := PeerStore.sampleConfig true
  protocol := .plain
  key := "key"
  mask := none
  localIp := "192.168.0.2"

/-- A TCP connection from a port of host `host`, with one relay server. -/
def sampleLink (host : UInt8) : Link := ⟨.v4 ⟨192, 0, 2, host⟩ 5000, false, ["relay.example.com"]⟩

/-- The handler of connection `c` makes `n` steps. -/
def handles (c n : Nat) : List Action := List.replicate n (.handle c {})

/-- Task `i` of the store makes `n` steps. -/
def stores (i n : Nat) : List Action := List.replicate n (.store i { status := some 204 })

/-- Connection 0 opens and registers the peer. -/
def registered : List Action :=
  [.accept (sampleLink 1), .message 0 (.registerPk (PeerStore.sampleRequest 1 2))] ++
    handles 0 1 ++ stores 0 6 ++ stores 1 2 ++ stores 0 1 ++ handles 0 1

def sampleToken (byte : UInt8) : Vector UInt8 32 := Vector.replicate 32 byte

def sampleRelay (licenceKey : String) : RequestRelay where
  id := PeerStore.sampleId
  uuid := "session-1"
  socketAddr := []
  relayServer := ""
  licenceKey := licenceKey
  token := ""
  switchCode := ""
  rendezvousToken := []
  controlPermissions := none
  controlledContext := none

/-- Connection `c` requests a relay; its lookup is task `j` of the store. -/
def relayRequested (c j : Nat) (licenceKey : String) (byte : UInt8) : List Action :=
  .message c (.requestRelay (sampleRelay licenceKey)) :: stores j 3 ++ handles c 1 ++
    .handle c { draws := [sampleToken byte] } :: handles c 1

/-- The answer of the peer to a relay request of connection 1. -/
def sampleAnswer (refuseReason : String) (byte : UInt8) : RelayResponse where
  union := .id PeerStore.sampleId
  uuid := "session-1"
  refuseReason := refuseReason
  socketAddr := plainMangle (sampleLink 2).addr
  rendezvousToken := (sampleToken byte).toList

end RemoteServer.Rendezvous
