import RemoteServer.PeerStore.Renaming
import RemoteServer.Rendezvous.Machine

/-!
# The rendezvous server under a renaming of addresses

What the handlers read of a source address is its canonical form, its encoding, whether it belongs
to the local network, and whether it is the address of the peer.  Under a renaming that keeps the
first three (`Config.Blind`) the whole server takes the renamed steps (`step_rename`) and sends the
same messages.

The peer store, the addresses of the connections and those of the peers are renamed.  `tcp_punch`
and the pending table hold canonical addresses, so they stay as they are.
-/

namespace RemoteServer.Rendezvous

open RustStd

/-- The protocol crate and the mask do not tell renamed addresses from the others. -/
structure Config.Blind (cfg : Config) (ρ : AddrRenaming) : Prop where
  tryIntoV4 : ∀ addr, cfg.protocol.tryIntoV4 (ρ.addr addr) = cfg.protocol.tryIntoV4 addr
  mangle : ∀ addr, cfg.protocol.mangle (ρ.addr addr) = cfg.protocol.mangle addr
  isLan : ∀ addr, cfg.isLan (ρ.addr addr) = cfg.isLan addr

variable (ρ : AddrRenaming) (codec : InfoCodec)

/-! ## Connections and handlers -/

def Link.rename (link : Link) : Link := { link with addr := ρ.addr link.addr }

def Route.rename (route : Route) : Route := { route with peerAddr := ρ.addr route.peerAddr }

def Handler.rename : Handler → Handler
  | .reserve route => .reserve (route.rename ρ)
  | .forward route token => .forward (route.rename ρ) token
  | h => h

def Next.rename : Next → Next
  | .go h => .go (h.rename ρ)
  | .ret keep => .ret keep

def Status.rename : Status → Status
  | .busy h => .busy (h.rename ρ)
  | status => status

def Conn.rename (conn : Conn) : Conn where
  link := conn.link.rename ρ
  status := conn.status.rename ρ

def Event.rename : Event → Event
  | .store e => .store (e.rename ρ)
  | e => e

/-! ## States -/

def Shared.rename (s : Shared) : Shared :=
  { s with
    store := s.store.rename ρ codec
    proxyRates := s.proxyRates.relabel ρ.ip id }

def Outcome.rename (out : Outcome) : Outcome where
  shared := out.shared.rename ρ codec
  next := out.next.rename ρ
  events := out.events.map (Event.rename ρ)

def State.rename (s : State) : State :=
  { s.toShared.rename ρ codec with
    conns := s.conns.map (Conn.rename ρ)
    udp := s.udp }

def Action.rename : Action → Action
  | .accept link => .accept (link.rename ρ)
  | a => a

/-! ## What is shared -/

section Shared

variable (s : Shared)

theorem trySend_rename (c : Nat) (msg : ServerMessage) :
    (s.rename ρ codec).trySend c msg = (s.trySend c msg).map (Shared.rename ρ codec) := by
  simp only [Shared.trySend]
  rw [show (s.rename ρ codec).channels = s.channels from rfl]
  cases s.channels[c]? with
  | none => rfl
  | some ch =>
    dsimp only
    split <;> rfl

theorem sendToSink_rename (c : Nat) (msg : ServerMessage) :
    (s.rename ρ codec).sendToSink c msg =
      (s.sendToSink c msg).map (Shared.rename ρ codec) id := by
  simp only [Shared.sendToSink, trySend_rename]
  cases s.trySend c msg <;> rfl

theorem sendToTcp_rename (proto : Protocol) (msg : ServerMessage) (addr : SocketAddr) :
    (s.rename ρ codec).sendToTcp proto msg addr =
      (s.sendToTcp proto msg addr).map (Shared.rename ρ codec) id := by
  simp only [Shared.sendToTcp]
  have hget : (s.rename ρ codec).tcpPunch = s.tcpPunch := rfl
  have hremoved : ∀ key c, Shared.trySend { s.rename ρ codec with tcpPunch := s.tcpPunch.remove key }
      c msg = (Shared.trySend { s with tcpPunch := s.tcpPunch.remove key } c msg).map
        (Shared.rename ρ codec) := fun key c =>
    trySend_rename ρ codec { s with tcpPunch := s.tcpPunch.remove key } c msg
  rw [hget]
  cases s.tcpPunch.get (proto.tryIntoV4 addr) with
  | none => rfl
  | some c =>
    simp only [Option.bind_some, hremoved]
    cases Shared.trySend { s with tcpPunch := s.tcpPunch.remove (proto.tryIntoV4 addr) } c msg <;> rfl

theorem call_rename (r : PeerStore.Request) :
    (s.call r).rename ρ codec = (s.rename ρ codec).call (r.rename ρ) := by
  have hcall := PeerStore.Request.start_rename ρ codec r
  simp only [Shared.call, Tables.call, Shared.rename, PeerStore.State.rename, List.map_append,
    List.map_cons, List.map_nil, hcall]

theorem tasks_rename : (s.rename ρ codec).store.tasks.length = s.store.tasks.length :=
  List.length_map _

theorem task_rename (j : Nat) :
    (s.rename ρ codec).store.tasks[j]? =
      (s.store.tasks[j]?).map (PeerStore.Task.rename ρ codec) :=
  List.getElem?_map

theorem getRelayServer_rename (relayServers : List String) :
    (s.rename ρ codec).getRelayServer relayServers =
      (s.getRelayServer relayServers).map (Shared.rename ρ codec) id := by
  unfold Shared.getRelayServer
  split <;> rfl

theorem replyToSink_rename (c : Nat) (msg : ServerMessage) :
    replyToSink (s.rename ρ codec) c msg = (replyToSink s c msg).rename ρ codec := by
  simp only [replyToSink, sendToSink_rename]
  rfl

theorem sendRelayFailure_rename (c : Nat) (reason : String) {events : List Event}
    (h : events.map (Event.rename ρ) = events) :
    sendRelayFailure (s.rename ρ codec) c reason events =
      (sendRelayFailure s c reason events).rename ρ codec := by
  simp only [sendRelayFailure, sendToSink_rename, Outcome.rename, h]
  rfl

theorem answerRegistration_rename (c : Nat) (answer : PeerStore.Answer) :
    answerRegistration (s.rename ρ codec) c (answer.rename ρ codec) =
      (answerRegistration s c answer).map (Outcome.rename ρ codec) := by
  cases answer with
  | registerPeer origin rp result =>
    cases result with
    | error err => rfl
    | ok result =>
      obtain ⟨requestPk, cu⟩ := result
      simp only [PeerStore.Answer.rename, answerRegistration, trySend_rename]
      cases s.trySend c (.registerPeerResponse requestPk) with
      | none => rfl
      | some s' => cases cu <;> rfl
  | registerPk origin rk result =>
    cases result with
    | error err => rfl
    | ok result =>
      simp only [PeerStore.Answer.rename, answerRegistration, replyToSink_rename]
      rfl
  | _ => rfl

/-- What a lookup has seen is the renamed address. -/
theorem seen?_rename (t : PeerStore.Task) :
    seen? (t.rename ρ codec) = (seen? t).map (Except.map (PeerStore.renameSeen ρ)) := by
  cases t with
  | done answer => cases answer <;> rfl
  | _ => rfl

theorem sawOnline_rename (result : Except String (Option (Bool × SocketAddr))) :
    sawOnline (result.map (PeerStore.renameSeen ρ)) = sawOnline result := by
  cases result with
  | error err => rfl
  | ok seen => cases seen <;> rfl

theorem stepOnline_rename (c i : Nat) (states : Bytes) (ids : List PeerId) :
    stepOnline (s.rename ρ codec) c i states ids =
      (stepOnline s c i states ids).rename ρ codec := by
  cases ids with
  | nil => exact replyToSink_rename ρ codec s c _
  | cons id rest =>
    simp only [stepOnline, Outcome.rename, call_rename, tasks_rename]
    rfl

theorem allowHttpProxyRequest_rename (rates : HashMap IpAddr ProxyRate) (ip : IpAddr) (now : Nat) :
    allowHttpProxyRequest (rates.relabel ρ.ip id) (ρ.ip ip) now =
      (allowHttpProxyRequest rates ip now).map (HashMap.relabel ρ.ip id) id := by
  have hpruned : ∀ full : Bool, (if full = true then
        (rates.relabel ρ.ip id).retain fun _ rate =>
          decide (Instant.elapsedSecs now rate.startedAt < httpProxyRateWindowSecs)
      else rates.relabel ρ.ip id) =
      HashMap.relabel ρ.ip id (if full = true then
        rates.retain fun _ rate =>
          decide (Instant.elapsedSecs now rate.startedAt < httpProxyRateWindowSecs)
      else rates) := by
    intro full
    cases full with
    | true =>
      rw [if_pos rfl, if_pos rfl]
      exact HashMap.retain_relabel ρ.ip id rates fun _ _ => rfl
    | false => rfl
  unfold allowHttpProxyRequest
  dsimp only
  rw [HashMap.containsKey_relabel, HashMap.len_relabel, hpruned]
  generalize (!rates.containsKey ip && decide (httpProxyMaxTrackedIps ≤ rates.len)) = full
  generalize (if full = true then rates.retain fun _ rate =>
    decide (Instant.elapsedSecs now rate.startedAt < httpProxyRateWindowSecs) else rates) = kept
  rw [HashMap.len_relabel, HashMap.get_relabel, Option.map_id_fun, id]
  split
  · rfl
  split
  · split
    · exact Prod.ext (HashMap.insert_relabel ρ.ip id kept ip _) rfl
    · exact Prod.ext (HashMap.insert_relabel ρ.ip id kept ip _) rfl
  · split
    · exact Prod.ext (HashMap.insert_relabel ρ.ip id kept ip _) rfl
    · exact Prod.ext (HashMap.insert_relabel ρ.ip id kept ip _) rfl

theorem stepProxyRate_rename (c : Nat) (link : Link) :
    stepProxyRate (s.rename ρ codec) c (link.rename ρ) =
      (stepProxyRate s c link).rename ρ codec := by
  have hrates : allowHttpProxyRequest (s.rename ρ codec).proxyRates (link.rename ρ).addr.ip
      (s.rename ρ codec).store.now =
      (allowHttpProxyRequest s.proxyRates link.addr.ip s.store.now).map
        (HashMap.relabel ρ.ip id) id := by
    rw [← allowHttpProxyRequest_rename, ← ρ.addr_ip]
    rfl
  unfold stepProxyRate
  rw [hrates]
  obtain ⟨rates, allowed⟩ := allowHttpProxyRequest s.proxyRates link.addr.ip s.store.now
  cases allowed with
  | false => exact replyToSink_rename ρ codec { s with proxyRates := rates } c _
  | true =>
    show (if s.proxySlots = 0 then _ else _) = Outcome.rename ρ codec (if s.proxySlots = 0 then _ else _)
    split
    · exact replyToSink_rename ρ codec { s with proxyRates := rates } c _
    · rfl

end Shared

/-! ## Requests for a peer -/

section Blind

variable {ρ} {cfg : Config} (hcfg : cfg.Blind ρ) (s : Shared)

include hcfg

theorem sendToTcpSync_rename (msg : ServerMessage) (addr : SocketAddr) :
    (s.rename ρ codec).sendToTcpSync cfg.protocol msg (ρ.addr addr) =
      (s.sendToTcpSync cfg.protocol msg addr).map (Prod.map id (Shared.rename ρ codec)) := by
  simp only [Shared.sendToTcpSync, hcfg.tryIntoV4]
  show (s.tcpPunch.get _).bind _ = _
  cases s.tcpPunch.get (cfg.protocol.tryIntoV4 addr) with
  | none => rfl
  | some c =>
    simp only [Option.bind_some, trySend_rename, Option.map_map]
    rfl

omit hcfg in
theorem sameIp_eq (a b : SocketAddr) : sameIp a b = decide (a.ip = b.ip) := by
  cases a <;> cases b <;> simp [sameIp, SocketAddr.ip]

theorem routePunchHole_rename (relayServers : List String) (ws : Bool) (addr : SocketAddr)
    (ph : PunchHoleRequest) (peerAddr : SocketAddr) :
    routePunchHole cfg (s.rename ρ codec) relayServers ws (ρ.addr addr) ph (ρ.addr peerAddr) =
      (routePunchHole cfg s relayServers ws addr ph peerAddr).map (Shared.rename ρ codec)
        (Route.rename ρ) := by
  have hsame : sameIp (ρ.addr peerAddr) (ρ.addr addr) = sameIp peerAddr addr := by
    rw [sameIp_eq, sameIp_eq, ρ.addr_ip, ρ.addr_ip, decide_eq_decide]
    exact ρ.ip.injective.eq_iff
  simp only [routePunchHole, hcfg.isLan, hsame, getRelayServer_rename]
  rfl

theorem routeRelay_rename (relayServers : List String) (rf : RequestRelay) (peerAddr : SocketAddr) :
    routeRelay cfg (s.rename ρ codec) relayServers rf (ρ.addr peerAddr) =
      (routeRelay cfg s relayServers rf peerAddr).map (Shared.rename ρ codec) (Route.rename ρ) := by
  simp only [routeRelay, hcfg.isLan, getRelayServer_rename]
  split <;> rfl

theorem stepFind_rename (c : Nat) (link : Link) (ask : Ask)
    (result : Except String (Option (Bool × SocketAddr))) :
    stepFind cfg (s.rename ρ codec) c (link.rename ρ) ask (result.map (PeerStore.renameSeen ρ)) =
      (stepFind cfg s c link ask result).rename ρ codec := by
  have hoffline : sendRelayFailure (s.rename ρ codec) c "Peer is offline" [] =
      (sendRelayFailure s c "Peer is offline" []).rename ρ codec :=
    sendRelayFailure_rename ρ codec s c _ rfl
  cases result with
  | error err => rfl
  | ok seen =>
    cases seen with
    | none =>
      cases ask with
      | punchHole ph => rfl
      | relay rf => exact hoffline
    | some found =>
      obtain ⟨online, peerAddr⟩ := found
      cases online with
      | false =>
        cases ask with
        | punchHole ph => rfl
        | relay rf => exact hoffline
      | true =>
        cases ask with
        | punchHole ph =>
          have hroute : routePunchHole cfg (s.rename ρ codec) (link.rename ρ).relayServers
              (link.rename ρ).ws (link.rename ρ).addr ph (ρ.addr peerAddr) = _ :=
            routePunchHole_rename codec hcfg s link.relayServers link.ws link.addr ph peerAddr
          simp only [Except.map, PeerStore.renameSeen, Option.map_some, Prod.map, id, stepFind,
            hroute]
          rfl
        | relay rf =>
          have hroute : routeRelay cfg (s.rename ρ codec) (link.rename ρ).relayServers rf
              (ρ.addr peerAddr) = _ :=
            routeRelay_rename codec hcfg s link.relayServers rf peerAddr
          simp only [Except.map, PeerStore.renameSeen, Option.map_some, Prod.map, id, stepFind,
            hroute]
          rfl

theorem stepReserve_rename (c : Nat) (link : Link) (ch : Choice) (route : Route) :
    stepReserve cfg (s.rename ρ codec) c (link.rename ρ) ch (route.rename ρ) =
      (stepReserve cfg s c link ch route).rename ρ codec := by
  have hexpired : ((expiredTokens s.pending s.store.now).map Event.expired).map (Event.rename ρ) =
      (expiredTokens s.pending s.store.now).map Event.expired := by
    rw [List.map_map]
    rfl
  have hreserve : reservePendingRendezvous cfg.protocol (s.rename ρ codec).pending
      (link.rename ρ).addr (route.rename ρ).ask.id (route.rename ρ).kind (route.rename ρ).relayServer
      ch.draws (s.rename ρ codec).store.now =
      reservePendingRendezvous cfg.protocol s.pending link.addr route.ask.id route.kind
        route.relayServer ch.draws s.store.now := by
    unfold reservePendingRendezvous
    rw [Link.rename, hcfg.tryIntoV4]
    rfl
  have hrequester : cfg.protocol.tryIntoV4 (link.rename ρ).addr = cfg.protocol.tryIntoV4 link.addr :=
    hcfg.tryIntoV4 link.addr
  unfold stepReserve
  rw [hreserve, hrequester]
  obtain ⟨pending, result⟩ := reservePendingRendezvous cfg.protocol s.pending link.addr route.ask.id
    route.kind route.relayServer ch.draws s.store.now
  cases result with
  | ok token =>
    simp only [Outcome.rename, List.map_append, hexpired]
    rfl
  | error err =>
    obtain ⟨ask, peerAddr, kind, relayServer⟩ := route
    cases ask with
    | punchHole ph =>
      simp only [Route.rename, Outcome.rename, hexpired]
      rfl
    | relay rf =>
      exact sendRelayFailure_rename ρ codec { s with pending := pending } c _ hexpired

omit hcfg in
theorem stepResponding_rename (addr : SocketAddr) (isUdp : Bool) (r : Responding) :
    stepResponding cfg (s.rename ρ codec) addr isUdp r =
      (stepResponding cfg s addr isUdp r).map
        (Prod.map (Shared.rename ρ codec) (Prod.map id (List.map (Event.rename ρ)))) := by
  cases r with
  | consume resp =>
    simp only [stepResponding]
    have hconsume : consumePendingRendezvous cfg.protocol (s.rename ρ codec).pending resp.token
        resp.id resp.socketAddr (some resp.kind) (s.rename ρ codec).store.now =
        consumePendingRendezvous cfg.protocol s.pending resp.token resp.id resp.socketAddr
          (some resp.kind) s.store.now := rfl
    rw [hconsume, tasks_rename]
    obtain ⟨pending, result⟩ := consumePendingRendezvous cfg.protocol s.pending resp.token resp.id
      resp.socketAddr (some resp.kind) s.store.now
    cases result with
    | ok consumed =>
      simp only [Option.map_some, Prod.map, call_rename]
      rfl
    | error err =>
      simp only [Option.map_some, Prod.map, List.map_append]
      cases err <;> rfl
  | getPk resp consumed j =>
    simp only [stepResponding, task_rename]
    cases s.store.tasks[j]? with
    | none => rfl
    | some t =>
      cases t with
      | done answer => cases answer <;> rfl
      | _ => rfl
  | reply resp consumed pk =>
    simp only [stepResponding, sendToTcp_rename]
    rfl

/-- The answer of a peer only has the encoding of its address. -/
theorem stepResponding_addr (addr : SocketAddr) (isUdp : Bool) (r : Responding) :
    stepResponding cfg s (ρ.addr addr) isUdp r = stepResponding cfg s addr isUdp r := by
  cases r with
  | consume resp => rfl
  | getPk resp consumed j => rfl
  | reply resp consumed pk =>
    have hreply : resp.reply cfg.protocol (ρ.addr addr) isUdp consumed pk =
        resp.reply cfg.protocol addr isUdp consumed pk := by
      cases resp <;> simp [Response.reply, hcfg.mangle]
    simp only [stepResponding, hreply]

/-! ## Handlers -/

theorem stepHandler_rename (c : Nat) (link : Link) (ch : Choice) (h : Handler) :
    stepHandler cfg (s.rename ρ codec) c (link.rename ρ) ch (h.rename ρ) =
      (stepHandler cfg s c link ch h).map (Outcome.rename ρ codec) := by
  have haddr : cfg.protocol.tryIntoV4 (link.rename ρ).addr = cfg.protocol.tryIntoV4 link.addr :=
    hcfg.tryIntoV4 link.addr
  cases h with
  | cacheSink r =>
    simp only [Handler.rename, stepHandler, Option.map_some, Outcome.rename, call_rename, haddr,
      tasks_rename]
    cases r <;> rfl
  | register j =>
    simp only [Handler.rename, stepHandler, task_rename]
    cases s.store.tasks[j]? with
    | none => rfl
    | some t =>
      cases t with
      | done answer => exact answerRegistration_rename ρ codec s c answer
      | _ => rfl
  | configure cu => exact congrArg some (replyToSink_rename ρ codec s c _)
  | find ask j =>
    simp only [Handler.rename, stepHandler, task_rename]
    cases s.store.tasks[j]? with
    | none => rfl
    | some t =>
      simp only [Option.map_some, Option.bind_some, seen?_rename]
      cases seen? t with
      | none => rfl
      | some result => exact congrArg some (stepFind_rename codec hcfg s c link ask result)
  | reserve route => exact congrArg some (stepReserve_rename codec hcfg s c link ch route)
  | forward route token =>
    have hmsg : (route.rename ρ).message cfg.protocol (link.rename ρ).addr token =
        route.message cfg.protocol link.addr token := by
      simp only [Route.message, Route.rename, Link.rename, hcfg.mangle]
    have hsend := sendToTcpSync_rename codec hcfg s (route.message cfg.protocol link.addr token)
      route.peerAddr
    simp only [Handler.rename, stepHandler, hmsg]
    rw [show (route.rename ρ).peerAddr = ρ.addr route.peerAddr from rfl, hsend]
    cases s.sendToTcpSync cfg.protocol (route.message cfg.protocol link.addr token) route.peerAddr <;>
      rfl
  | withdraw ask token =>
    cases ask with
    | punchHole ph => rfl
    | relay rf =>
      exact congrArg some
        (sendRelayFailure_rename ρ codec { s with pending := s.pending.remove token } c _ rfl)
  | answer failure =>
    have hsend := sendToTcpSync_rename codec hcfg s (punchHoleFailure failure) link.addr
    simp only [Handler.rename, stepHandler]
    rw [show (link.rename ρ).addr = ρ.addr link.addr from rfl, hsend]
    cases s.sendToTcpSync cfg.protocol (punchHoleFailure failure) link.addr <;> rfl
  | respond r =>
    simp only [Handler.rename, stepHandler]
    rw [show (link.rename ρ).addr = ρ.addr link.addr from rfl, stepResponding_addr hcfg,
      stepResponding_rename]
    cases stepResponding cfg s link.addr false r with
    | none => rfl
    | some out =>
      obtain ⟨s', next, events⟩ := out
      cases next <;> rfl
  | online rest i states j =>
    simp only [Handler.rename, stepHandler, task_rename]
    cases s.store.tasks[j]? with
    | none => rfl
    | some t =>
      simp only [Option.map_some, Option.bind_some, seen?_rename]
      cases seen? t with
      | none => rfl
      | some result =>
        simp only [Option.map_some, sawOnline_rename, stepOnline_rename]
  | proxyRate => exact congrArg some (stepProxyRate_rename ρ codec s c link)
  | proxyCall =>
    exact congrArg some (replyToSink_rename ρ codec { s with proxySlots := s.proxySlots + 1 } c _)

omit hcfg in
theorem receive_rename (c : Nat) (link : Link) (msg : ClientMessage) :
    receive cfg (s.rename ρ codec) c (link.rename ρ) msg =
      (receive cfg s c link msg).map (Shared.rename ρ codec) (Next.rename ρ) := by
  have hreply : ∀ answer : ServerMessage,
      receive.replyNow (s.rename ρ codec) c answer =
        (receive.replyNow s c answer).map (Shared.rename ρ codec) (Next.rename ρ) := by
    intro answer
    simp only [receive.replyNow, sendToSink_rename]
    rfl
  have hresp : ∀ resp : Response,
      (receive.receiveResponse cfg resp).rename ρ = receive.receiveResponse cfg resp := by
    intro resp
    unfold receive.receiveResponse
    split <;> rfl
  cases msg with
  | registerPeer rp =>
    simp only [receive]
    split <;> rfl
  | registerPk rk => rfl
  | punchHoleRequest ph =>
    simp only [receive, tasks_rename]
    split
    · rfl
    split
    · rfl
    · simp only [Prod.map, call_rename]
      rfl
  | requestRelay rf =>
    simp only [receive, tasks_rename]
    split
    · simp only [Prod.map, call_rename]
      rfl
    · rfl
  | punchHoleSent phs => exact Prod.ext rfl (hresp _).symm
  | localAddr la => exact Prod.ext rfl (hresp _).symm
  | relayResponse rr => exact Prod.ext rfl (hresp _).symm
  | testNatRequest serial =>
    simp only [receive, sendToSink_rename]
    rw [show testNatResponse cfg (link.rename ρ).addr serial = testNatResponse cfg link.addr serial
      by simp only [testNatResponse, Link.rename, ρ.addr_port]]
    rfl
  | onlineRequest peers =>
    simp only [receive, tasks_rename]
    split
    · rfl
    · cases peers with
      | nil => exact hreply _
      | cons id rest =>
        simp only [Prod.map, call_rename]
        rfl
  | httpProxyRequest licenceKey =>
    simp only [receive]
    split
    · rfl
    · exact hreply _
  | hc token =>
    simp only [receive]
    show (if (token.isEmpty || decide (256 < token.utf8ByteSize) || s.healthChecked.contains c) = true
      then _ else _) = _
    split <;> rfl
  | keyExchange => rfl
  | other => rfl

end Blind

/-! ## Steps -/

theorem State.resume_rename (s : State) (c : Nat) (conn : Conn) (shared : Shared) (next : Next) :
    (s.rename ρ codec).resume c (conn.rename ρ) (shared.rename ρ codec) (next.rename ρ) =
      (s.resume c conn shared next).rename ρ codec := by
  have hset : ∀ conn' : Conn, (s.rename ρ codec).conns.set c (conn'.rename ρ) =
      (s.conns.set c conn').map (Conn.rename ρ) := fun conn' => List.map_set.symm
  cases next with
  | go h =>
    simp only [Next.rename, State.resume, State.rename, ← hset]
    rfl
  | ret keep =>
    cases keep with
    | true =>
      simp only [Next.rename, State.resume, State.rename, ← hset]
      rfl
    | false =>
      simp only [Next.rename, State.resume, State.rename, ← hset, Shared.leaveLoop]
      show ({ (if conn.link.ws = true then _ else _ : Shared) with conns := _, udp := _ } : State) = _
      split <;> rfl

/-- A step of the renamed server is the renamed step. -/
theorem step_rename {ρ : AddrRenaming} {cfg : Config} (hcfg : cfg.Blind ρ) (s : State) (a : Action) :
    step cfg (s.rename ρ cfg.peerStore.infoCodec) (a.rename ρ) =
      (step cfg s a).map (Prod.map (State.rename ρ cfg.peerStore.infoCodec)
        (List.map (Event.rename ρ))) := by
  have hconn : ∀ c, (s.rename ρ cfg.peerStore.infoCodec).conns[c]? =
      (s.conns[c]?).map (Conn.rename ρ) := fun c => List.getElem?_map
  have hresume := State.resume_rename ρ cfg.peerStore.infoCodec s
  cases a with
  | tick d => rfl
  | accept link =>
    simp only [Action.rename, step, Link.rename, ρ.addr_port, hcfg.tryIntoV4]
    split
    · rfl
    · simp only [Option.map_some, Prod.map, State.rename, List.map_append, List.length_map]
      rfl
  | message c msg =>
    simp only [Action.rename, step, hconn]
    cases s.conns[c]? with
    | none => rfl
    | some conn =>
      obtain ⟨link, status⟩ := conn
      cases status with
      | idle =>
        have hreceive : receive cfg (s.rename ρ cfg.peerStore.infoCodec).toShared c (link.rename ρ) msg =
            (receive cfg s.toShared c link msg).map (Shared.rename ρ cfg.peerStore.infoCodec)
              (Next.rename ρ) := receive_rename cfg.peerStore.infoCodec s.toShared c link msg
        show some ((s.rename ρ cfg.peerStore.infoCodec).resume c (Conn.rename ρ ⟨link, .idle⟩)
          (receive cfg (s.rename ρ cfg.peerStore.infoCodec).toShared c (link.rename ρ) msg).1
          (receive cfg (s.rename ρ cfg.peerStore.infoCodec).toShared c (link.rename ρ) msg).2,
          ([] : List Event)) = _
        rw [hreceive]
        exact congrArg (fun s' => some (s', ([] : List Event))) (hresume c ⟨link, .idle⟩ _ _)
      | _ => rfl
  | handle c ch =>
    simp only [Action.rename, step, hconn]
    cases s.conns[c]? with
    | none => rfl
    | some conn =>
      obtain ⟨link, status⟩ := conn
      cases status with
      | busy h =>
        have hhandler := stepHandler_rename cfg.peerStore.infoCodec hcfg s.toShared c link ch h
        show (stepHandler cfg (s.rename ρ cfg.peerStore.infoCodec).toShared c (link.rename ρ) ch
          (h.rename ρ)).map _ = Option.map _ ((stepHandler cfg s.toShared c link ch h).map _)
        rw [show stepHandler cfg (s.rename ρ cfg.peerStore.infoCodec).toShared c (link.rename ρ) ch
          (h.rename ρ) = _ from hhandler, Option.map_map, Option.map_map]
        congr 1
        funext out
        exact congrArg (fun s' => (s', out.events.map (Event.rename ρ)))
          (hresume c ⟨link, .busy h⟩ out.shared out.next)
      | _ => rfl
  | datagram addr phs =>
    simp only [Action.rename, step]
    rw [show (s.rename ρ cfg.peerStore.infoCodec).udp = s.udp from rfl]
    cases s.udp with
    | some _ => rfl
    | none =>
      dsimp only
      split <;> rfl
  | handleUdp =>
    simp only [Action.rename, step]
    rw [show (s.rename ρ cfg.peerStore.infoCodec).udp = s.udp from rfl]
    cases s.udp with
    | none => rfl
    | some d =>
      obtain ⟨addr, r⟩ := d
      show (stepResponding cfg (s.toShared.rename ρ cfg.peerStore.infoCodec) addr true r).map _ =
        Option.map _ ((stepResponding cfg s.toShared addr true r).map _)
      rw [stepResponding_rename, Option.map_map, Option.map_map]
      rfl
  | store i ch =>
    have hstore := PeerStore.step_rename ρ cfg.peerStore s.store (.run i ch)
    show (PeerStore.step cfg.peerStore (s.store.rename ρ cfg.peerStore.infoCodec) (.run i ch)).map _ =
      Option.map _ ((PeerStore.step cfg.peerStore s.store (.run i ch)).map _)
    rw [show PeerStore.step cfg.peerStore (s.store.rename ρ cfg.peerStore.infoCodec) (.run i ch) = _
      from hstore, Option.map_map, Option.map_map]
    congr 1
    funext out
    refine Prod.ext rfl ?_
    show (out.2.map (PeerStore.Event.rename ρ)).map Event.store = (out.2.map Event.store).map _
    rw [List.map_map, List.map_map]
    rfl
  | evictTimer =>
    have hcall := call_rename ρ cfg.peerStore.infoCodec s.toShared .evictTimer
    simp only [Action.rename, step, Option.map_some, Prod.map, State.rename, hcall]
    rfl
  | deliver c =>
    simp only [Action.rename, step, hconn]
    rw [show (s.rename ρ cfg.peerStore.infoCodec).channels = s.channels from rfl]
    cases s.conns[c]? with
    | none => rfl
    | some conn =>
      cases s.channels[c]? with
      | none => rfl
      | some channel =>
        obtain ⟨queue, receiver⟩ := channel
        cases queue with
        | nil => rfl
        | cons msg queue =>
          cases receiver with
          | false => rfl
          | true =>
            have hidle : ((conn.rename ρ).status = .idle) ↔ (conn.status = .idle) := by
              cases h : conn.status <;> simp [Conn.rename, Status.rename, h]
            simp only [Option.map_some, decide_eq_decide.2 hidle]
            show (if (conn.link.ws || decide (conn.status = .idle)) = true then _ else _) = _
            split <;> rfl
  | keepAlive c =>
    simp only [Action.rename, step]
    rw [show (s.rename ρ cfg.peerStore.infoCodec).toShared.trySend c .healthCheckResponse = _ from
      trySend_rename ρ cfg.peerStore.infoCodec s.toShared c .healthCheckResponse]
    show (if s.keepAlives.contains c = true then _ else _) = _
    split
    · cases s.trySend c .healthCheckResponse <;> rfl
    · rfl
  | hangUp c =>
    simp only [Action.rename, step, hconn]
    cases s.conns[c]? with
    | none => rfl
    | some conn =>
      obtain ⟨link, status⟩ := conn
      cases status with
      | idle =>
        exact congrArg (fun s' => some (s', ([] : List Event)))
          (hresume c ⟨link, .idle⟩ s.toShared (.ret false))
      | _ => rfl
  | dropReceiver c =>
    simp only [Action.rename, step, hconn]
    cases s.conns[c]? with
    | none => rfl
    | some conn =>
      show (if conn.link.ws = true then _ else _) = _
      dsimp only
      split <;> rfl
  | close c =>
    simp only [Action.rename, step, hconn]
    cases s.conns[c]? with
    | none => rfl
    | some conn =>
      obtain ⟨link, status⟩ := conn
      cases status with
      | ending =>
        have hset : (s.rename ρ cfg.peerStore.infoCodec).conns.set c (Conn.rename ρ ⟨link, .ended⟩) =
            (s.conns.set c ⟨link, .ended⟩).map (Conn.rename ρ) := List.map_set.symm
        have haddr : cfg.protocol.tryIntoV4 (link.rename ρ).addr = cfg.protocol.tryIntoV4 link.addr :=
          hcfg.tryIntoV4 link.addr
        simp only [Option.map_some, Prod.map, State.rename, ← hset]
        show some (({ s.toShared.rename ρ cfg.peerStore.infoCodec with
          tcpPunch := if s.tcpPunch.get (cfg.protocol.tryIntoV4 (link.rename ρ).addr) = some c then
            s.tcpPunch.remove (cfg.protocol.tryIntoV4 (link.rename ρ).addr) else s.tcpPunch
          conns := _
          udp := _ } : State), ([] : List Event)) = _
        rw [haddr]
        rfl
      | _ => rfl
  | setAlwaysUseRelay b => rfl

end RemoteServer.Rendezvous
