import RemoteServer.Rendezvous.Machine

/-!
# What an action can do to the tables

The invariants of a rendezvous are about the tables, the connections and the points
of their handlers.  What is in the channels, the rotation counter and the switch for
relays do not matter to them.  `Responding.Move`, `Handler.Move` and `Move` say what a
step does to the rest, one constructor for each way to go on, and `step_move` is the
inversion of `step`: the later modules never unfold it.
-/

namespace RemoteServer.Rendezvous

open RustStd

/-! ## Functions that leave the tables alone -/

section Tables

variable {s s' : Shared} {c : Nat} {msg : ServerMessage}

theorem Shared.trySend_tables (h : s.trySend c msg = some s') : s'.toTables = s.toTables := by
  unfold Shared.trySend at h
  split at h
  · split at h
    · cases h
      rfl
    · cases h
  · cases h

theorem Shared.sendToSink_tables (s : Shared) (c : Nat) (msg : ServerMessage) :
    (s.sendToSink c msg).1.toTables = s.toTables := by
  unfold Shared.sendToSink
  split
  · rename_i s' hsend
    exact Shared.trySend_tables hsend
  · rfl

theorem Shared.sendToTcpSync_some {proto : Protocol} {addr : SocketAddr} {target : Nat}
    (h : s.sendToTcpSync proto msg addr = some (target, s')) :
    s.tcpPunch.get (proto.tryIntoV4 addr) = some target ∧ s'.toTables = s.toTables := by
  obtain ⟨c, hget, hmap⟩ := Option.bind_eq_some_iff.1 h
  obtain ⟨s₁, hsend, hpair⟩ := Option.map_eq_some_iff.1 hmap
  cases hpair
  exact ⟨hget, Shared.trySend_tables hsend⟩

theorem Shared.sendToTcp_tables (proto : Protocol) (s : Shared) (msg : ServerMessage)
    (addr : SocketAddr) : (s.sendToTcp proto msg addr).1.toTables =
      { s.toTables with tcpPunch := s.tcpPunch.remove (proto.tryIntoV4 addr) } := by
  unfold Shared.sendToTcp
  dsimp only
  split
  · rename_i c s' h
    obtain ⟨c', -, hmap⟩ := Option.bind_eq_some_iff.1 h
    obtain ⟨s₁, hsend, hpair⟩ := Option.map_eq_some_iff.1 hmap
    cases hpair
    exact Shared.trySend_tables hsend
  · rfl

theorem Shared.getRelayServer_tables (s : Shared) (relayServers : List String) :
    (s.getRelayServer relayServers).1.toTables = s.toTables := by
  unfold Shared.getRelayServer
  split <;> rfl

theorem Shared.leaveLoop_tables (s : Shared) (c : Nat) (ws : Bool) :
    (s.leaveLoop c ws).toTables = s.toTables := by
  unfold Shared.leaveLoop
  split <;> rfl

/-- A route leads to the address that was seen, and its request is for the same id. -/
theorem routePunchHole_eq {cfg : Config} {relayServers : List String} {ws : Bool}
    {addr peerAddr : SocketAddr} {ph : PunchHoleRequest} {route : Route}
    (h : routePunchHole cfg s relayServers ws addr ph peerAddr = (s', route)) :
    s'.toTables = s.toTables ∧ route.peerAddr = peerAddr ∧ route.ask.id = ph.id := by
  unfold routePunchHole at h
  dsimp only at h
  cases h
  refine ⟨s.getRelayServer_tables relayServers, rfl, ?_⟩
  dsimp only [Ask.id]
  split <;> rfl

theorem routeRelay_eq {cfg : Config} {relayServers : List String} {peerAddr : SocketAddr}
    {rf : RequestRelay} {route : Route}
    (h : routeRelay cfg s relayServers rf peerAddr = (s', route)) :
    s'.toTables = s.toTables ∧ route.peerAddr = peerAddr ∧ route.ask.id = rf.id := by
  unfold routeRelay at h
  split at h
  · cases h
    exact ⟨rfl, rfl, rfl⟩
  · cases h
    exact ⟨s.getRelayServer_tables relayServers, rfl, rfl⟩

end Tables

/-! ## Handlers -/

/-- One step of the handling of an answer. -/
inductive Responding.Move (cfg : Config) (s : Tables) :
    Responding → Tables → Option Responding → List Event → Prop where
  | accept {resp : Response} {pending : PendingTable} {consumed : ConsumedRendezvous}
      (h : consumePendingRendezvous cfg.protocol s.pending resp.token resp.id resp.socketAddr
        (some resp.kind) s.store.now = (pending, .ok consumed)) :
      Move cfg s (.consume resp)
        (({ s with pending := pending } : Tables).call (.getPk resp.version resp.id))
        (some (.getPk resp consumed s.store.tasks.length)) [.accepted resp consumed s.store.now]
  | reject {resp : Response} {pending : PendingTable} {err : Rejection}
      (h : consumePendingRendezvous cfg.protocol s.pending resp.token resp.id resp.socketAddr
        (some resp.kind) s.store.now = (pending, .error err)) :
      Move cfg s (.consume resp) { s with pending := pending } none
        ((if err = .expiredToken then [.expired resp.token] else []) ++ [.rejected resp err])
  | key {resp : Response} {consumed : ConsumedRendezvous} {j : Nat} {pk : Bytes} :
      Move cfg s (.getPk resp consumed j) s (some (.reply resp consumed pk)) []
  | reply {resp : Response} {consumed : ConsumedRendezvous} {pk : Bytes} {addr : SocketAddr}
      {isUdp : Bool} {target : Option Nat} :
      Move cfg s (.reply resp consumed pk)
        { s with tcpPunch := s.tcpPunch.remove (cfg.protocol.tryIntoV4 consumed.requester) } none
        [.replied resp consumed.requester (resp.reply cfg.protocol addr isUdp consumed pk) target]

/-- The handler has nothing more to do with the tables. -/
def Handler.Aside : Handler → Prop
  | .configure _ => True
  | .answer _ => True
  | .proxyRate => True
  | .proxyCall => True
  | _ => False

def Next.Closing : Next → Prop
  | .go h => h.Aside
  | .ret _ => True

/-- One step of the handler of connection `c`. -/
inductive Handler.Move (cfg : Config) (s : Tables) (c : Nat) (link : Link) (ch : Choice) :
    Handler → Tables → Next → List Event → Prop where
  | cacheSink {r : Register} :
      Move cfg s c link ch (.cacheSink r)
        (({ s with tcpPunch := s.tcpPunch.insert (cfg.protocol.tryIntoV4 link.addr) c } :
          Tables).call (r.request ⟨c, link.addr⟩))
        (.go (.register s.store.tasks.length)) []
  | registered {j : Nat} {answer : PeerStore.Answer} {next : Next}
      (hj : s.store.tasks[j]? = some (.done answer)) (hnext : next.Closing) :
      Move cfg s c link ch (.register j) s next []
  | turnDown {ask : Ask} {j : Nat} {next : Next} (hnext : next.Closing) :
      Move cfg s c link ch (.find ask j) s next []
  | found {ask : Ask} {j : Nat} {t : PeerStore.Task} {route : Route}
      (hj : s.store.tasks[j]? = some t)
      (hseen : seen? t = some (.ok (some (true, route.peerAddr))))
      (hid : route.ask.id = ask.id) : Move cfg s c link ch (.find ask j) s (.go (.reserve route)) []
  | reserve {route : Route} {pending : PendingTable} {token : Bytes}
      (h : reservePendingRendezvous cfg.protocol s.pending link.addr route.ask.id route.kind
        route.relayServer ch.draws s.store.now = (pending, .ok token)) :
      Move cfg s c link ch (.reserve route) { s with pending := pending } (.go (.forward route token))
        ((expiredTokens s.pending s.store.now).map Event.expired ++ [.reserved ⟨c, token,
          ⟨cfg.protocol.tryIntoV4 link.addr, route.ask.id, route.kind, route.relayServer,
            s.store.now⟩⟩])
  | noToken {route : Route} {keep : Bool} :
      Move cfg s c link ch (.reserve route) { s with pending := unexpired s.pending s.store.now }
        (.ret keep) ((expiredTokens s.pending s.store.now).map Event.expired)
  | push {route : Route} {token : Bytes} {target : Nat}
      (hget : s.tcpPunch.get (cfg.protocol.tryIntoV4 route.peerAddr) = some target) :
      Move cfg s c link ch (.forward route token) s (.ret true)
        [.pushed c target route.ask.id (route.message cfg.protocol link.addr token)]
  | fail {route : Route} {token : Bytes} :
      Move cfg s c link ch (.forward route token) s (.go (.withdraw route.ask token))
        [.undelivered c token]
  | withdraw {ask : Ask} {token : Bytes} {next : Next} (hnext : next.Closing) :
      Move cfg s c link ch (.withdraw ask token) { s with pending := s.pending.remove token } next
        [.withdrawn c token]
  | aside {h : Handler} {next : Next} (hh : h.Aside) (hnext : next.Closing) :
      Move cfg s c link ch h s next []
  | lookNext {id : PeerId} {rest : List PeerId} {i j : Nat} {states states' : Bytes} :
      Move cfg s c link ch (.online (id :: rest) i states j) (s.call (.requestRelay id))
        (.go (.online rest (i + 1) states' s.store.tasks.length)) []
  | lookedUp {i j : Nat} {states : Bytes} {keep : Bool} :
      Move cfg s c link ch (.online [] i states j) s (.ret keep) []
  | respond {r r' : Responding} {s' : Tables} {evs : List Event}
      (hm : r.Move cfg s s' (some r') evs) :
      Move cfg s c link ch (.respond r) s' (.go (.respond r')) evs
  | responded {r : Responding} {s' : Tables} {evs : List Event} (hm : r.Move cfg s s' none evs) :
      Move cfg s c link ch (.respond r) s' (.ret false) evs

section Handlers

variable {cfg : Config} {s : Shared} {c : Nat} {link : Link} {ch : Choice}

theorem move_of_stepResponding {addr : SocketAddr} {isUdp : Bool} {r : Responding} {s' : Shared}
    {next : Option Responding} {evs : List Event}
    (h : stepResponding cfg s addr isUdp r = some (s', next, evs)) :
    r.Move cfg s.toTables s'.toTables next evs := by
  cases r with
  | consume resp =>
    simp only [stepResponding] at h
    split at h
    · rename_i pending consumed hconsume
      cases h
      exact .accept hconsume
    · rename_i pending err hconsume
      cases h
      exact .reject hconsume
  | getPk resp consumed j =>
    simp only [stepResponding] at h
    split at h
    · cases h
      exact .key
    · cases h
  | reply resp consumed pk =>
    simp only [stepResponding, Option.some.injEq, Prod.mk.injEq] at h
    obtain ⟨rfl, rfl, rfl⟩ := h
    rw [Shared.sendToTcp_tables]
    exact .reply

private theorem sendRelayFailure_tables (s : Shared) (c : Nat) (reason : String)
    (evs : List Event) : (sendRelayFailure s c reason evs).shared.toTables = s.toTables :=
  s.sendToSink_tables c _

private theorem move_of_register {j : Nat} {out : Outcome} {answer : PeerStore.Answer}
    (hj : s.store.tasks[j]? = some (.done answer))
    (h : answerRegistration s c answer = some out) :
    Handler.Move cfg s.toTables c link ch (.register j) out.shared.toTables out.next out.events := by
  have hnext : ∀ {s' : Shared} {next : Next}, s'.toTables = s.toTables → next.Closing →
      Handler.Move cfg s.toTables c link ch (.register j) s'.toTables next [] := by
    intro s' next htables hclosing
    rw [htables]
    exact .registered hj hclosing
  unfold answerRegistration at h
  split at h
  · split at h
    · cases h
      exact hnext rfl trivial
    · rename_i s₁ hsend
      split at h
      · cases h
        exact hnext (Shared.trySend_tables hsend) trivial
      · cases h
        exact hnext (Shared.trySend_tables hsend) trivial
  · cases h
    exact hnext (s.sendToSink_tables c _) trivial
  · cases h
    exact hnext rfl trivial
  · cases h
    exact hnext rfl trivial
  · cases h

private theorem move_of_online (rest : List PeerId) (i j : Nat) (states states' : Bytes) :
    Handler.Move cfg s.toTables c link ch (.online rest i states j)
      (stepOnline s c i states' rest).shared.toTables (stepOnline s c i states' rest).next
      (stepOnline s c i states' rest).events := by
  cases rest with
  | nil =>
    dsimp only [stepOnline, replyToSink]
    rw [s.sendToSink_tables]
    exact .lookedUp
  | cons id rest => exact .lookNext

/-- A handler that only answers its own connection. -/
private theorem move_of_reply (h : Handler) (hh : h.Aside) {s' : Shared}
    (htables : s'.toTables = s.toTables) (msg : ServerMessage) :
    Handler.Move cfg s.toTables c link ch h (replyToSink s' c msg).shared.toTables
      (replyToSink s' c msg).next (replyToSink s' c msg).events := by
  dsimp only [replyToSink]
  rw [s'.sendToSink_tables, htables]
  exact .aside hh trivial

private theorem move_of_proxyRate :
    Handler.Move cfg s.toTables c link ch .proxyRate (stepProxyRate s c link).shared.toTables
      (stepProxyRate s c link).next (stepProxyRate s c link).events := by
  unfold stepProxyRate
  dsimp only
  split
  · exact move_of_reply .proxyRate trivial (by rfl) _
  · split
    · exact move_of_reply .proxyRate trivial (by rfl) _
    · exact .aside trivial trivial

private theorem move_of_find {ask : Ask} {j : Nat} {t : PeerStore.Task}
    (hj : s.store.tasks[j]? = some t) {result : Except String (Option (Bool × SocketAddr))}
    (hseen : seen? t = some result) :
    Handler.Move cfg s.toTables c link ch (.find ask j)
      (stepFind cfg s c link ask result).shared.toTables
      (stepFind cfg s c link ask result).next (stepFind cfg s c link ask result).events := by
  have hfailure : ∀ reason : String,
      Handler.Move cfg s.toTables c link ch (.find ask j)
        (sendRelayFailure s c reason []).shared.toTables (sendRelayFailure s c reason []).next [] := by
    intro reason
    rw [sendRelayFailure_tables]
    exact .turnDown trivial
  unfold stepFind
  split
  · exact .turnDown trivial
  · split
    · exact .turnDown trivial
    · exact hfailure _
  · split
    · exact .turnDown trivial
    · exact hfailure _
  · split
    · rename_i peerAddr _ ph
      obtain ⟨htables, haddr, hid⟩ := routePunchHole_eq (Prod.eta (routePunchHole cfg s
        link.relayServers link.ws link.addr ph peerAddr)).symm
      dsimp only
      rw [htables]
      exact .found hj (haddr.symm ▸ hseen) hid
    · rename_i peerAddr _ rf
      obtain ⟨htables, haddr, hid⟩ := routeRelay_eq (Prod.eta (routeRelay cfg s
        link.relayServers rf peerAddr)).symm
      dsimp only
      rw [htables]
      exact .found hj (haddr.symm ▸ hseen) hid

private theorem move_of_reserve (route : Route) :
    Handler.Move cfg s.toTables c link ch (.reserve route)
      (stepReserve cfg s c link ch route).shared.toTables
      (stepReserve cfg s c link ch route).next (stepReserve cfg s c link ch route).events := by
  unfold stepReserve
  dsimp only
  split
  · rename_i pending token hreserve
    exact .reserve hreserve
  · rename_i pending err hreserve
    cases reservePendingRendezvous_error hreserve
    split
    · exact .noToken
    · rw [sendRelayFailure_tables]
      exact .noToken

theorem move_of_stepHandler {h : Handler} {out : Outcome}
    (hstep : stepHandler cfg s c link ch h = some out) :
    h.Move cfg s.toTables c link ch out.shared.toTables out.next out.events := by
  cases h with
  | cacheSink r =>
    cases hstep
    exact .cacheSink
  | register j =>
    simp only [stepHandler] at hstep
    split at hstep
    · rename_i answer hj
      exact move_of_register hj hstep
    · cases hstep
  | configure cu =>
    cases hstep
    exact move_of_reply (.configure cu) trivial (by rfl) _
  | find ask j =>
    obtain ⟨result, hbind, hout⟩ := Option.map_eq_some_iff.1 hstep
    obtain ⟨t, hj, hseen⟩ := Option.bind_eq_some_iff.1 hbind
    cases hout
    exact move_of_find hj hseen
  | reserve route =>
    cases hstep
    exact move_of_reserve route
  | forward route token =>
    simp only [stepHandler] at hstep
    split at hstep
    · rename_i target s' hsend
      obtain ⟨hget, htables⟩ := Shared.sendToTcpSync_some hsend
      cases hstep
      dsimp only
      rw [htables]
      exact .push hget
    · cases hstep
      exact .fail
  | withdraw ask token =>
    simp only [stepHandler] at hstep
    split at hstep
    · cases hstep
      exact .withdraw trivial
    · cases hstep
      rw [sendRelayFailure_tables]
      exact .withdraw trivial
  | answer failure =>
    simp only [stepHandler] at hstep
    split at hstep
    · rename_i target s' hsend
      cases hstep
      dsimp only
      rw [(Shared.sendToTcpSync_some hsend).2]
      exact .aside trivial trivial
    · cases hstep
      exact .aside trivial trivial
  | respond r =>
    simp only [stepHandler] at hstep
    split at hstep
    · rename_i s' r' evs hr
      cases hstep
      exact .respond (move_of_stepResponding hr)
    · rename_i s' evs hr
      cases hstep
      exact .responded (move_of_stepResponding hr)
    · cases hstep
  | online rest i states j =>
    obtain ⟨result, -, hout⟩ := Option.map_eq_some_iff.1 hstep
    cases hout
    exact move_of_online rest i j states _
  | proxyRate =>
    cases hstep
    exact move_of_proxyRate
  | proxyCall =>
    cases hstep
    exact move_of_reply .proxyCall trivial (by rfl) _

end Handlers

/-! ## Actions -/

/-- What a message starts, and the tables after it. -/
inductive Receives (s : Tables) : Tables → Next → Prop where
  | closing {next : Next} (hnext : next.Closing) : Receives s s next
  | register {r : Register} : Receives s s (.go (.cacheSink r))
  | punchHole {ph : PunchHoleRequest} :
      Receives s (s.call (.punchHole ph.id)) (.go (.find (.punchHole ph) s.store.tasks.length))
  | relay {rf : RequestRelay} :
      Receives s (s.call (.requestRelay rf.id)) (.go (.find (.relay rf) s.store.tasks.length))
  | respond {resp : Response} : Receives s s (.go (.respond (.consume resp)))
  | online {id : PeerId} {rest : List PeerId} {states : Bytes} :
      Receives s (s.call (.requestRelay id)) (.go (.online rest 0 states s.store.tasks.length))

def Next.status : Next → Status
  | .go h => .busy h
  | .ret true => .idle
  | .ret false => .ending

theorem Next.eq_go_of_status {next : Next} {h : Handler} (hs : next.status = .busy h) :
    next = .go h := by
  cases next with
  | go h' =>
    cases hs
    rfl
  | ret keep => cases keep <;> cases hs

/-- Actions that touch neither the tables nor the task of a connection. -/
def Action.Quiet : Action → Prop
  | .datagram _ _ => True
  | .deliver _ => True
  | .keepAlive _ => True
  | .dropReceiver _ => True
  | .setAlwaysUseRelay _ => True
  | _ => False

/-- One action. -/
inductive Move (cfg : Config) (s s' : State) : Action → List Event → Prop where
  | tick {d : Nat}
      (htables : s'.toTables = { s.toTables with store := { s.store with now := s.store.now + d } })
      (hconns : s'.conns = s.conns) (hudp : s'.udp = s.udp) : Move cfg s s' (.tick d) []
  | accept {link : Link} (hport : link.addr.port ≠ 0)
      (htables : s'.toTables = { s.toTables with
        tcpPunch := s.tcpPunch.insert (cfg.protocol.tryIntoV4 link.addr) s.conns.length })
      (hconns : s'.conns = s.conns ++ [⟨link, .idle⟩]) (hudp : s'.udp = s.udp) :
      Move cfg s s' (.accept link) []
  | message {c : Nat} {link : Link} {msg : ClientMessage} {next : Next}
      (hc : s.conns[c]? = some ⟨link, .idle⟩) (htables : Receives s.toTables s'.toTables next)
      (hconns : s'.conns = s.conns.set c ⟨link, next.status⟩) (hudp : s'.udp = s.udp) :
      Move cfg s s' (.message c msg) []
  | handle {c : Nat} {link : Link} {h : Handler} {ch : Choice} {next : Next} {evs : List Event}
      (hc : s.conns[c]? = some ⟨link, .busy h⟩)
      (htables : h.Move cfg s.toTables c link ch s'.toTables next evs)
      (hconns : s'.conns = s.conns.set c ⟨link, next.status⟩) (hudp : s'.udp = s.udp) :
      Move cfg s s' (.handle c ch) evs
  | datagram {addr : SocketAddr} {phs : PunchHoleSent} (hu : s.udp = none)
      (htables : s'.toTables = s.toTables) (hconns : s'.conns = s.conns)
      (hudp : s'.udp = some (addr, .consume (.holeSent phs))) :
      Move cfg s s' (.datagram addr phs) []
  | handleUdp {addr : SocketAddr} {r : Responding} {next : Option Responding} {evs : List Event}
      (hu : s.udp = some (addr, r)) (htables : r.Move cfg s.toTables s'.toTables next evs)
      (hconns : s'.conns = s.conns) (hudp : s'.udp = next.map fun r' => (addr, r')) :
      Move cfg s s' .handleUdp evs
  | store {i : Nat} {ch : PeerStore.Choice} {store : PeerStore.State}
      {evs : List PeerStore.Event}
      (hstep : PeerStore.step cfg.peerStore s.store (.run i ch) = some (store, evs))
      (htables : s'.toTables = { s.toTables with store := store }) (hconns : s'.conns = s.conns)
      (hudp : s'.udp = s.udp) : Move cfg s s' (.store i ch) (evs.map Event.store)
  | evictTimer (htables : s'.toTables = s.toTables.call .evictTimer) (hconns : s'.conns = s.conns)
      (hudp : s'.udp = s.udp) : Move cfg s s' .evictTimer []
  | silent {a : Action} (ha : a.Quiet) (htables : s'.toTables = s.toTables) (hconns : s'.conns = s.conns)
      (hudp : s'.udp = s.udp) : Move cfg s s' a []
  | hangUp {c : Nat} {link : Link} (hc : s.conns[c]? = some ⟨link, .idle⟩)
      (htables : s'.toTables = s.toTables) (hconns : s'.conns = s.conns.set c ⟨link, .ending⟩)
      (hudp : s'.udp = s.udp) : Move cfg s s' (.hangUp c) []
  | close {c : Nat} {link : Link} (hc : s.conns[c]? = some ⟨link, .ending⟩)
      (htables : s'.toTables = { s.toTables with
        tcpPunch := if s.tcpPunch.get (cfg.protocol.tryIntoV4 link.addr) = some c
          then s.tcpPunch.remove (cfg.protocol.tryIntoV4 link.addr) else s.tcpPunch })
      (hconns : s'.conns = s.conns.set c ⟨link, .ended⟩) (hudp : s'.udp = s.udp) :
      Move cfg s s' (.close c) []

theorem State.resume_eq (s : State) (c : Nat) (conn : Conn) (shared : Shared) (next : Next) :
    (s.resume c conn shared next).toTables = shared.toTables ∧
      (s.resume c conn shared next).conns = s.conns.set c ⟨conn.link, next.status⟩ ∧
      (s.resume c conn shared next).udp = s.udp := by
  cases next with
  | go h => exact ⟨rfl, rfl, rfl⟩
  | ret keep =>
    cases keep with
    | true => exact ⟨rfl, rfl, rfl⟩
    | false => exact ⟨shared.leaveLoop_tables c conn.link.ws, rfl, rfl⟩

theorem receives_of_receive {cfg : Config} {s s' : Shared} {c : Nat} {link : Link}
    {msg : ClientMessage} {next : Next} (h : receive cfg s c link msg = (s', next)) :
    Receives s.toTables s'.toTables next := by
  have hresp : ∀ resp : Response, Receives s.toTables s.toTables
      (receive.receiveResponse cfg resp) := by
    intro resp
    unfold receive.receiveResponse
    split
    · exact .respond
    · exact .closing trivial
  have hreply : ∀ (msg : ServerMessage) {keep : Bool}, Receives s.toTables
      (s.sendToSink c msg).1.toTables (.ret keep) := by
    intro msg keep
    rw [s.sendToSink_tables]
    exact .closing trivial
  cases msg with
  | registerPeer rp =>
    cases h
    split
    · exact .register
    · exact .closing trivial
  | registerPk rk =>
    cases h
    exact .register
  | punchHoleRequest ph =>
    simp only [receive] at h
    split at h
    · cases h
      exact .closing trivial
    · split at h
      · cases h
        exact .closing trivial
      · cases h
        exact .punchHole
  | requestRelay rf =>
    simp only [receive] at h
    split at h
    · cases h
      exact .relay
    · cases h
      exact .closing trivial
  | punchHoleSent phs =>
    cases h
    exact hresp _
  | localAddr la =>
    cases h
    exact hresp _
  | relayResponse rr =>
    cases h
    exact hresp _
  | testNatRequest serial =>
    cases h
    exact hreply _
  | onlineRequest peers =>
    simp only [receive] at h
    split at h
    · cases h
      exact .closing trivial
    · split at h
      · cases h
        exact hreply _
      · cases h
        exact .online
  | httpProxyRequest licenceKey =>
    simp only [receive] at h
    split at h
    · cases h
      exact .closing trivial
    · cases h
      exact hreply _
  | hc token =>
    simp only [receive] at h
    split at h
    · cases h
      exact .closing trivial
    · cases h
      exact .closing trivial
  | keyExchange =>
    cases h
    exact .closing trivial
  | other =>
    cases h
    exact .closing trivial

/-- The inversion of `step`. -/
theorem step_move {cfg : Config} {s s' : State} {a : Action} {evs : List Event}
    (h : step cfg s a = some (s', evs)) : Move cfg s s' a evs := by
  cases a with
  | tick d =>
    cases h
    exact .tick rfl rfl rfl
  | accept link =>
    simp only [step] at h
    split at h
    · cases h
    · rename_i hport
      cases h
      exact .accept hport rfl rfl rfl
  | message c msg =>
    simp only [step] at h
    split at h
    · rename_i link hc
      cases h
      obtain ⟨htables, hconns, hudp⟩ := s.resume_eq c ⟨link, .idle⟩
        (receive cfg s.toShared c link msg).1 (receive cfg s.toShared c link msg).2
      refine .message hc ?_ hconns hudp
      rw [htables]
      exact receives_of_receive rfl
    · cases h
  | handle c ch =>
    simp only [step] at h
    split at h
    · rename_i link handler hc
      obtain ⟨out, hout, hpair⟩ := Option.map_eq_some_iff.1 h
      cases hpair
      obtain ⟨htables, hconns, hudp⟩ := s.resume_eq c ⟨link, .busy handler⟩ out.shared out.next
      refine .handle hc ?_ hconns hudp
      rw [htables]
      exact move_of_stepHandler hout
    · cases h
  | datagram addr phs =>
    simp only [step] at h
    split at h
    · rename_i hu
      split at h
      · cases h
        exact .datagram hu rfl rfl rfl
      · cases h
        exact .silent trivial rfl rfl rfl
    · cases h
  | handleUdp =>
    simp only [step] at h
    split at h
    · rename_i addr r hu
      obtain ⟨⟨shared, next, events⟩, hr, hpair⟩ := Option.map_eq_some_iff.1 h
      cases hpair
      exact .handleUdp hu (move_of_stepResponding hr) rfl rfl
    · cases h
  | store i ch =>
    obtain ⟨⟨store, events⟩, hstep, hpair⟩ := Option.map_eq_some_iff.1 h
    cases hpair
    exact .store hstep rfl rfl rfl
  | evictTimer =>
    cases h
    exact .evictTimer rfl rfl rfl
  | deliver c =>
    simp only [step] at h
    split at h
    · split at h
      · cases h
        exact .silent trivial rfl rfl rfl
      · cases h
    · cases h
  | keepAlive c =>
    simp only [step] at h
    split at h
    · split at h
      · rename_i shared hsend
        cases h
        exact .silent trivial (Shared.trySend_tables hsend) rfl rfl
      · cases h
        exact .silent trivial rfl rfl rfl
    · cases h
  | hangUp c =>
    simp only [step] at h
    split at h
    · rename_i link hc
      cases h
      obtain ⟨htables, hconns, hudp⟩ := s.resume_eq c ⟨link, .idle⟩ s.toShared (.ret false)
      exact .hangUp hc htables hconns hudp
    · cases h
  | dropReceiver c =>
    simp only [step] at h
    split at h
    · split at h
      · cases h
        exact .silent trivial rfl rfl rfl
      · cases h
    · cases h
  | close c =>
    simp only [step] at h
    split at h
    · rename_i link hc
      cases h
      exact .close hc rfl rfl rfl
    · cases h
  | setAlwaysUseRelay b =>
    cases h
    exact .silent trivial rfl rfl rfl

/-! ## Connections -/

/-- What an action does to the task of one connection. -/
inductive Status.Next (cfg : Config) (s s' : Tables) (c : Nat) (link : Link) :
    Status → Status → List Event → Prop where
  | message {next : Rendezvous.Next} (htables : Receives s s' next) :
      Next cfg s s' c link .idle next.status []
  | handle {h : Handler} {ch : Choice} {next : Rendezvous.Next} {evs : List Event}
      (htables : h.Move cfg s c link ch s' next evs) :
      Next cfg s s' c link (.busy h) next.status evs
  | hangUp : Next cfg s s' c link .idle .ending []
  | close : Next cfg s s' c link .ending .ended []

section Conns

variable {cfg : Config} {s s' : State} {a : Action} {evs : List Event} {k : Nat}

theorem getElem?_set_cases {conns : List Conn} {c : Nat} {conn conn' new : Conn}
    (hc : conns[c]? = some conn) (hk : (conns.set c new)[k]? = some conn') :
    conns[k]? = some conn' ∨ k = c ∧ conn' = new := by
  rw [List.getElem?_set] at hk
  split at hk
  · rename_i heq
    rw [if_pos (List.getElem?_eq_some_iff.1 hc).1] at hk
    exact Or.inr ⟨heq.symm, (Option.some.inj hk).symm⟩
  · exact Or.inl hk

/-- A connection after an action is as before, is new, or its task has moved. -/
theorem Move.conn_cases (hm : Move cfg s s' a evs) {conn : Conn} (hk : s'.conns[k]? = some conn) :
    s.conns[k]? = some conn ∨
      (∃ link, a = .accept link ∧ link.addr.port ≠ 0 ∧ conn = ⟨link, .idle⟩ ∧ k = s.conns.length) ∨
      ∃ st, s.conns[k]? = some ⟨conn.link, st⟩ ∧
        Status.Next cfg s.toTables s'.toTables k conn.link st conn.status evs := by
  cases hm with
  | @accept link hport htables hconns =>
    rw [hconns, List.getElem?_append] at hk
    split at hk
    · exact Or.inl hk
    · rename_i hge
      have hzero := (List.getElem?_eq_some_iff.1 hk).1
      rw [List.length_singleton] at hzero
      have hlen : k = s.conns.length := by omega
      subst hlen
      rw [Nat.sub_self] at hk
      cases hk
      exact Or.inr (Or.inl ⟨link, rfl, hport, rfl, rfl⟩)
  | message hc htables hconns =>
    rw [hconns] at hk
    rcases getElem?_set_cases hc hk with hk | ⟨rfl, rfl⟩
    · exact Or.inl hk
    · exact Or.inr (Or.inr ⟨_, hc, .message htables⟩)
  | handle hc htables hconns =>
    rw [hconns] at hk
    rcases getElem?_set_cases hc hk with hk | ⟨rfl, rfl⟩
    · exact Or.inl hk
    · exact Or.inr (Or.inr ⟨_, hc, .handle htables⟩)
  | hangUp hc htables hconns =>
    rw [hconns] at hk
    rcases getElem?_set_cases hc hk with hk | ⟨rfl, rfl⟩
    · exact Or.inl hk
    · exact Or.inr (Or.inr ⟨_, hc, .hangUp⟩)
  | close hc htables hconns =>
    rw [hconns] at hk
    rcases getElem?_set_cases hc hk with hk | ⟨rfl, rfl⟩
    · exact Or.inl hk
    · exact Or.inr (Or.inr ⟨_, hc, .close⟩)
  | tick htables hconns => exact Or.inl (hconns ▸ hk)
  | datagram _ htables hconns => exact Or.inl (hconns ▸ hk)
  | handleUdp _ htables hconns => exact Or.inl (hconns ▸ hk)
  | store _ htables hconns => exact Or.inl (hconns ▸ hk)
  | evictTimer htables hconns => exact Or.inl (hconns ▸ hk)
  | silent _ htables hconns => exact Or.inl (hconns ▸ hk)

/-- A connection stays in the list, with the same link. -/
theorem Move.conn_kept (hm : Move cfg s s' a evs) {conn : Conn} (hk : s.conns[k]? = some conn) :
    ∃ st, s'.conns[k]? = some ⟨conn.link, st⟩ := by
  have hset : ∀ {c : Nat} {link : Link} {st st' : Status}, s.conns[c]? = some ⟨link, st⟩ →
      s'.conns = s.conns.set c ⟨link, st'⟩ → ∃ st, s'.conns[k]? = some ⟨conn.link, st⟩ := by
    intro c link st st' hc hconns
    rw [hconns, List.getElem?_set]
    split
    · rename_i heq
      subst heq
      rw [hc] at hk
      cases hk
      rw [if_pos (List.getElem?_eq_some_iff.1 hc).1]
      exact ⟨st', rfl⟩
    · exact ⟨conn.status, hk⟩
  have hsame : s'.conns = s.conns → ∃ st, s'.conns[k]? = some ⟨conn.link, st⟩ :=
    fun hconns => ⟨conn.status, by rw [hconns]; exact hk⟩
  cases hm with
  | accept _ htables hconns =>
    rw [hconns, List.getElem?_append_left (List.getElem?_eq_some_iff.1 hk).1]
    exact ⟨conn.status, hk⟩
  | message hc htables hconns => exact hset hc hconns
  | handle hc htables hconns => exact hset hc hconns
  | hangUp hc htables hconns => exact hset hc hconns
  | close hc htables hconns => exact hset hc hconns
  | tick htables hconns => exact hsame hconns
  | datagram _ htables hconns => exact hsame hconns
  | handleUdp _ htables hconns => exact hsame hconns
  | store _ htables hconns => exact hsame hconns
  | evictTimer htables hconns => exact hsame hconns
  | silent _ htables hconns => exact hsame hconns

/-- Where the events of an action come from. -/
theorem Move.source (hm : Move cfg s s' a evs) {e : Event} (he : e ∈ evs) :
    (∃ e', e = .store e') ∨
      (∃ (c : Nat) (link : Link) (h : Handler) (ch : Choice) (next : Next),
        s.conns[c]? = some ⟨link, .busy h⟩ ∧ s'.conns[c]? = some ⟨link, next.status⟩ ∧
        h.Move cfg s.toTables c link ch s'.toTables next evs) ∨
      ∃ (addr : SocketAddr) (r : Responding) (next : Option Responding),
        s.udp = some (addr, r) ∧ r.Move cfg s.toTables s'.toTables next evs := by
  cases hm with
  | @handle c link h ch next _ hc htables hconns =>
    refine Or.inr (Or.inl ⟨c, link, h, ch, next, hc, ?_, htables⟩)
    rw [hconns, List.getElem?_set_self (List.getElem?_eq_some_iff.1 hc).1]
  | handleUdp hu htables => exact Or.inr (Or.inr ⟨_, _, _, hu, htables⟩)
  | store =>
    obtain ⟨e', -, rfl⟩ := List.mem_map.1 he
    exact Or.inl ⟨e', rfl⟩
  | _ => cases he

end Conns

/-- The answer that an event is about. -/
def Event.response? : Event → Option Response
  | .accepted resp _ _ => some resp
  | .rejected resp _ => some resp
  | .replied resp _ _ _ => some resp
  | _ => none

/-- The events of a rejected answer. -/
theorem mem_rejection {resp : Response} {err : Rejection} {e : Event}
    (he : e ∈ (if err = .expiredToken then [Event.expired resp.token] else []) ++
      [.rejected resp err]) : e = .expired resp.token ∨ e = .rejected resp err := by
  rcases List.mem_append.1 he with he | he
  · split at he
    · exact Or.inl (List.mem_singleton.1 he)
    · cases he
  · exact Or.inr (List.mem_singleton.1 he)

/-- The handling of an answer has only events about it. -/
theorem Responding.Move.not_mem {cfg : Config} {s s' : Tables} {r : Responding}
    {next : Option Responding} {evs : List Event} (hm : r.Move cfg s s' next evs) {e : Event}
    (hresp : e.response? = none) (hexpired : ∀ token, e ≠ .expired token) : e ∉ evs := by
  intro he
  cases hm with
  | accept =>
    cases List.mem_singleton.1 he
    cases hresp
  | reject =>
    rcases mem_rejection he with rfl | rfl
    · exact hexpired _ rfl
    · cases hresp
  | key => cases he
  | reply =>
    cases List.mem_singleton.1 he
    cases hresp

/-- An answer is handled in the task of a connection or in the UDP task. -/
def Responds (s : State) (r : Responding) : Prop :=
  (∃ (c : Nat) (link : Link), s.conns[c]? = some ⟨link, .busy (.respond r)⟩) ∨
    ∃ addr, s.udp = some (addr, r)

theorem Handler.Move.responding {cfg : Config} {s s' : Tables} {c : Nat} {link : Link}
    {ch : Choice} {h : Handler} {next : Next} {evs : List Event}
    (hm : h.Move cfg s c link ch s' next evs) {e : Event} (he : e ∈ evs)
    (hresp : e.response? ≠ none) :
    ∃ r next', h = .respond r ∧ r.Move cfg s s' next' evs := by
  cases hm with
  | respond hr => exact ⟨_, _, rfl, hr⟩
  | responded hr => exact ⟨_, _, rfl, hr⟩
  | reserve =>
    rcases List.mem_append.1 he with he | he
    · obtain ⟨token, -, rfl⟩ := List.mem_map.1 he
      exact absurd rfl hresp
    · cases List.mem_singleton.1 he
      exact absurd rfl hresp
  | noToken =>
    obtain ⟨token, -, rfl⟩ := List.mem_map.1 he
    exact absurd rfl hresp
  | push =>
    cases List.mem_singleton.1 he
    exact absurd rfl hresp
  | fail =>
    cases List.mem_singleton.1 he
    exact absurd rfl hresp
  | withdraw =>
    cases List.mem_singleton.1 he
    exact absurd rfl hresp
  | _ => cases he

theorem Move.responding {cfg : Config} {s s' : State} {a : Action} {evs : List Event}
    (hm : Move cfg s s' a evs) {e : Event} (he : e ∈ evs) (hresp : e.response? ≠ none) :
    ∃ r next, Responds s r ∧ r.Move cfg s.toTables s'.toTables next evs := by
  rcases hm.source he with ⟨e', rfl⟩ | ⟨c, link, h, ch, next, hc, -, hh⟩ | ⟨addr, r, next, hu, hr⟩
  · exact absurd rfl hresp
  · obtain ⟨r, next', rfl, hr⟩ := hh.responding he hresp
    exact ⟨r, next', Or.inl ⟨c, link, hc⟩, hr⟩
  · exact ⟨r, next, Or.inr ⟨addr, hu⟩, hr⟩

/-- An answer that is being handled after an action was so before, has just arrived, or
has moved. -/
theorem Move.responds_cases {cfg : Config} {s s' : State} {a : Action} {evs : List Event}
    (hm : Move cfg s s' a evs) {r' : Responding} (h : Responds s' r') :
    Responds s r' ∨ (∃ resp, r' = .consume resp) ∨
      ∃ r, Responds s r ∧ r.Move cfg s.toTables s'.toTables (some r') evs := by
  rcases h with ⟨c, link, hc⟩ | ⟨addr, hu⟩
  · rcases hm.conn_cases hc with hold | ⟨link', -, -, hnew, -⟩ | ⟨st, hst, hnext⟩
    · exact Or.inl (Or.inl ⟨c, link, hold⟩)
    · cases hnew
    · generalize s'.toTables = t at hnext ⊢
      generalize hbusy : Conn.status ⟨link, .busy (.respond r')⟩ = st' at hnext
      cases hnext with
      | message hr =>
        cases Next.eq_go_of_status hbusy.symm
        cases hr with
        | closing hclosing => exact hclosing.elim
        | respond => exact Or.inr (Or.inl ⟨_, rfl⟩)
      | handle hh =>
        cases Next.eq_go_of_status hbusy.symm
        cases hh with
        | respond hr => exact Or.inr (Or.inr ⟨_, Or.inl ⟨c, link, hst⟩, hr⟩)
        | registered _ hclosing => exact hclosing.elim
        | turnDown hclosing => exact hclosing.elim
        | withdraw hclosing => exact hclosing.elim
        | aside _ hclosing => exact hclosing.elim
      | hangUp => cases hbusy
      | close => cases hbusy
  · cases hm with
    | datagram _ _ _ hudp =>
      rw [hudp] at hu
      cases hu
      exact Or.inr (Or.inl ⟨_, rfl⟩)
    | handleUdp hold hr _ hudp =>
      rw [hudp] at hu
      obtain ⟨r₁, rfl, hpair⟩ := Option.map_eq_some_iff.1 hu
      cases hpair
      exact Or.inr (Or.inr ⟨_, Or.inr ⟨_, hold⟩, hr⟩)
    | tick _ _ hudp => exact Or.inl (Or.inr ⟨addr, hudp ▸ hu⟩)
    | accept _ _ _ hudp => exact Or.inl (Or.inr ⟨addr, hudp ▸ hu⟩)
    | message _ _ _ hudp => exact Or.inl (Or.inr ⟨addr, hudp ▸ hu⟩)
    | handle _ _ _ hudp => exact Or.inl (Or.inr ⟨addr, hudp ▸ hu⟩)
    | store _ _ _ hudp => exact Or.inl (Or.inr ⟨addr, hudp ▸ hu⟩)
    | evictTimer _ _ hudp => exact Or.inl (Or.inr ⟨addr, hudp ▸ hu⟩)
    | silent _ _ _ hudp => exact Or.inl (Or.inr ⟨addr, hudp ▸ hu⟩)
    | hangUp _ _ _ hudp => exact Or.inl (Or.inr ⟨addr, hudp ▸ hu⟩)
    | close _ _ _ hudp => exact Or.inl (Or.inr ⟨addr, hudp ▸ hu⟩)

end RemoteServer.Rendezvous
