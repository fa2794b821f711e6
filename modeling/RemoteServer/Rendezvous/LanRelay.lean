import RemoteServer.Rendezvous.Relays
import RemoteServer.Rendezvous.Signalling
import RemoteServer.Rendezvous.Tokens

/-!
# The relay of the local network

With a mask the server has a relay for its local network, `local_ip`, which is of no use to
anyone outside.  Whether a request gets it is decided from the side of the peer, and the name
that was chosen goes to both ends: to the peer with the forwarded request, and with the token
into the reply to the requester.

* `route_isLan` says that a route with the local relay leads into the local network.
* `Confined` follows the local relay from the routes through the pending rendezvous to the
  accepted answers.
* `local_relay_confined` is the result: the peer side always holds, and the requester's does if
  nobody outside the local network asks for a peer inside (`AsksInside`).  Otherwise the local
  relay is sent to a requester outside (`local_relay_leaves`).
-/

namespace RemoteServer.Rendezvous

open RustStd Lts

/-! ## Routes -/

/-- The relay name in a message for a peer. -/
def ServerMessage.peerRelayServer : ServerMessage → String
  | .punchHole ph => ph.relayServer
  | .fetchLocalAddr fla => fla.relayServer
  | .requestRelay rf => rf.relayServer
  | _ => ""

theorem Route.message_peerRelayServer (proto : Protocol) (route : Route) (addr : SocketAddr)
    (token : Bytes) : (route.message proto addr token).peerRelayServer = route.relayServer := by
  unfold Route.message
  split
  · split <;> rfl
  · rfl

section Routes

variable {cfg : Config} {s : Shared} {link : Link} {route : Route}

theorem getRelayServer_ne_localIp (hlocal : cfg.localIp ≠ "")
    (hlist : cfg.localIp ∉ link.relayServers) :
    (s.getRelayServer link.relayServers).2 ≠ cfg.localIp := by
  intro heq
  rcases Relays.getRelayServer_cases s link.relayServers with hnone | hmem
  · exact hlocal (heq.symm.trans hnone)
  · exact hlist (heq ▸ hmem)

/-- A request gets the local relay only for a peer in the local network. -/
theorem route_isLan (hlocal : cfg.localIp ≠ "") (hlist : cfg.localIp ∉ link.relayServers)
    {c : Nat} {ask : Ask} {result : Except String (Option (Bool × SocketAddr))}
    (h : (stepFind cfg s c link ask result).next = .go (.reserve route))
    (hserver : route.relayServer = cfg.localIp) : cfg.isLan route.peerAddr = true := by
  have hne := getRelayServer_ne_localIp (s := s) hlocal hlist
  unfold stepFind at h
  split at h
  · cases h
  · split at h <;> cases h
  · split at h <;> cases h
  · split at h
    · obtain rfl := Handler.reserve.inj (Next.go.inj h)
      unfold routePunchHole at hserver ⊢
      dsimp only at hserver ⊢
      split at hserver
      · rename_i hforced
        exact (Bool.and_eq_true_iff.1 hforced).2
      · exact absurd hserver hne
    · obtain rfl := Handler.reserve.inj (Next.go.inj h)
      unfold routeRelay at hserver ⊢
      split at hserver
      · rename_i hlan
        rw [if_pos hlan]
        exact hlan
      · exact absurd hserver hne

end Routes

/-! ## What the result needs -/

/-- The requester and the peer of the request that a connection is about to route. -/
def State.ends? (s : State) (c : Nat) : Option (SocketAddr × SocketAddr) :=
  match s.conns[c]? with
  | some ⟨link, .busy (.find _ j)⟩ =>
    match (s.store.tasks[j]?).bind seen? with
    | some (.ok (some (true, peerAddr))) => some (link.addr, peerAddr)
    | _ => none
  | _ => none

/-- The relays of a connection are not the local one. -/
def publicList (cfg : Config) : Action → Bool
  | .accept link => decide (cfg.localIp ∉ link.relayServers)
  | _ => true

/-- A request for a peer in the local network comes from there. -/
def asksInside (cfg : Config) (s : State) : Action → Bool
  | .handle c _ => (s.ends? c).all fun ends => !cfg.isLan ends.2 || cfg.isLan ends.1
  | _ => true

def AsksInside (cfg : Config) (_ : List Event) (s : State) (a : Action) : Prop :=
  publicList cfg a = true ∧ asksInside cfg s a = true

instance (cfg : Config) (tr : List Event) (s : State) (a : Action) :
    Decidable (AsksInside cfg tr s a) := inferInstanceAs (Decidable (_ ∧ _))

/-! ## The way of the local relay -/

section Moves

variable {cfg : Config} {s s' : State} {a : Action} {evs : List Event}

/-- A busy handler only moves in a step of its own. -/
theorem Move.busy_kept (hm : Move cfg s s' a evs) {c : Nat} {link : Link} {h : Handler}
    (hc : s.conns[c]? = some ⟨link, .busy h⟩) (ha : ∀ ch, a ≠ .handle c ch) :
    s'.conns[c]? = some ⟨link, .busy h⟩ := by
  have hset : ∀ {c' : Nat} {link' : Link} {st st' : Status}, s.conns[c']? = some ⟨link', st⟩ →
      s'.conns = s.conns.set c' ⟨link', st'⟩ → c' ≠ c → s'.conns[c]? = some ⟨link, .busy h⟩ := by
    intro c' link' st st' _ hconns hne
    rw [hconns, List.getElem?_set_ne hne]
    exact hc
  have hidle : ∀ {c' : Nat} {link' : Link} {st : Status}, s.conns[c']? = some ⟨link', st⟩ →
      st ≠ .busy h → c' ≠ c := by
    rintro c' link' st hc' hst rfl
    rw [hc] at hc'
    cases hc'
    exact hst rfl
  cases hm with
  | accept _ _ hconns =>
    rw [hconns, List.getElem?_append_left (List.getElem?_eq_some_iff.1 hc).1]
    exact hc
  | message hc' _ hconns => exact hset hc' hconns (hidle hc' nofun)
  | handle hc' _ hconns => exact hset hc' hconns fun heq => ha _ (by rw [heq])
  | hangUp hc' _ hconns => exact hset hc' hconns (hidle hc' nofun)
  | close hc' _ hconns => exact hset hc' hconns (hidle hc' nofun)
  | tick _ hconns => exact hconns ▸ hc
  | datagram _ _ hconns => exact hconns ▸ hc
  | handleUdp _ _ hconns => exact hconns ▸ hc
  | store _ _ hconns => exact hconns ▸ hc
  | evictTimer _ hconns => exact hconns ▸ hc
  | silent _ _ hconns => exact hconns ▸ hc

/-- A handler that has a route had it before, or its step has routed the request. -/
theorem Move.route_cases (hm : Move cfg s s' a evs) {c : Nat} {link : Link} {h : Handler}
    {route : Route} (hc : s'.conns[c]? = some ⟨link, .busy h⟩) (hroute : h.route? = some route) :
    (∃ h₀, s.conns[c]? = some ⟨link, .busy h₀⟩ ∧ h₀.route? = some route) ∨
      ∃ ch ask j, a = .handle c ch ∧ s.conns[c]? = some ⟨link, .busy (.find ask j)⟩ ∧
        h = .reserve route ∧ s.ends? c = some (link.addr, route.peerAddr) := by
  rcases hm.conn_cases hc with hold | ⟨link', -, -, hnew, -⟩ | ⟨st, hst, hnext⟩
  · exact Or.inl ⟨h, hold, hroute⟩
  · cases hnew
  · generalize hbusy : Conn.status ⟨link, .busy h⟩ = st' at hnext
    generalize s'.toTables = t at hnext
    cases hnext with
    | message hr =>
      cases Next.eq_go_of_status hbusy.symm
      rw [hr.route?_eq_none] at hroute
      cases hroute
    | handle hh =>
      cases Next.eq_go_of_status hbusy.symm
      rcases hh.route_cases hroute with hroute₀ | ⟨ask, j, u, rfl, hj, hseen, -⟩
      · exact Or.inl ⟨_, hst, hroute₀⟩
      · have hends : s.ends? c = some (link.addr, route.peerAddr) := by
          simp only [State.ends?, hst, hj, Option.bind_some, hseen]
        have hreserve : h = .reserve route := by
          cases hh with
          | found =>
            cases hroute
            rfl
          | turnDown hnext =>
            cases h with
            | reserve => exact hnext.elim
            | forward => exact hnext.elim
            | _ => cases hroute
          | aside hh => exact hh.elim
        by_cases ha : ∃ ch, a = .handle c ch
        · obtain ⟨ch, rfl⟩ := ha
          exact Or.inr ⟨ch, ask, j, rfl, hst, hreserve, hends⟩
        · have hkept := hm.busy_kept hst fun ch heq => ha ⟨ch, heq⟩
          rw [hc, hreserve] at hkept
          cases hkept
    | hangUp => cases hbusy
    | close => cases hbusy

theorem Responding.Move.pending_cases {t t' : Tables} {r : Responding} {next : Option Responding}
    (hm : r.Move cfg t t' next evs) {token : Bytes} {entry : PendingRendezvous}
    (hget : t'.pending.get token = some entry) : t.pending.get token = some entry := by
  have hremove : ∀ {token' : Bytes}, (t.pending.remove token').get token = some entry →
      t.pending.get token = some entry := by
    intro token' hget
    rw [HashMap.get_remove] at hget
    split at hget
    · cases hget
    · exact hget
  cases hm with
  | accept h =>
    obtain ⟨-, rfl, -⟩ := consumePendingRendezvous_ok h
    exact hremove hget
  | reject h =>
    rcases consumePendingRendezvous_error h with ⟨-, rfl⟩ | ⟨-, rfl, -⟩
    · exact hget
    · exact hremove hget
  | key => exact hget
  | reply => exact hget

/-- An entry of the table was there before, or has just been reserved. -/
theorem Handler.Move.pending_cases {t t' : Tables} {c : Nat} {link : Link} {ch : Choice}
    {h : Handler} {next : Next} (hm : h.Move cfg t c link ch t' next evs) {token : Bytes}
    {entry : PendingRendezvous} (hget : t'.pending.get token = some entry) :
    t.pending.get token = some entry ∨ .reserved ⟨c, token, entry⟩ ∈ evs := by
  have hunexpired : (unexpired t.pending t.store.now).get token = some entry →
      t.pending.get token = some entry := by
    intro hget
    rw [unexpired_get] at hget
    split at hget
    · cases hget
    · exact hget
  cases hm with
  | reserve h =>
    obtain ⟨-, -, -, rfl⟩ := reservePendingRendezvous_ok h
    simp only [HashMap.get_insert] at hget
    split at hget
    · rename_i heq
      cases hget
      subst heq
      exact Or.inr (List.mem_append_right _ (List.mem_singleton_self _))
    · exact Or.inl (hunexpired hget)
  | noToken => exact Or.inl (hunexpired hget)
  | withdraw =>
    simp only [HashMap.get_remove] at hget
    split at hget
    · cases hget
    · exact Or.inl hget
  | respond hr => exact Or.inl (hr.pending_cases hget)
  | responded hr => exact Or.inl (hr.pending_cases hget)
  | _ => exact Or.inl hget

theorem Move.pending_cases (hm : Move cfg s s' a evs) {token : Bytes}
    {entry : PendingRendezvous} (hget : s'.pending.get token = some entry) :
    s.pending.get token = some entry ∨ ∃ c, .reserved ⟨c, token, entry⟩ ∈ evs := by
  have hsame : ∀ {t : Tables}, s'.toTables = t → t.pending = s.pending →
      s.pending.get token = some entry ∨ ∃ c, .reserved ⟨c, token, entry⟩ ∈ evs := by
    intro t ht heq
    rw [ht, heq] at hget
    exact Or.inl hget
  cases hm with
  | @handle c _ _ _ _ _ _ htables =>
    rcases htables.pending_cases hget with hold | hnew
    · exact Or.inl hold
    · exact Or.inr ⟨c, hnew⟩
  | handleUdp _ htables => exact Or.inl (htables.pending_cases hget)
  | message _ htables => exact hsame rfl htables.pending_eq
  | store _ htables => exact hsame htables rfl
  | tick htables => exact hsame htables rfl
  | accept _ htables => exact hsame htables rfl
  | datagram _ htables => exact hsame htables rfl
  | evictTimer htables => exact hsame htables rfl
  | silent _ htables => exact hsame htables rfl
  | hangUp _ htables => exact hsame htables rfl
  | close _ htables => exact hsame htables rfl

/-- An accepted answer takes its relay from the entry of its token. -/
theorem Move.accepted_entry (hm : Move cfg s s' a evs) {resp : Response}
    {consumed : ConsumedRendezvous} {now : Nat} (he : Event.accepted resp consumed now ∈ evs) :
    ∃ entry, s.pending.get resp.token = some entry ∧
      consumed = ⟨entry.requester, entry.relayServer⟩ := by
  obtain ⟨r, next, -, hr⟩ := hm.responding he (by simp [Event.response?])
  generalize s'.toTables = t at hr
  cases hr with
  | accept h =>
    cases List.mem_singleton.1 he
    obtain ⟨-, -, addr, entry, -, hget, -, -, -, -, hconsumed⟩ := consumePendingRendezvous_ok h
    exact ⟨entry, hget, hconsumed⟩
  | reject =>
    rcases mem_rejection he with heq | heq
    · cases heq
    · cases heq
  | key => cases he
  | reply => cases List.mem_singleton.1 he

end Moves

/-- The local relay is only on its way to connections from the local network. -/
structure Confined (cfg : Config) (tr : List Event) (s : State) : Prop where
  list : ∀ {c : Nat} {conn : Conn}, s.conns[c]? = some conn →
    cfg.localIp ∉ conn.link.relayServers
  route : ∀ {c : Nat} {link : Link} {h : Handler} {route : Route},
    s.conns[c]? = some ⟨link, .busy h⟩ → h.route? = some route →
    route.relayServer = cfg.localIp → cfg.isLan route.peerAddr = true ∧ cfg.isLan link.addr = true
  reserved : ∀ {r : Reservation}, Event.reserved r ∈ tr → r.entry.relayServer = cfg.localIp →
    ∃ conn, s.conns[r.conn]? = some conn ∧ cfg.isLan conn.link.addr = true
  pending : ∀ {token : Bytes} {entry : PendingRendezvous}, s.pending.get token = some entry →
    ∃ c, Event.reserved ⟨c, token, entry⟩ ∈ tr
  accepted : ∀ {resp : Response} {consumed : ConsumedRendezvous} {now : Nat},
    Event.accepted resp consumed now ∈ tr → ∃ c entry,
      Event.reserved ⟨c, resp.token, entry⟩ ∈ tr ∧
      consumed = ⟨entry.requester, entry.relayServer⟩

section Confined

variable {cfg : Config} {tr evs : List Event} {s s' : State} {a : Action}

theorem Confined.list_step (hi : Confined cfg tr s) (hok : AsksInside cfg tr s a)
    (hm : Move cfg s s' a evs) {c : Nat} {conn : Conn} (hc : s'.conns[c]? = some conn) :
    cfg.localIp ∉ conn.link.relayServers := by
  rcases hm.conn_cases hc with hold | ⟨link, rfl, -, rfl, -⟩ | ⟨st, hst, -⟩
  · exact hi.list hold
  · exact of_decide_eq_true hok.1
  · have hlist := hi.list hst
    exact hlist

theorem Confined.route_step (hlocal : cfg.localIp ≠ "") (hi : Confined cfg tr s)
    (hok : AsksInside cfg tr s a) (hstep : step cfg s a = some (s', evs)) {c : Nat} {link : Link}
    {h : Handler} {route : Route} (hc : s'.conns[c]? = some ⟨link, .busy h⟩)
    (hroute : h.route? = some route) (hserver : route.relayServer = cfg.localIp) :
    cfg.isLan route.peerAddr = true ∧ cfg.isLan link.addr = true := by
  rcases (step_move hstep).route_cases hc hroute with
    ⟨h₀, hc₀, hroute₀⟩ | ⟨ch, ask, j, rfl, hfind, rfl, hends⟩
  · exact hi.route hc₀ hroute₀ hserver
  · obtain ⟨result, hnext⟩ := Relays.stepFind_of_step hstep hfind hc
    have hpeer := route_isLan hlocal (hi.list hfind) hnext hserver
    have hinside := hok.2
    simp only [asksInside, hends, Option.all_some, hpeer, Bool.not_true, Bool.false_or] at hinside
    exact ⟨hpeer, hinside⟩

theorem Confined.reserved_step (hi : Confined cfg tr s) (hm : Move cfg s s' a evs)
    {r : Reservation} (hr : Event.reserved r ∈ tr ++ evs)
    (hserver : r.entry.relayServer = cfg.localIp) :
    ∃ conn, s'.conns[r.conn]? = some conn ∧ cfg.isLan conn.link.addr = true := by
  have hbefore : ∃ conn, s.conns[r.conn]? = some conn ∧ cfg.isLan conn.link.addr = true := by
    rcases List.mem_append.1 hr with hold | hnew
    · exact hi.reserved hold hserver
    · obtain ⟨link, route, hc, -, hrelay⟩ := hm.reserved_route hnew
      exact ⟨_, hc, (hi.route hc rfl (hrelay.symm.trans hserver)).2⟩
  obtain ⟨conn, hc, hlan⟩ := hbefore
  obtain ⟨st, hc'⟩ := hm.conn_kept hc
  exact ⟨_, hc', hlan⟩

theorem step_confined (hlocal : cfg.localIp ≠ "") (hi : Confined cfg tr s)
    (hok : AsksInside cfg tr s a) (hstep : step cfg s a = some (s', evs)) :
    Confined cfg (tr ++ evs) s' := by
  have hm := step_move hstep
  refine ⟨hi.list_step hok hm, hi.route_step hlocal hok hstep, hi.reserved_step hm,
    fun hget => ?_, fun hacc => ?_⟩
  · rcases hm.pending_cases hget with hold | ⟨c, hnew⟩
    · obtain ⟨c, hc⟩ := hi.pending hold
      exact ⟨c, List.mem_append_left _ hc⟩
    · exact ⟨c, List.mem_append_right _ hnew⟩
  · rcases List.mem_append.1 hacc with hold | hnew
    · obtain ⟨c, entry, hc, hconsumed⟩ := hi.accepted hold
      exact ⟨c, entry, List.mem_append_left _ hc, hconsumed⟩
    · obtain ⟨entry, hget, hconsumed⟩ := hm.accepted_entry hnew
      obtain ⟨c, hc⟩ := hi.pending hget
      exact ⟨c, entry, List.mem_append_left _ hc, hconsumed⟩

theorem run_confined (hlocal : cfg.localIp ≠ "") {now : Nat} {db : Database}
    (h : Run (step cfg) (AsksInside cfg) (State.initial now db) tr s) : Confined cfg tr s := by
  refine h.inv (I := Confined cfg) ?_ fun _ hi hok hs => step_confined hlocal hi hok hs
  exact ⟨nofun, nofun, nofun, nofun, nofun⟩

end Confined

/-- In every run in which no relay list has the local relay and every request for a peer in the
local network comes from there: a request that is sent to a peer carries the local relay only
if the address of the peer is in the local network, and a reply carries it only if the address
of the connection that asked is. -/
theorem local_relay_confined {cfg : Config} (hlocal : cfg.localIp ≠ "") {now : Nat}
    {db : Database} {tr : List Event} {s : State}
    (hrun : Run (step cfg) (AsksInside cfg) (State.initial now db) tr s)
    {a : Action} {s' : State} {evs : List Event} (hstep : step cfg s a = some (s', evs)) :
    (∀ c target id msg, .pushed c target id msg ∈ evs → msg.peerRelayServer = cfg.localIp →
      ∃ link route token, s.conns[c]? = some ⟨link, .busy (.forward route token)⟩ ∧
        s.tcpPunch.get (cfg.protocol.tryIntoV4 route.peerAddr) = some target ∧
        cfg.isLan route.peerAddr = true) ∧
      ∀ resp addr msg target, .replied resp addr msg target ∈ evs →
        msg.relayServer = cfg.localIp → ∃ r conn, .reserved r ∈ tr ∧ r.token = resp.token ∧
          s.conns[r.conn]? = some conn ∧ addr = cfg.protocol.tryIntoV4 conn.link.addr ∧
          cfg.isLan conn.link.addr = true := by
  have hi := run_confined hlocal hrun
  have ha := run_attended hrun
  refine ⟨fun c target id msg he hserver => ?_, fun resp addr msg target he hserver => ?_⟩
  · obtain ⟨link, route, token, hc, -, rfl, hget⟩ := (step_move hstep).pushed he
    rw [Route.message_peerRelayServer] at hserver
    exact ⟨link, route, token, hc, hget, (hi.route hc rfl hserver).1⟩
  · obtain ⟨consumed, at', hacc, rfl, hmsg⟩ := ha.replied (step_move hstep) he
    obtain ⟨c, entry, hreserved, rfl⟩ := hi.accepted hacc
    have hentry : entry.relayServer = cfg.localIp := by
      rw [hmsg] at hserver
      split at hserver
      · exact absurd hserver.symm hlocal
      · exact hserver
    obtain ⟨conn, hc, hlan⟩ := hi.reserved hreserved hentry
    obtain ⟨conn', hc', hreq⟩ := ha.requester hreserved
    obtain rfl := Option.some.inj (hc.symm.trans hc')
    exact ⟨_, conn, hreserved, rfl, hc, hreq, hlan⟩

/-! ## Concrete runs -/

/-- The network 192.168.0.0/16. -/
def sampleNetwork (ip : Ipv4Addr) : Bool := ip.a == 192 && ip.b == 168

def lanConfig : Config := { sampleConfig with mask := some sampleNetwork }

/-- A connection from the sample network. -/
def lanLink (port : UInt16) : Link := ⟨.v4 ⟨192, 168, 0, 9⟩ port, false, ["relay.example.com"]⟩

def samplePunch : PunchHoleRequest where
  id := PeerStore.sampleId
  natType := .known .asymmetric
  licenceKey := "key"
  token := ""
  version := ""
  forceRelay := false
  socketAddrV6 := []
  switchCode := ""

def sampleHoleSent : PunchHoleSent where
  id := PeerStore.sampleId
  version := ""
  relayServer := ""
  natType := .known .asymmetric
  socketAddr := plainMangle (sampleLink 2).addr
  socketAddrV6 := []
  rendezvousToken := (sampleToken 7).toList

/-- A request for a relay or for a hole punch, and the answer to it. -/
def sampleAsk (relay : Bool) : ClientMessage :=
  if relay then .requestRelay (sampleRelay "key") else .punchHoleRequest samplePunch

def sampleResponse (relay : Bool) (asker : Link) : Response :=
  if relay then .relay { sampleAnswer "" 7 with socketAddr := plainMangle asker.addr }
  else .holeSent { sampleHoleSent with socketAddr := plainMangle asker.addr }

def Response.sent : Response → ClientMessage
  | .holeSent phs => .punchHoleSent phs
  | .localAddr la => .localAddr la
  | .relay rr => .relayResponse rr

/-- A peer registers from the sample network, connection 1 asks for it, and the peer answers
over connection 2, up to the reply. -/
def lanRun (relay : Bool) (asker : Link) : List Action :=
  .accept (lanLink 5000) :: registered.tail ++ [.accept asker, .accept (lanLink 5001)] ++
    .message 1 (sampleAsk relay) :: stores 2 3 ++ handles 1 1 ++
    .handle 1 { draws := [sampleToken 7] } :: handles 1 1 ++
    .message 2 (sampleResponse relay asker).sent :: handles 2 2

/-- The reply with the local relay. -/
def lanReply (relay : Bool) (asker : Link) : ServerMessage :=
  (sampleResponse relay asker).reply .plain (lanLink 5001).addr false
    ⟨asker.addr, lanConfig.localIp⟩ []

/-- A requester in the network asks for a relay and gets the local one. -/
theorem local_relay_confined_inside :
    ∃ s tr s' evs, Run (step lanConfig) (AsksInside lanConfig) (State.initial 0 .empty) tr s ∧
      step lanConfig s (.handle 2 {}) = some (s', evs) ∧
      Event.replied (sampleResponse true (lanLink 5002)) (lanLink 5002).addr
        (lanReply true (lanLink 5002)) (some 1) ∈ evs ∧
      (lanReply true (lanLink 5002)).relayServer = lanConfig.localIp ∧
      ∃ r conn, .reserved r ∈ tr ∧ s.conns[r.conn]? = some conn ∧
        lanConfig.isLan conn.link.addr = true := by
  obtain ⟨s, tr, hrun, hshow⟩ := exists_run_of_exec_guarded (step lanConfig)
    (AsksInside lanConfig) (State.initial 0 .empty) (lanRun true (lanLink 5002))
    (fun x => (step lanConfig x.1 (.handle 2 {})).map fun (y : State × List Event) =>
      decide (Event.replied (sampleResponse true (lanLink 5002)) (lanLink 5002).addr
        (lanReply true (lanLink 5002)) (some 1) ∈ y.2))
    (b := some true) (by decide +kernel)
  obtain ⟨⟨s', evs⟩, hstep, he⟩ := Option.map_eq_some_iff.1 hshow
  have he := of_decide_eq_true he
  have hserver : (lanReply true (lanLink 5002)).relayServer = lanConfig.localIp := by
    decide +kernel
  obtain ⟨-, hreplies⟩ := local_relay_confined (by decide) hrun hstep
  obtain ⟨r, conn, hr, -, hc, -, hlan⟩ := hreplies _ _ _ _ he hserver
  exact ⟨s, tr, s', evs, hrun, hstep, he, hserver, r, conn, hr, hc, hlan⟩

/-- A requester outside the network gets the local relay for a peer inside, whether it asks for
a relay or for a hole punch. -/
theorem local_relay_leaves :
    lanConfig.isLan (sampleLink 2).addr = false ∧ ∀ relay : Bool,
      ∃ s tr s' evs, Run (step lanConfig) (fun _ _ a => publicList lanConfig a = true)
        (State.initial 0 .empty) tr s ∧
        step lanConfig s (.handle 2 {}) = some (s', evs) ∧
        Event.replied (sampleResponse relay (sampleLink 2)) (sampleLink 2).addr
          (lanReply relay (sampleLink 2)) (some 1) ∈ evs ∧
        (lanReply relay (sampleLink 2)).relayServer = lanConfig.localIp := by
  refine ⟨by decide, fun relay => ?_⟩
  obtain ⟨s, tr, hrun, hshow⟩ := exists_run_of_exec_guarded (step lanConfig)
    (fun _ _ a => publicList lanConfig a = true) (State.initial 0 .empty)
    (lanRun relay (sampleLink 2))
    (fun x => (step lanConfig x.1 (.handle 2 {})).map fun (y : State × List Event) =>
      decide (Event.replied (sampleResponse relay (sampleLink 2)) (sampleLink 2).addr
        (lanReply relay (sampleLink 2)) (some 1) ∈ y.2 ∧
        (lanReply relay (sampleLink 2)).relayServer = lanConfig.localIp))
    (b := some true) (by revert relay; decide +kernel)
  obtain ⟨⟨s', evs⟩, hstep, he⟩ := Option.map_eq_some_iff.1 hshow
  exact ⟨s, tr, s', evs, hrun, hstep, of_decide_eq_true he⟩

end RemoteServer.Rendezvous
