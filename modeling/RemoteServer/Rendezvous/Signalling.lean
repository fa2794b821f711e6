import RemoteServer.PeerStore.Addresses
import RemoteServer.Rendezvous.Sinks

/-!
# To whom a request is sent

A `PunchHole`, a `FetchLocalAddr` or a `RequestRelay` for a peer is put on the channel that
`tcp_punch` has for the address of the peer.  The peer store keeps that address when the
connection of the peer ends, so it matters which connection has the address when the request
is forwarded.

* `run_store` is the run of the peer store inside a run of the server.
* `State.addrs` are the addresses that the server keeps for peers, and `Owned` says whose they
  are: each is blank or that of an accepted registration, and an open connection with that
  address is the one of the registration.
* `forwarded_to_registered` is the result.  It needs that no connection comes from an address
  that the server keeps for a peer, and that no address is read while its registration is being
  stored (`Steady`).  Without the one a request is sent to a connection that never registered
  (`successor_gets_request`), without the other to a connection whose registration may still
  fail (`staged_gets_request`).
-/

namespace RemoteServer.Rendezvous

open RustStd Lts

/-! ## The run of the peer store -/

/-- The event of the peer store. -/
def Event.store? : Event → Option PeerStore.Event
  | .store e => some e
  | _ => none

theorem filterMap_store (evs : List PeerStore.Event) :
    (evs.map Event.store).filterMap Event.store? = evs := by
  rw [List.filterMap_map]
  exact List.filterMap_some

/-- What an action does to the peer store: nothing, or a step of it.  A call for a
registration comes from the connection that it names. -/
inductive StoreMove (cfg : Config) (s s' : State) (a : Action) (evs : List PeerStore.Event) :
    Prop where
  | same (hstore : s'.store = s.store) (hevs : evs = [])
  | step {b : PeerStore.Action}
      (hstep : PeerStore.step cfg.peerStore s.store b = some (s'.store, evs))
      (hcall : ∀ {r origin}, b = .call r → r.start.origin? = some origin →
        ∃ link h, s.conns[origin.conn]? = some ⟨link, .busy h⟩ ∧ origin.addr = link.addr)
      (hrun : ∀ {i ch}, b = .run i ch → a = .store i ch)

section Store

variable {cfg : Config} {s s' : State} {a : Action} {evs : List Event}

private theorem StoreMove.of_call {r : PeerStore.Request}
    (htables : s'.toTables.store = (s.toTables.call r).store)
    (hevs : evs.filterMap Event.store? = [])
    (horigin : ∀ {origin}, r.start.origin? = some origin →
      ∃ link h, s.conns[origin.conn]? = some ⟨link, .busy h⟩ ∧ origin.addr = link.addr) :
    StoreMove cfg s s' a (evs.filterMap Event.store?) := by
  refine .step (b := .call r) ?_ (fun hr => ?_) nofun
  · rw [htables, hevs]
    rfl
  · cases hr
    exact horigin

/-- A call of `get_pk` works on no registration. -/
private theorem getPk_origin (version : String) (id : PeerId) :
    (PeerStore.Request.getPk version id).start.origin? = none := by
  unfold PeerStore.Request.start
  dsimp only
  split <;> rfl

private theorem Responding.Move.storeMove {r : Responding} {next : Option Responding}
    (hm : r.Move cfg s.toTables s'.toTables next evs) :
    StoreMove cfg s s' a (evs.filterMap Event.store?) := by
  generalize ht : s'.toTables = t at hm
  cases hm with
  | @accept resp =>
    refine .of_call (r := .getPk resp.version resp.id) (by rw [ht]; rfl) rfl fun horigin => ?_
    rw [getPk_origin] at horigin
    cases horigin
  | reject =>
    refine .same (by rw [ht]) ?_
    split <;> rfl
  | key => exact .same (by rw [ht]) rfl
  | reply => exact .same (by rw [ht]) rfl

private theorem Handler.Move.storeMove {c : Nat} {link : Link} {ch : Choice} {h : Handler}
    {next : Next} (hc : s.conns[c]? = some ⟨link, .busy h⟩)
    (hm : h.Move cfg s.toTables c link ch s'.toTables next evs) :
    StoreMove cfg s s' a (evs.filterMap Event.store?) := by
  have hexpired : ∀ tokens : List Bytes,
      (tokens.map Event.expired).filterMap Event.store? = [] := by
    intro tokens
    simp [Event.store?, List.filterMap_map]
  generalize ht : s'.toTables = t at hm
  cases hm with
  | @cacheSink r =>
    refine .of_call (r := r.request ⟨c, link.addr⟩) (by rw [ht]; rfl) rfl fun horigin => ?_
    cases r <;> cases horigin <;> exact ⟨link, _, hc, rfl⟩
  | @lookNext id => exact .of_call (r := .requestRelay id) (by rw [ht]) rfl nofun
  | respond hr => exact Responding.Move.storeMove (ht ▸ hr)
  | responded hr => exact Responding.Move.storeMove (ht ▸ hr)
  | reserve =>
    refine .same (by rw [ht]) ?_
    rw [List.filterMap_append, hexpired]
    rfl
  | noToken => exact .same (by rw [ht]) (hexpired _)
  | _ => exact .same (by rw [ht]) rfl

theorem Move.storeMove (hm : Move cfg s s' a evs) :
    StoreMove cfg s s' a (evs.filterMap Event.store?) := by
  cases hm with
  | @tick d htables => exact .step (b := .tick d) (by rw [htables]; rfl) nofun nofun
  | message hc htables =>
    generalize ht : s'.toTables = t at htables
    cases htables with
    | @punchHole ph => exact .of_call (r := .punchHole ph.id) (by rw [ht]) rfl nofun
    | @relay rf => exact .of_call (r := .requestRelay rf.id) (by rw [ht]) rfl nofun
    | @online id => exact .of_call (r := .requestRelay id) (by rw [ht]) rfl nofun
    | _ => exact .same (by rw [ht]) rfl
  | handle hc htables => exact htables.storeMove hc
  | handleUdp _ htables => exact htables.storeMove
  | @store i ch _ _ hstep htables =>
    refine .step (b := .run i ch) ?_ nofun fun hb => ?_
    · rw [htables, filterMap_store]
      exact hstep
    · cases hb
      rfl
  | evictTimer htables => exact .of_call (r := .evictTimer) (by rw [htables]) rfl nofun
  | accept _ htables => exact .same (by rw [htables]) rfl
  | datagram _ htables => exact .same (by rw [htables]) rfl
  | silent _ htables => exact .same (by rw [htables]) rfl
  | hangUp _ htables => exact .same (by rw [htables]) rfl
  | close _ htables => exact .same (by rw [htables]) rfl

end Store

/-- A run of the server contains a run of its peer store. -/
theorem run_store {cfg : Config} {ok : List Event → State → Action → Prop} {now : Nat}
    {db : Database} {tr : List Event} {s : State}
    (h : Run (step cfg) ok (State.initial now db) tr s) :
    Run (PeerStore.step cfg.peerStore) anything (PeerStore.State.initial now db)
      (tr.filterMap Event.store?) s.store := by
  refine Run.project (fun s : State => s.store) Event.store? (fun _ hs => ?_) h
  cases (step_move hs).storeMove with
  | same hstore hevs => exact Or.inl ⟨hstore, hevs⟩
  | step hstep => exact Or.inr ⟨_, trivial, hstep⟩

/-! ## Steady runs -/

def Handler.route? : Handler → Option Route
  | .reserve route => some route
  | .forward route _ => some route
  | _ => none

/-- The address to which a handler is about to send its request: the one that its lookup has
read, or that of its route. -/
def Handler.addrs (store : PeerStore.State) : Handler → List SocketAddr
  | .find _ j => (((store.tasks[j]?).bind PeerStore.Task.sight).map Prod.snd).toList
  | h => (h.route?.map Route.peerAddr).toList

def Conn.addrs (store : PeerStore.State) (conn : Conn) : List SocketAddr :=
  match conn.status with
  | .busy h => h.addrs store
  | _ => []

/-- The addresses that the server keeps for peers. -/
def State.addrs (s : State) : List SocketAddr :=
  s.store.addrs ++ s.conns.flatMap fun conn => conn.addrs s.store

/-- No open connection has the address, and the server does not keep it for a peer. -/
def State.freshAddr (cfg : Config) (s : State) (addr : SocketAddr) : Bool :=
  (s.conns.all fun conn => decide (conn.status = .ended ∨
      cfg.protocol.tryIntoV4 conn.link.addr ≠ cfg.protocol.tryIntoV4 addr)) &&
    s.addrs.all fun kept => decide (cfg.protocol.tryIntoV4 kept ≠ cfg.protocol.tryIntoV4 addr)

/-- A connection comes from a fresh address, and no request reads the address of a peer while
a registration of the peer is being stored. -/
def steady (cfg : Config) (s : State) : Action → Bool
  | .accept link => s.freshAddr cfg link.addr
  | .store i ch => PeerStore.readsSettled s.store (.run i ch)
  | _ => true

def Steady (cfg : Config) (_ : List Event) (s : State) (a : Action) : Prop := steady cfg s a = true

instance (cfg : Config) (tr : List Event) (s : State) (a : Action) :
    Decidable (Steady cfg tr s a) := inferInstanceAs (Decidable (steady cfg s a = true))

/-- The connection has not finished. -/
def State.Live (s : State) (c : Nat) (link : Link) : Prop :=
  ∃ st, s.conns[c]? = some ⟨link, st⟩ ∧ st ≠ .ended

section Fresh

variable {cfg : Config} {s s' : State} {a : Action} {evs : List Event} {addr : SocketAddr}

theorem State.freshAddr_live (h : s.freshAddr cfg addr = true) {c : Nat} {link : Link}
    (hc : s.Live c link) : cfg.protocol.tryIntoV4 link.addr ≠ cfg.protocol.tryIntoV4 addr := by
  obtain ⟨st, hc, hst⟩ := hc
  have hconns := List.all_eq_true.1 ((Bool.and_eq_true _ _).mp h).1
  rcases of_decide_eq_true (hconns _ (List.mem_of_getElem? hc)) with hended | hne
  · exact absurd hended hst
  · exact hne

theorem State.freshAddr_kept (h : s.freshAddr cfg addr = true) {kept : SocketAddr}
    (hkept : kept ∈ s.addrs) : cfg.protocol.tryIntoV4 kept ≠ cfg.protocol.tryIntoV4 addr :=
  of_decide_eq_true (List.all_eq_true.1 ((Bool.and_eq_true _ _).mp h).2 kept hkept)

theorem State.mem_addrs_of_handler {c : Nat} {link : Link} {h : Handler}
    (hc : s.conns[c]? = some ⟨link, .busy h⟩) (haddr : addr ∈ h.addrs s.store) :
    addr ∈ s.addrs :=
  List.mem_append_right _ (List.mem_flatMap.2 ⟨_, List.mem_of_getElem? hc, haddr⟩)

theorem Handler.mem_addrs_of_route {h : Handler} {route : Route} (hroute : h.route? = some route)
    (store : PeerStore.State) : route.peerAddr ∈ h.addrs store := by
  cases h with
  | reserve =>
    cases hroute
    exact List.mem_singleton_self _
  | forward =>
    cases hroute
    exact List.mem_singleton_self _
  | _ => cases hroute

theorem Handler.mem_addrs_of_sight {store : PeerStore.State} {ask : Ask} {j : Nat}
    {t : PeerStore.Task} (hj : store.tasks[j]? = some t) {id : PeerId}
    (hsight : t.sight = some (id, addr)) : addr ∈ (Handler.find ask j).addrs store := by
  rw [Handler.addrs, hj, Option.bind_some, hsight]
  exact List.mem_singleton_self _

/-- A connection that is open after an action was so before, or is new. -/
theorem Move.live_back (hm : Move cfg s s' a evs) {c : Nat} {link : Link} (hc : s'.Live c link) :
    s.Live c link ∨ a = .accept link ∧ c = s.conns.length ∧ link.addr.port ≠ 0 := by
  obtain ⟨st, hc, hst⟩ := hc
  rcases hm.conn_cases hc with hold | ⟨link', rfl, hport, hnew, hlen⟩ | ⟨st₀, hold, hnext⟩
  · exact Or.inl ⟨st, hold, hst⟩
  · cases hnew
    exact Or.inr ⟨rfl, hlen, hport⟩
  · refine Or.inl ⟨st₀, hold, ?_⟩
    rintro rfl
    generalize s'.toTables = t at hnext
    cases hnext

end Fresh

/-! ## The owner of an address -/

/-- An open connection with the address of the origin is the connection of the origin. -/
def State.Owns (cfg : Config) (s : State) (origin : PeerStore.Origin) : Prop :=
  ∀ (c : Nat) (link : Link), s.Live c link →
    cfg.protocol.tryIntoV4 link.addr = cfg.protocol.tryIntoV4 origin.addr → c = origin.conn

/-- The address is blank, or that of an accepted registration of the id whose connection has
the address for itself. -/
def KnownAddr (cfg : Config) (tr : List Event) (s : State) (id : PeerId) (addr : SocketAddr) :
    Prop :=
  addr = .unspecified ∨ ∃ origin : PeerStore.Origin, origin.addr = addr ∧
    PeerStore.Accepted (tr.filterMap Event.store?) origin id ∧ s.Owns cfg origin

/-- The open connections have different addresses, and every address that the server keeps for
a peer is known for it. -/
structure Owned (cfg : Config) (tr : List Event) (s : State) : Prop where
  port : ∀ {c : Nat} {link : Link}, s.Live c link → link.addr.port ≠ 0
  distinct : ∀ {j k : Nat} {link link' : Link}, s.Live j link → s.Live k link' →
    cfg.protocol.tryIntoV4 link.addr = cfg.protocol.tryIntoV4 link'.addr → j = k
  running : ∀ {t : PeerStore.Task} {origin : PeerStore.Origin}, t ∈ s.store.tasks →
    t.origin? = some origin → s.Owns cfg origin
  peers : PeerStore.Addressed (KnownAddr cfg tr s) (s.store.registry cfg.peerStore)
  /-- The lookup of a request is for the id of the request. -/
  find : ∀ {c : Nat} {link : Link} {ask : Ask} {j : Nat},
    s.conns[c]? = some ⟨link, .busy (.find ask j)⟩ →
    ∃ t, s.store.tasks[j]? = some t ∧ t.asks = some ask.id ∧
      ∀ {id addr}, t.sight = some (id, addr) → KnownAddr cfg tr s id addr
  route : ∀ {c : Nat} {link : Link} {h : Handler} {route : Route},
    s.conns[c]? = some ⟨link, .busy h⟩ → h.route? = some route →
    KnownAddr cfg tr s route.ask.id route.peerAddr

section Keep

variable {cfg : Config} {s s' : State} {a : Action} {evs tr : List Event}

/-- Who has an address for itself keeps it, as long as the server keeps the address. -/
theorem State.Owns.step {origin : PeerStore.Origin} (ho : s.Owns cfg origin)
    (hkept : origin.addr ∈ s.addrs) (hok : Steady cfg tr s a) (hm : Move cfg s s' a evs) :
    s'.Owns cfg origin := by
  intro c link hc heq
  rcases hm.live_back hc with hc | ⟨rfl, -⟩
  · exact ho c link hc heq
  · exact absurd heq.symm (State.freshAddr_kept hok hkept)

theorem KnownAddr.step {id : PeerId} {addr : SocketAddr} (hk : KnownAddr cfg tr s id addr)
    (hkept : addr ∈ s.addrs) (hok : Steady cfg tr s a) (hm : Move cfg s s' a evs) :
    KnownAddr cfg (tr ++ evs) s' id addr := by
  rcases hk with hblank | ⟨origin, rfl, hacc, howns⟩
  · exact Or.inl hblank
  · refine Or.inr ⟨origin, rfl, ?_, howns.step hkept hok hm⟩
    rw [List.filterMap_append]
    exact PeerStore.accepted_append.2 (Or.inl hacc)

/-- A registration in progress belongs to its connection. -/
theorem Owned.running_step (ho : Owned cfg tr s) (hok : Steady cfg tr s a)
    (hm : Move cfg s s' a evs) {u : PeerStore.Task} (hu : u ∈ s'.store.tasks)
    {origin : PeerStore.Origin} (horigin : u.origin? = some origin) : s'.Owns cfg origin := by
  have hold : ∀ {t : PeerStore.Task}, t ∈ s.store.tasks → t.origin? = some origin →
      s'.Owns cfg origin := by
    intro t ht htorigin
    exact (ho.running ht htorigin).step
      (List.mem_append_left _ (PeerStore.mem_addrs_of_origin ht htorigin)) hok hm
  cases hm.storeMove with
  | same hstore => exact hold (hstore ▸ hu) horigin
  | step hstep hcall =>
    rcases PeerStore.step_origin hstep hu horigin with ⟨t, ht, hto⟩ | ⟨r, hr, hstart⟩
    · exact hold ht hto
    · -- the caller is open, so no other connection has its address
      obtain ⟨link, h, hc, haddr⟩ := hcall hr hstart
      have hlive : s.Live origin.conn link := ⟨_, hc, nofun⟩
      intro c link' hc' heq
      rw [haddr] at heq
      rcases hm.live_back hc' with hc' | ⟨rfl, -⟩
      · exact ho.distinct hc' hlive heq
      · exact absurd heq.symm (State.freshAddr_live hok hlive)

/-- What the events of an action accept is known after it. -/
theorem Owned.accepted_step (ho : Owned cfg tr s) (hok : Steady cfg tr s a)
    (hm : Move cfg s s' a evs) {origin : PeerStore.Origin} {id : PeerId}
    (hacc : PeerStore.Accepted (evs.filterMap Event.store?) origin id) :
    KnownAddr cfg (tr ++ evs) s' id origin.addr := by
  have hrunning : ∃ t ∈ s.store.tasks, t.origin? = some origin := by
    cases hm.storeMove with
    | same _ hevs =>
      rw [hevs] at hacc
      obtain ⟨e, he, -⟩ := hacc
      cases he
    | step hstep => exact PeerStore.step_accepted hstep hacc
  obtain ⟨t, ht, horigin⟩ := hrunning
  refine Or.inr ⟨origin, rfl, ?_, ?_⟩
  · rw [List.filterMap_append]
    exact PeerStore.accepted_append.2 (Or.inr hacc)
  · exact (ho.running ht horigin).step
      (List.mem_append_left _ (PeerStore.mem_addrs_of_origin ht horigin)) hok hm

theorem Owned.peers_step (ho : Owned cfg tr s) (hok : Steady cfg tr s a) (hm : Move cfg s s' a evs)
    (hwf : PeerStore.WellFormed s.store) (hh : PeerStore.Handled cfg.peerStore s.store)
    (he : PeerStore.Exclusive (s.store.registry cfg.peerStore)) :
    PeerStore.Addressed (KnownAddr cfg (tr ++ evs) s') (s'.store.registry cfg.peerStore) := by
  have hlearns : PeerStore.Learns (s.store.registry cfg.peerStore) (evs.filterMap Event.store?)
      (KnownAddr cfg tr s) (KnownAddr cfg (tr ++ evs) s') := by
    refine ⟨fun hkeeps hk => ?_, fun _ => Or.inl rfl, fun hacc => ho.accepted_step hok hm hacc⟩
    exact hk.step (List.mem_append_left _ (PeerStore.mem_addrs_of_keeps hkeeps)) hok hm
  cases hm.storeMove with
  | same hstore =>
    rw [hstore]
    exact ho.peers.learns hlearns
  | step hs =>
    exact PeerStore.step_addressed ho.peers he (PeerStore.step_registry hwf hh hs) hlearns

end Keep

/-! ## The address of a route -/

section Route

variable {cfg : Config} {s s' : State} {a : Action} {evs tr : List Event}

/-- What a finished lookup has seen is what its task has read. -/
theorem sight_of_seen {t : PeerStore.Task} {id : PeerId} {online : Bool} {addr : SocketAddr}
    (hseen : seen? t = some (.ok (some (online, addr)))) (hasks : t.asks = some id) :
    t.sight = some (id, addr) := by
  cases t with
  | hold id' o online' addr' =>
    cases hseen
    cases hasks
    rfl
  | done answer =>
    cases answer with
    | seen id' result =>
      cases hseen
      cases hasks
      rfl
    | _ => cases hseen
  | _ => cases hseen

/-- A handler that has a route had it before, or has just found it. -/
theorem Handler.Move.route_cases {t t' : Tables} {c : Nat} {link : Link} {ch : Choice}
    {h h' : Handler} {route : Route} (hm : h.Move cfg t c link ch t' (.go h') evs)
    (hroute : h'.route? = some route) :
    h.route? = some route ∨ ∃ ask j u, h = .find ask j ∧ t.store.tasks[j]? = some u ∧
      seen? u = some (.ok (some (true, route.peerAddr))) ∧ route.ask.id = ask.id := by
  have hclosing : ∀ {next : Next}, next = .go h' → next.Closing → False := by
    rintro next rfl hnext
    cases h' with
    | reserve => exact hnext
    | forward => exact hnext
    | _ => cases hroute
  cases hm with
  | found hj hseen hid =>
    cases hroute
    exact Or.inr ⟨_, _, _, rfl, hj, hseen, hid⟩
  | reserve => exact Or.inl hroute
  | registered _ hnext => exact (hclosing rfl hnext).elim
  | turnDown hnext => exact (hclosing rfl hnext).elim
  | withdraw hnext => exact (hclosing rfl hnext).elim
  | aside _ hnext => exact (hclosing rfl hnext).elim
  | _ => cases hroute

/-- No handler goes on to a lookup; only a message starts one. -/
theorem Handler.Move.not_find {t t' : Tables} {c : Nat} {link : Link} {ch : Choice}
    {h : Handler} {ask : Ask} {j : Nat} (hm : h.Move cfg t c link ch t' (.go (.find ask j)) evs) :
    False := by
  cases hm with
  | registered _ hnext => exact hnext
  | turnDown hnext => exact hnext
  | withdraw hnext => exact hnext
  | aside _ hnext => exact hnext

/-- The lookup that a message starts is for the id of the message and has read nothing. -/
theorem Receives.find {t t' : Tables} {ask : Ask} {j : Nat}
    (h : Receives t t' (.go (.find ask j))) :
    ∃ u, t'.store.tasks[j]? = some u ∧ u.asks = some ask.id ∧ u.sight = none := by
  cases h with
  | closing hnext => exact hnext.elim
  | punchHole => exact ⟨_, List.getElem?_concat_length, rfl, rfl⟩
  | relay => exact ⟨_, List.getElem?_concat_length, rfl, rfl⟩

theorem Receives.route?_eq_none {t t' : Tables} {h : Handler} (hr : Receives t t' (.go h)) :
    h.route? = none := by
  cases hr with
  | closing hnext =>
    cases h with
    | reserve => exact hnext.elim
    | forward => exact hnext.elim
    | _ => rfl
  | _ => rfl

/-- A task goes on asking for the same id, and what it has read is from before, or the address
of a peer that is not being stored. -/
theorem Move.lookup (hm : Move cfg s s' a evs) (hok : Steady cfg tr s a)
    (hwf : PeerStore.WellFormed s.store) {j : Nat} {t : PeerStore.Task}
    (hj : s.store.tasks[j]? = some t) :
    ∃ t', s'.store.tasks[j]? = some t' ∧ t'.asks = t.asks ∧
      ∀ {id addr}, t'.sight = some (id, addr) → t.sight = some (id, addr) ∨
        ∃ o, s.store.map.get id = some o ∧ addr = (s.store.peers o).socketAddr ∧
          (s.store.peers o).persistenceInProgress = false := by
  cases hm.storeMove with
  | same hstore =>
    rw [hstore]
    exact ⟨t, hj, rfl, Or.inl⟩
  | step hs _ hrun =>
    obtain ⟨t', hj', hasks⟩ := PeerStore.step_asks hs hj
    refine ⟨t', hj', hasks, fun {id addr} hsight => ?_⟩
    rcases PeerStore.step_sight hs hj' hsight with ⟨u, hu, hold⟩ | ⟨ch, o, hb, hu, haddr⟩
    · cases hj.symm.trans hu
      exact Or.inl hold
    · -- the object that the task holds is the one of its id
      have hget : s.store.map.get id = some o :=
        hwf.held _ (List.mem_of_getElem? hu) (id, o) List.mem_cons_self
      have hfree : (s.store.peers o).persistenceInProgress = false := by
        cases hrun hb
        simpa [Steady, steady, PeerStore.readsSettled, hu] using hok
      exact Or.inr ⟨o, hget, haddr, hfree⟩

theorem Owned.find_step (ho : Owned cfg tr s) (hok : Steady cfg tr s a) (hm : Move cfg s s' a evs)
    (hwf : PeerStore.WellFormed s.store)
    (he : PeerStore.Exclusive (s.store.registry cfg.peerStore)) {c : Nat} {link : Link} {ask : Ask}
    {j : Nat} (hc : s'.conns[c]? = some ⟨link, .busy (.find ask j)⟩) :
    ∃ t, s'.store.tasks[j]? = some t ∧ t.asks = some ask.id ∧
      ∀ {id addr}, t.sight = some (id, addr) → KnownAddr cfg (tr ++ evs) s' id addr := by
  rcases hm.conn_cases hc with hold | ⟨link', -, -, hnew, -⟩ | ⟨st, -, hnext⟩
  · obtain ⟨t, hj, hasks, hknown⟩ := ho.find hold
    obtain ⟨t', hj', hasks', hsights⟩ := hm.lookup hok hwf hj
    refine ⟨t', hj', hasks'.trans hasks, fun {id addr} hsight => ?_⟩
    rcases hsights hsight with hsight | ⟨o, hget, rfl, hfree⟩
    · exact (hknown hsight).step
        (State.mem_addrs_of_handler hold (Handler.mem_addrs_of_sight hj hsight)) hok hm
    · have hsettled := ho.peers.settled he (PeerStore.cached_of_get hget) hfree
      exact hsettled.step (List.mem_append_left _ (PeerStore.mem_addrs_of_get hget)) hok hm
  · cases hnew
  · generalize hbusy : Conn.status ⟨link, .busy (.find ask j)⟩ = st' at hnext
    cases hnext with
    | message hrec =>
      cases Next.eq_go_of_status hbusy.symm
      obtain ⟨u, hu, hasks, hnone⟩ := hrec.find
      refine ⟨u, hu, hasks, fun {id addr} hsight => ?_⟩
      rw [hnone] at hsight
      cases hsight
    | handle hh =>
      cases Next.eq_go_of_status hbusy.symm
      exact hh.not_find.elim
    | hangUp => cases hbusy
    | close => cases hbusy

theorem Owned.route_step (ho : Owned cfg tr s) (hok : Steady cfg tr s a) (hm : Move cfg s s' a evs)
    {c : Nat} {link : Link} {h : Handler} {route : Route}
    (hc : s'.conns[c]? = some ⟨link, .busy h⟩) (hroute : h.route? = some route) :
    KnownAddr cfg (tr ++ evs) s' route.ask.id route.peerAddr := by
  -- the route of a handler from before the action
  have hold : ∀ {h₀ : Handler}, s.conns[c]? = some ⟨link, .busy h₀⟩ → h₀.route? = some route →
      KnownAddr cfg (tr ++ evs) s' route.ask.id route.peerAddr := by
    intro h₀ hc₀ hroute₀
    exact (ho.route hc₀ hroute₀).step
      (State.mem_addrs_of_handler hc₀ (Handler.mem_addrs_of_route hroute₀ _)) hok hm
  rcases hm.conn_cases hc with hsame | ⟨link', -, -, hnew, -⟩ | ⟨st, hst, hnext⟩
  · exact hold hsame hroute
  · cases hnew
  · generalize hbusy : Conn.status ⟨link, .busy h⟩ = st' at hnext
    cases hnext with
    | message hrec =>
      cases Next.eq_go_of_status hbusy.symm
      rw [hrec.route?_eq_none] at hroute
      cases hroute
    | handle hh =>
      cases Next.eq_go_of_status hbusy.symm
      rcases hh.route_cases hroute with hroute₀ | ⟨ask, j, u, rfl, hj, hsaw, hid⟩
      · exact hold hst hroute₀
      · -- the lookup of the request has read the address of the id
        obtain ⟨t, ht, hasks, hknown⟩ := ho.find hst
        cases hj.symm.trans ht
        have hsight := sight_of_seen hsaw hasks
        rw [hid]
        exact (hknown hsight).step
          (State.mem_addrs_of_handler hst (Handler.mem_addrs_of_sight ht hsight)) hok hm
    | hangUp => cases hbusy
    | close => cases hbusy

end Route

theorem step_owned {cfg : Config} {s s' : State} {a : Action} {evs tr : List Event}
    (ho : Owned cfg tr s) (hok : Steady cfg tr s a) (h : step cfg s a = some (s', evs))
    (hwf : PeerStore.WellFormed s.store) (hh : PeerStore.Handled cfg.peerStore s.store)
    (he : PeerStore.Exclusive (s.store.registry cfg.peerStore)) : Owned cfg (tr ++ evs) s' := by
  have hm := step_move h
  refine ⟨fun {c link} hc => ?_, fun {j k link link'} hj hk heq => ?_,
    fun hu horigin => ho.running_step hok hm hu horigin, ho.peers_step hok hm hwf hh he,
    fun hc => ho.find_step hok hm hwf he hc, fun hc hroute => ho.route_step hok hm hc hroute⟩
  · rcases hm.live_back hc with hc | ⟨-, -, hport⟩
    · exact ho.port hc
    · exact hport
  · rcases hm.live_back hj with hj | ⟨rfl, hj, -⟩
    · rcases hm.live_back hk with hk | ⟨rfl, -⟩
      · exact ho.distinct hj hk heq
      · exact absurd heq (State.freshAddr_live hok hj)
    · rcases hm.live_back hk with hk | ⟨-, hk, -⟩
      · exact absurd heq.symm (State.freshAddr_live hok hk)
      · rw [hj, hk]

theorem owned_initial (cfg : Config) (now : Nat) (db : Database) :
    Owned cfg [] (State.initial now db) := by
  have hlive : ∀ {c : Nat} {link : Link}, ¬ (State.initial now db).Live c link := by
    rintro c link ⟨st, hc, -⟩
    cases hc
  refine ⟨fun hc => absurd hc hlive, fun hj => absurd hj hlive, fun ht => ?_,
    .initial _ _ _ _, nofun, nofun⟩
  cases ht

theorem run_owned {cfg : Config} {now : Nat} {db : Database} {tr : List Event} {s : State}
    (h : Run (step cfg) (Steady cfg) (State.initial now db) tr s) : Owned cfg tr s := by
  refine h.inv (I := Owned cfg) (owned_initial cfg now db) fun hrun ho hok hs => ?_
  have hstore := run_store hrun
  exact step_owned ho hok hs (PeerStore.run_wellFormed hstore) (PeerStore.run_handled hstore)
    (PeerStore.run_exclusive hstore)

/-! ## The result -/

/-- A registration of the id was accepted on the connection. -/
def Registered (tr : List Event) (c : Nat) (id : PeerId) : Prop :=
  ∃ origin : PeerStore.Origin, origin.conn = c ∧
    PeerStore.Accepted (tr.filterMap Event.store?) origin id

instance (tr : List Event) (c : Nat) (id : PeerId) : Decidable (Registered tr c id) :=
  decidable_of_iff
    (∃ q ∈ (tr.filterMap Event.store?).filterMap PeerStore.Event.accepts?, q.1.conn = c ∧ q.2 = id)
    (by
      constructor
      · rintro ⟨⟨origin, id'⟩, hq, hconn, rfl⟩
        exact ⟨origin, hconn, List.mem_filterMap.1 hq⟩
      · rintro ⟨origin, hconn, hacc⟩
        exact ⟨(origin, id), List.mem_filterMap.2 hacc, hconn, rfl⟩)

section Result

variable {cfg : Config} {s s' : State} {a : Action} {evs tr : List Event}

/-- A request that is sent was forwarded by the handler of its connection, to the connection
under the address of its route. -/
theorem Move.pushed (hm : Move cfg s s' a evs) {c target : Nat} {id : PeerId} {msg : ServerMessage}
    (he : .pushed c target id msg ∈ evs) :
    ∃ link route token, s.conns[c]? = some ⟨link, .busy (.forward route token)⟩ ∧
      route.ask.id = id ∧ msg = route.message cfg.protocol link.addr token ∧
      s.tcpPunch.get (cfg.protocol.tryIntoV4 route.peerAddr) = some target := by
  rcases hm.source he with ⟨e', heq⟩ | ⟨c', link, h, ch, next, hc, -, hh⟩ |
    ⟨addr, r, next, -, hr⟩
  · cases heq
  · generalize s'.toTables = t at hh
    cases hh with
    | push hget =>
      cases List.mem_singleton.1 he
      exact ⟨_, _, _, hc, rfl, rfl, hget⟩
    | reserve =>
      rcases List.mem_append.1 he with he | he
      · obtain ⟨token, -, heq⟩ := List.mem_map.1 he
        cases heq
      · cases List.mem_singleton.1 he
    | noToken =>
      obtain ⟨token, -, heq⟩ := List.mem_map.1 he
      cases heq
    | fail => cases List.mem_singleton.1 he
    | withdraw => cases List.mem_singleton.1 he
    | respond hr => exact absurd he (hr.not_mem rfl nofun)
    | responded hr => exact absurd he (hr.not_mem rfl nofun)
    | _ => cases he
  · exact absurd he (hr.not_mem rfl nofun)

/-- In every run in which no connection comes from an address that an open connection has or
that the server keeps for a peer, and in which no address is read while it is being stored: a
`PunchHole`, a `FetchLocalAddr` or a `RequestRelay` for an id is only put on the channel of a
connection on which a registration of that id was accepted. -/
theorem forwarded_to_registered {now : Nat} {db : Database}
    (hrun : Run (step cfg) (Steady cfg) (State.initial now db) tr s)
    (hstep : step cfg s a = some (s', evs)) {c target : Nat} {id : PeerId} {msg : ServerMessage}
    (he : .pushed c target id msg ∈ evs) : Registered tr target id := by
  obtain ⟨link, route, token, hc, rfl, -, hget⟩ := (step_move hstep).pushed he
  obtain ⟨link', st, htarget, hst, hkey⟩ := run_liveSinks hrun hget
  have hlive : s.Live target link' := ⟨st, htarget, hst⟩
  have ho := run_owned hrun
  rcases ho.route hc rfl with hblank | ⟨origin, haddr, hacc, howns⟩
  · -- no connection has the blank address
    refine absurd ?_ (ho.port hlive)
    have hport := congrArg SocketAddr.port hkey
    rw [cfg.protocol.tryIntoV4_port, cfg.protocol.tryIntoV4_port, hblank] at hport
    exact hport.symm
  · have hconn : target = origin.conn := howns target link' hlive (by rw [← hkey, haddr])
    exact ⟨origin, hconn.symm, hacc⟩

end Result

/-! ## Concrete runs -/

/-- The targets of the requests for the sample peer that a step sends. -/
def targets (evs : List Event) : List Nat :=
  evs.filterMap fun e =>
    match e with
    | .pushed _ target id _ => if id = PeerStore.sampleId then some target else none
    | _ => none

theorem mem_targets {evs : List Event} {target : Nat} (h : target ∈ targets evs) :
    ∃ c msg, Event.pushed c target PeerStore.sampleId msg ∈ evs := by
  obtain ⟨e, he, htarget⟩ := List.mem_filterMap.1 h
  cases e with
  | pushed c target' id msg =>
    dsimp only at htarget
    split at htarget
    · rename_i hid
      subst hid
      cases htarget
      exact ⟨c, msg, he⟩
    · cases htarget
  | _ => cases htarget

/-- Connection `c` requests a relay up to the step that forwards the request; its lookup is
task `j` of the store. -/
def relayAsked (c j : Nat) : List Action := (relayRequested c j "key" 7).dropLast

/-- Connection 2 has the address of connection 1, which has ended, and its request is sent to
connection 0, which has registered. -/
theorem forwarded_to_registered_relay :
    ∃ s tr s' evs c msg,
      Run (step sampleConfig) (Steady sampleConfig) (State.initial 0 .empty) tr s ∧
      step sampleConfig s (.handle 2 {}) = some (s', evs) ∧
      Event.pushed c 0 PeerStore.sampleId msg ∈ evs ∧ Registered tr 0 PeerStore.sampleId := by
  obtain ⟨s, tr, hrun, hshow⟩ := exists_run_of_exec_guarded (step sampleConfig)
    (Steady sampleConfig) (State.initial 0 .empty)
    (registered ++ [.accept (sampleLink 2), .hangUp 1, .close 1, .accept (sampleLink 2)] ++
      relayAsked 2 2)
    (fun x => (step sampleConfig x.1 (.handle 2 {})).map fun (y : State × List Event) =>
      targets y.2)
    (b := some [0]) (by decide +kernel)
  obtain ⟨⟨s', evs⟩, hstep, htargets⟩ := Option.map_eq_some_iff.1 hshow
  obtain ⟨c, msg, he⟩ := mem_targets (htargets ▸ List.mem_singleton_self 0)
  exact ⟨s, tr, s', evs, c, msg, hrun, hstep, he, forwarded_to_registered hrun hstep he⟩

/-- A run whose next step sends a request to a connection that has not registered. -/
private theorem unregistered_of_exec (actions : List Action) (c target : Nat)
    (h : (exec (step sampleConfig) (State.initial 0 .empty) actions).map (fun x =>
      (step sampleConfig x.1 (.handle c {})).map fun (y : State × List Event) =>
        (targets y.2, decide (Registered x.2 target PeerStore.sampleId))) =
      some (some ([target], false))) :
    ∃ s tr s' evs c' msg, Run (step sampleConfig) anything (State.initial 0 .empty) tr s ∧
      step sampleConfig s (.handle c {}) = some (s', evs) ∧
      Event.pushed c' target PeerStore.sampleId msg ∈ evs ∧
      ¬ Registered tr target PeerStore.sampleId := by
  obtain ⟨s, tr, hrun, hshow⟩ := exists_run_of_exec _ _ _ _ h
  obtain ⟨⟨s', evs⟩, hstep, hpair⟩ := Option.map_eq_some_iff.1 hshow
  obtain ⟨htargets, hnot⟩ := Prod.mk.inj hpair
  obtain ⟨c', msg, he⟩ := mem_targets (htargets ▸ List.mem_singleton_self target)
  exact ⟨s, tr, s', evs, c', msg, hrun, hstep, he, of_decide_eq_false hnot⟩

/-- Connection 0 registers and ends, connection 1 comes from its address and sends nothing, and
the request of connection 2 for the peer is sent to connection 1. -/
theorem successor_gets_request :
    ∃ s tr s' evs c msg, Run (step sampleConfig) anything (State.initial 0 .empty) tr s ∧
      step sampleConfig s (.handle 2 {}) = some (s', evs) ∧
      Event.pushed c 1 PeerStore.sampleId msg ∈ evs ∧
      ¬ Registered tr 1 PeerStore.sampleId :=
  unregistered_of_exec
    (registered ++ [.hangUp 0, .close 0, .accept (sampleLink 1), .accept (sampleLink 2)] ++
      relayAsked 2 2) 2 1 (by decide +kernel)

/-- Connection 0 has sent a `RegisterPk` that is staged and not stored yet, and already gets the
request of connection 1. -/
theorem staged_gets_request :
    ∃ s tr s' evs c msg, Run (step sampleConfig) anything (State.initial 0 .empty) tr s ∧
      step sampleConfig s (.handle 1 {}) = some (s', evs) ∧
      Event.pushed c 0 PeerStore.sampleId msg ∈ evs ∧
      ¬ Registered tr 0 PeerStore.sampleId :=
  unregistered_of_exec
    ([.accept (sampleLink 1), .message 0 (.registerPk (PeerStore.sampleRequest 1 2))] ++
      handles 0 1 ++ stores 0 6 ++ [.accept (sampleLink 2)] ++ relayAsked 1 2) 1 0
    (by decide +kernel)

end RemoteServer.Rendezvous
