import RemoteServer.PeerStore.Provenance

/-!
# Who can redirect a peer

A peer is routed to the IP of its socket address or, before there is one, to the
persisted IP.  A `RegisterPeer` carries neither key nor `uuid`, so it must not be
able to move a peer to another host.

* `Effect.registration_cases` says which steps write the address or the identity
  of a cached peer.
* `routing` is the provenance of a routing IP: a `RegisterPk` that was staged, the
  table at the start, or an accepted heartbeat from a loopback address.
* `heartbeat_cannot_redirect` is the result.  A loopback address is exempt from
  the comparison in `register_peer_common`, so it is an exception here too:
  `loopback_redirects`.
-/

namespace RemoteServer

open RustStd

/-- The IP part of the address to which a peer is routed. -/
def Peer.routingIp (p : Peer) : String :=
  if p.socketAddr.port ≠ 0 then p.socketAddr.ip.toString else p.info.ip

/-- The IP is the one to which the peer is routed, compared as `register_peer_common`
compares it. -/
def Peer.routesTo (p : Peer) (ip : IpAddr) : Prop :=
  if p.socketAddr.port ≠ 0 then ip = p.socketAddr.ip else ip.toString = p.info.ip

theorem routesTo_of_heartbeatIpChange {old : Peer} {addr : SocketAddr}
    (h : heartbeatIpChange old addr = false) :
    old.routesTo addr.ip ∨ addr.ip.isLoopback = true := by
  rw [heartbeatIpChange, Bool.and_eq_false_iff, Bool.not_eq_false'] at h
  refine h.imp (fun hsame => ?_) id
  unfold Peer.routesTo
  split at hsame
  · rename_i hport
    rw [if_pos hport]
    simpa using hsame
  · rename_i hport
    rw [if_neg hport]
    simpa using hsame

/-- A heartbeat from another host than the known one is not accepted. -/
theorem heartbeat_of_moved {allowUnmanagedDevices : Bool} {old : Peer} {addr : SocketAddr}
    {now : Nat} (hmoved : ¬ old.routesTo addr.ip) (hloop : addr.ip.isLoopback = false) :
    heartbeat allowUnmanagedDevices old addr now = (old, true) := by
  rcases heartbeat_cases allowUnmanagedDevices old addr now with hsame | ⟨-, -, hip, -⟩
  · exact hsame
  · rcases routesTo_of_heartbeatIpChange hip with hroute | hloop'
    · exact absurd hroute hmoved
    · rw [hloop] at hloop'
      cases hloop'

/-- An accepted heartbeat keeps the IP of the peer, or comes from a loopback
address. -/
theorem heartbeat_routingIp {allowUnmanagedDevices : Bool} {old : Peer} {addr : SocketAddr}
    {now : Nat} (hsock : old.socketAddr.port ≠ 0 →
      old.socketAddr.ip.toString = old.info.ip ∨ old.socketAddr.ip.isLoopback = true) :
    (heartbeat allowUnmanagedDevices old addr now).1.routingIp = old.routingIp ∨
      (heartbeat allowUnmanagedDevices old addr now).2 = false ∧ addr.ip.isLoopback = true := by
  rcases heartbeat_cases allowUnmanagedDevices old addr now with hsame | ⟨hnew, -, hip, -⟩
  · rw [hsame]
    exact Or.inl rfl
  · rw [hnew]
    rcases routesTo_of_heartbeatIpChange hip with hroute | hloop
    · unfold Peer.routesTo at hroute
      unfold Peer.routingIp
      dsimp only
      split at hroute
      · rename_i hport
        rw [if_pos hport]
        rcases hsock hport with hinfo | hloop
        · rw [hroute, hinfo]
          exact Or.inl (ite_self _)
        · exact Or.inr ⟨rfl, by rw [hroute]; exact hloop⟩
      · rename_i hport
        rw [if_neg hport, hroute]
        exact Or.inl (ite_self _)
    · exact Or.inr ⟨rfl, hloop⟩

/-- The part of a peer that a registration writes is the same. -/
structure Peer.SameRegistration (p q : Peer) : Prop where
  socketAddr : q.socketAddr = p.socketAddr
  lastRegTime : q.lastRegTime = p.lastRegTime
  uuid : q.uuid = p.uuid
  pk : q.pk = p.pk
  info : q.info = p.info

theorem Peer.SameRegistration.routingIp {p q : Peer} (h : p.SameRegistration q) :
    q.routingIp = p.routingIp := by
  rw [Peer.routingIp, Peer.routingIp, h.socketAddr, h.info]

end RemoteServer

namespace RemoteServer.PeerStore

open RustStd Lts

/-! ## The steps that write -/

section Step

variable {cfg : Config} {r : Registry} {i : Nat} {c c' : Option Cargo} {v : View}
  {spawned : List Persist} {evs : List Event}

/-- The registration of a cached peer is written by a staging, by a rollback and by
a heartbeat, and by nothing else. -/
theorem Effect.registration_cases (h : Effect cfg r i c v c' spawned evs)
    (hi : r.cargos[i]? = some c) {id : PeerId} {p q : Peer} (hp : r.cached id = some p)
    (hq : v.cached id = some q) :
    p.SameRegistration q ∨ (∃ origin, Event.staged i origin id r.now ∈ evs) ∨
      (∃ w, some (.ended w none) ∈ r.cargos ∧ w.id = id ∧ evs = [.rolledBack w.owner id]) ∨
      ∃ origin, evs = [.beat origin id (heartbeat cfg.allowUnmanagedDevices p origin.addr r.now).2] ∧
        q = (heartbeat cfg.allowUnmanagedDevices p origin.addr r.now).1 := by
  -- a write to the same id or to another one
  have hset : ∀ {id' : PeerId} {p₀ p' : Peer}, r.cached id' = some p₀ →
      (r.set id' p').cached id = some q →
      p.SameRegistration q ∨ id = id' ∧ p₀ = p ∧ p' = q := by
    intro id' p₀ p' hp₀ hq
    rcases View.cached_set_cases hq with ⟨rfl, rfl⟩ | ⟨-, hq⟩
    · rw [hp] at hp₀
      exact Or.inr ⟨rfl, (Option.some.inj hp₀).symm, rfl⟩
    · rw [show r.toView.cached id = some p from hp] at hq
      cases hq
      exact Or.inl ⟨rfl, rfl, rfl, rfl, rfl⟩
  -- the peer is as it was
  have hkeep : r.cached id = some q → p.SameRegistration q := by
    intro hq
    rw [hp] at hq
    cases hq
    exact ⟨rfl, rfl, rfl, rfl, rfl⟩
  cases h with
  | insert hnone =>
    rcases View.cached_set_cases hq with ⟨rfl, -⟩ | ⟨-, hq⟩
    · rw [hp] at hnone
      cases hnone
    · exact Or.inl (hkeep hq)
  | evict _ hsub =>
    rcases hsub id with hsame | hgone
    · exact Or.inl (hkeep (hsame ▸ hq))
    · rw [hgone] at hq
      cases hq
  | edit hp₀ hedit =>
    rcases hset hp₀ hq with hsame | ⟨rfl, rfl, rfl⟩
    · exact Or.inl hsame
    · cases hedit with
      | touch => exact Or.inl ⟨rfl, rfl, rfl, rfl, rfl⟩
      | attempt => exact Or.inl ⟨rfl, rfl, rfl, rfl, rfl⟩
      | @beat origin => exact Or.inr (Or.inr (Or.inr ⟨origin, rfl, rfl⟩))
  | acceptSame hp₀ =>
    rcases hset hp₀ hq with hsame | ⟨rfl, rfl, rfl⟩
    · exact Or.inl hsame
    · exact Or.inl ⟨rfl, rfl, rfl, rfl, rfl⟩
  | acceptVerified hp₀ =>
    rcases hset hp₀ hq with hsame | ⟨rfl, rfl, rfl⟩
    · exact Or.inl hsame
    · exact Or.inl ⟨rfl, rfl, rfl, rfl, rfl⟩
  | @stage origin rk _ _ _ _ _ hp₀ =>
    rcases hset hp₀ hq with hsame | ⟨rfl, rfl, rfl⟩
    · exact Or.inl hsame
    · exact Or.inr (Or.inl ⟨origin, List.mem_singleton_self _⟩)
  | commit hp₀ =>
    rcases hset hp₀ hq with hsame | ⟨rfl, rfl, rfl⟩
    · exact Or.inl hsame
    · exact Or.inl ⟨rfl, rfl, rfl, rfl, rfl⟩
  | @rollback w _ hp₀ =>
    rcases hset hp₀ hq with hsame | ⟨rfl, rfl, rfl⟩
    · exact Or.inl hsame
    · exact Or.inr (Or.inr (Or.inl ⟨w, List.mem_of_getElem? hi, rfl, rfl⟩))
  | _ => exact Or.inl (hkeep hq)

end Step

/-! ## The provenance of a routing IP -/

/-- The IP is blank, from the table at the start, or from a `RegisterPk` that was
staged for the id. -/
def Vouched (codec : InfoCodec) (db : Database) (tr : List Event) (id : PeerId) (ip : String) :
    Prop :=
  ip = "" ∨
    (∃ row info, db.getPeer id = some row ∧ codec.decode row.info = some info ∧ info.ip = ip) ∨
    ∃ i origin now, Event.staged i origin id now ∈ tr ∧ origin.addr.ip.toString = ip

/-- A heartbeat for the id was accepted from the loopback address. -/
def LoopbackBeat (tr : List Event) (id : PeerId) (addr : SocketAddr) : Prop :=
  addr.ip.isLoopback = true ∧ ∃ origin, origin.addr = addr ∧ Event.beat origin id false ∈ tr

theorem Vouched.append {codec : InfoCodec} {db : Database} {tr : List Event} {id : PeerId}
    {ip : String} (h : Vouched codec db tr id ip) (evs : List Event) :
    Vouched codec db (tr ++ evs) id ip := by
  rcases h with hblank | hrow | ⟨i, origin, now, hev, hip⟩
  · exact Or.inl hblank
  · exact Or.inr (Or.inl hrow)
  · exact Or.inr (Or.inr ⟨i, origin, now, List.mem_append_left _ hev, hip⟩)

theorem vouched_staged {codec : InfoCodec} {db : Database} {tr : List Event} {id : PeerId}
    (i : Nat) (origin : Origin) (now : Nat) :
    Vouched codec db (tr ++ [.staged i origin id now]) id origin.addr.ip.toString :=
  Or.inr (Or.inr ⟨i, origin, now, List.mem_append_right _ (List.mem_singleton_self _), rfl⟩)

/-- The persisted IP is vouched for, and a socket address has that IP or is a
loopback one. -/
structure Routed (codec : InfoCodec) (db : Database) (tr : List Event) (id : PeerId)
    (x : PeerRegistrationRollback) : Prop where
  info : Vouched codec db tr id x.info.ip
  socket : x.socketAddr.port ≠ 0 →
    x.socketAddr.ip.toString = x.info.ip ∨ LoopbackBeat tr id x.socketAddr

theorem Routed.append {codec : InfoCodec} {db : Database} {tr : List Event} {id : PeerId}
    {x : PeerRegistrationRollback} (h : Routed codec db tr id x) (evs : List Event) :
    Routed codec db (tr ++ evs) id x := by
  refine ⟨h.info.append evs, fun hport => ?_⟩
  rcases h.socket hport with hinfo | ⟨hloop, origin, haddr, hev⟩
  · exact Or.inl hinfo
  · exact Or.inr ⟨hloop, origin, haddr, List.mem_append_left _ hev⟩

/-- An accepted heartbeat leaves the peer at its IP, or comes from a loopback
address. -/
theorem Routed.beat {codec : InfoCodec} {db : Database} {tr : List Event} {id : PeerId} {p : Peer}
    (h : Routed codec db tr id p.snapshot) (allowUnmanagedDevices : Bool) (now : Nat)
    (origin : Origin) :
    Routed codec db
      (tr ++ [.beat origin id (heartbeat allowUnmanagedDevices p origin.addr now).2]) id
      (heartbeat allowUnmanagedDevices p origin.addr now).1.snapshot := by
  rcases heartbeat_cases allowUnmanagedDevices p origin.addr now with hsame | ⟨hnew, -, hip, -⟩
  · rw [hsame]
    exact h.append _
  · rw [hnew]
    refine ⟨h.info.append _, fun _ => ?_⟩
    have hloop : origin.addr.ip.isLoopback = true →
        LoopbackBeat (tr ++ [.beat origin id false]) id origin.addr := fun hloop =>
      ⟨hloop, origin, rfl, List.mem_append_right _ (List.mem_singleton_self _)⟩
    rcases routesTo_of_heartbeatIpChange hip with hroute | hl
    · unfold Peer.routesTo at hroute
      split at hroute
      · rename_i hport
        rcases h.socket hport with hinfo | hbeat
        · exact Or.inl ((congrArg IpAddr.toString hroute).trans hinfo)
        · exact Or.inr (hloop (by rw [hroute]; exact hbeat.1))
      · exact Or.inl hroute
    · exact Or.inr (hloop hl)

def routing (cfg : Config) (now : Nat) (db : Database) : Provenance cfg now where
  peer := fun tr _ id x => Routed cfg.infoCodec db tr id x
  row := fun tr id text => ∀ info, cfg.infoCodec.decode text = some info →
    Vouched cfg.infoCodec db tr id info.ip
  peer_mono := fun evs _ h => h.append evs
  row_mono := fun evs h info hinfo => (h info hinfo).append evs
  blank := fun _ => ⟨Or.inl rfl, fun hport => absurd rfl hport⟩
  loaded := fun _ hrow hinfo => ⟨hrow _ hinfo, fun hport => absurd rfl hport⟩
  beat := fun origin h => h.beat _ _ origin
  staged := fun i origin _ _ _ => ⟨vouched_staged i origin _, fun _ => Or.inl rfl⟩
  stagedRow := by
    intro tr now id p i origin _ info hinfo
    rw [cfg.infoCodec.decode_encode] at hinfo
    cases hinfo
    exact vouched_staged i origin now
  verified := fun _ _ h => ⟨(h.append _).info, (h.append _).socket⟩

theorem run_routed {cfg : Config} {ok : List Event → State → Action → Prop} {now : Nat}
    {db : Database} {tr : List Event} {s : State}
    (h : Run (step cfg) ok (State.initial now db) tr s) {id : PeerId} {o : Nat}
    (hget : s.map.get id = some o) : Routed cfg.infoCodec db tr id (s.peers o).snapshot := by
  have hk : (routing cfg now db).Known tr (s.registry cfg) := by
    refine run_provenance (routing cfg now db) (fun {id row} hrow info hinfo => ?_) h
    exact Or.inr (Or.inl ⟨row, info, hrow, hinfo, rfl⟩)
  exact hk.peer (cached_of_get hget)

/-- An open persistence was staged by the handler that owns it. -/
theorem run_staged {cfg : Config} {ok : List Event → State → Action → Prop} {now : Nat}
    {db : Database} {tr : List Event} {s : State}
    (h : Run (step cfg) ok (State.initial now db) tr s) :
    ∀ c ∈ (s.registry cfg).cargos, ∀ p, c.bind Cargo.pending = some p →
      ∃ at', Event.staged p.owner p.origin p.id at' ∈ tr := by
  refine run_registry (G := fun _ _ => True)
    (J := fun tr r => ∀ c ∈ r.cargos, ∀ p, c.bind Cargo.pending = some p →
      ∃ at', Event.staged p.owner p.origin p.id at' ∈ tr) ?_ (fun _ _ _ => trivial) ?_ h
  · exact fun _ hc => absurd hc List.not_mem_nil
  · intro tr r evs r' hj _ hs c hc p hp
    have hold : c ∈ r.cargos → ∃ at', Event.staged p.owner p.origin p.id at' ∈ tr ++ evs := by
      intro hc
      obtain ⟨at', hev⟩ := hj c hc p hp
      exact ⟨at', List.mem_append_left _ hev⟩
    cases hs with
    | tick d => exact hold hc
    | call =>
      rcases List.mem_append.1 hc with hc | hc
      · exact hold hc
      · rw [List.mem_singleton.1 hc] at hp
        cases hp
    | move hi heff =>
      rcases mem_advance hc with rfl | hc | ⟨j, -, hj'⟩
      · obtain ⟨at', hev⟩ := hj _ (List.mem_of_getElem? hi) p (heff.pending_eq hp)
        exact ⟨at', List.mem_append_left _ hev⟩
      · obtain ⟨q, hq, rfl⟩ := List.mem_map.1 hc
        cases hp
        cases heff with
        | stage =>
          cases List.mem_singleton.1 hq
          exact ⟨_, List.mem_append_right _ (List.mem_singleton_self _)⟩
        | _ => cases hq
      · exact hold (List.mem_of_getElem? hj')

/-! ## The steps of a heartbeat -/

/-- The `RegisterPeer` that a task handles. -/
def Task.registerPeer? : Task → Option (Origin × RegisterPeer)
  | .lookup (.registerPeer origin rp) _ => some (origin, rp)
  | .evict (.cachePeer (.registerPeer origin rp) _) _ => some (origin, rp)
  | .beat origin rp _ => some (origin, rp)
  | _ => none

theorem Call.registerPeer?_eq {call : Call} {pc : Lookup} {origin : Origin} {rp : RegisterPeer}
    (h : (Task.lookup call pc).registerPeer? = some (origin, rp)) :
    call = .registerPeer origin rp := by
  cases call with
  | registerPeer => cases h; rfl
  | _ => cases h

/-- A heartbeat answers lookups and decides, and makes no other event. -/
theorem Move.registerPeer_events {cfg : Config} {s : State} {i : Nat} {t : Task} {out : Outcome}
    (h : Move cfg s i t out) {origin : Origin} {rp : RegisterPeer}
    (ht : t.registerPeer? = some (origin, rp)) {e : Event} (he : e ∈ out.events) :
    (∃ id r, e = .got id r) ∨ ∃ o b, t = .beat origin rp o ∧ e = .beat origin rp.id b := by
  cases h with
  | refuse hreg =>
    cases t with
    | allowIp => cases ht
    | verify => cases ht
    | stage => cases ht
    | _ => cases hreg
  | touched =>
    cases Call.registerPeer?_eq ht
    cases List.mem_singleton.1 he
    exact Or.inl ⟨_, _, rfl⟩
  | cached =>
    cases Call.registerPeer?_eq ht
    cases List.mem_singleton.1 he
    exact Or.inl ⟨_, _, rfl⟩
  | inserted =>
    cases Call.registerPeer?_eq ht
    cases List.mem_singleton.1 he
    exact Or.inl ⟨_, _, rfl⟩
  | loadAbsent =>
    cases List.mem_singleton.1 he
    exact Or.inl ⟨_, _, rfl⟩
  | noRoom =>
    unfold returnNoRoom at he
    dsimp only at he
    split at he
    · cases List.mem_singleton.1 he
      exact Or.inl ⟨_, _, rfl⟩
    · cases he
  | beaten =>
    cases ht
    cases List.mem_singleton.1 he
    exact Or.inr ⟨_, _, rfl, rfl⟩
  | hit => cases he
  | miss => cases he
  | loadFailed => cases he
  | loaded => cases he
  | toWrite => cases he
  | toEvict => cases he
  | scan => cases he
  | evicted => cases he
  | _ => cases ht

/-! ## The result -/

/-- A step that may move the id to another IP: a `RegisterPk` for it passes its
staging, a staged one is rolled back, or a heartbeat from a loopback address is
accepted. -/
def Redirects (tr evs : List Event) (id : PeerId) : Prop :=
  (∃ i origin now, Event.staged i origin id now ∈ evs) ∨
    (∃ i origin now, Event.rolledBack i id ∈ evs ∧ Event.staged i origin id now ∈ tr) ∨
    ∃ origin, origin.addr.ip.isLoopback = true ∧ Event.beat origin id false ∈ evs

section Result

variable {cfg : Config} {now : Nat} {db : Database} {tr : List Event} {s : State} {i : Nat}
  {t : Task} {out : Outcome} {id : PeerId} {o o' : Nat}

/-- The IP of a cached peer stays unless the step is one that may redirect it. -/
theorem Move.routingIp (h : Move cfg s i t out)
    (hrun : Run (step cfg) anything (State.initial now db) tr s) (hi : s.tasks[i]? = some t)
    (hget : s.map.get id = some o) (hget' : out.store.map.get id = some o') :
    (out.store.peers o').routingIp = (s.peers o).routingIp ∨ Redirects tr out.events id := by
  obtain ⟨spawned, -, heff⟩ := h.effect (run_wellFormed hrun) (run_handled hrun) hi
  have hsock := (run_routed hrun hget).socket
  rcases heff.registration_cases (registry_getElem? hi) (cached_of_get hget) (cached_of_get hget')
    with hsame | ⟨origin, hev⟩ | ⟨w, hw, rfl, hevs⟩ | ⟨origin, hevs, hpeer⟩
  · exact Or.inl hsame.routingIp
  · exact Or.inr (Or.inl ⟨i, origin, _, hev⟩)
  · obtain ⟨d, hstaged⟩ := run_staged hrun _ hw w rfl
    rw [hevs]
    exact Or.inr (Or.inr (Or.inl ⟨w.owner, w.origin, d, List.mem_singleton_self _, hstaged⟩))
  · rw [hpeer, hevs]
    have hbeat : (heartbeat cfg.allowUnmanagedDevices (s.peers o) origin.addr s.now).1.routingIp =
        (s.peers o).routingIp ∨
        (heartbeat cfg.allowUnmanagedDevices (s.peers o) origin.addr s.now).2 = false ∧
          origin.addr.ip.isLoopback = true :=
      heartbeat_routingIp fun hport => (hsock hport).imp_right And.left
    refine hbeat.imp_right fun ⟨hfalse, hloop⟩ => ?_
    refine Or.inr (Or.inr ⟨origin, hloop, ?_⟩)
    change Event.beat origin id false ∈ [Event.beat origin id
      (heartbeat cfg.allowUnmanagedDevices (s.peers o) origin.addr s.now).2]
    rw [hfalse]
    exact List.mem_singleton_self _

/-- A step of a heartbeat leaves the registration of every cached peer alone, or it
is the decision about its own id. -/
theorem Move.registerPeer_cases (h : Move cfg s i t out) (hwf : WellFormed s) (hh : Handled cfg s)
    (hi : s.tasks[i]? = some t) {origin : Origin} {rp : RegisterPeer}
    (ht : t.registerPeer? = some (origin, rp)) (hget : s.map.get id = some o)
    (hget' : out.store.map.get id = some o') :
    (s.peers o).SameRegistration (out.store.peers o') ∨
      id = rp.id ∧ out.store.peers o' =
        (heartbeat cfg.allowUnmanagedDevices (s.peers o) origin.addr s.now).1 := by
  obtain ⟨spawned, -, heff⟩ := h.effect hwf hh hi
  rcases heff.registration_cases (registry_getElem? hi) (cached_of_get hget) (cached_of_get hget')
    with hsame | ⟨origin', hev⟩ | ⟨w, -, rfl, hevs⟩ | ⟨origin', hevs, hpeer⟩
  · exact Or.inl hsame
  · rcases h.registerPeer_events ht hev with ⟨id', r, he⟩ | ⟨_, _, -, he⟩ <;> cases he
  · rcases h.registerPeer_events ht (hevs ▸ List.mem_singleton_self _) with
      ⟨id', r, he⟩ | ⟨_, _, -, he⟩ <;> cases he
  · rcases h.registerPeer_events ht (hevs ▸ List.mem_singleton_self _) with
      ⟨id', r, he⟩ | ⟨_, _, -, he⟩
    · cases he
    · cases he
      exact Or.inr ⟨rfl, hpeer⟩

/-- In every run a heartbeat cannot move a peer to another host, unless it comes
from a loopback address.

* The IP of a cached peer is blank, from the table at the start or from a
  `RegisterPk` that was staged, or the address is that of an accepted heartbeat from
  a loopback address.  This covers a peer that was evicted and loaded again.
* While a peer stays cached, its IP changes only in a step that `Redirects` names.
* No step of a `RegisterPeer` changes `uuid`, `pk` or `info` of any peer.  One from a
  host that is neither the known one nor a loopback address changes neither the
  address nor the registration time, and is answered with `request_pk`. -/
theorem heartbeat_cannot_redirect
    (hrun : Run (step cfg) anything (State.initial now db) tr s) :
    (∀ {id o}, s.map.get id = some o →
      Vouched cfg.infoCodec db tr id (s.peers o).routingIp ∨
        LoopbackBeat tr id (s.peers o).socketAddr) ∧
    ∀ {a s' evs}, step cfg s a = some (s', evs) → ∀ {id o o'}, s.map.get id = some o →
      s'.map.get id = some o' →
      ((s'.peers o').routingIp ≠ (s.peers o).routingIp → Redirects tr evs id) ∧
      ∀ {i ch t origin rp}, a = .run i ch → s.tasks[i]? = some t →
        t.registerPeer? = some (origin, rp) →
        (s'.peers o').uuid = (s.peers o).uuid ∧ (s'.peers o').pk = (s.peers o).pk ∧
        (s'.peers o').info = (s.peers o).info ∧
        (rp.id = id → ¬ (s.peers o).routesTo origin.addr.ip → origin.addr.ip.isLoopback = false →
          (s'.peers o').socketAddr = (s.peers o).socketAddr ∧
          (s'.peers o').lastRegTime = (s.peers o).lastRegTime ∧
          (t = .beat origin rp o → s'.tasks[i]? =
            some (.done (.registerPeer origin rp (.ok (true, configUpdate cfg rp)))))) := by
  refine ⟨fun {id o} hget => ?_, fun {a s' evs} h {id o o'} hget hget' => ?_⟩
  · have hrouted := run_routed hrun hget
    unfold Peer.routingIp
    split
    · rename_i hport
      rcases hrouted.socket hport with hinfo | hbeat
      · exact Or.inl (hinfo ▸ hrouted.info)
      · exact Or.inr hbeat
    · exact Or.inl hrouted.info
  · rcases step_cases h with ⟨d, rfl, rfl, -⟩ | ⟨r, rfl, rfl, -⟩ |
      ⟨i, ch, t, out, rfl, hi, hstep, hm, rfl, rfl⟩
    · obtain rfl : o = o' := Option.some.inj (hget.symm.trans hget')
      exact ⟨fun hne => absurd rfl hne, fun ha => by cases ha⟩
    · obtain rfl : o = o' := Option.some.inj (hget.symm.trans hget')
      exact ⟨fun hne => absurd rfl hne, fun ha => by cases ha⟩
    · refine ⟨fun hne => (hm.routingIp hrun hi hget hget').resolve_left hne, ?_⟩
      intro i' ch' t' origin rp ha hi' ht'
      cases ha
      rw [hi] at hi'
      cases hi'
      have hcases := hm.registerPeer_cases (run_wellFormed hrun) (run_handled hrun) hi ht' hget hget'
      have hid : (out.store.peers o').uuid = (s.peers o).uuid ∧
          (out.store.peers o').pk = (s.peers o).pk ∧
          (out.store.peers o').info = (s.peers o).info := by
        rcases hcases with hsame | ⟨-, hpeer⟩
        · exact ⟨hsame.uuid, hsame.pk, hsame.info⟩
        · have hkept := heartbeat_identity cfg.allowUnmanagedDevices (s.peers o) origin.addr s.now
          rw [← hpeer] at hkept
          exact ⟨congrArg Peer.Identity.uuid hkept, congrArg Peer.Identity.pk hkept,
            congrArg Peer.Identity.info hkept⟩
      refine ⟨hid.1, hid.2.1, hid.2.2, fun hrp hmoved hloop => ?_⟩
      have hnone : heartbeat cfg.allowUnmanagedDevices (s.peers o) origin.addr s.now =
          (s.peers o, true) := heartbeat_of_moved hmoved hloop
      have haddr : (out.store.peers o').socketAddr = (s.peers o).socketAddr ∧
          (out.store.peers o').lastRegTime = (s.peers o).lastRegTime := by
        rcases hcases with hsame | ⟨-, hpeer⟩
        · exact ⟨hsame.socketAddr, hsame.lastRegTime⟩
        · rw [hpeer, hnone]
          exact ⟨rfl, rfl⟩
      refine ⟨haddr.1, haddr.2, fun ht => ?_⟩
      subst ht
      have htask : (s.after i out).tasks[i]? = some out.task := getElem?_advance_self hi
      rw [htask]
      simp only [stepTask, hnone, Option.some.injEq] at hstep
      rw [← hstep]

end Result

private def sampleBeat : RegisterPeer := ⟨sampleId, 0⟩

/-- A registration that is stored and a heartbeat for it from another address. -/
private def registerAndBeatFrom (origin : Origin) : List Action :=
  .call (.registerPk (sampleOrigin 0) (sampleRequest 1 2)) :: runs 0 6 ++ runs 1 2 ++ runs 0 1 ++
    .call (.registerPeer origin sampleBeat) :: runs 2 2

/-- Another host. -/
private def strangerOrigin : Origin := ⟨1, .v4 ⟨198, 51, 100, 7⟩ 6000⟩

/-- A local client. -/
private def localOrigin : Origin := ⟨1, .v4 ⟨127, 0, 0, 1⟩ 6000⟩

theorem heartbeat_cannot_redirect_stranger :
    ∃ (s s' : State) (tr evs : List Event),
      Run (step (sampleConfig true)) anything (State.initial sampleStart .empty) tr s ∧
      step (sampleConfig true) s (.run 2 {}) = some (s', evs) ∧
      s.map.get sampleId = some 0 ∧ (s.peers 0).socketAddr = (sampleOrigin 0).addr ∧
      (s'.peers 0).socketAddr = (sampleOrigin 0).addr ∧
      s'.tasks[2]? = some (Task.done (.registerPeer strangerOrigin sampleBeat (.ok (true, none)))) := by
  obtain ⟨s, tr, hrun, hshow⟩ := exists_run_of_exec (step (sampleConfig true))
    (State.initial sampleStart .empty) (registerAndBeatFrom strangerOrigin)
    (fun x => (x.1.map.get sampleId, (x.1.peers 0).socketAddr, x.1.tasks[2]?,
      (step (sampleConfig true) x.1 (.run 2 {})).map fun (y : State × List Event) =>
        y.1.map.get sampleId))
    (b := (some 0, (sampleOrigin 0).addr, some (Task.beat strangerOrigin sampleBeat 0), some (some 0)))
    (by decide +kernel)
  obtain ⟨hget, hrest⟩ := Prod.ext_iff.1 hshow
  obtain ⟨haddr, hrest⟩ := Prod.ext_iff.1 hrest
  obtain ⟨htask, hstep⟩ := Prod.ext_iff.1 hrest
  obtain ⟨⟨s', evs⟩, hs, hget'⟩ := Option.map_eq_some_iff.1 hstep
  have hmoved : ¬ (s.peers 0).routesTo strangerOrigin.addr.ip := by
    rw [Peer.routesTo, show (s.peers 0).socketAddr = (sampleOrigin 0).addr from haddr,
      if_pos (by decide)]
    decide
  have hall := (((heartbeat_cannot_redirect hrun).2 hs hget hget').2 rfl htask rfl).2.2.2 rfl hmoved
    (by decide)
  exact ⟨s, s', tr, evs, hrun, hs, hget, haddr, hall.1.trans haddr, hall.2.2 rfl⟩

/-- A heartbeat from a loopback address is accepted for a peer at another IP, and
the peer is routed to the loopback address from then on. -/
theorem loopback_redirects :
    ∃ (s s' : State) (tr evs : List Event),
      Run (step (sampleConfig true)) anything (State.initial sampleStart .empty) tr s ∧
      step (sampleConfig true) s (.run 2 {}) = some (s', evs) ∧
      s.tasks[2]? = some (Task.beat localOrigin sampleBeat 0) ∧
      s.map.get sampleId = some 0 ∧ s'.map.get sampleId = some 0 ∧
      (s.peers 0).routingIp = "192.0.2.1" ∧ (s'.peers 0).routingIp = "127.0.0.1" ∧
      s'.tasks[2]? = some (Task.done (.registerPeer localOrigin sampleBeat (.ok (false, none)))) := by
  obtain ⟨s, tr, hrun, hshow⟩ := exists_run_of_exec (step (sampleConfig true))
    (State.initial sampleStart .empty) (registerAndBeatFrom localOrigin)
    (fun x => (decide (x.1.tasks[2]? = some (Task.beat localOrigin sampleBeat 0) ∧
        x.1.map.get sampleId = some 0 ∧ (x.1.peers 0).routingIp = "192.0.2.1"),
      (step (sampleConfig true) x.1 (.run 2 {})).map fun (y : State × List Event) =>
        decide (y.1.map.get sampleId = some 0 ∧ (y.1.peers 0).routingIp = "127.0.0.1" ∧
          y.1.tasks[2]? =
            some (Task.done (.registerPeer localOrigin sampleBeat (.ok (false, none)))))))
    (b := (true, some true)) (by decide +kernel)
  obtain ⟨hbefore, hstep⟩ := Prod.ext_iff.1 hshow
  obtain ⟨htask, hget, hip⟩ := of_decide_eq_true hbefore
  obtain ⟨⟨s', evs⟩, hs, hafter⟩ := Option.map_eq_some_iff.1 hstep
  obtain ⟨hget', hip', htask'⟩ := of_decide_eq_true hafter
  exact ⟨s, s', tr, evs, hrun, hs, htask, hget, hget', hip, hip', htask'⟩

end RemoteServer.PeerStore
