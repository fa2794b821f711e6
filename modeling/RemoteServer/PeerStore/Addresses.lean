import RemoteServer.PeerStore.Exclusive

/-!
# Where the address of a peer comes from

A request for a peer is sent to the socket address of the peer, so it matters whose address
that is.

* `Task.origin?` is the connection whose registration a task works on, and `Task.asks` the id
  whose address a task looks up.
* `Accepted` are the registrations that the events of a run accept.
* `Addressed` is the invariant of the registry, for any notion of a known address that the
  addresses of accepted registrations have: the address of a cached peer is known, or it is
  that of the registration which is being stored at the moment.
* `Task.sight` is the address that a lookup has read, and `readsSettled` says that none is read
  while a registration of its peer is being stored.
-/

namespace RemoteServer.PeerStore

open RustStd Lts

/-! ## What a task is for -/

def Call.origin? : Call → Option Origin
  | .registerPk origin _ _ => some origin
  | .registerPeer origin _ => some origin
  | _ => none

/-- The origin of the registration that a task still works on. -/
def Task.origin? : Task → Option Origin
  | .allowIp origin _ => some origin
  | .verify origin _ => some origin
  | .lookup call _ => call.origin?
  | .stage origin _ _ _ => some origin
  | .unchanged origin _ _ => some origin
  | .join origin _ _ _ _ => some origin
  | .recordIp origin _ _ => some origin
  | .beat origin _ _ => some origin
  | .persistWrite p => some p.origin
  | .persistEnd p _ => some p.origin
  | .evict (.cachePeer call _) _ => call.origin?
  | _ => none

def Call.asks : Call → Option PeerId
  | .punchHole id => some id
  | _ => none

/-- The id whose address a task looks up for a request handler. -/
def Task.asks : Task → Option PeerId
  | .lookup call _ => call.asks
  | .evict (.cachePeer call _) _ => call.asks
  | .memRead id => some id
  | .memTouch id _ => some id
  | .readAddr id _ => some id
  | .hold id _ _ _ => some id
  | .done (.seen id _) => some id
  | _ => none

section Moves

variable {cfg : Config} {s : State} {i : Nat} {t : Task} {out : Outcome}

theorem Call.origin?_resume (call : Call) (o : Nat) : (call.resume o).origin? = call.origin? := by
  cases call <;> rfl

theorem Call.origin?_absent {call : Call} {now : Nat} {origin : Origin}
    (h : (call.absent cfg now).origin? = some origin) : call.origin? = some origin := by
  cases call with
  | registerPk => exact h
  | _ => cases h

theorem Call.asks_resume (call : Call) (o : Nat) : (call.resume o).asks = call.asks := by
  cases call <;> rfl

theorem Call.asks_absent (call : Call) (now : Nat) : (call.absent cfg now).asks = call.asks := by
  cases call <;> rfl

/-- A task works on one registration only. -/
theorem Move.origin?_back (h : Move cfg s i t out) {origin : Origin}
    (ho : out.task.origin? = some origin) : t.origin? = some origin := by
  cases h with
  | touched => exact (Call.origin?_resume _ _).symm.trans ho
  | @loadFailed call => cases call <;> cases ho
  | loadAbsent => exact Call.origin?_absent ho
  | cached => exact (Call.origin?_resume _ _).symm.trans ho
  | inserted => exact (Call.origin?_resume _ _).symm.trans ho
  | @noRoom call f =>
    unfold returnNoRoom at ho
    dsimp only at ho
    split at ho
    · exact Call.origin?_absent ho
    · cases call with
      | registerPk => cases ho
      | _ => exact Call.origin?_absent ho
  | @scan caller => cases caller <;> exact ho
  | @evicted caller =>
    cases caller with
    | timer => cases ho
    | cachePeer => exact ho
  | @joined _ _ _ _ ipChanged =>
    cases ipChanged with
    | true => exact ho
    | false => cases ho
  | _ => first | exact ho | cases ho

theorem Move.origin?_spawned (h : Move cfg s i t out) {u : Task} (hu : u ∈ out.spawned) :
    u.origin? = t.origin? := by
  cases h with
  | stagePersist =>
    cases List.mem_singleton.1 hu
    rfl
  | noRoom => exact absurd hu List.not_mem_nil
  | _ => cases hu

theorem Move.asks_eq (h : Move cfg s i t out) : out.task.asks = t.asks := by
  cases h with
  | refuse hreg =>
    cases t <;> cases hreg <;> rfl
  | touched => exact Call.asks_resume _ _
  | @loadFailed call => cases call <;> rfl
  | loadAbsent => exact Call.asks_absent _ _
  | cached => exact Call.asks_resume _ _
  | inserted => exact Call.asks_resume _ _
  | @noRoom call f =>
    unfold returnNoRoom
    dsimp only
    split
    · exact Call.asks_absent _ _
    · cases call <;> rfl
  | @scan caller => cases caller <;> rfl
  | @evicted caller => cases caller <;> rfl
  | @joined _ _ _ _ ipChanged => cases ipChanged <;> rfl
  | _ => rfl

end Moves

/-! ## Accepted registrations -/

/-- The registration that an event accepts: a `RegisterPeer` that is not answered with the
request for a key, or a `RegisterPk` that completes with `OK`. -/
def Event.accepts? : Event → Option (Origin × PeerId)
  | .beat origin id requestPk => if requestPk then none else some (origin, id)
  | .completed _ origin id _ => some (origin, id)
  | _ => none

def Accepted (tr : List Event) (origin : Origin) (id : PeerId) : Prop :=
  ∃ e ∈ tr, e.accepts? = some (origin, id)

theorem accepted_append {tr evs : List Event} {origin : Origin} {id : PeerId} :
    Accepted (tr ++ evs) origin id ↔ Accepted tr origin id ∨ Accepted evs origin id := by
  simp only [Accepted, List.mem_append, or_and_right, exists_or]

theorem accepted_singleton {e : Event} {origin : Origin} {id : PeerId}
    (h : e.accepts? = some (origin, id)) : Accepted [e] origin id :=
  ⟨e, List.mem_singleton_self e, h⟩

/-- A task accepts registrations of its own origin only. -/
theorem Move.origin_of_accepted {cfg : Config} {s : State} {i : Nat} {t : Task} {out : Outcome}
    (h : Move cfg s i t out) {origin : Origin} {id : PeerId}
    (ha : Accepted out.events origin id) : t.origin? = some origin := by
  obtain ⟨e, he, hacc⟩ := ha
  -- the answer of a lookup accepts nothing
  have hlookup : ∀ {store : Store} {call : Call} {viaGet : Bool} {o : Nat},
      e ∉ (returnObject store call viaGet o).events := by
    intro store call viaGet o he
    rcases mem_returnObject_events he with rfl | rfl <;> cases hacc
  cases h with
  | touched => exact absurd he hlookup
  | cached => exact absurd he hlookup
  | inserted => exact absurd he hlookup
  | noRoom =>
    rw [(mem_returnNoRoom_events he).2] at hacc
    cases hacc
  | beaten =>
    rw [List.mem_singleton.1 he, Event.accepts?] at hacc
    split at hacc
    · cases hacc
    · cases hacc
      rfl
  | stageSame =>
    rw [List.mem_singleton.1 he] at hacc
    cases hacc
    rfl
  | verifiedNow =>
    rw [List.mem_singleton.1 he] at hacc
    cases hacc
    rfl
  | committed =>
    rw [List.mem_singleton.1 he] at hacc
    cases hacc
    rfl
  | loadAbsent => cases List.mem_singleton.1 he; cases hacc
  | askApi => cases List.mem_singleton.1 he; cases hacc
  | apiAgrees => cases List.mem_singleton.1 he; cases hacc
  | stagePersist => cases List.mem_singleton.1 he; cases hacc
  | signed => cases List.mem_singleton.1 he; cases hacc
  | rolledBack => cases List.mem_singleton.1 he; cases hacc
  | _ => cases he

section Steps

variable {cfg : Config} {s s' : State} {a : Action} {evs : List Event}

/-- Only a request brings a new origin. -/
theorem step_origin (h : step cfg s a = some (s', evs)) {u : Task} (hu : u ∈ s'.tasks)
    {origin : Origin} (ho : u.origin? = some origin) :
    (∃ t ∈ s.tasks, t.origin? = some origin) ∨
      ∃ r, a = .call r ∧ r.start.origin? = some origin := by
  rcases step_cases h with ⟨d, -, rfl, -⟩ | ⟨r, rfl, rfl, -⟩ |
    ⟨i, ch, t, out, -, hi, -, hm, rfl, -⟩
  · exact Or.inl ⟨u, hu, ho⟩
  · rcases List.mem_append.1 hu with hu | hu
    · exact Or.inl ⟨u, hu, ho⟩
    · exact Or.inr ⟨r, rfl, List.mem_singleton.1 hu ▸ ho⟩
  · left
    rcases mem_advance hu with rfl | hu | ⟨j, -, hj⟩
    · exact ⟨t, List.mem_of_getElem? hi, hm.origin?_back ho⟩
    · exact ⟨t, List.mem_of_getElem? hi, hm.origin?_spawned hu ▸ ho⟩
    · exact ⟨u, List.mem_of_getElem? hj, ho⟩

/-- What a step accepts is a registration that was being worked on. -/
theorem step_accepted (h : step cfg s a = some (s', evs)) {origin : Origin} {id : PeerId}
    (ha : Accepted evs origin id) : ∃ t ∈ s.tasks, t.origin? = some origin := by
  rcases step_cases h with ⟨d, -, -, rfl⟩ | ⟨r, -, -, rfl⟩ |
    ⟨i, ch, t, out, -, hi, -, hm, -, rfl⟩
  · obtain ⟨e, he, -⟩ := ha
    cases he
  · obtain ⟨e, he, -⟩ := ha
    cases he
  · exact ⟨t, List.mem_of_getElem? hi, hm.origin_of_accepted ha⟩

/-- A task goes on asking for the same id. -/
theorem step_asks (h : step cfg s a = some (s', evs)) {j : Nat} {t : Task}
    (hj : s.tasks[j]? = some t) : ∃ t', s'.tasks[j]? = some t' ∧ t'.asks = t.asks := by
  rcases step_cases h with ⟨d, -, rfl, -⟩ | ⟨r, -, rfl, -⟩ |
    ⟨i, ch, u, out, -, hi, -, hm, rfl, -⟩
  · exact ⟨t, hj, rfl⟩
  · exact ⟨t, (List.getElem?_append_left (List.getElem?_eq_some_iff.1 hj).1).trans hj, rfl⟩
  · by_cases hne : j = i
    · subst hne
      cases hi.symm.trans hj
      exact ⟨out.task, getElem?_advance_self hi, hm.asks_eq⟩
    · exact ⟨t, getElem?_advance_of_ne hne hj, rfl⟩

end Steps

/-! ## The addresses of the cached peers -/

/-- A registration of the id from this address is being stored. -/
def Storing (cargos : List (Option Cargo)) (id : PeerId) (addr : SocketAddr) : Prop :=
  ∃ c ∈ cargos, ∃ w, c.bind Cargo.pending = some w ∧ w.id = id ∧ w.origin.addr = addr

/-- The address is that of a cached peer, or a rollback would put it back. -/
def Registry.Keeps (r : Registry) (addr : SocketAddr) : Prop :=
  (∃ id p, r.cached id = some p ∧ p.socketAddr = addr) ∨
    ∃ c ∈ r.cargos, ∃ w, c.bind Cargo.pending = some w ∧ w.rollback.socketAddr = addr

/-- `K id addr` is any notion of an address that is known for an id. -/
structure Addressed (K : PeerId → SocketAddr → Prop) (r : Registry) : Prop where
  peer : ∀ {id p}, r.cached id = some p →
    K id p.socketAddr ∨ Storing r.cargos id p.socketAddr
  offer : ∀ {id f}, some (.fresh id f) ∈ r.cargos → f.peer.socketAddr = .unspecified
  rollback : ∀ {c w}, c ∈ r.cargos → c.bind Cargo.pending = some w →
    K w.id w.rollback.socketAddr

/-- What is known before a step is known after it as far as it is kept, and so is what the step
accepts. -/
structure Learns (r : Registry) (evs : List Event) (K K' : PeerId → SocketAddr → Prop) : Prop where
  kept : ∀ {id addr}, r.Keeps addr → K id addr → K' id addr
  blank : ∀ id, K' id .unspecified
  accepted : ∀ {origin id}, Accepted evs origin id → K' id origin.addr

theorem Addressed.initial (K : PeerId → SocketAddr → Prop) (cfg : Config) (now : Nat)
    (db : Database) : Addressed K ((State.initial now db).registry cfg) :=
  ⟨nofun, fun hmem => absurd hmem List.not_mem_nil, fun hmem => absurd hmem List.not_mem_nil⟩

section Learns

variable {r : Registry} {evs : List Event} {K K' : PeerId → SocketAddr → Prop}

theorem Learns.peer (hl : Learns r evs K K') {id : PeerId} {p : Peer} (hp : r.cached id = some p)
    (hk : K id p.socketAddr) : K' id p.socketAddr :=
  hl.kept (Or.inl ⟨id, p, hp, rfl⟩) hk

theorem Learns.rollback (hl : Learns r evs K K') (ha : Addressed K r) {c : Option Cargo}
    {w : Persist} (hc : c ∈ r.cargos) (hw : c.bind Cargo.pending = some w) :
    K' w.id w.rollback.socketAddr :=
  hl.kept (Or.inr ⟨c, hc, w, hw, rfl⟩) (ha.rollback hc hw)

/-- A step that leaves the registry alone. -/
theorem Addressed.learns (ha : Addressed K r) (hl : Learns r evs K K') : Addressed K' r := by
  refine ⟨fun hp => ?_, ha.offer, fun hc hw => hl.rollback ha hc hw⟩
  rcases ha.peer hp with hk | hst
  · exact Or.inl (hl.peer hp hk)
  · exact Or.inr hst

end Learns

section Effects

variable {cfg : Config} {K K' : PeerId → SocketAddr → Prop} {r : Registry} {i : Nat}
  {c c' : Option Cargo} {v : View} {spawned : List Persist} {evs : List Event}

/-- What is being stored stays so, unless the step is the end of it. -/
theorem Storing.advance {id : PeerId} {addr : SocketAddr} (hst : Storing r.cargos id addr)
    (hi : r.cargos[i]? = some c) {more : List (Option Cargo)}
    (hc : c'.bind Cargo.pending = c.bind Cargo.pending ∨
      ∀ w, c.bind Cargo.pending = some w → w.id ≠ id) :
    Storing (Lts.advance r.cargos i c' more) id addr := by
  obtain ⟨d, hd, w, hw, hid, haddr⟩ := hst
  obtain ⟨j, hj⟩ := List.mem_iff_getElem?.1 hd
  by_cases hne : j = i
  · subst hne
    cases hi.symm.trans hj
    rcases hc with hsame | hother
    · exact ⟨c', List.mem_of_getElem? (getElem?_advance_self hi), w, hsame.trans hw, hid, haddr⟩
    · exact absurd hid (hother w hw)
  · exact ⟨d, List.mem_of_getElem? (getElem?_advance_of_ne hne hj), w, hw, hid, haddr⟩

/-- The registration that a task stores for an id is the only one. -/
theorem Exclusive.storing_eq (he : Exclusive r) (hi : r.cargos[i]? = some c) {w : Persist}
    (hc : c.bind Cargo.pending = some w) {addr : SocketAddr}
    (hst : Storing r.cargos w.id addr) : addr = w.origin.addr := by
  obtain ⟨d, hd, w', hw', hid, rfl⟩ := hst
  obtain ⟨j, hj⟩ := List.mem_iff_getElem?.1 hd
  obtain rfl := he.unique hi hj hc hw' hid
  cases hi.symm.trans hj
  cases hc.symm.trans hw'
  rfl

/-- Every write to a cached peer leaves an address that is known or being stored. -/
theorem Effect.addressed_peer (h : Effect cfg r i c v c' spawned evs) (ha : Addressed K r)
    (hl : Learns r evs K K') (he : Exclusive r) (hi : r.cargos[i]? = some c) {id : PeerId} {q : Peer}
    (hq : v.cached id = some q) :
    K' id q.socketAddr ∨
      Storing (Lts.advance r.cargos i c' (spawned.map fun p => some (.write p))) id
        q.socketAddr := by
  have hc := List.mem_of_getElem? hi
  -- the address is the one from before the step, which does not end a persistence of the id
  have hkeep : ∀ {c' : Option Cargo} {more : List (Option Cargo)} {id : PeerId} {p q : Peer},
      r.cached id = some p → q.socketAddr = p.socketAddr →
      (c'.bind Cargo.pending = c.bind Cargo.pending ∨
        ∀ w, c.bind Cargo.pending = some w → w.id ≠ id) →
      K' id q.socketAddr ∨ Storing (Lts.advance r.cargos i c' more) id q.socketAddr := by
    intro c' more id p q hp haddr hclose
    rw [haddr]
    rcases ha.peer hp with hknown | hst
    · exact Or.inl (hl.peer hp hknown)
    · exact Or.inr (hst.advance hi hclose)
  cases h with
  | insert =>
    rcases View.cached_set_cases hq with ⟨rfl, rfl⟩ | ⟨-, hq⟩
    · left
      rw [ha.offer hc]
      exact hl.blank _
    · exact hkeep hq rfl (Or.inl rfl)
  | evict _ hsub =>
    rcases hsub id with hsame | hgone
    · exact hkeep (hsame ▸ hq) rfl (Or.inl rfl)
    · rw [hgone] at hq
      cases hq
  | edit hp hedit =>
    rcases View.cached_set_cases hq with ⟨rfl, rfl⟩ | ⟨-, hq⟩
    · cases hedit with
      | touch => exact hkeep hp rfl (Or.inl rfl)
      | attempt => exact hkeep hp rfl (Or.inl rfl)
      | @beat origin =>
        rcases heartbeat_cases cfg.allowUnmanagedDevices _ origin.addr r.now with
          hsame | ⟨hnew, -⟩
        · refine hkeep hp ?_ (Or.inl rfl)
          rw [hsame]
        · have hacc : K' id origin.addr := hl.accepted (accepted_singleton (by rw [hnew]; rfl))
          rw [hnew]
          exact Or.inl hacc
    · exact hkeep hq rfl (Or.inl rfl)
  | acceptSame hp =>
    rcases View.cached_set_cases hq with ⟨rfl, rfl⟩ | ⟨-, hq⟩
    · exact hkeep hp rfl (Or.inl rfl)
    · exact hkeep hq rfl (Or.inl rfl)
  | acceptVerified hp =>
    rcases View.cached_set_cases hq with ⟨rfl, rfl⟩ | ⟨-, hq⟩
    · exact hkeep hp rfl (Or.inl rfl)
    · exact hkeep hq rfl (Or.inl rfl)
  | stage _ _ hstage =>
    rcases View.cached_set_cases hq with ⟨rfl, rfl⟩ | ⟨-, hq⟩
    · -- the spawned task carries the address that was written
      obtain ⟨-, -, -, -, -, regPk, rfl⟩ := stage_persist hstage
      exact Or.inr ⟨_, List.mem_append_right _ (List.mem_singleton_self _), _, rfl, rfl, rfl⟩
    · exact hkeep hq rfl (Or.inl rfl)
  | @commit w guid peer hp =>
    rcases View.cached_set_cases hq with ⟨rfl, rfl⟩ | ⟨hid, hq⟩
    · left
      show K' w.id peer.socketAddr
      rcases ha.peer hp with hknown | hst
      · exact hl.peer hp hknown
      · rw [he.storing_eq hi rfl hst]
        exact hl.accepted (accepted_singleton rfl)
    · refine hkeep hq rfl (Or.inr fun w hw => ?_)
      cases hw
      exact fun h => hid h.symm
  | rollback hp =>
    rcases View.cached_set_cases hq with ⟨rfl, rfl⟩ | ⟨hid, hq⟩
    · exact Or.inl (hl.rollback ha hc rfl)
    · refine hkeep hq rfl (Or.inr fun w hw => ?_)
      cases hw
      exact fun h => hid h.symm
  | _ => exact hkeep hq rfl (Or.inl rfl)

theorem Effect.addressed_offer (h : Effect cfg r i c v c' spawned evs) (ha : Addressed K r)
    (hi : r.cargos[i]? = some c) {id : PeerId} {f : Fresh} (hf : c' = some (.fresh id f)) :
    f.peer.socketAddr = .unspecified := by
  cases h with
  | idle => exact ha.offer (hf ▸ List.mem_of_getElem? hi)
  | evict => exact ha.offer (hf ▸ List.mem_of_getElem? hi)
  | load => cases hf; rfl
  | absent => cases hf; rfl
  | noRoom => cases hf; rfl
  | _ => cases hf

/-- A peer that is not being stored has a known address. -/
theorem Addressed.settled (ha : Addressed K r) (he : Exclusive r) {id : PeerId} {p : Peer}
    (hp : r.cached id = some p) (hfree : p.persistenceInProgress = false) : K id p.socketAddr := by
  rcases ha.peer hp with hknown | ⟨d, hd, w, hw, hid, -⟩
  · exact hknown
  · obtain ⟨j, hj⟩ := List.mem_iff_getElem?.1 hd
    obtain ⟨peer, hpeer, hflag⟩ := he.cached_of_pending hj hw
    rw [hid, hp] at hpeer
    cases hpeer
    rw [hfree] at hflag
    cases hflag

/-- A snapshot is taken of a peer that is not being stored. -/
theorem Effect.addressed_spawned (h : Effect cfg r i c v c' spawned evs) (ha : Addressed K r)
    (hl : Learns r evs K K') (he : Exclusive r) {w : Persist} (hw : w ∈ spawned) :
    K' w.id w.rollback.socketAddr := by
  cases h with
  | stage hp _ hstage =>
    obtain ⟨hbusy, -, -, hrollback, -⟩ := stage_persist hstage
    cases List.mem_singleton.1 hw
    dsimp only
    rw [hrollback]
    exact hl.peer hp (ha.settled he hp hbusy)
  | _ => cases hw

end Effects

theorem step_addressed {cfg : Config} {K K' : PeerId → SocketAddr → Prop} {r r' : Registry}
    {evs : List Event} (ha : Addressed K r) (he : Exclusive r) (h : r.Step cfg evs r')
    (hl : Learns r evs K K') : Addressed K' r' := by
  have hold := ha.learns hl
  cases h with
  | tick d => exact ⟨hold.peer, hold.offer, hold.rollback⟩
  | call =>
    refine ⟨fun hp => ?_, fun hmem => ?_, fun hmem hw => ?_⟩
    · rcases hold.peer hp with hknown | ⟨c, hc, hst⟩
      · exact Or.inl hknown
      · exact Or.inr ⟨c, List.mem_append_left _ hc, hst⟩
    · rcases List.mem_append.1 hmem with hmem | hmem
      · exact hold.offer hmem
      · cases List.mem_singleton.1 hmem
    · rcases List.mem_append.1 hmem with hmem | hmem
      · exact hold.rollback hmem hw
      · rw [List.mem_singleton.1 hmem] at hw
        cases hw
  | move hi heff =>
    refine ⟨fun hq => heff.addressed_peer ha hl he hi hq, fun hmem => ?_, fun hmem hw => ?_⟩
    · rcases mem_advance hmem with hc | hmem | ⟨j, -, hj⟩
      · exact heff.addressed_offer ha hi hc.symm
      · obtain ⟨w, -, hw⟩ := List.mem_map.1 hmem
        cases hw
      · exact hold.offer (List.mem_of_getElem? hj)
    · rcases mem_advance hmem with rfl | hmem | ⟨j, -, hj⟩
      · exact hold.rollback (List.mem_of_getElem? hi) (heff.pending_eq hw)
      · obtain ⟨w', hw', rfl⟩ := List.mem_map.1 hmem
        cases hw
        exact heff.addressed_spawned ha hl he hw'
      · exact hold.rollback (List.mem_of_getElem? hj) hw

/-! ## The addresses that a state keeps -/

/-- The addresses of a running registration: the one it came from, and the one that its failure
would put back. -/
def Task.addrs (t : Task) : List SocketAddr :=
  (t.origin?.map Origin.addr).toList ++
    ((t.cargo.bind Cargo.pending).map fun w => w.rollback.socketAddr).toList

/-- The addresses of the cached peers and of the running registrations. -/
def State.addrs (s : State) : List SocketAddr :=
  s.map.entries.map (fun e => (s.peers e.2).socketAddr) ++ s.tasks.flatMap Task.addrs

section Addrs

variable {s : State}

theorem mem_addrs_of_origin {t : Task} (ht : t ∈ s.tasks) {origin : Origin}
    (ho : t.origin? = some origin) : origin.addr ∈ s.addrs := by
  refine List.mem_append_right _ (List.mem_flatMap.2 ⟨t, ht, List.mem_append_left _ ?_⟩)
  rw [ho]
  exact List.mem_singleton_self _

theorem mem_addrs_of_get {id : PeerId} {o : Nat} (hget : s.map.get id = some o) :
    (s.peers o).socketAddr ∈ s.addrs :=
  List.mem_append_left _ (List.mem_map.2 ⟨(id, o), (s.map.get_eq_some_iff id o).1 hget, rfl⟩)

theorem mem_addrs_of_keeps {cfg : Config} {addr : SocketAddr}
    (h : (s.registry cfg).Keeps addr) : addr ∈ s.addrs := by
  rcases h with ⟨id, p, hp, rfl⟩ | ⟨c, hc, w, hw, rfl⟩
  · obtain ⟨o, hget, rfl⟩ := Option.map_eq_some_iff.1 hp
    exact mem_addrs_of_get hget
  · obtain ⟨t, ht, rfl⟩ := List.mem_map.1 hc
    refine List.mem_append_right _ (List.mem_flatMap.2 ⟨t, ht, List.mem_append_right _ ?_⟩)
    rw [hw]
    exact List.mem_singleton_self _

end Addrs

/-! ## What the lookups see -/

/-- The address that a lookup has read for an id. -/
def Task.sight : Task → Option (PeerId × SocketAddr)
  | .hold id _ _ addr => some (id, addr)
  | .done (.seen id (.ok (some (_, addr)))) => some (id, addr)
  | _ => none

/-- No address is read while a registration of its peer is being stored. -/
def readsSettled (s : State) : Action → Bool
  | .run i _ =>
    match s.tasks[i]? with
    | some (.readAddr _ o) => !(s.peers o).persistenceInProgress
    | _ => true
  | _ => true

theorem Request.sight_start (r : Request) : r.start.sight = none := by
  cases r with
  | getPk version id =>
    unfold Request.start
    dsimp only
    split <;> rfl
  | _ => rfl

/-- A lookup has read its address before, or the step is the one that reads it. -/
theorem Move.sight_cases {cfg : Config} {s : State} {i : Nat} {t : Task} {out : Outcome}
    (h : Move cfg s i t out) {id : PeerId} {addr : SocketAddr}
    (hsight : out.task.sight = some (id, addr)) :
    t.sight = some (id, addr) ∨ ∃ o, t = .readAddr id o ∧ addr = (s.peers o).socketAddr := by
  -- a request that takes its id for unknown has read nothing
  have habsent : ∀ (call : Call) (now : Nat), (call.absent cfg now).sight = none := by
    intro call now
    cases call <;> rfl
  cases h with
  | addrRead =>
    cases hsight
    exact Or.inr ⟨_, rfl, rfl⟩
  | released => exact Or.inl hsight
  | @touched call => cases call <;> cases hsight
  | @cached call => cases call <;> cases hsight
  | @inserted call => cases call <;> cases hsight
  | @loadFailed call => cases call <;> cases hsight
  | loadAbsent =>
    dsimp only at hsight
    rw [habsent] at hsight
    cases hsight
  | @noRoom call f =>
    have hnone : (returnNoRoom cfg s.toStore call f).task.sight = none := by
      unfold returnNoRoom
      dsimp only
      split
      · exact habsent _ _
      · cases call <;> rfl
    rw [hnone] at hsight
    cases hsight
  | @evicted caller => cases caller <;> cases hsight
  | @joined _ _ _ _ ipChanged => cases ipChanged <;> cases hsight
  | _ => cases hsight

theorem Move.sight_spawned {cfg : Config} {s : State} {i : Nat} {t : Task} {out : Outcome}
    (h : Move cfg s i t out) {u : Task} (hu : u ∈ out.spawned) : u.sight = none := by
  cases h with
  | stagePersist =>
    cases List.mem_singleton.1 hu
    rfl
  | noRoom => exact absurd hu List.not_mem_nil
  | _ => cases hu

/-- An address that a lookup has read after a step was read before, or by the step. -/
theorem step_sight {cfg : Config} {s s' : State} {a : Action} {evs : List Event}
    (h : step cfg s a = some (s', evs)) {j : Nat} {u : Task} (hj : s'.tasks[j]? = some u)
    {id : PeerId} {addr : SocketAddr} (hsight : u.sight = some (id, addr)) :
    (∃ t, s.tasks[j]? = some t ∧ t.sight = some (id, addr)) ∨
      ∃ ch o, a = .run j ch ∧ s.tasks[j]? = some (.readAddr id o) ∧
        addr = (s.peers o).socketAddr := by
  rcases step_cases h with ⟨d, -, rfl, -⟩ | ⟨r, -, rfl, -⟩ |
    ⟨i, ch, t, out, rfl, hi, -, hm, rfl, -⟩
  · exact Or.inl ⟨u, hj, hsight⟩
  · change (s.tasks ++ [r.start])[j]? = some u at hj
    rw [List.getElem?_append] at hj
    split at hj
    · exact Or.inl ⟨u, hj, hsight⟩
    · rw [List.mem_singleton.1 (List.mem_of_getElem? hj), r.sight_start] at hsight
      cases hsight
  · rcases getElem?_advance hj with ⟨rfl, rfl⟩ | ⟨-, hj⟩ | ⟨-, hj⟩
    · rcases hm.sight_cases hsight with hold | ⟨o, rfl, haddr⟩
      · exact Or.inl ⟨t, hi, hold⟩
      · exact Or.inr ⟨ch, o, rfl, hi, haddr⟩
    · exact Or.inl ⟨u, hj, hsight⟩
    · rw [hm.sight_spawned (List.mem_of_getElem? hj)] at hsight
      cases hsight

end RemoteServer.PeerStore
