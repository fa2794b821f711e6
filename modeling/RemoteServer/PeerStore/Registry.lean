import RemoteServer.PeerStore.Handlers

/-!
# The store seen by id

Objects, references and the points of a task are how the server is written.  What
it is for can be said without them: for each id there is at most one cached peer
and at most one row, and some tasks carry something that a later step of theirs
writes.  `Registry` is that view, `Effect` is what one task can do in it, and
`Registry.Step` is one action.

`step_registry` is the refinement: in a state with `WellFormed` and `Handled`,
every action of the machine is a step of its registry.  The invariants of the
later modules are about registries and know nothing of objects.

A registry is deliberately coarse about what no invariant reads: an eviction may
remove any id that no persistence task works on, and the events of a step are
given only where they tell something about a registration.
-/

namespace RemoteServer.PeerStore

open RustStd Lts

/-- What a task carries. -/
inductive Cargo where
  /-- A peer that `cache_peer` is about to offer. -/
  | fresh (id : PeerId) (f : Fresh)
  /-- A staged identity before its database call. -/
  | write (p : Persist)
  /-- A staged identity after its database call. -/
  | ended (p : Persist) (result : Option Bytes)
  /-- A stored identity. -/
  | stored (p : Persist)
  /-- A registration that will be or was answered `OK`. -/
  | accepted (rk : RegisterPk)

def Task.cargo : Task → Option Cargo
  | .lookup call pc => pc.offer.map (.fresh call.id)
  | .evict (.cachePeer call f) _ => some (.fresh call.id f)
  | .persistWrite p => some (.write p)
  | .persistEnd p result => some (.ended p result)
  | .done (.persisted p true) => some (.stored p)
  | .recordIp _ rk _ => some (.accepted rk)
  | .done (.registerPk _ rk (.ok .ok)) => some (.accepted rk)
  | _ => none

/-- The persistence that is still open. -/
def Cargo.pending : Cargo → Option Persist
  | .write p => some p
  | .ended p _ => some p
  | _ => none

/-- What is known of each id. -/
structure View where
  cached : PeerId → Option Peer
  db : Database

def View.set (v : View) (id : PeerId) (p : Peer) : View :=
  { v with cached := Function.update v.cached id (some p) }

structure Registry extends View where
  now : Nat
  /-- The cache is at its capacity. -/
  full : Bool
  cargos : List (Option Cargo)

def Store.cached (s : Store) (id : PeerId) : Option Peer := (s.map.get id).map s.peers

def Store.view (s : Store) : View := ⟨s.cached, s.db⟩

def State.registry (cfg : Config) (s : State) : Registry where
  toView := s.view
  now := s.now
  full := decide (cfg.maxCachedPeers ≤ s.map.len)
  cargos := s.tasks.map Task.cargo

/-! ## What a task can do -/

/-- A write to a cached peer that leaves its identity alone. -/
inductive Edit (cfg : Config) (now : Nat) (id : PeerId) (p : Peer) : Peer → List Event → Prop where
  | touch {evs : List Event} : Edit cfg now id p (p.touch now) evs
  | attempt {regPk : Nat × Nat} {evs : List Event} : Edit cfg now id p { p with regPk := regPk } evs
  | beat {origin : Origin} :
      Edit cfg now id p (heartbeat cfg.allowUnmanagedDevices p origin.addr now).1
        [.beat origin id (heartbeat cfg.allowUnmanagedDevices p origin.addr now).2]

/-- What a task with a cargo can do: the view, the cargo and the persistence
tasks that it leaves, and its events. -/
inductive Effect (cfg : Config) (r : Registry) (i : Nat) :
    Option Cargo → View → Option Cargo → List Persist → List Event → Prop where
  | idle {c : Option Cargo} {evs : List Event} : Effect cfg r i c r.toView c [] evs
  | drop {id : PeerId} {f : Fresh} {evs : List Event} :
      Effect cfg r i (some (.fresh id f)) r.toView none [] evs
  | load {id : PeerId} {row : Row} {info : PeerInfo} (hrow : r.db.getPeer id = some row)
      (hinfo : cfg.infoCodec.decode row.info = some info) :
      Effect cfg r i none r.toView (some (.fresh id ⟨loadedPeer row info r.now, true⟩)) [] []
  | absent {id : PeerId} {evs : List Event} (hrow : r.db.getPeer id = none) :
      Effect cfg r i none r.toView (some (.fresh id ⟨Peer.fresh r.now, false⟩)) [] evs
  | noRoom {id : PeerId} {f : Fresh} {evs : List Event} (hcached : r.cached id = none)
      (hfull : r.full = true) (hloaded : f.loaded = true) :
      Effect cfg r i (some (.fresh id f)) r.toView
        (some (.fresh id ⟨Peer.fresh r.now, false⟩)) [] evs
  | insert {id : PeerId} {f : Fresh} {evs : List Event} (hcached : r.cached id = none) :
      Effect cfg r i (some (.fresh id f)) (r.set id f.peer) none [] evs
  | evict {c : Option Cargo} {v : View} (hdb : v.db = r.db)
      (hsub : ∀ id, v.cached id = r.cached id ∨ v.cached id = none)
      (hkeep : ∀ c ∈ r.cargos, ∀ p, c.bind Cargo.pending = some p →
        v.cached p.id = r.cached p.id) :
      Effect cfg r i c v c [] []
  | edit {id : PeerId} {p p' : Peer} {evs : List Event} (hp : r.cached id = some p)
      (he : Edit cfg r.now id p p' evs) : Effect cfg r i none (r.set id p') none [] evs
  | acceptSame {origin : Origin} {rk : RegisterPk} {p : Peer} {regPk : Nat × Nat}
      (hp : r.cached rk.id = some p) (hbusy : p.persistenceInProgress = false)
      (huuid : p.uuid = rk.uuid) (hne : rk.uuid ≠ [])
      (hmode : cfg.allowUnmanagedDevices = true) :
      Effect cfg r i none (r.set rk.id { p with regPk := regPk }) (some (.accepted rk)) []
        [.completed i origin rk.id r.now]
  | acceptVerified {origin : Origin} {rk : RegisterPk} {p : Peer} (hp : r.cached rk.id = some p)
      (hmode : cfg.allowUnmanagedDevices = false) :
      Effect cfg r i none (r.set rk.id (p.verifiedNow r.now)) (some (.accepted rk)) []
        [.completed i origin rk.id r.now]
  | acceptStored {rk : RegisterPk} {p : Persist} (hp : some (.stored p) ∈ r.cargos)
      (hid : p.id = rk.id) (huuid : p.uuid = rk.uuid) (hpk : p.pk = rk.pk) :
      Effect cfg r i none r.toView (some (.accepted rk)) [] []
  | stage {origin : Origin} {rk : RegisterPk} {managed : Bool} {o : Nat} {p p' : Peer}
      {pending : PendingPeerRegistration} (hp : r.cached rk.id = some p)
      (hauth : Authorized cfg rk managed)
      (hstage : stagePeerRegistration cfg.infoCodec p origin.addr rk.uuid rk.pk
        origin.addr.ip.toString managed r.now = (p', .persist pending)) :
      Effect cfg r i none (r.set rk.id p') none
        [⟨i, origin, rk.id, o, pending.guid, rk.uuid, rk.pk, pending.serializedInfo,
          pending.rollback, managed⟩]
        [.staged i origin rk.id r.now]
  | write {p : Persist} {db : Database} {guid : Bytes} {ch : Choice}
      (hdb : persistStatement r.db ch p = some (db, guid)) :
      Effect cfg r i (some (.write p)) ⟨r.cached, db⟩ (some (.ended p (some guid))) [] []
  | writeFailed {p : Persist} :
      Effect cfg r i (some (.write p)) r.toView (some (.ended p none)) [] []
  | commit {p : Persist} {guid : Bytes} {peer : Peer} (hp : r.cached p.id = some peer) :
      Effect cfg r i (some (.ended p (some guid)))
        (r.set p.id (peer.commit guid p.managedAuthorized r.now)) (some (.stored p)) []
        [.completed p.owner p.origin p.id r.now]
  | rollback {p : Persist} {peer : Peer} (hp : r.cached p.id = some peer) :
      Effect cfg r i (some (.ended p none)) (r.set p.id (peer.rollback p.rollback)) none []
        [.rolledBack p.owner p.id]

/-- One action. -/
inductive Registry.Step (cfg : Config) (r : Registry) : List Event → Registry → Prop where
  | tick (d : Nat) : Step cfg r [] { r with now := r.now + d }
  | call : Step cfg r [] { r with cargos := r.cargos ++ [none] }
  | move {i : Nat} {c c' : Option Cargo} {v : View} {full : Bool} {spawned : List Persist}
      {evs : List Event} (hi : r.cargos[i]? = some c) (heff : Effect cfg r i c v c' spawned evs) :
      Step cfg r evs
        ⟨v, r.now, full, advance r.cargos i c' (spawned.map fun p => some (.write p))⟩

/-! ## The statement of a persistence task -/

/-- The statement of a task whose `guid` is that of the row of its id: it writes
the row of that id and no other. -/
theorem persistStatement_eq_some {db db' : Database} {ch : Choice} {p : Persist} {guid : Bytes}
    (hguid : p.guid = [] ∨ ∃ row, db.getPeer p.id = some row ∧ row.guid = p.guid)
    (h : persistStatement db ch p = some (db', guid)) :
    db'.getPeer p.id = some ⟨guid, p.id, p.uuid, p.pk, p.info⟩ ∧
      (p.guid = [] ∧ db.getPeer p.id = none ∨
        p.guid ≠ [] ∧ guid = p.guid ∧ ∃ row, db.getPeer p.id = some row ∧ row.guid = p.guid) ∧
      ∀ id, id ≠ p.id → db'.getPeer id = db.getPeer id := by
  unfold persistStatement at h
  split at h
  · split at h
    · rename_i hempty
      obtain ⟨db₁, hdb₁, hpair⟩ := Option.map_eq_some_iff.1 h
      cases hpair
      obtain ⟨hnone, hrow, hother⟩ := Database.insertPeer_eq_some hdb₁
      exact ⟨hrow, Or.inl ⟨List.isEmpty_iff.1 hempty, hnone⟩, hother⟩
    · rename_i hempty
      obtain ⟨db₁, hdb₁, hpair⟩ := Option.map_eq_some_iff.1 h
      cases hpair
      have hne : p.guid ≠ [] := fun hnil => hempty (List.isEmpty_iff.2 hnil)
      rcases hguid with hnil | ⟨row, hrow, hrowguid⟩
      · exact absurd hnil hne
      · obtain ⟨hrow', hother⟩ := Database.updateIdentity_eq_some hrow hrowguid hdb₁
        exact ⟨hrow', Or.inr ⟨hne, rfl, row, hrow, hrowguid⟩, hother⟩
  · cases h

theorem persistStatement_claimed {db db' : Database} {ch : Choice} {p : Persist} {guid : Bytes}
    (hdb : db.Claimed) (huuid : p.uuid ≠ []) (h : persistStatement db ch p = some (db', guid)) :
    db'.Claimed := by
  unfold persistStatement at h
  split at h
  · split at h
    · obtain ⟨db₁, hdb₁, hpair⟩ := Option.map_eq_some_iff.1 h
      cases hpair
      exact hdb.insertPeer huuid hdb₁
    · obtain ⟨db₁, hdb₁, hpair⟩ := Option.map_eq_some_iff.1 h
      cases hpair
      exact hdb.updateIdentity huuid hdb₁
  · cases h

/-! ## Views of a changed store -/

theorem Store.Same.view {s s' : Store} (h : s.Same s') : s'.view = s.view := by
  unfold Store.view Store.cached
  rw [h.map, h.peers, h.db]

section View

variable {s : State} (hwf : WellFormed s)

include hwf

/-- A write through an object is a write to the peer of its id. -/
theorem view_setPeer {id : PeerId} {o : Nat} (hget : s.map.get id = some o) (p : Peer) :
    (s.setPeer o p).view = s.view.set id p := by
  refine congrArg (fun cached => View.mk cached s.db) (funext fun id' => ?_)
  change (s.map.get id').map (Function.update s.peers o p) =
    Function.update s.cached id (some p) id'
  by_cases hid : id' = id
  · rw [hid, Function.update_self, hget, Option.map_some, Function.update_self]
  · rw [Function.update_of_ne hid]
    cases hget' : s.map.get id' with
    | none => rw [Store.cached, hget']; rfl
    | some o' =>
      have hne : o' ≠ o := fun he => hid (hwf.inj (he ▸ hget') hget)
      rw [Option.map_some, Function.update_of_ne hne, Store.cached, hget', Option.map_some]

theorem view_insertPeer (id : PeerId) (p : Peer) :
    (s.insertPeer id p).view = s.view.set id p := by
  refine congrArg (fun cached => View.mk cached s.db) (funext fun id' => ?_)
  change ((s.map.insert id s.next).get id').map (Function.update s.peers s.next p) =
    Function.update s.cached id (some p) id'
  rw [HashMap.get_insert]
  by_cases hid : id' = id
  · rw [if_pos hid, hid, Function.update_self, Option.map_some, Function.update_self]
  · rw [if_neg hid, Function.update_of_ne hid]
    cases hget' : s.map.get id' with
    | none => rw [Store.cached, hget']; rfl
    | some o' =>
      have hne : o' ≠ s.next := Nat.ne_of_lt (hwf.below hget')
      rw [Option.map_some, Function.update_of_ne hne, Store.cached, hget', Option.map_some]

end View

theorem cached_of_get {s : Store} {id : PeerId} {o : Nat} (hget : s.map.get id = some o) :
    s.cached id = some (s.peers o) := by
  rw [Store.cached, hget, Option.map_some]

theorem cached_eq_none {s : Store} {id : PeerId} : s.cached id = none ↔ s.map.get id = none := by
  rw [Store.cached, Option.map_eq_none_iff]

/-! ## The refinement -/

theorem Task.cargo_of_registration {t : Task} {q : Origin × RegisterPk}
    (h : t.registration = some q) : t.cargo = none := by
  cases t with
  | allowIp => rfl
  | verify => rfl
  | stage => rfl
  | _ => cases h

theorem Task.cargo_of_refused {origin : Origin} {rk : RegisterPk}
    {res : Except String RegisterPkResult} (h : res ≠ .ok .ok) :
    (Task.done (.registerPk origin rk res)).cargo = none := by
  cases res with
  | error err => rfl
  | ok r =>
    cases r with
    | ok => exact absurd rfl h
    | _ => rfl

theorem Call.cargo_resume (call : Call) (o : Nat) : (call.resume o).cargo = none := by
  cases call <;> rfl

theorem Call.cargo_failed (call : Call) (err : String) : (call.failed err).cargo = none := by
  cases call <;> rfl

theorem Request.cargo_start (r : Request) : r.start.cargo = none := by
  cases r with
  | getPk version id =>
    unfold Request.start
    dsimp only
    split <;> rfl
  | _ => rfl

theorem Evictor.cargo_resume (caller : Evictor) (e : Evict) :
    caller.resume.cargo = (Task.evict caller e).cargo := by
  cases caller <;> rfl

theorem Lookup.cargo_offer {call : Call} {pc : Lookup} {f : Fresh} (h : pc.offer = some f) :
    (Task.lookup call pc).cargo = some (.fresh call.id f) := by
  rw [Task.cargo, h]
  rfl

/-- A request that found no row either ends or goes on with an empty peer. -/
theorem Call.cargo_absent (call : Call) (cfg : Config) (now : Nat) :
    (call.absent cfg now).cargo = none ∨
      (call.absent cfg now).cargo = some (.fresh call.id ⟨Peer.fresh now, false⟩) := by
  cases call with
  | registerPk => exact Or.inr rfl
  | _ => exact Or.inl rfl

theorem returnNoRoom_cargo (cfg : Config) (s : Store) (call : Call) (f : Fresh) :
    (returnNoRoom cfg s call f).task.cargo = none ∨ f.loaded = true ∧
      (returnNoRoom cfg s call f).task.cargo = some (.fresh call.id ⟨Peer.fresh s.now, false⟩) := by
  unfold returnNoRoom
  dsimp only
  split
  · rename_i hloaded
    rcases call.cargo_absent cfg s.now with h | h
    · exact Or.inl h
    · exact Or.inr ⟨hloaded, h⟩
  · cases call <;> exact Or.inl rfl

theorem Move.now_eq {cfg : Config} {s : State} {i : Nat} {t : Task} {out : Outcome}
    (h : Move cfg s i t out) : out.store.now = s.now := by
  cases h with
  | refuse _ hstore _ => exact hstore.now
  | allowed _ hstore _ => exact hstore.now
  | askApi _ hstore _ => exact hstore.now
  | recorded hstore => exact hstore.now
  | _ => rfl

/-- An open persistence holds the object it works on. -/
theorem Task.pending_refs {t : Task} {p : Persist} (h : t.cargo.bind Cargo.pending = some p) :
    (p.id, p.obj) ∈ t.refs := by
  cases t with
  | persistWrite p' => cases h; exact List.mem_cons_self
  | persistEnd p' result => cases h; exact List.mem_cons_self
  | lookup call pc => cases pc <;> cases h
  | evict caller e => cases caller <;> cases h
  | done answer =>
    cases answer with
    | persisted p' stored => cases stored <;> cases h
    | registerPk origin rk result =>
      cases result with
      | error err => cases h
      | ok result => cases result <;> cases h
    | _ => cases h
  | _ => cases h

section Refinement

variable {cfg : Config} {s : State} {i : Nat} {t : Task} {out : Outcome}

/-- What the store of a state without a move looks like. -/
private theorem effect_idle {store : Store} {c c' : Option Cargo} {evs : List Event}
    (hstore : s.toStore.Same store) (hc : c' = c) :
    Effect cfg (s.registry cfg) i c store.view c' [] evs := by
  rw [hstore.view, hc]
  exact .idle

/-- A pass removes ids that no open persistence works on. -/
private theorem effect_evict (hwf : WellFormed s) {caller : Evictor}
    {snap candidates : List (PeerId × Nat)} {tryRead : PeerId → Bool}
    (hi : s.tasks[i]? = some (.evict caller (.scan snap [] candidates))) {c : Option Cargo} :
    Effect cfg (s.registry cfg) i c
      { s.toStore with map := removeCandidates s tryRead candidates s.map }.view c [] [] := by
  refine .evict rfl (fun id => ?_) (fun c hc p hp => ?_)
  · change ((removeCandidates s tryRead candidates s.map).get id).map s.peers = s.cached id ∨ _
    rcases removeCandidates_get s tryRead id candidates s.map with hkeep | ⟨hgone, -⟩
    · exact Or.inl (by rw [hkeep]; rfl)
    · refine Or.inr ?_
      change ((removeCandidates s tryRead candidates s.map).get id).map s.peers = none
      rw [hgone]
      rfl
  · obtain ⟨u, hu, rfl⟩ := List.mem_map.1 hc
    obtain ⟨j, hj⟩ := List.mem_iff_getElem?.1 hu
    have hrefs := Task.pending_refs hp
    have hne : j ≠ i := by
      rintro rfl
      rw [hi] at hj
      cases hj
      cases caller <;> cases hp
    have hold := hwf.held u hu _ hrefs
    have hnew : (removeCandidates s tryRead candidates s.map).get p.id = some p.obj :=
      hwf.evict_keeps hi hne hj hrefs
    change ((removeCandidates s tryRead candidates s.map).get p.id).map s.peers =
      (s.map.get p.id).map s.peers
    rw [hold, hnew]

/-- Staging is the only move that spawns. -/
private theorem effect_stage (hwf : WellFormed s) {origin : Origin} {rk : RegisterPk}
    {managed : Bool} {o : Nat} {p : Peer} {pending : PendingPeerRegistration}
    (hget : s.map.get rk.id = some o) (hauth : Authorized cfg rk managed)
    (hstage : stagePeerRegistration cfg.infoCodec (s.peers o) origin.addr rk.uuid rk.pk
      origin.addr.ip.toString managed s.now = (p, .persist pending)) :
    Effect cfg (s.registry cfg) i none (s.setPeer o p).view none
      [⟨i, origin, rk.id, o, pending.guid, rk.uuid, rk.pk, pending.serializedInfo,
        pending.rollback, managed⟩]
      [.staged i origin rk.id s.now] := by
  rw [view_setPeer hwf hget]
  exact .stage (cached_of_get hget) hauth hstage

/-- A move of the machine is an effect on its registry. -/
theorem Move.effect (h : Move cfg s i t out) (hwf : WellFormed s) (hh : Handled cfg s)
    (hi : s.tasks[i]? = some t) :
    ∃ spawned : List Persist,
      out.spawned.map Task.cargo = spawned.map (fun p => some (.write p)) ∧
      Effect cfg (s.registry cfg) i t.cargo out.store.view out.task.cargo spawned out.events := by
  have hti := List.mem_of_getElem? hi
  have hheld := hwf.held t hti
  have hvet := hh.vetted t hti
  -- the first object that the task holds
  have hget : ∀ {id : PeerId} {o : Nat}, (id, o) ∈ t.refs → s.map.get id = some o :=
    fun hmem => hheld _ hmem
  cases h with
  | stagePersist hstage =>
    exact ⟨_, rfl, effect_stage hwf (hget List.mem_cons_self) hvet hstage⟩
  | refuse hreg hstore hres =>
    refine ⟨[], rfl, effect_idle hstore ?_⟩
    rw [Task.cargo_of_registration hreg, Task.cargo_of_refused hres]
  | allowed _ hstore _ => exact ⟨[], rfl, effect_idle hstore rfl⟩
  | askApi _ hstore _ => exact ⟨[], rfl, effect_idle hstore rfl⟩
  | recorded hstore => exact ⟨[], rfl, effect_idle hstore rfl⟩
  | touched =>
    refine ⟨[], rfl, ?_⟩
    rw [returnObject, view_setPeer hwf (hget List.mem_cons_self), Call.cargo_resume]
    exact .edit (cached_of_get (hget List.mem_cons_self)) .touch
  | loadFailed =>
    refine ⟨[], rfl, effect_idle (.refl _) ?_⟩
    rw [Call.cargo_failed]
    rfl
  | @loadAbsent call hrow =>
    refine ⟨[], rfl, ?_⟩
    rcases call.cargo_absent cfg s.now with hc | hc
    · exact effect_idle (.refl _) hc
    · rw [hc]
      exact .absent hrow
  | loaded hrow hinfo => exact ⟨[], rfl, .load hrow hinfo⟩
  | cached hpc hget =>
    refine ⟨[], rfl, ?_⟩
    rw [Lookup.cargo_offer hpc, returnObject, Call.cargo_resume]
    exact .drop
  | toEvict hpc _ _ =>
    refine ⟨[], rfl, effect_idle (.refl _) ?_⟩
    rw [Lookup.cargo_offer hpc]
    rfl
  | inserted hpc hnone _ =>
    refine ⟨[], rfl, ?_⟩
    rw [Lookup.cargo_offer hpc, returnInserted, returnObject, view_insertPeer hwf,
      Call.cargo_resume]
    exact .insert (cached_eq_none.2 hnone)
  | @noRoom call f hnone hfull =>
    refine ⟨[], rfl, ?_⟩
    have hoffer : (Task.lookup call (.cacheLast f)).cargo = some (.fresh call.id f) := rfl
    rw [hoffer]
    rcases returnNoRoom_cargo cfg s.toStore call f with hc | ⟨hloaded, hc⟩
    · rw [hc]
      exact .drop
    · rw [hc]
      exact .noRoom (cached_eq_none.2 hnone) (decide_eq_true hfull) hloaded
  | @scan caller =>
    refine ⟨[], rfl, effect_idle (.refl _) ?_⟩
    cases caller <;> rfl
  | @evicted caller snap candidates tryRead =>
    refine ⟨[], rfl, ?_⟩
    rw [caller.cargo_resume (.scan snap [] candidates)]
    exact effect_evict hwf hi
  | stageSame hstage =>
    obtain ⟨hbusy, -, huuid, -, -, regPk, rfl⟩ := stage_unchanged hstage
    refine ⟨[], rfl, ?_⟩
    rw [view_setPeer hwf (hget List.mem_cons_self)]
    exact .acceptSame (cached_of_get (hget List.mem_cons_self)) hbusy huuid
      (RegisterPk.uuid_ne_nil hvet.wellFormed) (by simpa using hvet.managed_eq)
  | stageSameManaged hstage =>
    obtain ⟨-, -, -, -, -, regPk, rfl⟩ := stage_unchanged hstage
    refine ⟨[], rfl, ?_⟩
    rw [view_setPeer hwf (hget List.mem_cons_self)]
    exact .edit (cached_of_get (hget List.mem_cons_self)) .attempt
  | verifiedNow =>
    refine ⟨[], rfl, ?_⟩
    rw [view_setPeer hwf (hget List.mem_cons_self)]
    exact .acceptVerified (cached_of_get (hget List.mem_cons_self))
      (by simpa using hvet.managed_eq)
  | @joined origin rk o j ipChanged p hj =>
    refine ⟨[], rfl, ?_⟩
    obtain ⟨u, p', hu, hup, hfor⟩ := hh.joins _ _ _ _ _ _ hi
    rw [hj] at hu
    cases hu
    cases hup
    have hstored : some (.stored p) ∈ (s.registry cfg).cargos :=
      List.mem_map.2 ⟨_, List.mem_of_getElem? hj, rfl⟩
    have hcargo : (if ipChanged then Task.recordIp origin rk o
        else .done (.registerPk origin rk (.ok .ok))).cargo = some (.accepted rk) := by
      cases ipChanged <;> rfl
    rw [hcargo]
    exact .acceptStored hstored hfor.id hfor.uuid hfor.pk
  | beaten =>
    refine ⟨[], rfl, ?_⟩
    rw [view_setPeer hwf (hget List.mem_cons_self)]
    exact .edit (cached_of_get (hget List.mem_cons_self)) .beat
  | memTouched =>
    refine ⟨[], rfl, ?_⟩
    rw [view_setPeer hwf (hget List.mem_cons_self)]
    exact .edit (cached_of_get (hget List.mem_cons_self)) .touch
  | written hdb => exact ⟨[], rfl, .write hdb⟩
  | writeFailed => exact ⟨[], rfl, .writeFailed⟩
  | committed =>
    refine ⟨[], rfl, ?_⟩
    rw [view_setPeer hwf (hget List.mem_cons_self)]
    exact .commit (cached_of_get (hget List.mem_cons_self))
  | rolledBack =>
    refine ⟨[], rfl, ?_⟩
    rw [view_setPeer hwf (hget List.mem_cons_self)]
    exact .rollback (cached_of_get (hget List.mem_cons_self))
  | _ => exact ⟨[], rfl, effect_idle (.refl _) rfl⟩

theorem registry_getElem? (hi : s.tasks[i]? = some t) :
    (s.registry cfg).cargos[i]? = some t.cargo := by
  change (s.tasks.map Task.cargo)[i]? = _
  rw [List.getElem?_map, hi]
  rfl

/-- Every action of the machine is a step of its registry. -/
theorem step_registry {s' : State} {a : Action} {evs : List Event} (hwf : WellFormed s)
    (hh : Handled cfg s) (h : step cfg s a = some (s', evs)) :
    (s.registry cfg).Step cfg evs (s'.registry cfg) := by
  rcases step_cases h with ⟨d, -, rfl, rfl⟩ | ⟨r, -, rfl, rfl⟩ |
    ⟨i, ch, t, out, -, hi, -, hm, rfl, rfl⟩
  · exact .tick d
  · have hcargos : (s.tasks ++ [r.start]).map Task.cargo = s.tasks.map Task.cargo ++ [none] := by
      rw [List.map_append, List.map_singleton, r.cargo_start]
    unfold State.registry
    dsimp only
    rw [hcargos]
    exact .call
  · obtain ⟨spawned, hspawned, heff⟩ := hm.effect hwf hh hi
    have hreg : (s.after i out).registry cfg =
        ⟨out.store.view, s.now, decide (cfg.maxCachedPeers ≤ out.store.map.len),
          advance (s.registry cfg).cargos i out.task.cargo
            (spawned.map fun p => some (.write p))⟩ := by
      unfold State.registry State.after
      dsimp only
      rw [hm.now_eq, map_advance, hspawned]
    rw [hreg]
    exact .move (registry_getElem? hi) heff

end Refinement

/-- The invariant rule for registries: a predicate that every step of a registry
keeps, as far as the steps of the run allow, holds along the run. -/
theorem run_registry {cfg : Config} {ok : List Event → State → Action → Prop}
    {G : Registry → Registry → Prop} {J : List Event → Registry → Prop} {now : Nat} {db : Database}
    (h0 : J [] ((State.initial now db).registry cfg))
    (hguard : ∀ {tr s a s' evs}, Run (step cfg) ok (State.initial now db) tr s → ok tr s a →
      step cfg s a = some (s', evs) → G (s.registry cfg) (s'.registry cfg))
    (hstep : ∀ {tr r evs r'}, J tr r → G r r' → r.Step cfg evs r' → J (tr ++ evs) r')
    {tr : List Event} {s : State} (h : Run (step cfg) ok (State.initial now db) tr s) :
    J tr (s.registry cfg) := by
  induction h with
  | start => exact h0
  | step hr hok hs ih =>
    exact hstep ih (hguard hr hok hs) (step_registry (run_wellFormed hr) (run_handled hr) hs)

end RemoteServer.PeerStore
