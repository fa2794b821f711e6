import RemoteServer.PeerStore.Machine

/-!
# The moves of a task

`stepTask` is the program.  `Move` says the same as a relation, with one
constructor for each thing a task can do and with the conditions under which it
does it: `move_of_stepTask`.  Every invariant of the store is proved by cases on
`Move`, so the program is taken apart here and nowhere else.  `run_tasks` is the
rule for an invariant of single tasks.

The moves by which a handler ends its registration without `OK` leave the store
alone up to the address tables, and nothing depends on which of them it is, so they
are one constructor, `refuse`.
-/

namespace RemoteServer.PeerStore

open RustStd Lts

/-- The two stores differ in the address tables at most. -/
structure Store.Same (s s' : Store) : Prop where
  now : s'.now = s.now
  map : s'.map = s.map
  peers : s'.peers = s.peers
  next : s'.next = s.next
  db : s'.db = s.db

theorem Store.Same.refl (s : Store) : s.Same s := ⟨rfl, rfl, rfl, rfl, rfl⟩

/-- The `RegisterPk` that a task may still refuse by itself. -/
def Task.registration : Task → Option (Origin × RegisterPk)
  | .allowIp origin rk => some (origin, rk)
  | .verify origin rk => some (origin, rk)
  | .stage origin rk _ _ => some (origin, rk)
  | _ => none

/-- The peer that `cache_peer` is about to offer. -/
def Lookup.offer : Lookup → Option Fresh
  | .cacheRead f => some f
  | .cacheWrite f => some f
  | .cacheLast f => some f
  | _ => none

/-- The steps of an eviction pass before its write lock. -/
inductive Evict.Next (s : State) (idleSecs : Nat) : Evict → Evict → Prop where
  | snapshot : Next s idleSecs .snapshot (.scan s.map.entries s.map.entries [])
  | skip {snap todo candidates : List (PeerId × Nat)} {q : PeerId × Nat} :
      Next s idleSecs (.scan snap (q :: todo) candidates) (.scan snap todo candidates)
  | pick {snap todo candidates : List (PeerId × Nat)} {q : PeerId × Nat}
      (hidle : inactive idleSecs s.now (s.peers q.2) = true) :
      Next s idleSecs (.scan snap (q :: todo) candidates)
        (.scan snap todo (candidates ++ [(q.1, (s.peers q.2).lastAccessTime)]))

/-- What task `i` can do in state `s`. -/
inductive Move (cfg : Config) (s : State) (i : Nat) : Task → Outcome → Prop where
  | refuse {t : Task} {origin : Origin} {rk : RegisterPk} {store : Store}
      {res : Except String RegisterPkResult} (hreg : t.registration = some (origin, rk))
      (hstore : s.toStore.Same store) (hres : res ≠ .ok .ok) :
      Move cfg s i t ⟨store, .done (.registerPk origin rk res), [], []⟩
  | allowed {origin : Origin} {rk : RegisterPk} {store : Store} (hrk : rk.refusal = none)
      (hstore : s.toStore.Same store) (hmode : cfg.allowUnmanagedDevices = true) :
      Move cfg s i (.allowIp origin rk) ⟨store, .lookup (.registerPk origin rk false) .read, [], []⟩
  | askApi {origin : Origin} {rk : RegisterPk} {store : Store} (hrk : rk.refusal = none)
      (hstore : s.toStore.Same store) (hmode : cfg.allowUnmanagedDevices = false) :
      Move cfg s i (.allowIp origin rk) ⟨store, .verify origin rk, [], [.verifying i rk.id]⟩
  | apiAgrees {origin : Origin} {rk : RegisterPk} :
      Move cfg s i (.verify origin rk)
        ⟨s.toStore, .lookup (.registerPk origin rk true) .read, [], [.verified i rk.id]⟩
  | hit {call : Call} {o : Nat} (hget : s.map.get call.id = some o) :
      Move cfg s i (.lookup call .read) ⟨s.toStore, .lookup call (.touch o), [], []⟩
  | miss {call : Call} (hget : s.map.get call.id = none) :
      Move cfg s i (.lookup call .read) ⟨s.toStore, .lookup call .load, [], []⟩
  | touched {call : Call} {o : Nat} :
      Move cfg s i (.lookup call (.touch o))
        (returnObject (s.setPeer o ((s.peers o).touch s.now)) call true o)
  | loadFailed {call : Call} {err : String} :
      Move cfg s i (.lookup call .load) ⟨s.toStore, call.failed err, [], []⟩
  | loadAbsent {call : Call} (hrow : s.db.getPeer call.id = none) :
      Move cfg s i (.lookup call .load)
        ⟨s.toStore, call.absent cfg s.now, [], [.got call.id none]⟩
  | loaded {call : Call} {row : Row} {info : PeerInfo} (hrow : s.db.getPeer call.id = some row)
      (hinfo : cfg.infoCodec.decode row.info = some info) :
      Move cfg s i (.lookup call .load)
        ⟨s.toStore, .lookup call (.cacheRead ⟨loadedPeer row info s.now, true⟩), [], []⟩
  | cached {call : Call} {pc : Lookup} {f : Fresh} {o : Nat} (hpc : pc.offer = some f)
      (hget : s.map.get call.id = some o) :
      Move cfg s i (.lookup call pc) (returnObject s.toStore call f.loaded o)
  | toWrite {call : Call} {f : Fresh} (hget : s.map.get call.id = none) :
      Move cfg s i (.lookup call (.cacheRead f)) ⟨s.toStore, .lookup call (.cacheWrite f), [], []⟩
  | toEvict {call : Call} {pc : Lookup} {f : Fresh} (hpc : pc.offer = some f)
      (hget : s.map.get call.id = none) (hfull : cfg.maxCachedPeers ≤ s.map.len) :
      Move cfg s i (.lookup call pc) ⟨s.toStore, .evict (.cachePeer call f) .snapshot, [], []⟩
  | inserted {call : Call} {pc : Lookup} {f : Fresh} (hpc : pc.offer = some f)
      (hget : s.map.get call.id = none) (hroom : s.map.len < cfg.maxCachedPeers) :
      Move cfg s i (.lookup call pc) (returnInserted s.toStore call f)
  | noRoom {call : Call} {f : Fresh} (hget : s.map.get call.id = none)
      (hfull : cfg.maxCachedPeers ≤ s.map.len) :
      Move cfg s i (.lookup call (.cacheLast f)) (returnNoRoom cfg s.toStore call f)
  | scan {caller : Evictor} {e e' : Evict} (hnext : e.Next s caller.idleSecs e') :
      Move cfg s i (.evict caller e) ⟨s.toStore, .evict caller e', [], []⟩
  | evicted {caller : Evictor} {snap candidates : List (PeerId × Nat)}
      {tryRead : PeerId → Bool} :
      Move cfg s i (.evict caller (.scan snap [] candidates))
        ⟨{ s.toStore with map := removeCandidates s tryRead candidates s.map }, caller.resume, [], []⟩
  | stageSame {origin : Origin} {rk : RegisterPk} {o : Nat} {p : Peer}
      (hstage : stagePeerRegistration cfg.infoCodec (s.peers o) origin.addr rk.uuid rk.pk
        origin.addr.ip.toString false s.now = (p, .unchanged)) :
      Move cfg s i (.stage origin rk false o)
        ⟨s.setPeer o p, .done (.registerPk origin rk (.ok .ok)), [],
          [.completed i origin rk.id s.now]⟩
  | stageSameManaged {origin : Origin} {rk : RegisterPk} {o : Nat} {p : Peer}
      (hstage : stagePeerRegistration cfg.infoCodec (s.peers o) origin.addr rk.uuid rk.pk
        origin.addr.ip.toString true s.now = (p, .unchanged)) :
      Move cfg s i (.stage origin rk true o)
        ⟨s.setPeer o p, .unchanged origin rk o, [], []⟩
  | stagePersist {origin : Origin} {rk : RegisterPk} {managed : Bool} {o : Nat} {p : Peer}
      {pending : PendingPeerRegistration}
      (hstage : stagePeerRegistration cfg.infoCodec (s.peers o) origin.addr rk.uuid rk.pk
        origin.addr.ip.toString managed s.now = (p, .persist pending)) :
      Move cfg s i (.stage origin rk managed o)
        ⟨s.setPeer o p, .join origin rk o pending.ipChanged s.tasks.length,
          [.persistWrite ⟨i, origin, rk.id, o, pending.guid, rk.uuid, rk.pk,
            pending.serializedInfo, pending.rollback, managed⟩],
          [.staged i origin rk.id s.now]⟩
  | verifiedNow {origin : Origin} {rk : RegisterPk} {o : Nat} :
      Move cfg s i (.unchanged origin rk o)
        ⟨s.setPeer o ((s.peers o).verifiedNow s.now), .done (.registerPk origin rk (.ok .ok)), [],
          [.completed i origin rk.id s.now]⟩
  | joined {origin : Origin} {rk : RegisterPk} {o j : Nat} {ipChanged : Bool} {p : Persist}
      (hj : s.tasks[j]? = some (.done (.persisted p true))) :
      Move cfg s i (.join origin rk o ipChanged j)
        ⟨s.toStore, if ipChanged then .recordIp origin rk o
          else .done (.registerPk origin rk (.ok .ok)), [], []⟩
  | joinedFailed {origin : Origin} {rk : RegisterPk} {o j : Nat} {ipChanged : Bool} {p : Persist}
      (hj : s.tasks[j]? = some (.done (.persisted p false))) :
      Move cfg s i (.join origin rk o ipChanged j)
        ⟨s.toStore, .done (.registerPk origin rk (.ok .serverError)), [], []⟩
  | recorded {origin : Origin} {rk : RegisterPk} {o : Nat} {store : Store}
      (hstore : s.toStore.Same store) :
      Move cfg s i (.recordIp origin rk o)
        ⟨store, .done (.registerPk origin rk (.ok .ok)), [], []⟩
  | beaten {origin : Origin} {rp : RegisterPeer} {o : Nat} :
      Move cfg s i (.beat origin rp o)
        ⟨s.setPeer o (heartbeat cfg.allowUnmanagedDevices (s.peers o) origin.addr s.now).1,
          .done (.registerPeer origin rp (.ok
            ((heartbeat cfg.allowUnmanagedDevices (s.peers o) origin.addr s.now).2,
              configUpdate cfg rp))), [],
          [.beat origin rp.id
            (heartbeat cfg.allowUnmanagedDevices (s.peers o) origin.addr s.now).2]⟩
  | signed {id : PeerId} {o : Nat} :
      Move cfg s i (.readPk id o)
        ⟨s.toStore, .done (.getPk id (some (s.peers o).pk)), [], [.signed id (s.peers o).pk]⟩
  | memHit {id : PeerId} {o : Nat} (hget : s.map.get id = some o) :
      Move cfg s i (.memRead id) ⟨s.toStore, .memTouch id o, [], []⟩
  | memMiss {id : PeerId} :
      Move cfg s i (.memRead id) ⟨s.toStore, .done (.seen id (.ok none)), [], []⟩
  | memTouched {id : PeerId} {o : Nat} :
      Move cfg s i (.memTouch id o)
        ⟨s.setPeer o ((s.peers o).touch s.now), .readAddr id o, [], []⟩
  | addrRead {id : PeerId} {o : Nat} :
      Move cfg s i (.readAddr id o)
        ⟨s.toStore, .hold id o ((s.peers o).online s.now) (s.peers o).socketAddr, [], []⟩
  | released {id : PeerId} {o : Nat} {online : Bool} {addr : SocketAddr} :
      Move cfg s i (.hold id o online addr)
        ⟨s.toStore, .done (.seen id (.ok (some (online, addr)))), [], []⟩
  | written {p : Persist} {db : Database} {guid : Bytes} {ch : Choice}
      (hdb : persistStatement s.db ch p = some (db, guid)) :
      Move cfg s i (.persistWrite p)
        ⟨{ s.toStore with db := db }, .persistEnd p (some guid), [], []⟩
  | writeFailed {p : Persist} :
      Move cfg s i (.persistWrite p) ⟨s.toStore, .persistEnd p none, [], []⟩
  | committed {p : Persist} {guid : Bytes} :
      Move cfg s i (.persistEnd p (some guid))
        ⟨s.setPeer p.obj ((s.peers p.obj).commit guid p.managedAuthorized s.now),
          .done (.persisted p true), [], [.completed p.owner p.origin p.id s.now]⟩
  | rolledBack {p : Persist} :
      Move cfg s i (.persistEnd p none)
        ⟨s.setPeer p.obj ((s.peers p.obj).rollback p.rollback), .done (.persisted p false), [],
          [.rolledBack p.owner p.id]⟩

theorem RegisterPk.refusal_ne_ok {rk : RegisterPk} {r : RegisterPkResult}
    (h : rk.refusal = some r) : r ≠ .ok := by
  rintro rfl
  unfold RegisterPk.refusal at h
  split at h
  · cases h
  · split at h <;> cases h

section

variable {cfg : Config} {s : State} {i : Nat} {ch : Choice} {out : Outcome}

private theorem move_of_allowIp {origin : Origin} {rk : RegisterPk}
    (h : stepTask cfg s i ch (.allowIp origin rk) = some out) :
    Move cfg s i (.allowIp origin rk) out := by
  simp only [stepTask] at h
  split at h
  · rename_i r hr
    cases h
    exact .refuse rfl (.refl _) fun he => RegisterPk.refusal_ne_ok hr (by cases he; rfl)
  · rename_i hrk
    split at h
    · cases h
      exact .refuse rfl ⟨rfl, rfl, rfl, rfl, rfl⟩ (by simp)
    split at h
    · rename_i hmode
      cases h
      exact .allowed hrk ⟨rfl, rfl, rfl, rfl, rfl⟩ hmode
    · rename_i hmode
      cases h
      exact .askApi hrk ⟨rfl, rfl, rfl, rfl, rfl⟩ (by simpa using hmode)

private theorem move_of_lookup {call : Call} {pc : Lookup}
    (h : stepTask cfg s i ch (.lookup call pc) = some out) :
    Move cfg s i (.lookup call pc) out := by
  simp only [stepTask, Option.some.injEq] at h
  subst h
  cases pc with
  | read =>
    simp only [stepLookup]
    split
    · rename_i o hget
      exact .hit hget
    · rename_i hget
      exact .miss hget
  | touch o => exact .touched
  | load =>
    simp only [stepLookup]
    split
    · split
      · rename_i hrow
        exact .loadAbsent hrow
      · rename_i row hrow
        split
        · exact .loadFailed
        · rename_i info hinfo
          exact .loaded hrow hinfo
    · exact .loadFailed
  | cacheRead f =>
    simp only [stepLookup]
    split
    · rename_i o hget
      exact .cached rfl hget
    · rename_i hget
      split
      · exact .toWrite hget
      · rename_i hfull
        exact .toEvict rfl hget (by omega)
  | cacheWrite f =>
    simp only [stepLookup]
    split
    · rename_i o hget
      exact .cached rfl hget
    · rename_i hget
      split
      · rename_i hroom
        exact .inserted rfl hget hroom
      · rename_i hfull
        exact .toEvict rfl hget (by omega)
  | cacheLast f =>
    simp only [stepLookup]
    split
    · rename_i o hget
      exact .cached rfl hget
    · rename_i hget
      split
      · rename_i hroom
        exact .inserted rfl hget hroom
      · rename_i hfull
        exact .noRoom hget (by omega)

private theorem move_of_stage {origin : Origin} {rk : RegisterPk} {managed : Bool} {o : Nat}
    (h : stepTask cfg s i ch (.stage origin rk managed o) = some out) :
    Move cfg s i (.stage origin rk managed o) out := by
  simp only [stepTask, stepStage, Option.some.injEq] at h
  split at h
  · cases h
    exact .refuse rfl (.refl _) (by simp)
  · cases h
    exact .refuse rfl (.refl _) (by simp)
  · cases h
    exact .refuse rfl (.refl _) (by simp)
  · rename_i p hstage
    split at h
    · rename_i hm
      subst hm
      cases h
      exact .stageSameManaged hstage
    · rename_i hm
      obtain rfl : managed = false := by simpa using hm
      cases h
      exact .stageSame hstage
  · rename_i p pending hstage
    cases h
    exact .stagePersist hstage

private theorem move_of_evict {caller : Evictor} {e : Evict}
    (h : stepTask cfg s i ch (.evict caller e) = some out) :
    Move cfg s i (.evict caller e) out := by
  simp only [stepTask] at h
  cases e with
  | snapshot =>
    simp only [stepEvict, Option.some.injEq] at h
    cases h
    exact .scan .snapshot
  | scan snap todo candidates =>
    cases todo with
    | nil =>
      simp only [stepEvict, Option.some.injEq] at h
      cases h
      exact .evicted
    | cons q todo =>
      simp only [stepEvict] at h
      by_cases hidle : inactive caller.idleSecs s.now (s.peers q.2) = true
      · simp only [hidle, if_true, Option.some.injEq] at h
        cases h
        exact .scan (.pick hidle)
      · simp only [hidle, Bool.false_eq_true, if_false, Option.some.injEq] at h
        cases h
        exact .scan .skip

/-- A step of the program is one of the moves. -/
theorem move_of_stepTask {t : Task} (h : stepTask cfg s i ch t = some out) :
    Move cfg s i t out := by
  cases t with
  | allowIp origin rk => exact move_of_allowIp h
  | verify origin rk =>
    simp only [stepTask] at h
    split at h
    · cases h
      exact .apiAgrees
    · cases h
      exact .refuse rfl (.refl _) (by simp)
    · cases h
      exact .refuse rfl (.refl _) (by simp)
  | lookup call pc => exact move_of_lookup h
  | stage origin rk managed o => exact move_of_stage h
  | unchanged origin rk o => cases h; exact .verifiedNow
  | join origin rk o ipChanged j =>
    simp only [stepTask] at h
    split at h
    · rename_i p hj
      have hout : out = ⟨s.toStore, if ipChanged then .recordIp origin rk o
          else .done (.registerPk origin rk (.ok .ok)), [], []⟩ := by
        cases ipChanged <;> cases h <;> rfl
      exact hout ▸ .joined hj
    · rename_i p hj
      cases h
      exact .joinedFailed hj
    · cases h
  | recordIp origin rk o => cases h; exact .recorded ⟨rfl, rfl, rfl, rfl, rfl⟩
  | beat origin rp o => cases h; exact .beaten
  | readPk id o => cases h; exact .signed
  | memRead id =>
    simp only [stepTask] at h
    split at h
    · rename_i o hget
      cases h
      exact .memHit hget
    · cases h
      exact .memMiss
  | memTouch id o => cases h; exact .memTouched
  | readAddr id o => cases h; exact .addrRead
  | hold id o online addr => cases h; exact .released
  | persistWrite p =>
    simp only [stepTask] at h
    split at h
    · rename_i db guid hdb
      cases h
      exact .written hdb
    · cases h
      exact .writeFailed
  | persistEnd p result =>
    cases result with
    | none => cases h; exact .rolledBack
    | some guid => cases h; exact .committed
  | evict caller e => exact move_of_evict h
  | done answer => cases h

/-! ## Events of a lookup -/

theorem mem_returnObject_events {store : Store} {call : Call} {viaGet : Bool} {o : Nat} {e : Event}
    (h : e ∈ (returnObject store call viaGet o).events) :
    e = .got call.id (some o) ∨ e = .gotOr call.id o := by
  cases call with
  | registerPk =>
    cases viaGet with
    | true => simpa [returnObject, Call.gotEvents, Call.id] using h
    | false => exact Or.inr (by simpa [returnObject, Call.gotEvents, Call.id] using h)
  | _ => exact Or.inl (List.mem_singleton.1 h)

theorem mem_returnNoRoom_events {store : Store} {call : Call} {f : Fresh} {e : Event}
    (h : e ∈ (returnNoRoom cfg store call f).events) :
    f.loaded = true ∧ e = .got call.id none := by
  unfold returnNoRoom at h
  dsimp only at h
  split at h
  · rename_i hloaded
    exact ⟨hloaded, List.mem_singleton.1 h⟩
  · cases h

end

/-! ## One action of the system -/

/-- The three kinds of action. -/
theorem step_cases {cfg : Config} {s s' : State} {a : Action} {evs : List Event}
    (h : step cfg s a = some (s', evs)) :
    (∃ d, a = .tick d ∧ s' = { s with now := s.now + d } ∧ evs = []) ∨
    (∃ r, a = .call r ∧ s' = { s with tasks := s.tasks ++ [r.start] } ∧ evs = []) ∨
    (∃ i ch t out, a = .run i ch ∧ s.tasks[i]? = some t ∧ stepTask cfg s i ch t = some out ∧
      Move cfg s i t out ∧ s' = s.after i out ∧ evs = out.events) := by
  cases a with
  | tick d =>
    cases h
    exact Or.inl ⟨d, rfl, rfl, rfl⟩
  | call r =>
    cases h
    exact Or.inr (Or.inl ⟨r, rfl, rfl, rfl⟩)
  | run i ch =>
    simp only [step] at h
    split at h
    · cases h
    · rename_i t ht
      split at h
      · cases h
      · rename_i out hout
        cases h
        exact Or.inr (Or.inr ⟨i, ch, t, out, rfl, ht, hout, move_of_stepTask hout, rfl, rfl⟩)

/-- The invariant rule for single tasks: what holds of every task at its start and
is kept by its moves holds of every task of a run.  It may look at the events so far
and at the number of the task. -/
theorem run_tasks {cfg : Config} {P : List Event → Nat → Task → Prop}
    (hmono : ∀ {tr i t} (evs : List Event), P tr i t → P (tr ++ evs) i t)
    (hstart : ∀ (tr : List Event) (i : Nat) (r : Request), P tr i r.start)
    (hmove : ∀ {tr s i t out}, Move cfg s i t out → P tr i t → P (tr ++ out.events) i out.task)
    (hspawned : ∀ {tr s i t out}, Move cfg s i t out → P tr i t → ∀ u ∈ out.spawned,
      ∀ j, P (tr ++ out.events) j u)
    {ok : List Event → State → Action → Prop} {now : Nat} {db : Database} {tr : List Event}
    {s : State} (h : Run (step cfg) ok (State.initial now db) tr s) {i : Nat} {t : Task}
    (hi : s.tasks[i]? = some t) : P tr i t := by
  refine h.inv (I := fun tr s => ∀ i t, s.tasks[i]? = some t → P tr i t) ?_ ?_ i t hi
  · intro i t hi
    cases hi
  · intro tr s a s' evs _ hP _ hs k u hk
    rcases step_cases hs with ⟨d, -, rfl, rfl⟩ | ⟨r, -, rfl, rfl⟩ |
      ⟨i, ch, t, out, -, hi, -, hm, rfl, rfl⟩
    · exact hmono _ (hP k u hk)
    · change (s.tasks ++ [r.start])[k]? = some u at hk
      rw [List.getElem?_append] at hk
      split at hk
      · exact hmono _ (hP k u hk)
      · cases List.mem_singleton.1 (List.mem_of_getElem? hk)
        exact hstart _ _ r
    · rcases getElem?_advance hk with ⟨rfl, rfl⟩ | ⟨-, hk⟩ | ⟨-, hk⟩
      · exact hmove hm (hP k t hi)
      · exact hmono _ (hP k u hk)
      · exact hspawned hm (hP i t hi) u (List.mem_of_getElem? hk) k

end RemoteServer.PeerStore
