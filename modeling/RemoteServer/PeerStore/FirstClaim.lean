import RemoteServer.PeerStore.Exclusive

/-!
# The first claim wins

Without a management API an id belongs to whoever registers it first.  The claim
is held in three places: in the cached peer, in the row, and in what tasks are
about to write.  The row is the one that counts.  In unmanaged mode a row keeps
its `uuid` and its `guid` for ever (`Effect.rows_kept`), every answer `OK` was
given for the `uuid` of the row, and a peer that could take another claim has no
row behind it that the claim could replace: an insert of a second row fails on
the unique index of `id`.

So no assumption about evictions, about the room in the cache or about stale
loads is needed.  `firstClaim_wins` holds in every run.
-/

namespace RemoteServer.PeerStore

open RustStd Lts

/-- The row of the id exists and has the `uuid`. -/
def Recorded (v : View) (id : PeerId) (uuid : Bytes) : Prop :=
  ∃ row, v.db.getPeer id = some row ∧ row.uuid = uuid

/-- An identity in memory is unclaimed or that of the row. -/
def Bound (v : View) (id : PeerId) (guid uuid : Bytes) : Prop :=
  (uuid = [] ∧ guid = []) ∨ ∃ row, v.db.getPeer id = some row ∧ row.uuid = uuid ∧ row.guid = guid

/-- A persistence that has not reached the table: the peer shows the staged
`uuid`, and what a rollback puts back is bound. -/
structure Persist.Claims (p : Persist) (v : View) : Prop where
  peer : ∃ peer, v.cached p.id = some peer ∧ peer.guid = p.guid ∧ peer.uuid = p.uuid
  bound : Bound v p.id p.guid p.rollback.uuid
  same : p.rollback.uuid = [] ∨ p.rollback.uuid = p.uuid

def Cargo.Claims (v : View) : Cargo → Prop
  | .fresh id f => Bound v id f.peer.guid f.peer.uuid
  | .write p => p.Claims v
  | .ended p none => p.Claims v
  | .ended p (some guid) =>
    (∃ peer, v.cached p.id = some peer ∧ peer.uuid = p.uuid) ∧
      ∃ row, v.db.getPeer p.id = some row ∧ row.uuid = p.uuid ∧ row.guid = guid
  | .stored p => Recorded v p.id p.uuid
  | .accepted rk => Recorded v rk.id rk.uuid

/-- Every claim is the one of the row. -/
structure FirstClaim (r : Registry) : Prop where
  claimed : r.db.Claimed
  peer : ∀ {id p}, r.cached id = some p → p.persistenceInProgress = false →
    Bound r.toView id p.guid p.uuid
  cargo : ∀ {c}, some c ∈ r.cargos → c.Claims r.toView

/-- Rows stay, with their `uuid` and their `guid`. -/
def RowsKept (v v' : View) : Prop :=
  ∀ id row, v.db.getPeer id = some row →
    ∃ row', v'.db.getPeer id = some row' ∧ row'.uuid = row.uuid ∧ row'.guid = row.guid

theorem RowsKept.of_db_eq {v v' : View} (h : v'.db = v.db) : RowsKept v v' := by
  intro id row hrow
  exact ⟨row, h ▸ hrow, rfl, rfl⟩

theorem Recorded.kept {v v' : View} {id : PeerId} {uuid : Bytes} (h : Recorded v id uuid)
    (hrows : RowsKept v v') : Recorded v' id uuid := by
  obtain ⟨row, hrow, rfl⟩ := h
  obtain ⟨row', hrow', huuid, -⟩ := hrows _ _ hrow
  exact ⟨row', hrow', huuid⟩

theorem Bound.kept {v v' : View} {id : PeerId} {guid uuid : Bytes} (h : Bound v id guid uuid)
    (hrows : RowsKept v v') : Bound v' id guid uuid := by
  rcases h with hnil | ⟨row, hrow, rfl, rfl⟩
  · exact Or.inl hnil
  · obtain ⟨row', hrow', huuid, hguid⟩ := hrows _ _ hrow
    exact Or.inr ⟨row', hrow', huuid, hguid⟩

/-- A bound identity with a `uuid` is recorded. -/
theorem Bound.recorded {v : View} {id : PeerId} {guid uuid : Bytes} (h : Bound v id guid uuid)
    (hne : uuid ≠ []) : Recorded v id uuid := by
  rcases h with ⟨hnil, -⟩ | ⟨row, hrow, huuid, -⟩
  · exact absurd hnil hne
  · exact ⟨row, hrow, huuid⟩

/-- A claim outlives a step that keeps the rows, and the identity of the peer
while its persistence is open. -/
theorem Cargo.Claims.kept {v v' : View} {x : Cargo} (hx : x.Claims v) (hrows : RowsKept v v')
    (hpeer : ∀ p peer, x.pending = some p → v.cached p.id = some peer →
      ∃ peer', v'.cached p.id = some peer' ∧ peer'.identity = peer.identity) : x.Claims v' := by
  have hopen : ∀ {p : Persist}, x.pending = some p → p.Claims v → p.Claims v' := by
    intro p hp hclaims
    obtain ⟨peer, hcached, hguid, huuid⟩ := hclaims.peer
    obtain ⟨peer', hcached', hid⟩ := hpeer p peer hp hcached
    exact ⟨⟨peer', hcached', (congrArg Peer.Identity.guid hid).trans hguid,
      (congrArg Peer.Identity.uuid hid).trans huuid⟩, hclaims.bound.kept hrows, hclaims.same⟩
  cases x with
  | fresh id f => exact Bound.kept hx hrows
  | write p => exact hopen rfl hx
  | ended p result =>
    cases result with
    | none => exact hopen rfl hx
    | some guid =>
      obtain ⟨⟨peer, hcached, huuid⟩, row, hrow, hrowuuid, hrowguid⟩ := hx
      obtain ⟨peer', hcached', hid⟩ := hpeer p peer rfl hcached
      obtain ⟨row', hrow', hu, hg⟩ := hrows _ _ hrow
      exact ⟨⟨peer', hcached', (congrArg Peer.Identity.uuid hid).trans huuid⟩, row', hrow',
        hu.trans hrowuuid, hg.trans hrowguid⟩
  | stored p => exact Recorded.kept hx hrows
  | accepted rk => exact Recorded.kept hx hrows

/-! ## One step -/

section Step

variable {cfg : Config} {r : Registry} {i : Nat} {c c' : Option Cargo} {v : View}
  {spawned : List Persist} {evs : List Event}

/-- What the statement of a persistence does to the row of its id. -/
theorem FirstClaim.write (hf : FirstClaim r) {p : Persist} (hp : p.Claims r.toView)
    {db : Database} {guid : Bytes} {ch : Choice}
    (hdb : persistStatement r.db ch p = some (db, guid)) :
    db.getPeer p.id = some ⟨guid, p.id, p.uuid, p.pk, p.info⟩ ∧
      RowsKept r.toView ⟨r.cached, db⟩ := by
  have hguid : p.guid = [] ∨ ∃ row, r.db.getPeer p.id = some row ∧ row.guid = p.guid := by
    rcases hp.bound with ⟨-, hnil⟩ | ⟨row, hrow, -, hg⟩
    · exact Or.inl hnil
    · exact Or.inr ⟨row, hrow, hg⟩
  obtain ⟨hrow', hcases, hother⟩ := persistStatement_eq_some hguid hdb
  refine ⟨hrow', fun id row hrow => ?_⟩
  by_cases hid : id = p.id
  · subst hid
    rcases hcases with ⟨-, hnone⟩ | ⟨hne, rfl, row₁, hrow₁, hg⟩
    · rw [hnone] at hrow
      cases hrow
    · rw [hrow] at hrow₁
      cases hrow₁
      refine ⟨_, hrow', ?_, hg.symm⟩
      -- the row has the `uuid` that the peer had before, and staging kept it
      rcases hp.bound with ⟨-, hnil⟩ | ⟨row₂, hrow₂, huuid, -⟩
      · exact absurd hnil hne
      · rw [hrow] at hrow₂
        cases hrow₂
        rcases hp.same with hnil | hsame
        · exact absurd (huuid.trans hnil) (hf.claimed.uuid_ne_nil hrow)
        · exact (huuid.trans hsame).symm
  · exact ⟨row, (hother id hid).trans hrow, rfl, rfl⟩

theorem Effect.rows_kept (h : Effect cfg r i c v c' spawned evs) (hf : FirstClaim r)
    (hi : r.cargos[i]? = some c) : RowsKept r.toView v := by
  cases h with
  | evict hdb => exact .of_db_eq hdb
  | write hdb => exact (hf.write (hf.cargo (List.mem_of_getElem? hi)) hdb).2
  | _ => exact .of_db_eq rfl

/-- The tasks that do not move keep their claims. -/
theorem Effect.claims_kept (h : Effect cfg r i c v c' spawned evs) (he : Exclusive r)
    (hf : FirstClaim r) (hi : r.cargos[i]? = some c) {j : Nat} {x : Cargo} (hne : j ≠ i)
    (hj : r.cargos[j]? = some (some x)) : x.Claims v :=
  (hf.cargo (List.mem_of_getElem? hj)).kept (h.rows_kept hf hi) fun _ _ hp hcached =>
    h.identity_kept he hi hne hj hp hcached

/-- A bound peer put into the cache keeps the peers bound. -/
theorem FirstClaim.peer_put (hf : FirstClaim r) {id : PeerId} {p' : Peer}
    (hp' : p'.persistenceInProgress = false → Bound r.toView id p'.guid p'.uuid) {id' : PeerId}
    {q : Peer} (hq : (r.set id p').cached id' = some q)
    (hqbusy : q.persistenceInProgress = false) : Bound r.toView id' q.guid q.uuid := by
  rcases View.cached_set_cases hq with ⟨rfl, rfl⟩ | ⟨-, hq⟩
  · exact hp' hqbusy
  · exact hf.peer hq hqbusy

/-- A write that keeps `guid`, `uuid` and the flag of a cached peer keeps the
peers bound. -/
theorem FirstClaim.peer_set (hf : FirstClaim r) {id : PeerId} {p p' : Peer}
    (hp : r.cached id = some p) (hid : p'.identity = p.identity)
    (hbusy : p'.persistenceInProgress = p.persistenceInProgress) {id' : PeerId} {q : Peer}
    (hq : (r.set id p').cached id' = some q) (hqbusy : q.persistenceInProgress = false) :
    Bound r.toView id' q.guid q.uuid := by
  refine hf.peer_put (fun hfree => ?_) hq hqbusy
  have hguid : p'.guid = p.guid := congrArg Peer.Identity.guid hid
  have huuid : p'.uuid = p.uuid := congrArg Peer.Identity.uuid hid
  rw [hguid, huuid]
  exact hf.peer hp (hbusy ▸ hfree)

/-- The peers stay bound. -/
theorem Effect.bound (h : Effect cfg r i c v c' spawned evs) (hf : FirstClaim r)
    (hi : r.cargos[i]? = some c) {id : PeerId} {q : Peer} (hq : v.cached id = some q)
    (hbusy : q.persistenceInProgress = false) : Bound v id q.guid q.uuid := by
  have hrows := h.rows_kept hf hi
  refine Bound.kept (v := r.toView) ?_ hrows
  have hc := List.mem_of_getElem? hi
  cases h with
  | insert => exact hf.peer_put (fun _ => hf.cargo hc) hq hbusy
  | evict _ hsub =>
    rcases hsub id with hsame | hgone
    · exact hf.peer (hsame ▸ hq) hbusy
    · rw [hgone] at hq
      cases hq
  | edit hp hedit => exact hf.peer_set hp hedit.identity_eq hedit.persistenceInProgress_eq hq hbusy
  | acceptSame hp => exact hf.peer_set hp (by rfl) (by rfl) hq hbusy
  | acceptVerified hp => exact hf.peer_set hp (by rfl) (by rfl) hq hbusy
  | stage _ _ hstage =>
    obtain ⟨-, -, -, -, -, regPk, rfl⟩ := stage_persist hstage
    exact hf.peer_put (fun h => by cases h) hq hbusy
  | commit hp =>
    obtain ⟨⟨peer', hcached, huuid⟩, row, hrow, hrowuuid, hrowguid⟩ := hf.cargo hc
    rw [hp] at hcached
    cases hcached
    refine hf.peer_put (fun _ => ?_) hq hbusy
    exact Or.inr ⟨row, hrow, hrowuuid.trans huuid.symm, hrowguid⟩
  | rollback hp =>
    have hclaims : Persist.Claims _ r.toView := hf.cargo hc
    obtain ⟨peer', hcached, hguid, -⟩ := hclaims.peer
    rw [hp] at hcached
    cases hcached
    refine hf.peer_put (fun _ => ?_) hq hbusy
    exact hguid ▸ hclaims.bound
  | _ => exact hf.peer hq hbusy

/-- The task that moves claims what the row says. -/
theorem Effect.claims (h : Effect cfg r i c v c' spawned evs)
    (hmode : cfg.allowUnmanagedDevices = true) (hf : FirstClaim r)
    (hi : r.cargos[i]? = some c) {x : Cargo} (hx : c' = some x) : x.Claims v := by
  have hrows := h.rows_kept hf hi
  have hc := List.mem_of_getElem? hi
  cases h with
  | idle =>
    subst hx
    exact hf.cargo hc
  | load hrow =>
    cases hx
    exact Or.inr ⟨_, hrow, rfl, rfl⟩
  | absent =>
    cases hx
    exact Or.inl ⟨rfl, rfl⟩
  | noRoom =>
    cases hx
    exact Or.inl ⟨rfl, rfl⟩
  | evict _ _ hkeep =>
    subst hx
    exact (hf.cargo hc).kept hrows fun p peer hp hcached =>
      ⟨peer, (hkeep _ hc p hp).trans hcached, rfl⟩
  | acceptSame hp hbusy huuid hne =>
    cases hx
    exact (huuid ▸ (hf.peer hp hbusy).recorded (huuid ▸ hne)).kept hrows
  | acceptVerified _ hmanaged =>
    rw [hmode] at hmanaged
    cases hmanaged
  | acceptStored hstored hid huuid =>
    cases hx
    have hrec : Recorded r.toView _ _ := hf.cargo hstored
    rw [hid, huuid] at hrec
    exact hrec
  | write hdb =>
    cases hx
    have hclaims : Persist.Claims _ r.toView := hf.cargo hc
    obtain ⟨peer, hcached, -, huuid⟩ := hclaims.peer
    exact ⟨⟨peer, hcached, huuid⟩, _, (hf.write hclaims hdb).1, rfl, rfl⟩
  | writeFailed =>
    cases hx
    have hclaims : Persist.Claims _ r.toView := hf.cargo hc
    exact hclaims
  | commit =>
    cases hx
    obtain ⟨-, row, hrow, huuid, -⟩ := hf.cargo hc
    exact ⟨row, hrow, huuid⟩
  | _ => cases hx

/-- A staged claim is that of the peer, unless the peer was unclaimed. -/
theorem Effect.claims_spawned (h : Effect cfg r i c v c' spawned evs)
    (hmode : cfg.allowUnmanagedDevices = true) (hf : FirstClaim r) {q : Persist}
    (hq : q ∈ spawned) : q.Claims v := by
  cases h with
  | stage hp hauth hstage =>
    obtain ⟨hbusy, hacc, hguid, hrollback, -, regPk, rfl⟩ := stage_persist hstage
    cases List.mem_singleton.1 hq
    have hbound := hf.peer hp hbusy
    refine ⟨?_, ?_, ?_⟩
    · exact ⟨_, View.cached_set_self _ _ _, hguid.symm, rfl⟩
    · dsimp only
      rw [hguid, hrollback]
      exact hbound
    · dsimp only
      rw [hrollback]
      rcases hacc with hnil | hmanaged | hsame
      · exact Or.inl hnil
      · rw [hauth.managed_eq, hmode] at hmanaged
        cases hmanaged
      · exact Or.inr hsame
  | _ => cases hq

end Step

/-! ## Runs -/

theorem step_firstClaim {cfg : Config} (hmode : cfg.allowUnmanagedDevices = true)
    {r r' : Registry} {evs : List Event} (he : Exclusive r) (hf : FirstClaim r)
    (h : r.Step cfg evs r') : FirstClaim r' := by
  cases h with
  | tick d => exact ⟨hf.claimed, hf.peer, hf.cargo⟩
  | call =>
    refine ⟨hf.claimed, hf.peer, fun hmem => ?_⟩
    rcases List.mem_append.1 hmem with hmem | hmem
    · exact hf.cargo hmem
    · cases List.mem_singleton.1 hmem
  | move hi heff =>
    refine ⟨heff.claimed he hi hf.claimed, fun hq hbusy => heff.bound hf hi hq hbusy, fun hmem => ?_⟩
    rcases mem_advance hmem with hc | hmem | ⟨j, hne, hj⟩
    · exact heff.claims hmode hf hi hc.symm
    · obtain ⟨q, hq, hcargo⟩ := List.mem_map.1 hmem
      cases hcargo
      exact heff.claims_spawned hmode hf hq
    · exact heff.claims_kept he hf hi hne hj

theorem run_firstClaim {cfg : Config} (hmode : cfg.allowUnmanagedDevices = true)
    {ok : List Event → State → Action → Prop} {now : Nat} {db : Database} (hdb : db.Claimed)
    {tr : List Event} {s : State} (h : Run (step cfg) ok (State.initial now db) tr s) :
    FirstClaim (s.registry cfg) := by
  have hboth : Exclusive (s.registry cfg) ∧ FirstClaim (s.registry cfg) :=
    run_registry (G := fun _ _ => True) (J := fun _ r => Exclusive r ∧ FirstClaim r)
      ⟨exclusive_initial cfg now db, hdb, nofun, fun hmem => absurd hmem List.not_mem_nil⟩
      (fun _ _ _ => trivial)
      (fun hef _ hs => ⟨step_exclusive hef.1 hs, step_firstClaim hmode hef.1 hef.2 hs⟩) h
  exact hboth.2

/-- An answer `OK` was given for the `uuid` of the row. -/
theorem FirstClaim.recorded_of_done {cfg : Config} {s : State} (hf : FirstClaim (s.registry cfg))
    {origin : Origin} {rk : RegisterPk}
    (h : Task.done (.registerPk origin rk (.ok .ok)) ∈ s.tasks) :
    Recorded s.view rk.id rk.uuid :=
  hf.cargo (List.mem_map.2 ⟨_, h, rfl⟩)

/-- In unmanaged mode all answers `OK` for one id carry the same `uuid`, in every
run and under every interleaving.  The table at the start is one that this server
wrote: it has no row with an empty `uuid`. -/
theorem firstClaim_wins {cfg : Config} (hmode : cfg.allowUnmanagedDevices = true) {now : Nat}
    {db : Database} (hdb : db.Claimed) {tr : List Event} {s : State}
    (h : Run (step cfg) anything (State.initial now db) tr s) {origin₁ origin₂ : Origin}
    {rk₁ rk₂ : RegisterPk} (h₁ : Task.done (.registerPk origin₁ rk₁ (.ok .ok)) ∈ s.tasks)
    (h₂ : Task.done (.registerPk origin₂ rk₂ (.ok .ok)) ∈ s.tasks) (hid : rk₁.id = rk₂.id) :
    rk₁.uuid = rk₂.uuid := by
  have hf := run_firstClaim hmode hdb h
  obtain ⟨row₁, hrow₁, huuid₁⟩ := hf.recorded_of_done h₁
  obtain ⟨row₂, hrow₂, huuid₂⟩ := hf.recorded_of_done h₂
  rw [hid, hrow₂] at hrow₁
  cases hrow₁
  exact huuid₁.symm.trans huuid₂

/-- A first registration and a change of the key, one after the other. -/
private def registerTwice : List Action :=
  .call (.registerPk (sampleOrigin 0) (sampleRequest 1 2)) :: runs 0 6 ++ runs 1 2 ++ runs 0 1 ++
    .call (.registerPk (sampleOrigin 1) (sampleRequest 1 3)) :: runs 2 4 ++ runs 3 2 ++ runs 2 1

theorem firstClaim_wins_newKey :
    ∃ (s : State) (tr : List Event),
      Run (step (sampleConfig true)) anything (State.initial sampleStart .empty) tr s ∧
      Task.done (.registerPk (sampleOrigin 0) (sampleRequest 1 2) (.ok .ok)) ∈ s.tasks ∧
      Task.done (.registerPk (sampleOrigin 1) (sampleRequest 1 3) (.ok .ok)) ∈ s.tasks ∧
      (sampleRequest 1 2).uuid = (sampleRequest 1 3).uuid := by
  obtain ⟨s, tr, hrun, htasks⟩ := exists_run_of_exec (step (sampleConfig true))
    (State.initial sampleStart .empty) registerTwice
    (fun x =>
      (decide (Task.done (.registerPk (sampleOrigin 0) (sampleRequest 1 2) (.ok .ok)) ∈ x.1.tasks),
        decide (Task.done (.registerPk (sampleOrigin 1) (sampleRequest 1 3) (.ok .ok)) ∈ x.1.tasks)))
    (b := (true, true)) (by decide +kernel)
  obtain ⟨h₁, h₂⟩ := Prod.ext_iff.1 htasks
  refine ⟨s, tr, hrun, of_decide_eq_true h₁, of_decide_eq_true h₂, ?_⟩
  exact firstClaim_wins rfl Database.claimed_empty hrun (of_decide_eq_true h₁)
    (of_decide_eq_true h₂) rfl

end RemoteServer.PeerStore
