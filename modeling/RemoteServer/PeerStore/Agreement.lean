import RemoteServer.PeerStore.Exclusive

/-!
# Memory and table

A peer in the cache stands for the row of its id.  How much of the row it has to
show depends on the question, so a `Criterion` is a parameter here: a relation
between the row of an id and the identity in memory, and whether a blank peer has
to mean that there is no row (`strict`).  It may ask more of one id than of others.

`Agreement` says that every cached peer outside a persistence meets the
criterion, and what the tasks carry so that this stays true.  Two things can
break it, and `Orderly` is a step at which neither happens.

* An eviction between the database read of a lookup and its insertion lets the
  lookup insert what it read long ago.  A criterion that does not look at more
  than the `guid` of the row (`stable`) does not mind an old row.
* A lookup that read a row and finds no room in the cache answers as if there
  were no row, and `get_or` goes on with a blank peer.

`step_agreement` is the step lemma.
-/

namespace RemoteServer.PeerStore

open RustStd Lts

/-- What a peer in memory has to do with the row of its id. -/
structure Criterion (cfg : Config) where
  rel : PeerId → Row → Peer.Identity → Prop
  /-- A blank peer has no row. -/
  strict : PeerId → Bool
  /-- Of the row only the `guid` matters. -/
  stable : PeerId → Bool
  /-- Rows have a `uuid`. -/
  claimed : Bool
  guid_eq : ∀ {id row x}, rel id row x → row.guid = x.guid
  of_row : ∀ {id row info}, (claimed = true → row.uuid ≠ []) →
    cfg.infoCodec.decode row.info = some info → rel id row ⟨row.guid, row.uuid, row.pk, info⟩
  of_guid : ∀ {id row row' x}, stable id = true → rel id row x → row'.guid = row.guid →
    rel id row' x

section Definitions

variable {cfg : Config} (k : Criterion cfg) (v : View)

/-- There is a row, and the identity meets the criterion with it. -/
def Criterion.Related (id : PeerId) (x : Peer.Identity) : Prop :=
  ∃ row, v.db.getPeer id = some row ∧ k.rel id row x

def Criterion.Holds (id : PeerId) (x : Peer.Identity) : Prop :=
  x.Blank ∧ (k.strict id = true → v.db.getPeer id = none) ∨ k.Related v id x

/-- The identity that a failed persistence leaves. -/
def Persist.rolledBack (p : Persist) : Peer.Identity :=
  ⟨p.guid, p.rollback.uuid, p.rollback.pk, p.rollback.info⟩

/-- The cached peer shows the staged identity. -/
def Persist.Shown (cfg : Config) (p : Persist) : Prop :=
  ∃ info peer, cfg.infoCodec.decode p.info = some info ∧ v.cached p.id = some peer ∧
    peer.identity = ⟨p.guid, p.uuid, p.pk, info⟩

/-- An offered peer comes from the row, or is blank and there is no row.  While
the id is cached the offer will be declined and may be out of date. -/
structure Fresh.Agrees (id : PeerId) (f : Fresh) : Prop where
  loaded : f.loaded = true → v.cached id = none ∨ k.stable id = true →
    k.Related v id f.peer.identity
  blank : f.loaded = false → f.peer.identity.Blank
  absent : f.loaded = false → v.cached id = none → k.strict id = true → v.db.getPeer id = none

def Cargo.Agrees : Cargo → Prop
  | .fresh id f => f.Agrees k v id
  | .write p => p.Shown v cfg ∧ k.Holds v p.id p.rolledBack
  | .ended p none => p.Shown v cfg ∧ k.Holds v p.id p.rolledBack
  | .ended p (some guid) =>
    p.Shown v cfg ∧ v.db.getPeer p.id = some ⟨guid, p.id, p.uuid, p.pk, p.info⟩
  | .stored _ => True
  | .accepted _ => True

end Definitions

/-- Every peer outside a persistence meets the criterion. -/
structure Agreement {cfg : Config} (k : Criterion cfg) (r : Registry) : Prop where
  claimed : k.claimed = true → r.db.Claimed
  peer : ∀ {id p}, r.cached id = some p → p.persistenceInProgress = false →
    k.Holds r.toView id p.identity
  cargo : ∀ {c}, some c ∈ r.cargos → c.Agrees k r.toView

/-- An offered peer that may survive an eviction of its id. -/
def Criterion.Tolerates {cfg : Config} (k : Criterion cfg) (id : PeerId) (f : Fresh) : Prop :=
  if f.loaded then k.stable id = true else k.strict id = false

/-- A step that removes no id while it is looked up, and that takes no loaded
peer for an absent one. -/
structure Orderly {cfg : Config} (k : Criterion cfg) (r r' : Registry) : Prop where
  evict : ∀ {id f}, r.cached id ≠ none → r'.cached id = none → some (.fresh id f) ∈ r.cargos →
    k.Tolerates id f
  room : ∀ {i : Nat} {id : PeerId} {f f' : Fresh}, k.strict id = true →
    r.cargos[i]? = some (some (.fresh id f)) → r'.cargos[i]? = some (some (.fresh id f')) →
    f.loaded = true → f'.loaded = true

/-! ## Rows -/

section Step

variable {cfg : Config} {k : Criterion cfg} {r : Registry} {i : Nat} {c c' : Option Cargo}
  {v : View} {spawned : List Persist} {evs : List Event}

/-- The `guid` of a staged identity is that of the row of its id. -/
theorem Criterion.Holds.guid {id : PeerId} {x : Peer.Identity} (h : k.Holds v id x) :
    x.guid = [] ∨ ∃ row, v.db.getPeer id = some row ∧ row.guid = x.guid := by
  rcases h with ⟨hblank, -⟩ | ⟨row, hrow, hrel⟩
  · exact Or.inl hblank.guid
  · exact Or.inr ⟨row, hrow, k.guid_eq hrel⟩

/-- What the statement of a persistence does to the rows. -/
theorem Agreement.write (ha : Agreement k r) {p : Persist} (hc : some (.write p) ∈ r.cargos)
    {db : Database} {guid : Bytes} {ch : Choice}
    (hdb : persistStatement r.db ch p = some (db, guid)) :
    db.getPeer p.id = some ⟨guid, p.id, p.uuid, p.pk, p.info⟩ ∧
      (∀ {row}, r.db.getPeer p.id = some row → row.guid = guid) ∧
      ∀ id, id ≠ p.id → db.getPeer id = r.db.getPeer id := by
  obtain ⟨-, hholds⟩ : p.Shown r.toView cfg ∧ k.Holds r.toView p.id p.rolledBack := ha.cargo hc
  obtain ⟨hrow, hcases, hother⟩ := persistStatement_eq_some hholds.guid hdb
  refine ⟨hrow, fun {row} hold => ?_, hother⟩
  rcases hcases with ⟨-, hnone⟩ | ⟨-, rfl, row', hrow', hguid⟩
  · rw [hnone] at hold
    cases hold
  · rw [hold] at hrow'
    cases hrow'
    exact hguid

/-- Only the persistence of an id changes its row. -/
theorem Effect.row_eq (h : Effect cfg r i c v c' spawned evs) (ha : Agreement k r)
    (hi : r.cargos[i]? = some c) {id : PeerId} (hid : ∀ p, c = some (.write p) → p.id ≠ id) :
    v.db.getPeer id = r.db.getPeer id := by
  cases h with
  | evict hdb => rw [hdb]
  | write hdb =>
    exact (ha.write (List.mem_of_getElem? hi) hdb).2.2 id fun he => hid _ rfl he.symm
  | _ => rfl

/-- A row is not written while its id is not cached or its peer has no flag. -/
theorem Effect.row_eq_of_idle (h : Effect cfg r i c v c' spawned evs) (he : Exclusive r)
    (ha : Agreement k r) (hi : r.cargos[i]? = some c) {id : PeerId} (hidle : r.busy id = false) :
    v.db.getPeer id = r.db.getPeer id := by
  refine h.row_eq ha hi fun p hp hid => ?_
  subst hp
  rw [← hid, he.busy_of_opens hi (opens_of_pending rfl)] at hidle
  cases hidle

/-- A row stays, with its `guid`. -/
theorem Effect.guid_kept (h : Effect cfg r i c v c' spawned evs) (ha : Agreement k r)
    (hi : r.cargos[i]? = some c) {id : PeerId} {row : Row} (hrow : r.db.getPeer id = some row) :
    ∃ row', v.db.getPeer id = some row' ∧ row'.guid = row.guid := by
  cases h with
  | evict hdb => exact ⟨row, hdb ▸ hrow, rfl⟩
  | @write p _ _ _ hdb =>
    obtain ⟨hnew, hguid, hother⟩ := ha.write (List.mem_of_getElem? hi) hdb
    by_cases hid : id = p.id
    · subst hid
      exact ⟨_, hnew, (hguid hrow).symm⟩
    · exact ⟨row, (hother id hid).trans hrow, rfl⟩
  | _ => exact ⟨row, hrow, rfl⟩

/-! ## Peers -/

/-- A peer that meets the criterion is put into the cache. -/
theorem Agreement.peer_put (ha : Agreement k r) {id : PeerId} {p' : Peer}
    (hp' : p'.persistenceInProgress = false → k.Holds r.toView id p'.identity) {id' : PeerId}
    {q : Peer} (hq : (r.set id p').cached id' = some q)
    (hqbusy : q.persistenceInProgress = false) : k.Holds r.toView id' q.identity := by
  rcases View.cached_set_cases hq with ⟨rfl, rfl⟩ | ⟨-, hq⟩
  · exact hp' hqbusy
  · exact ha.peer hq hqbusy

/-- A write that keeps the identity and the flag of a cached peer. -/
theorem Agreement.peer_set (ha : Agreement k r) {id : PeerId} {p p' : Peer}
    (hp : r.cached id = some p) (hid : p'.identity = p.identity)
    (hbusy : p'.persistenceInProgress = p.persistenceInProgress) {id' : PeerId} {q : Peer}
    (hq : (r.set id p').cached id' = some q) (hqbusy : q.persistenceInProgress = false) :
    k.Holds r.toView id' q.identity := by
  refine ha.peer_put (fun hfree => ?_) hq hqbusy
  rw [hid]
  exact ha.peer hp (hbusy ▸ hfree)

/-- An offered peer may be inserted while its id is not cached. -/
theorem Fresh.Agrees.holds {id : PeerId} {f : Fresh} (h : f.Agrees k v id)
    (hcached : v.cached id = none) : k.Holds v id f.peer.identity := by
  cases hloaded : f.loaded with
  | true => exact Or.inr (h.loaded hloaded (Or.inl hcached))
  | false => exact Or.inl ⟨h.blank hloaded, h.absent hloaded hcached⟩

/-- A stored identity is that of its row. -/
theorem Agreement.of_stored (ha : Agreement k r) (he : Exclusive r) {p : Persist} {guid : Bytes}
    (hc : some (.ended p (some guid)) ∈ r.cargos) {peer : Peer} (hp : r.cached p.id = some peer)
    {managed : Bool} {now : Nat} :
    k.Related r.toView p.id (peer.commit guid managed now).identity := by
  obtain ⟨⟨info, peer', hinfo, hcached, hid⟩, hrow⟩ := ha.cargo hc
  rw [hp] at hcached
  cases hcached
  have hshown : (peer.commit guid managed now).identity = ⟨guid, p.uuid, p.pk, info⟩ := by
    have huuid : peer.uuid = p.uuid := congrArg Peer.Identity.uuid hid
    have hpk : peer.pk = p.pk := congrArg Peer.Identity.pk hid
    have hinfo : peer.info = info := congrArg Peer.Identity.info hid
    change (⟨guid, peer.uuid, peer.pk, peer.info⟩ : Peer.Identity) = _
    rw [huuid, hpk, hinfo]
  rw [hshown]
  exact ⟨_, hrow, k.of_row (fun _ => he.named hc rfl) hinfo⟩

/-- A peer after a rollback is the one before the staging. -/
theorem Agreement.of_failed (ha : Agreement k r) {p : Persist}
    (hc : some (.ended p none) ∈ r.cargos) {peer : Peer} (hp : r.cached p.id = some peer) :
    k.Holds r.toView p.id (peer.rollback p.rollback).identity := by
  obtain ⟨⟨info, peer', -, hcached, hid⟩, hholds⟩ := ha.cargo hc
  rw [hp] at hcached
  cases hcached
  have hguid : peer.guid = p.guid := congrArg Peer.Identity.guid hid
  have hback : (peer.rollback p.rollback).identity = p.rolledBack := by
    change (⟨peer.guid, _, _, _⟩ : Peer.Identity) = _
    rw [hguid]
    rfl
  rw [hback]
  exact hholds

/-- The peers meet the criterion as far as the old rows are concerned. -/
theorem Effect.holds (h : Effect cfg r i c v c' spawned evs) (he : Exclusive r)
    (ha : Agreement k r) (hi : r.cargos[i]? = some c) {id : PeerId} {q : Peer}
    (hq : v.cached id = some q) (hbusy : q.persistenceInProgress = false) :
    k.Holds r.toView id q.identity := by
  have hc := List.mem_of_getElem? hi
  cases h with
  | insert hcached =>
    have hfresh : Fresh.Agrees k r.toView _ _ := ha.cargo hc
    exact ha.peer_put (fun _ => hfresh.holds hcached) hq hbusy
  | evict _ hsub =>
    rcases hsub id with hsame | hgone
    · exact ha.peer (hsame ▸ hq) hbusy
    · rw [hgone] at hq
      cases hq
  | edit hp hedit => exact ha.peer_set hp hedit.identity_eq hedit.persistenceInProgress_eq hq hbusy
  | acceptSame hp => exact ha.peer_set hp (by rfl) (by rfl) hq hbusy
  | acceptVerified hp => exact ha.peer_set hp (by rfl) (by rfl) hq hbusy
  | stage _ _ hstage =>
    obtain ⟨-, -, -, -, -, regPk, rfl⟩ := stage_persist hstage
    exact ha.peer_put (fun h => by cases h) hq hbusy
  | commit hp => exact ha.peer_put (fun _ => Or.inr (ha.of_stored he hc hp)) hq hbusy
  | rollback hp => exact ha.peer_put (fun _ => ha.of_failed hc hp) hq hbusy
  | _ => exact ha.peer hq hbusy

theorem Criterion.Holds.of_row_eq {v' : View} {id : PeerId} {x : Peer.Identity}
    (h : k.Holds v id x) (hrow : v'.db.getPeer id = v.db.getPeer id) : k.Holds v' id x := by
  unfold Criterion.Holds Criterion.Related
  rw [hrow]
  exact h

/-- A database call leaves the cache alone. -/
theorem Effect.cached_of_write {p : Persist}
    (h : Effect cfg r i (some (.write p)) v c' spawned evs) {id : PeerId} {q : Peer}
    (hq : v.cached id = some q) : r.cached id = some q := by
  cases h with
  | idle => exact hq
  | write => exact hq
  | writeFailed => exact hq
  | evict _ hsub =>
    rcases hsub id with hsame | hgone
    · exact hsame ▸ hq
    · rw [hgone] at hq
      cases hq

/-- The peers outside a persistence keep to the rows. -/
theorem Effect.agrees_peer (h : Effect cfg r i c v c' spawned evs) (he : Exclusive r)
    (ha : Agreement k r) (hi : r.cargos[i]? = some c) {id : PeerId} {q : Peer}
    (hq : v.cached id = some q) (hbusy : q.persistenceInProgress = false) :
    k.Holds v id q.identity := by
  refine (h.holds he ha hi hq hbusy).of_row_eq (h.row_eq ha hi fun p hp hid => ?_)
  subst hp
  have hidle := he.busy_of_opens hi (opens_of_pending rfl)
  rw [hid, View.busy_of_cached (h.cached_of_write hq), hbusy] at hidle
  cases hidle

/-! ## Tasks -/

/-- The peer of an open persistence shows what is being stored. -/
theorem Cargo.Agrees.shown {x : Cargo} (hx : x.Agrees k v) {p : Persist}
    (hp : x.pending = some p) : p.Shown v cfg := by
  cases x with
  | write q =>
    cases hp
    exact hx.1
  | ended q result =>
    cases hp
    cases result with
    | none => exact hx.1
    | some guid => exact hx.1
  | _ => cases hp

/-- An offer outlives a step that removes no id while it is looked up. -/
theorem Fresh.Agrees.kept {v' : View} {id : PeerId} {f : Fresh} (h : f.Agrees k v id)
    (hevict : v.cached id ≠ none → v'.cached id = none → k.Tolerates id f)
    (hrow : v.cached id = none → v'.db.getPeer id = v.db.getPeer id)
    (hguid : ∀ row, v.db.getPeer id = some row →
      ∃ row', v'.db.getPeer id = some row' ∧ row'.guid = row.guid) : f.Agrees k v' id := by
  refine ⟨fun hloaded hcond => ?_, h.blank, fun hloaded hcached' hstrict => ?_⟩
  · by_cases hcached : v.cached id = none
    · obtain ⟨row, hr, hrel⟩ := h.loaded hloaded (Or.inl hcached)
      exact ⟨row, (hrow hcached).trans hr, hrel⟩
    · have hstable : k.stable id = true := by
        rcases hcond with hcached' | hstable
        · have := hevict hcached hcached'
          rwa [Criterion.Tolerates, if_pos hloaded] at this
        · exact hstable
      obtain ⟨row, hr, hrel⟩ := h.loaded hloaded (Or.inr hstable)
      obtain ⟨row', hr', hg⟩ := hguid row hr
      exact ⟨row', hr', k.of_guid hstable hrel hg⟩
  · by_cases hcached : v.cached id = none
    · exact (hrow hcached).trans (h.absent hloaded hcached hstrict)
    · have := hevict hcached hcached'
      rw [Criterion.Tolerates, if_neg (by rw [hloaded]; exact Bool.false_ne_true), hstrict] at this
      cases this

/-- The same for everything that a task carries. -/
theorem Cargo.Agrees.kept {v' : View} {x : Cargo} (hx : x.Agrees k v)
    (hpeer : ∀ p peer, x.pending = some p → v.cached p.id = some peer →
      ∃ peer', v'.cached p.id = some peer' ∧ peer'.identity = peer.identity)
    (hrow : ∀ p, x.pending = some p → v'.db.getPeer p.id = v.db.getPeer p.id)
    (hfresh : ∀ id f, x = .fresh id f → f.Agrees k v id → f.Agrees k v' id) : x.Agrees k v' := by
  have hshown : ∀ {p : Persist}, x.pending = some p → p.Shown v cfg → p.Shown v' cfg := by
    rintro p hp ⟨info, peer, hinfo, hcached, hid⟩
    obtain ⟨peer', hcached', hid'⟩ := hpeer p peer hp hcached
    exact ⟨info, peer', hinfo, hcached', hid'.trans hid⟩
  cases x with
  | fresh id f => exact hfresh id f rfl hx
  | write p => exact ⟨hshown rfl hx.1, hx.2.of_row_eq (hrow p rfl)⟩
  | ended p result =>
    cases result with
    | none => exact ⟨hshown rfl hx.1, hx.2.of_row_eq (hrow p rfl)⟩
    | some guid => exact ⟨hshown rfl hx.1, (hrow p rfl).trans hx.2⟩
  | stored p => trivial
  | accepted rk => trivial

/-- The tasks that do not move keep what they carry. -/
theorem Effect.agrees_kept (h : Effect cfg r i c v c' spawned evs) (he : Exclusive r)
    (ha : Agreement k r) (hi : r.cargos[i]? = some c)
    (hevict : ∀ {id f}, r.cached id ≠ none → v.cached id = none → some (.fresh id f) ∈ r.cargos →
      k.Tolerates id f) {j : Nat} {x : Cargo} (hne : j ≠ i) (hj : r.cargos[j]? = some (some x)) :
    x.Agrees k v := by
  have hmem := List.mem_of_getElem? hj
  refine (ha.cargo hmem).kept (fun p peer hp hcached => h.identity_kept he hi hne hj hp hcached)
    (fun p hp => h.row_eq ha hi fun q hq hid => ?_) (fun id f hx hf => ?_)
  · subst hq
    exact hne (he.unique hi hj rfl hp hid.symm)
  · subst hx
    refine hf.kept (fun hold hnew => hevict hold hnew hmem) (fun hnone => ?_)
      (fun row hrow => h.guid_kept ha hi hrow)
    exact h.row_eq_of_idle he ha hi (by rw [View.busy, hnone]; rfl)

/-- The task that moves carries what it should. -/
theorem Effect.agrees (h : Effect cfg r i c v c' spawned evs) (ha : Agreement k r)
    (hi : r.cargos[i]? = some c)
    (hevict : ∀ {id f}, r.cached id ≠ none → v.cached id = none → some (.fresh id f) ∈ r.cargos →
      k.Tolerates id f)
    (hroom : ∀ {id f f'}, k.strict id = true → c = some (.fresh id f) →
      c' = some (.fresh id f') → f.loaded = true → f'.loaded = true)
    {x : Cargo} (hx : c' = some x) : x.Agrees k v := by
  have hc := List.mem_of_getElem? hi
  cases h with
  | idle =>
    subst hx
    exact ha.cargo hc
  | load hrow hinfo =>
    cases hx
    refine ⟨fun _ _ => ⟨_, hrow, ?_⟩, nofun, nofun⟩
    exact k.of_row (fun hcl => (ha.claimed hcl).uuid_ne_nil hrow) hinfo
  | absent hrow =>
    cases hx
    exact ⟨nofun, fun _ => ⟨rfl, rfl, rfl⟩, fun _ _ _ => hrow⟩
  | noRoom _ _ hloaded =>
    cases hx
    refine ⟨nofun, fun _ => ⟨rfl, rfl, rfl⟩, fun _ _ hstrict => ?_⟩
    cases hroom hstrict rfl rfl hloaded
  | evict hdb _ hkeep =>
    subst hx
    refine (ha.cargo hc).kept (fun p peer hp hcached => ?_) (fun p _ => by rw [hdb])
      (fun id f hx hf => ?_)
    · exact ⟨peer, (hkeep _ hc p hp).trans hcached, rfl⟩
    · subst hx
      refine hf.kept (fun hold hnew => hevict hold hnew hc) (fun _ => by rw [hdb])
        (fun row hrow => ⟨row, by rw [hdb]; exact hrow, rfl⟩)
  | write hdb =>
    cases hx
    exact ⟨(ha.cargo hc).1, (ha.write hc hdb).1⟩
  | writeFailed =>
    cases hx
    exact ⟨(ha.cargo hc).1, (ha.cargo hc).2⟩
  | acceptSame => cases hx; trivial
  | acceptVerified => cases hx; trivial
  | acceptStored => cases hx; trivial
  | commit => cases hx; trivial
  | _ => cases hx

/-- A staged identity is shown by the peer, and a rollback leads back to it. -/
theorem Effect.agrees_spawned (h : Effect cfg r i c v c' spawned evs) (ha : Agreement k r)
    {q : Persist} (hq : q ∈ spawned) : (Cargo.write q).Agrees k v := by
  cases h with
  | @stage origin _ _ _ p _ _ hp hauth hstage =>
    obtain ⟨hbusy, -, hguid, hrollback, hinfo, regPk, rfl⟩ := stage_persist hstage
    cases List.mem_singleton.1 hq
    refine ⟨⟨{ p.info with ip := origin.addr.ip.toString }, _, ?_,
      View.cached_set_self _ _ _, ?_⟩, ?_⟩
    · rw [hinfo, cfg.infoCodec.decode_encode]
    · dsimp only
      rw [hguid]
      rfl
    · have hholds := ha.peer hp hbusy
      unfold Persist.rolledBack
      rw [hguid, hrollback]
      exact hholds
  | _ => cases hq

end Step

/-! ## Runs -/

theorem step_agreement {cfg : Config} {k : Criterion cfg} {r r' : Registry} {evs : List Event}
    (he : Exclusive r) (ha : Agreement k r) (hord : Orderly k r r') (h : r.Step cfg evs r') :
    Agreement k r' := by
  cases h with
  | tick d => exact ⟨ha.claimed, ha.peer, ha.cargo⟩
  | call =>
    refine ⟨ha.claimed, ha.peer, fun hmem => ?_⟩
    rcases List.mem_append.1 hmem with hmem | hmem
    · exact ha.cargo hmem
    · cases List.mem_singleton.1 hmem
  | move hi heff =>
    refine ⟨fun hcl => heff.claimed he hi (ha.claimed hcl),
      fun hq hbusy => heff.agrees_peer he ha hi hq hbusy, fun hmem => ?_⟩
    rcases mem_advance hmem with hc | hmem | ⟨j, hne, hj⟩
    · refine heff.agrees ha hi hord.evict (fun {id f f'} hstrict hf hf' hloaded => ?_) hc.symm
      subst hf hf'
      exact hord.room hstrict hi (getElem?_advance_self hi) hloaded
    · obtain ⟨q, hq, hcargo⟩ := List.mem_map.1 hmem
      cases hcargo
      exact heff.agrees_spawned ha hq
    · exact heff.agrees_kept he ha hi hord.evict hne hj

theorem agreement_initial {cfg : Config} (k : Criterion cfg) (now : Nat) {db : Database}
    (hdb : k.claimed = true → db.Claimed) : Agreement k ((State.initial now db).registry cfg) :=
  ⟨hdb, nofun, fun hmem => absurd hmem List.not_mem_nil⟩

/-- Along a run of orderly steps memory and table agree. -/
theorem run_agreement {cfg : Config} {k : Criterion cfg}
    {ok : List Event → State → Action → Prop} {now : Nat} {db : Database}
    (hdb : k.claimed = true → db.Claimed)
    (hord : ∀ {tr s a s' evs}, Run (step cfg) ok (State.initial now db) tr s → ok tr s a →
      step cfg s a = some (s', evs) → Orderly k (s.registry cfg) (s'.registry cfg))
    {tr : List Event} {s : State} (h : Run (step cfg) ok (State.initial now db) tr s) :
    Agreement k (s.registry cfg) := by
  have hboth : Exclusive (s.registry cfg) ∧ Agreement k (s.registry cfg) :=
    run_registry (J := fun _ r => Exclusive r ∧ Agreement k r)
      ⟨exclusive_initial cfg now db, agreement_initial k now hdb⟩ hord
      (fun hea hg hs => ⟨step_exclusive hea.1 hs, step_agreement hea.1 hea.2 hg hs⟩) h
  exact hboth.2

end RemoteServer.PeerStore
