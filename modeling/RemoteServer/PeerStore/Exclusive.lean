import RemoteServer.PeerStore.Registry

/-!
# One persistence per peer

`persistence_in_progress` is a flag on the peer, and the task that clears it is
another one than the one that sets it.  `Exclusive` says what the flag is worth:
in every run a peer has it exactly while one persistence task works on its id,
and there are never two.

The proof is a balance.  A step changes the number of open persistences of an id
by as much as it changes the flag (`Effect.balance`).

While a persistence is open no other task changes the identity of its peer
(`Effect.identity_kept`), and no row without a `uuid` is ever written
(`Effect.claimed`).
-/

namespace RemoteServer.PeerStore

open RustStd Lts

/-- A registration of the id is being stored. -/
def View.busy (v : View) (id : PeerId) : Bool := (v.cached id).any Peer.persistenceInProgress

/-- The task still has to finish a persistence of the id. -/
def opens (id : PeerId) (c : Option Cargo) : Bool :=
  decide ((c.bind Cargo.pending).map Persist.id = some id)

theorem View.cached_set (v : View) (id id' : PeerId) (p : Peer) :
    (v.set id p).cached id' = if id' = id then some p else v.cached id' := by
  unfold View.set
  dsimp only
  by_cases h : id' = id
  · rw [h, Function.update_self, if_pos rfl]
  · rw [Function.update_of_ne h, if_neg h]

theorem View.cached_set_self (v : View) (id : PeerId) (p : Peer) :
    (v.set id p).cached id = some p := by
  rw [v.cached_set, if_pos rfl]

theorem View.cached_set_cases {v : View} {id id' : PeerId} {p q : Peer}
    (h : (v.set id p).cached id' = some q) :
    id' = id ∧ q = p ∨ id' ≠ id ∧ v.cached id' = some q := by
  rw [v.cached_set] at h
  split at h
  · rename_i hid
    exact Or.inl ⟨hid, (Option.some.inj h).symm⟩
  · rename_i hid
    exact Or.inr ⟨hid, h⟩

theorem View.busy_set (v : View) (id id' : PeerId) (p : Peer) :
    (v.set id p).busy id' = if id' = id then p.persistenceInProgress else v.busy id' := by
  unfold View.busy
  rw [v.cached_set]
  split <;> rfl

theorem View.busy_of_cached {v : View} {id : PeerId} {p : Peer} (h : v.cached id = some p) :
    v.busy id = p.persistenceInProgress := by
  rw [View.busy, h]
  rfl

/-- A write that keeps the flag of a cached peer keeps every flag. -/
theorem View.busy_set_of_eq {v : View} {id : PeerId} {p p' : Peer} (h : v.cached id = some p)
    (hp : p'.persistenceInProgress = p.persistenceInProgress) (id' : PeerId) :
    (v.set id p').busy id' = v.busy id' := by
  rw [v.busy_set]
  split
  · rename_i he
    rw [he, View.busy_of_cached h, hp]
  · rfl

theorem Edit.persistenceInProgress_eq {cfg : Config} {now : Nat} {id : PeerId} {p p' : Peer}
    {evs : List Event} (h : Edit cfg now id p p' evs) :
    p'.persistenceInProgress = p.persistenceInProgress := by
  cases h with
  | touch => rfl
  | attempt => rfl
  | beat => exact heartbeat_persistenceInProgress _ _ _ _

theorem Edit.identity_eq {cfg : Config} {now : Nat} {id : PeerId} {p p' : Peer}
    {evs : List Event} (h : Edit cfg now id p p' evs) : p'.identity = p.identity := by
  cases h with
  | touch => rfl
  | attempt => rfl
  | beat => exact heartbeat_identity _ _ _ _

/-- The flag counts the open persistences, a peer is offered without it, and what
is being stored has a `uuid`. -/
structure Exclusive (r : Registry) : Prop where
  count : ∀ id, r.cargos.countP (opens id) = if r.busy id then 1 else 0
  fresh : ∀ {id f}, some (.fresh id f) ∈ r.cargos → f.peer.persistenceInProgress = false
  named : ∀ {c p}, c ∈ r.cargos → c.bind Cargo.pending = some p → p.uuid ≠ []

section

variable {cfg : Config} {r : Registry} {i : Nat} {c c' : Option Cargo} {v : View}
  {spawned : List Persist} {evs : List Event}

/-- An open persistence works on a cached peer with the flag. -/
theorem Exclusive.busy_of_opens (he : Exclusive r) (hi : r.cargos[i]? = some c) {id : PeerId}
    (hc : opens id c = true) : r.busy id = true := by
  have hpos : 0 < r.cargos.countP (opens id) :=
    List.countP_pos_iff.2 ⟨c, List.mem_of_getElem? hi, hc⟩
  rw [he.count id] at hpos
  by_contra hbusy
  rw [if_neg hbusy] at hpos
  exact Nat.lt_irrefl 0 hpos

theorem opens_of_pending {p : Persist} (hc : c.bind Cargo.pending = some p) :
    opens p.id c = true := by
  rw [opens, hc]
  exact decide_eq_true rfl

theorem Exclusive.cached_of_pending (he : Exclusive r) (hi : r.cargos[i]? = some c) {p : Persist}
    (hc : c.bind Cargo.pending = some p) :
    ∃ peer, r.cached p.id = some peer ∧ peer.persistenceInProgress = true := by
  have hbusy := he.busy_of_opens hi (opens_of_pending hc)
  rw [View.busy, Option.any_eq_true] at hbusy
  exact hbusy

/-- Two open persistences of one id are the same task. -/
theorem Exclusive.unique (he : Exclusive r) {j : Nat} {d : Option Cargo} {p q : Persist}
    (hi : r.cargos[i]? = some c) (hj : r.cargos[j]? = some d)
    (hc : c.bind Cargo.pending = some p) (hd : d.bind Cargo.pending = some q)
    (hid : q.id = p.id) : j = i := by
  by_contra hne
  have htwo := two_le_countP (fun h => hne h.symm) hi hj (opens_of_pending hc)
    (hid ▸ opens_of_pending hd)
  have := he.count p.id
  split at this <;> omega

/-- An id with the flag has an open persistence, so an eviction respects it. -/
theorem Exclusive.busy_evict (he : Exclusive r)
    (hsub : ∀ id, v.cached id = r.cached id ∨ v.cached id = none)
    (hkeep : ∀ c ∈ r.cargos, ∀ p, c.bind Cargo.pending = some p → v.cached p.id = r.cached p.id)
    (id : PeerId) : v.busy id = r.busy id := by
  rcases hsub id with hsame | hgone
  · rw [View.busy, View.busy, hsame]
  · have hnone : v.busy id = false := by
      rw [View.busy, hgone]
      rfl
    rw [hnone]
    cases hbusy : r.busy id with
    | false => rfl
    | true =>
      have hone := he.count id
      rw [if_pos hbusy] at hone
      obtain ⟨d, hd, hopen⟩ := List.countP_pos_iff.1 (by omega : 0 < r.cargos.countP (opens id))
      obtain ⟨p, hp, rfl⟩ := Option.map_eq_some_iff.1 (of_decide_eq_true hopen)
      rw [View.busy, ← hkeep d hd p hp, hgone] at hbusy
      cases hbusy

/-- The end of a persistence takes the flag away. -/
theorem Exclusive.balance_close (he : Exclusive r) (hi : r.cargos[i]? = some c) {p : Persist}
    (hc : c.bind Cargo.pending = some p) (hc' : c'.bind Cargo.pending = none) {peer : Peer}
    (hpeer : peer.persistenceInProgress = false) (id : PeerId) :
    (if (r.set p.id peer).busy id then 1 else 0) + (if opens id c then 1 else 0) =
      (if r.busy id then 1 else 0) + (if opens id c' then 1 else 0) := by
  have hopen' : opens id c' = false := by
    rw [opens, hc']
    exact decide_eq_false nofun
  rw [View.busy_set, hpeer, hopen']
  by_cases hid : id = p.id
  · have hopen : opens id c = true := hid ▸ opens_of_pending hc
    rw [if_pos hid, hopen, he.busy_of_opens hi hopen]
    rfl
  · have hopen : opens id c = false := by
      rw [opens, hc]
      exact decide_eq_false fun h => hid (Option.some.inj h).symm
    rw [if_neg hid, hopen]

/-- A step moves the flag and the number of open persistences together. -/
theorem Effect.balance (h : Effect cfg r i c v c' spawned evs) (he : Exclusive r)
    (hi : r.cargos[i]? = some c) (id : PeerId) :
    (if v.busy id then 1 else 0) + (if opens id c then 1 else 0) =
      (if r.busy id then 1 else 0) + (if opens id c' then 1 else 0) +
        (spawned.map fun p => some (.write p)).countP (opens id) := by
  -- the flags stay and the task opens and closes nothing
  have hkeep : ∀ {v : View} {c c' : Option Cargo}, v.busy id = r.busy id →
      opens id c = false → opens id c' = false →
      (if v.busy id then 1 else 0) + (if opens id c then 1 else 0) =
        (if r.busy id then 1 else 0) + (if opens id c' then 1 else 0) +
          ([] : List (Option Cargo)).countP (opens id) := by
    intro v c c' hv hc hc'
    rw [hv, hc, hc']
    rfl
  cases h with
  | idle => rfl
  | drop => exact hkeep rfl rfl rfl
  | load => exact hkeep rfl rfl rfl
  | absent => exact hkeep rfl rfl rfl
  | noRoom => exact hkeep rfl rfl rfl
  | acceptStored => exact hkeep rfl rfl rfl
  | @insert id' f _ hcached =>
    refine hkeep ?_ rfl rfl
    rw [View.busy_set, he.fresh (List.mem_of_getElem? hi)]
    split
    · rename_i hid
      rw [hid, View.busy, hcached]
      rfl
    · rfl
  | evict _ hsub hpend =>
    rw [he.busy_evict hsub hpend id]
    rfl
  | edit hp hedit => exact hkeep (View.busy_set_of_eq hp hedit.persistenceInProgress_eq id) rfl rfl
  | acceptSame hp => exact hkeep (View.busy_set_of_eq hp (by rfl) id) rfl rfl
  | acceptVerified hp => exact hkeep (View.busy_set_of_eq hp (by rfl) id) rfl rfl
  | @stage origin rk managed o p p' pending hp _ hstage =>
    obtain ⟨hbusy, -, -, -, -, regPk, rfl⟩ := stage_persist hstage
    rw [View.busy_set]
    by_cases hid : id = rk.id
    · have hr : r.busy id = false := by rw [hid, View.busy_of_cached hp, hbusy]
      have hopen : opens id (some (.write ⟨i, origin, rk.id, o, pending.guid, rk.uuid, rk.pk,
          pending.serializedInfo, pending.rollback, managed⟩)) = true := by
        rw [hid]
        exact decide_eq_true rfl
      rw [if_pos hid, hr, List.map_singleton, List.countP_singleton, hopen]
      rfl
    · have hopen : opens id (some (.write ⟨i, origin, rk.id, o, pending.guid, rk.uuid, rk.pk,
          pending.serializedInfo, pending.rollback, managed⟩)) = false :=
        decide_eq_false fun h => hid (Option.some.inj h).symm
      rw [if_neg hid, List.map_singleton, List.countP_singleton, hopen]
      rfl
  | write => rfl
  | writeFailed => rfl
  | commit => exact he.balance_close hi rfl rfl rfl id
  | rollback => exact he.balance_close hi rfl rfl rfl id

/-- While a persistence is open, no other task changes the identity of its peer. -/
theorem Effect.identity_kept (h : Effect cfg r i c v c' spawned evs) (he : Exclusive r)
    (hi : r.cargos[i]? = some c) {j : Nat} {d : Option Cargo} {q : Persist} (hne : j ≠ i)
    (hj : r.cargos[j]? = some d) (hd : d.bind Cargo.pending = some q) {peer : Peer}
    (hpeer : r.cached q.id = some peer) :
    ∃ peer', v.cached q.id = some peer' ∧ peer'.identity = peer.identity := by
  -- a write that keeps the identity of some peer
  have hset : ∀ {id : PeerId} {p p' : Peer}, r.cached id = some p → p'.identity = p.identity →
      ∃ peer', (r.set id p').cached q.id = some peer' ∧ peer'.identity = peer.identity := by
    intro id p p' hp hp'
    rw [View.cached_set]
    split
    · rename_i hid
      rw [← hid, hpeer] at hp
      cases hp
      exact ⟨p', rfl, hp'⟩
    · exact ⟨peer, hpeer, rfl⟩
  -- a write to the peer of another id
  have hother : ∀ {id : PeerId} {p' : Peer}, q.id ≠ id →
      ∃ peer', (r.set id p').cached q.id = some peer' ∧ peer'.identity = peer.identity := by
    intro id p' hid
    rw [View.cached_set, if_neg hid]
    exact ⟨peer, hpeer, rfl⟩
  cases h with
  | insert hcached =>
    exact hother fun hid => by rw [hid, hcached] at hpeer; cases hpeer
  | evict _ _ hkeep => exact ⟨peer, (hkeep d (List.mem_of_getElem? hj) q hd).trans hpeer, rfl⟩
  | edit hp hedit => exact hset hp hedit.identity_eq
  | acceptSame hp => exact hset hp rfl
  | acceptVerified hp => exact hset hp rfl
  | stage hp _ hstage =>
    refine hother fun hid => ?_
    have hbusy := he.busy_of_opens hj (opens_of_pending hd)
    rw [hid, View.busy_of_cached hp, (stage_persist hstage).1] at hbusy
    cases hbusy
  | commit => exact hother fun hid => hne (he.unique hi hj rfl hd hid)
  | rollback => exact hother fun hid => hne (he.unique hi hj rfl hd hid)
  | _ => exact ⟨peer, hpeer, rfl⟩

/-- A peer that becomes offered has no flag. -/
theorem Effect.fresh_persistenceInProgress (h : Effect cfg r i c v c' spawned evs)
    (he : Exclusive r) (hi : r.cargos[i]? = some c) {id : PeerId} {f : Fresh}
    (hf : c' = some (.fresh id f)) : f.peer.persistenceInProgress = false := by
  cases h with
  | idle => exact he.fresh (hf ▸ List.mem_of_getElem? hi)
  | evict => exact he.fresh (hf ▸ List.mem_of_getElem? hi)
  | load => cases hf; rfl
  | absent => cases hf; rfl
  | noRoom => cases hf; rfl
  | _ => cases hf

/-- Only an open persistence becomes or stays an open persistence. -/
theorem Effect.pending_eq (h : Effect cfg r i c v c' spawned evs) {p : Persist}
    (hp : c'.bind Cargo.pending = some p) : c.bind Cargo.pending = some p := by
  cases h with
  | idle => exact hp
  | evict => exact hp
  | write => exact hp
  | writeFailed => exact hp
  | _ => cases hp

theorem Effect.named_spawned (h : Effect cfg r i c v c' spawned evs) {p : Persist}
    (hp : p ∈ spawned) : p.uuid ≠ [] := by
  cases h with
  | stage _ hauth =>
    cases List.mem_singleton.1 hp
    exact RegisterPk.uuid_ne_nil hauth.wellFormed
  | _ => cases hp

/-- The server writes no row with an empty `uuid`. -/
theorem Effect.claimed (h : Effect cfg r i c v c' spawned evs) (he : Exclusive r)
    (hi : r.cargos[i]? = some c) (hdb : r.db.Claimed) : v.db.Claimed := by
  cases h with
  | evict heq => exact heq ▸ hdb
  | write hstmt =>
    exact persistStatement_claimed hdb (he.named (List.mem_of_getElem? hi) rfl) hstmt
  | _ => exact hdb

end

theorem step_exclusive {cfg : Config} {r r' : Registry} {evs : List Event} (he : Exclusive r)
    (h : r.Step cfg evs r') : Exclusive r' := by
  cases h with
  | tick d => exact ⟨he.count, he.fresh, he.named⟩
  | call =>
    refine ⟨fun id => ?_, fun hmem => ?_, fun hmem hp => ?_⟩
    · change (r.cargos ++ [none]).countP (opens id) = _
      rw [List.countP_append, he.count id]
      rfl
    · rcases List.mem_append.1 hmem with hmem | hmem
      · exact he.fresh hmem
      · cases List.mem_singleton.1 hmem
    · rcases List.mem_append.1 hmem with hmem | hmem
      · exact he.named hmem hp
      · rw [List.mem_singleton.1 hmem] at hp
        cases hp
  | @move i c c' v full spawned evs hi heff =>
    refine ⟨fun id => ?_, fun hmem => ?_, fun hmem hp => ?_⟩
    · have hcount : (advance r.cargos i c' (spawned.map fun p => some (.write p))).countP (opens id) +
          (if opens id c then 1 else 0) = _ := countP_advance (opens id) hi
      have hbal := heff.balance he hi id
      have hold := he.count id
      dsimp only
      omega
    · rcases mem_advance hmem with hc | hmem | ⟨j, -, hj⟩
      · exact heff.fresh_persistenceInProgress he hi hc.symm
      · obtain ⟨p, -, hp⟩ := List.mem_map.1 hmem
        cases hp
      · exact he.fresh (List.mem_of_getElem? hj)
    · rcases mem_advance hmem with rfl | hmem | ⟨j, -, hj⟩
      · exact he.named (List.mem_of_getElem? hi) (heff.pending_eq hp)
      · obtain ⟨q, hq, rfl⟩ := List.mem_map.1 hmem
        cases hp
        exact heff.named_spawned hq
      · exact he.named (List.mem_of_getElem? hj) hp

theorem exclusive_initial (cfg : Config) (now : Nat) (db : Database) :
    Exclusive ((State.initial now db).registry cfg) :=
  ⟨fun _ => rfl, fun hmem => absurd hmem List.not_mem_nil, fun hmem => absurd hmem List.not_mem_nil⟩

/-- In every run a peer is in progress exactly while one task persists it. -/
theorem run_exclusive {cfg : Config} {ok : List Event → State → Action → Prop} {now : Nat}
    {db : Database} {tr : List Event} {s : State}
    (h : Run (step cfg) ok (State.initial now db) tr s) : Exclusive (s.registry cfg) :=
  run_registry (G := fun _ _ => True) (J := fun _ r => Exclusive r) (exclusive_initial cfg now db)
    (fun _ _ _ => trivial) (fun he _ hs => step_exclusive he hs) h

end RemoteServer.PeerStore
