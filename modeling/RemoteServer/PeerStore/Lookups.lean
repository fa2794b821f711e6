import RemoteServer.PeerStore.Coherence

/-!
# What a lookup may answer

`get` answers `Ok(None)` both for an id without a row and for a row that finds no
room in the cache, and `get_or` goes on with a blank peer in either case.  An
eviction between the two halves of `get_or` has the same effect.  So a persisted
peer can be taken for an absent one.  `RoomForRows` names the two situations, and
`persisted_never_absent` says that outside of them the law holds.

`get_pk` signs whatever key the peer shows, so it signs a staged key before the
table has it, and the empty key of a blank peer.  `ReadsCommitted` names the
situations, and `signed_key_committed` says that outside of them a signed key is
the one of the row.
-/

namespace RemoteServer.PeerStore

open RustStd Lts

/-- A peer in memory with a `uuid` goes back to the row of its id. -/
def Criterion.tracked (cfg : Config) : Criterion cfg where
  rel := fun _ row x => row.guid = x.guid ∧ x.uuid ≠ []
  strict := fun _ => true
  stable := fun _ => true
  claimed := true
  guid_eq := And.left
  of_row := fun huuid _ => ⟨rfl, huuid rfl⟩
  of_guid := fun _ hrel hguid => ⟨hguid.trans hrel.1, hrel.2⟩

section Answers

variable {cfg : Config} {s : State} {i : Nat} {t : Task} {out : Outcome}

/-- `get` answers `Ok(None)` when there is no row, or when there is no room. -/
theorem Move.got_none (h : Move cfg s i t out) {id : PeerId}
    (hev : Event.got id none ∈ out.events) :
    out.store.db.getPeer id = none ∨ ∃ call f, t = .lookup call (.cacheLast f) ∧ call.id = id ∧
      f.loaded = true ∧ s.map.get id = none ∧ cfg.maxCachedPeers ≤ s.map.len := by
  cases h with
  | loadAbsent hrow =>
    cases List.mem_singleton.1 hev
    exact Or.inl hrow
  | @noRoom call f hget hfull =>
    obtain ⟨hloaded, he⟩ := mem_returnNoRoom_events hev
    cases he
    exact Or.inr ⟨call, f, rfl, rfl, hloaded, hget, hfull⟩
  | touched => rcases mem_returnObject_events hev with he | he <;> cases he
  | cached => rcases mem_returnObject_events hev with he | he <;> cases he
  | inserted => rcases mem_returnObject_events hev with he | he <;> cases he
  | _ => simp at hev

/-- `get_or` answers with the cached object of the id. -/
theorem Move.gotOr_get (h : Move cfg s i t out) (hheld : ∀ q ∈ t.refs, s.map.get q.1 = some q.2)
    {id : PeerId} {o : Nat} (hev : Event.gotOr id o ∈ out.events) :
    out.store.map.get id = some o := by
  -- the object that a lookup returns is the one that its next point holds
  have hreturn : ∀ {store : Store} {call : Call} {viaGet : Bool} {o' : Nat},
      Event.gotOr id o ∈ (returnObject store call viaGet o').events → call.id = id ∧ o' = o := by
    intro store call viaGet o' hmem
    rcases mem_returnObject_events hmem with he | he
    · cases he
    · cases he
      exact ⟨rfl, rfl⟩
  have hrefs := h.refs_held hheld _ (Or.inl rfl)
  cases h with
  | touched =>
    obtain ⟨rfl, rfl⟩ := hreturn hev
    exact hrefs (_, _) (by rw [returnObject, Call.refs_resume]; exact List.mem_singleton_self _)
  | cached =>
    obtain ⟨rfl, rfl⟩ := hreturn hev
    exact hrefs (_, _) (by rw [returnObject, Call.refs_resume]; exact List.mem_singleton_self _)
  | inserted =>
    obtain ⟨rfl, rfl⟩ := hreturn hev
    exact hrefs (_, _)
      (by rw [returnInserted, returnObject, Call.refs_resume]; exact List.mem_singleton_self _)
  | noRoom => cases (mem_returnNoRoom_events hev).2
  | _ => simp at hev

/-- `get_pk` signs the key that the peer shows. -/
theorem Move.signed_eq (h : Move cfg s i t out) {id : PeerId} {pk : Bytes}
    (hev : Event.signed id pk ∈ out.events) :
    ∃ o, t = .readPk id o ∧ pk = (s.peers o).pk ∧ out.store = s.toStore := by
  cases h with
  | signed =>
    cases List.mem_singleton.1 hev
    exact ⟨_, rfl, rfl, rfl⟩
  | touched => rcases mem_returnObject_events hev with he | he <;> cases he
  | cached => rcases mem_returnObject_events hev with he | he <;> cases he
  | inserted => rcases mem_returnObject_events hev with he | he <;> cases he
  | noRoom => cases (mem_returnNoRoom_events hev).2
  | _ => simp at hev

end Answers

/-- A peer without a `uuid` is not being persisted. -/
theorem Agreement.idle_of_blank {cfg : Config} {k : Criterion cfg} {r : Registry}
    (he : Exclusive r) (ha : Agreement k r) {id : PeerId} {p : Peer} (hp : r.cached id = some p)
    (huuid : p.uuid = []) : p.persistenceInProgress = false := by
  cases hbusy : p.persistenceInProgress with
  | false => rfl
  | true =>
    have hcount := he.count id
    rw [View.busy_of_cached hp, if_pos hbusy] at hcount
    obtain ⟨c, hc, hopen⟩ := List.countP_pos_iff.1 (by omega : 0 < r.cargos.countP (opens id))
    obtain ⟨q, hq, rfl⟩ := Option.map_eq_some_iff.1 (of_decide_eq_true hopen)
    -- the open persistence is shown by the peer, and it has a `uuid`
    obtain ⟨x, rfl⟩ : ∃ x, c = some x := by
      cases c with
      | none => cases hq
      | some x => exact ⟨x, rfl⟩
    obtain ⟨info, peer, -, hcached, hid⟩ := (ha.cargo hc).shown hq
    rw [hp] at hcached
    cases hcached
    exact absurd ((congrArg Peer.Identity.uuid hid).symm.trans huuid) (he.named hc hq)

/-! ## A persisted peer and an absent one -/

/-- A lookup that read a row finds an entry or room for it, and no id is removed
from the cache while a lookup that found no row is about to offer a blank peer. -/
structure RoomForRows (cfg : Config) (tr : List Event) (s : State) (a : Action) : Prop where
  room : ∀ {i ch call f}, a = .run i ch → s.tasks[i]? = some (.lookup call (.cacheLast f)) →
    f.loaded = true → s.map.get call.id ≠ none ∨ s.map.len < cfg.maxCachedPeers
  evict : ∀ {id}, Evicts s a id → ¬ Offered s id false

theorem RoomForRows.orderly {cfg : Config} {tr : List Event} {s s' : State} {a : Action}
    {evs : List Event} (hok : RoomForRows cfg tr s a) (h : step cfg s a = some (s', evs)) :
    Orderly (Criterion.tracked cfg) (s.registry cfg) (s'.registry cfg) := by
  refine orderly_of_step h (fun {id f} hev hoffer => ?_)
    fun ha hi hloaded _ => hok.room ha hi hloaded
  obtain ⟨t, ht, hcargo⟩ := hoffer
  unfold Criterion.Tolerates
  split
  · rfl
  · rename_i hloaded
    exact absurd ⟨t, ht, f, hcargo, by simpa using hloaded⟩ (hok.evict hev)

/-- In every run whose steps leave room for rows, `get` answers `Ok(None)` only
for an id without a row, and `get_or` answers with a peer without a `uuid` only
for an id without a row. -/
theorem persisted_never_absent {cfg : Config} {now : Nat} {db : Database} (hdb : db.Claimed)
    {tr : List Event} {s s' : State} {a : Action} {evs : List Event}
    (hrun : Run (step cfg) (RoomForRows cfg) (State.initial now db) tr s)
    (hok : RoomForRows cfg tr s a) (h : step cfg s a = some (s', evs)) {id : PeerId} :
    (Event.got id none ∈ evs → s'.db.getPeer id = none) ∧
      ∀ o, Event.gotOr id o ∈ evs → (s'.peers o).uuid = [] → s'.db.getPeer id = none := by
  have hrun' := hrun.step hok h
  have ha : Agreement (Criterion.tracked cfg) (s'.registry cfg) :=
    run_agreement (fun _ => hdb) (fun _ hok hs => hok.orderly hs) hrun'
  rcases step_cases h with ⟨d, -, rfl, rfl⟩ | ⟨r, -, rfl, rfl⟩ |
    ⟨i, ch, t, out, rfl, hi, -, hm, rfl, rfl⟩
  · exact ⟨nofun, nofun⟩
  · exact ⟨nofun, nofun⟩
  · refine ⟨fun hev => ?_, fun o hev huuid => ?_⟩
    · rcases hm.got_none hev with hnone | ⟨call, f, rfl, rfl, hloaded, hget, hfull⟩
      · exact hnone
      · rcases hok.room rfl hi hloaded with hsome | hlt
        · exact absurd hget hsome
        · omega
    · have hheld := (run_wellFormed hrun).held t (List.mem_of_getElem? hi)
      have hcached : ((s.after i out).registry cfg).cached id = some (out.store.peers o) :=
        cached_of_get (hm.gotOr_get hheld hev)
      have hidle := ha.idle_of_blank (run_exclusive hrun') hcached huuid
      rcases ha.peer hcached hidle with ⟨-, hnone⟩ | ⟨row, -, -, hne⟩
      · exact hnone rfl
      · exact absurd huuid hne

/-- A check that implies both conditions of this module: no pass is being ended,
no lookup is at its last write lock, and a key is read from a settled peer. -/
private def settled (s : State) : Action → Bool
  | .run i _ =>
    match s.tasks[i]? with
    | some (.evict _ _) => false
    | some (.lookup _ (.cacheLast _)) => false
    | some (.readPk _ o) => !(s.peers o).persistenceInProgress && !(s.peers o).pk.isEmpty
    | _ => true
  | _ => true

private theorem not_evicts_of_settled {s : State} {a : Action} (h : settled s a = true)
    {id : PeerId} : ¬ Evicts s a id := by
  intro hev
  unfold Evicts at hev
  split at hev
  · obtain ⟨caller, snap, candidates, hi, -⟩ := hev
    simp [settled, hi] at h
  · exact hev

private theorem roomForRows_of_settled {cfg : Config} {tr : List Event} {s : State} {a : Action}
    (h : settled s a = true) : RoomForRows cfg tr s a := by
  refine ⟨fun ha hi => ?_, fun hev => absurd hev (not_evicts_of_settled h)⟩
  subst ha
  simp [settled, hi] at h

/-- The first half of a first registration. -/
theorem persisted_never_absent_unclaimed :
    ∃ (s s' : State) (tr evs : List Event),
      Run (step (sampleConfig true)) (RoomForRows (sampleConfig true))
        (State.initial sampleStart .empty) tr s ∧
      step (sampleConfig true) s (.run 0 {}) = some (s', evs) ∧ Event.gotOr sampleId 0 ∈ evs ∧
      (s'.peers 0).uuid = [] ∧ s'.db.getPeer sampleId = none := by
  obtain ⟨s, tr, hrun, hshow⟩ := exists_run_of_exec (guarded (step (sampleConfig true)) settled)
    (State.initial sampleStart .empty)
    (.call (.registerPk (sampleOrigin 0) (sampleRequest 1 2)) :: runs 0 4)
    (fun x => (settled x.1 (.run 0 {}),
      (step (sampleConfig true) x.1 (.run 0 {})).map fun (y : State × List Event) =>
        (decide (Event.gotOr sampleId 0 ∈ y.2), (y.1.peers 0).uuid)))
    (b := (true, some (true, []))) (by decide +kernel)
  obtain ⟨hok, hstep⟩ := Prod.ext_iff.1 hshow
  obtain ⟨⟨s', evs⟩, hs, hpair⟩ := Option.map_eq_some_iff.1 hstep
  obtain ⟨hev, huuid⟩ := Prod.ext_iff.1 hpair
  have hrun' : Run (step (sampleConfig true)) (RoomForRows (sampleConfig true))
      (State.initial sampleStart .empty) tr s :=
    hrun.of_guarded.mono fun _ hok => roomForRows_of_settled hok
  refine ⟨s, s', tr, evs, hrun', hs, of_decide_eq_true hev, huuid, ?_⟩
  exact (persisted_never_absent Database.claimed_empty hrun' (roomForRows_of_settled hok) hs).2 0
    (of_decide_eq_true hev) huuid

/-! ## A full cache -/

section Full

variable {cfg : Config} {s₀ : State} {tr : List Event} {store : Store} {ts : List Task}

/-- The last task of the list makes a step. -/
private theorem run_last {t t' : Task} {store' : Store} {evs : List Event}
    (hrun : Run (step cfg) anything s₀ tr ⟨store, ts ++ [t]⟩)
    (hstep : stepTask cfg ⟨store, ts ++ [t]⟩ ts.length {} t = some ⟨store', t', [], evs⟩) :
    Run (step cfg) anything s₀ (tr ++ evs) ⟨store', ts ++ [t']⟩ := by
  refine hrun.step (a := .run ts.length {}) trivial ?_
  have hget : (ts ++ [t])[ts.length]? = some t := by simp
  simp only [step, hget, hstep, State.after, advance]
  simp

/-- The ids are cached, and every cached peer was used at the instant `start`. -/
private structure Filled (start : Nat) (table : Database) (ids : List PeerId) (s : State) :
    Prop where
  db : s.db = table
  now : s.now = start
  len : s.map.len = ids.length
  cached : ∀ id, s.map.get id ≠ none → id ∈ ids
  recent : ∀ id o, s.map.get id = some o → (s.peers o).lastAccessTime = start

/-- A request for a key up to the point where its lookup has read the row. -/
private theorem run_load {s : State} (hrun : Run (step cfg) anything s₀ tr s) {id : PeerId}
    {row : Row} {info : PeerInfo} (hget : s.map.get id = none) (hrow : s.db.getPeer id = some row)
    (hinfo : cfg.infoCodec.decode row.info = some info) :
    ∃ tr', Run (step cfg) anything s₀ tr' ⟨s.toStore, s.tasks ++
      [.lookup (.getPk id) (.cacheRead ⟨loadedPeer row info s.now, true⟩)]⟩ := by
  have h₁ : Run (step cfg) anything s₀ (tr ++ []) ⟨s.toStore, s.tasks ++
      [.lookup (.getPk id) .read]⟩ := hrun.step (a := .call (.getPk "1.4.0" id)) trivial rfl
  have h₂ : Run (step cfg) anything s₀ (tr ++ [] ++ []) ⟨s.toStore, s.tasks ++
      [.lookup (.getPk id) .load]⟩ := run_last h₁ (by simp [stepTask, stepLookup, Call.id, hget])
  exact ⟨tr ++ [] ++ [] ++ [],
    run_last h₂ (by simp [stepTask, stepLookup, Call.id, hrow, hinfo])⟩

/-- One more row is loaded while there is room. -/
private theorem exists_filled_cons {start : Nat} {table : Database} {ids : List PeerId}
    {s : State} (hrun : Run (step cfg) anything s₀ tr s) (hf : Filled start table ids s)
    (hwf : WellFormed s) (hroom : ids.length < cfg.maxCachedPeers) {id : PeerId} (hid : id ∉ ids)
    {row : Row} {info : PeerInfo} (hrow : table.getPeer id = some row)
    (hinfo : cfg.infoCodec.decode row.info = some info) :
    ∃ s' tr', Run (step cfg) anything s₀ tr' s' ∧ Filled start table (id :: ids) s' := by
  have hget : s.map.get id = none := by
    by_contra hne
    exact hid (hf.cached id hne)
  have hlen : s.map.len < cfg.maxCachedPeers := hf.len ▸ hroom
  obtain ⟨tr₁, h₁⟩ := run_load hrun hget (hf.db ▸ hrow) hinfo
  have h₂ : Run (step cfg) anything s₀ (tr₁ ++ []) ⟨s.toStore, s.tasks ++
      [.lookup (.getPk id) (.cacheWrite ⟨loadedPeer row info s.now, true⟩)]⟩ :=
    run_last h₁ (by simp [stepTask, stepLookup, Call.id, hget, hlen])
  refine ⟨⟨s.insertPeer id (loadedPeer row info s.now), s.tasks ++ [.readPk id s.next]⟩, _,
    run_last h₂ (by simp [stepTask, stepLookup, Call.id, hget, hlen, returnInserted, returnObject,
      Call.resume]; rfl), hf.db, hf.now, ?_, fun id' hne => ?_, fun id' o hget' => ?_⟩
  · change (s.map.insert id s.next).len = _
    rw [HashMap.len_insert_of_get_eq_none _ _ hget, hf.len, List.length_cons]
  · change (s.map.insert id s.next).get id' ≠ none at hne
    rw [HashMap.get_insert] at hne
    split at hne
    · rename_i he
      exact he ▸ List.mem_cons_self
    · exact List.mem_cons_of_mem _ (hf.cached id' hne)
  · change (s.map.insert id s.next).get id' = some o at hget'
    change (Function.update s.peers s.next (loadedPeer row info s.now) o).lastAccessTime = start
    rw [HashMap.get_insert] at hget'
    split at hget'
    · cases hget'
      rw [Function.update_self]
      exact hf.now
    · rw [Function.update_of_ne (Nat.ne_of_lt (hwf.below hget'))]
      exact hf.recent id' o hget'

/-- Lookups fill the cache up to any number of rows that its capacity admits. -/
private theorem exists_filled {start : Nat} {table : Database}
    (hrows : ∀ id, table.getPeer id = none ∨ ∃ row info, table.getPeer id = some row ∧
      cfg.infoCodec.decode row.info = some info) :
    ∀ ids : List PeerId, ids.Nodup → (∀ id ∈ ids, table.getPeer id ≠ none) →
      ids.length ≤ cfg.maxCachedPeers →
      ∃ s tr, Run (step cfg) anything (State.initial start table) tr s ∧
        Filled start table ids s := by
  intro ids
  induction ids with
  | nil =>
    intro _ _ _
    exact ⟨State.initial start table, [], .start, rfl, rfl, rfl, fun _ hne => absurd rfl hne,
      fun _ _ hget => by cases hget⟩
  | cons id ids ih =>
    intro hnodup hin hlen
    rw [List.nodup_cons] at hnodup
    rw [List.length_cons] at hlen
    obtain ⟨s, tr, hrun, hf⟩ :=
      ih hnodup.2 (fun id' h => hin id' (List.mem_cons_of_mem _ h)) (by omega)
    rcases hrows id with hnone | ⟨row, info, hrow, hinfo⟩
    · exact absurd hnone (hin id List.mem_cons_self)
    · exact exists_filled_cons hrun hf (run_wellFormed hrun) hlen hnodup.1 hrow hinfo

/-- A pass over peers that were just used finds no candidate. -/
private theorem run_scan {caller : Evictor} {snap candidates : List (PeerId × Nat)} :
    ∀ (todo : List (PeerId × Nat)) (tr : List Event),
      (∀ q ∈ todo, (store.peers q.2).lastAccessTime = store.now) →
      Run (step cfg) anything s₀ tr ⟨store, ts ++ [.evict caller (.scan snap todo candidates)]⟩ →
      ∃ tr', Run (step cfg) anything s₀ tr'
        ⟨store, ts ++ [.evict caller (.scan snap [] candidates)]⟩ := by
  intro todo
  induction todo with
  | nil => exact fun tr _ hrun => ⟨tr, hrun⟩
  | cons q todo ih =>
    intro tr hrecent hrun
    have hidle : inactive caller.idleSecs store.now (store.peers q.2) = false := by
      have hq := hrecent q List.mem_cons_self
      have hpos : 0 < caller.idleSecs := by cases caller <;> exact Nat.succ_pos _
      have hzero : Instant.elapsedSecs store.now store.now = 0 := by simp [Instant.elapsedSecs]
      simp only [inactive, hq, hzero, Bool.and_eq_false_iff, decide_eq_false_iff_not]
      exact Or.inl (by omega)
    exact ih (tr ++ []) (fun q' hq' => hrecent q' (List.mem_cons_of_mem _ hq'))
      (run_last hrun (by simp [stepTask, stepEvict, hidle]))

/-- With the cache at its capacity and nothing idle in it, `get` answers
`Ok(None)` for an id that has a row. -/
private theorem exists_got_none {start : Nat} {table : Database} {ids : List PeerId} {s : State}
    (hrun : Run (step cfg) anything s₀ tr s) (hf : Filled start table ids s)
    (hfull : cfg.maxCachedPeers ≤ ids.length) {id : PeerId} (hid : id ∉ ids) {row : Row}
    {info : PeerInfo} (hrow : table.getPeer id = some row)
    (hinfo : cfg.infoCodec.decode row.info = some info) :
    ∃ s' tr', Run (step cfg) anything s₀ (tr' ++ [.got id none]) s' ∧ s'.db = table := by
  have hget : s.map.get id = none := by
    by_contra hne
    exact hid (hf.cached id hne)
  have hlen : ¬ s.map.len < cfg.maxCachedPeers := by
    rw [hf.len]
    omega
  obtain ⟨tr₁, h₁⟩ := run_load hrun hget (hf.db ▸ hrow) hinfo
  have h₂ : Run (step cfg) anything s₀ (tr₁ ++ []) ⟨s.toStore, s.tasks ++
      [.evict (.cachePeer (.getPk id) ⟨loadedPeer row info s.now, true⟩) .snapshot]⟩ :=
    run_last h₁ (by simp [stepTask, stepLookup, Call.id, hget, hlen])
  have h₃ : Run (step cfg) anything s₀ (tr₁ ++ [] ++ []) ⟨s.toStore, s.tasks ++
      [.evict (.cachePeer (.getPk id) ⟨loadedPeer row info s.now, true⟩)
        (.scan s.map.entries s.map.entries [])]⟩ :=
    run_last h₂ (by simp [stepTask, stepEvict])
  obtain ⟨tr₄, h₄⟩ := run_scan s.map.entries _ (fun q hq => by
    rw [hf.recent q.1 q.2 ((s.map.get_eq_some_iff _ _).2 hq), hf.now]) h₃
  have h₅ : Run (step cfg) anything s₀ (tr₄ ++ []) ⟨s.toStore, s.tasks ++
      [.lookup (.getPk id) (.cacheLast ⟨loadedPeer row info s.now, true⟩)]⟩ :=
    run_last h₄ (by simp [stepTask, stepEvict, removeCandidates, Evictor.resume])
  exact ⟨⟨s.toStore, s.tasks ++ [.done (.getPk id none)]⟩, tr₄ ++ [],
    run_last h₅ (by simp [stepTask, stepLookup, Call.id, hget, hlen, returnNoRoom, Call.absent]),
    hf.db⟩

/-- The lowest `n` binary digits of a number, written with two signs. -/
private def digits {α : Type} (zero one : α) (n k : Nat) : List α :=
  (List.range n).map fun i => if k.testBit i then one else zero

private theorem digits_inj {α : Type} {zero one : α} (hne : zero ≠ one) {n k k' : Nat}
    (hk : k < 2 ^ n) (hk' : k' < 2 ^ n) (h : digits zero one n k = digits zero one n k') :
    k = k' := by
  refine Nat.eq_of_testBit_eq fun i => ?_
  by_cases hi : i < n
  · have hsign := List.map_inj_left.1 h i (List.mem_range.2 hi)
    cases hb : k.testBit i <;> cases hb' : k'.testBit i <;> simp [hb, hb'] at hsign
    · rfl
    · exact absurd hsign hne
    · exact absurd hsign.symm hne
    · rfl
  · have hpow : 2 ^ n ≤ 2 ^ i := Nat.pow_le_pow_right (by decide) (by omega)
    rw [Nat.testBit_lt_two_pow (by omega), Nat.testBit_lt_two_pow (by omega)]

/-- Ids of eleven digits. -/
private def numberedId (k : Nat) : PeerId := String.ofList (digits '0' '1' 11 k)

private theorem numberedId_inj {k k' : Nat} (hk : k < 2048) (hk' : k' < 2048)
    (h : numberedId k = numberedId k') : k = k' :=
  digits_inj (by decide) hk hk' (String.ofList_injective h)

private def numberedRow (k : Nat) : Row :=
  ⟨digits 0 1 16 k, numberedId k, [1], List.replicate 32 2, InfoCodec.plain.encode ⟨"192.0.2.1"⟩⟩

/-- The table with the first `n` numbered rows. -/
private def numberedTable (n : Nat) (hn : n ≤ 2048) : Database where
  rows := (List.range n).map numberedRow
  guidNodup := by
    rw [List.map_map]
    refine List.nodup_range.map_on fun k hk k' hk' h => ?_
    rw [List.mem_range] at hk hk'
    exact digits_inj (n := 16) (by decide : (0 : UInt8) ≠ 1) (by omega) (by omega) h
  idNodup := by
    rw [List.map_map]
    refine List.nodup_range.map_on fun k hk k' hk' h => ?_
    rw [List.mem_range] at hk hk'
    exact numberedId_inj (by omega) (by omega) h

private theorem numberedTable_getPeer {n k : Nat} {hn : n ≤ 2048} (hk : k < n) :
    (numberedTable n hn).getPeer (numberedId k) = some (numberedRow k) :=
  (Database.getPeer_eq_some_iff _ _ _).2 ⟨List.mem_map.2 ⟨k, List.mem_range.2 hk, rfl⟩, rfl⟩

private theorem mem_numberedTable {n : Nat} {hn : n ≤ 2048} {row : Row}
    (h : row ∈ (numberedTable n hn).rows) : ∃ k, row = numberedRow k := by
  obtain ⟨k, -, rfl⟩ := List.mem_map.1 h
  exact ⟨k, rfl⟩

/-- Rows for one id more than the cache can hold, and lookups of all of them. -/
private theorem exists_hidden_row {n : Nat} (hn : n < 2048) (hmax : cfg.maxCachedPeers = n)
    (hinfo : ∀ k, cfg.infoCodec.decode (numberedRow k).info = some ⟨"192.0.2.1"⟩) (start : Nat) :
    ∃ (id : PeerId) (db : Database) (s : State) (tr : List Event),
      db.Claimed ∧ Run (step cfg) anything (State.initial start db) (tr ++ [.got id none]) s ∧
        s.db.getPeer id ≠ none := by
  have hrows : ∀ id, (numberedTable (n + 1) hn).getPeer id = none ∨ ∃ row info,
      (numberedTable (n + 1) hn).getPeer id = some row ∧
        cfg.infoCodec.decode row.info = some info := by
    intro id
    cases hrow : (numberedTable (n + 1) hn).getPeer id with
    | none => exact Or.inl rfl
    | some row =>
      obtain ⟨k, rfl⟩ := mem_numberedTable ((Database.getPeer_eq_some_iff _ _ _).1 hrow).1
      exact Or.inr ⟨_, _, rfl, hinfo k⟩
  have hnodup : ((List.range n).map numberedId).Nodup := by
    refine List.nodup_range.map_on fun k hk k' hk' h => ?_
    rw [List.mem_range] at hk hk'
    exact numberedId_inj (by omega) (by omega) h
  have hin : ∀ id ∈ (List.range n).map numberedId,
      (numberedTable (n + 1) hn).getPeer id ≠ none := by
    intro id hid
    obtain ⟨k, hk, rfl⟩ := List.mem_map.1 hid
    rw [List.mem_range] at hk
    rw [numberedTable_getPeer (by omega)]
    exact nofun
  have hlast : numberedId n ∉ (List.range n).map numberedId := by
    intro hid
    obtain ⟨k, hk, he⟩ := List.mem_map.1 hid
    rw [List.mem_range] at hk
    have := numberedId_inj (by omega) hn he
    omega
  have hlen : ((List.range n).map numberedId).length = cfg.maxCachedPeers := by
    rw [List.length_map, List.length_range, hmax]
  obtain ⟨s, tr, hrun, hf⟩ := exists_filled hrows _ hnodup hin (Nat.le_of_eq hlen)
  obtain ⟨s', tr', hrun', hdb⟩ := exists_got_none hrun hf (Nat.le_of_eq hlen.symm) hlast
    (numberedTable_getPeer (Nat.lt_succ_self n)) (hinfo n)
  refine ⟨numberedId n, numberedTable (n + 1) hn, s', tr', fun row hrow => ?_, hrun', ?_⟩
  · obtain ⟨k, rfl⟩ := mem_numberedTable hrow
    exact nofun
  · rw [hdb, numberedTable_getPeer (Nat.lt_succ_self n)]
    exact nofun

/-- A cache with the smallest capacity that the server accepts can be so full of
peers in use that `get` answers `Ok(None)` for an id that has a row. -/
theorem full_cache_hides_row :
    ∃ (id : PeerId) (db : Database) (s : State) (tr : List Event),
      db.Claimed ∧ Run (step (sampleConfig true)) anything (State.initial sampleStart db)
        (tr ++ [.got id none]) s ∧ s.db.getPeer id ≠ none :=
  exists_hidden_row (n := 1024) (by omega) rfl (fun _ => InfoCodec.plain.decode_encode _) sampleStart

end Full

/-! ## Signed keys -/

/-- A key is read from a peer that has one and that is not being persisted, and
no id is removed from the cache while a lookup that read its row is about to offer
it. -/
structure ReadsCommitted (tr : List Event) (s : State) (a : Action) : Prop where
  read : ∀ {i ch id o}, a = .run i ch → s.tasks[i]? = some (.readPk id o) →
    (s.peers o).persistenceInProgress = false ∧ (s.peers o).pk ≠ []
  evict : ∀ {id}, Evicts s a id → ¬ Offered s id true

theorem ReadsCommitted.orderly {cfg : Config} {tr : List Event} {s s' : State} {a : Action}
    {evs : List Event} (hok : ReadsCommitted tr s a) (h : step cfg s a = some (s', evs)) :
    Orderly (Criterion.whole cfg false) (s.registry cfg) (s'.registry cfg) := by
  refine orderly_of_step h (fun {id f} hev hoffer => ?_)
    fun _ _ _ hstrict => by cases hstrict
  obtain ⟨t, ht, hcargo⟩ := hoffer
  unfold Criterion.Tolerates
  split
  · rename_i hloaded
    exact absurd ⟨t, ht, f, hcargo, hloaded⟩ (hok.evict hev)
  · rfl

/-- In every run whose steps read committed keys only, a key that `get_pk` signs
for an id is the one that the row of the id has at that moment. -/
theorem signed_key_committed {cfg : Config} {now : Nat} {db : Database} {tr : List Event}
    {s s' : State} {a : Action} {evs : List Event}
    (hrun : Run (step cfg) ReadsCommitted (State.initial now db) tr s)
    (hok : ReadsCommitted tr s a) (h : step cfg s a = some (s', evs)) {id : PeerId} {pk : Bytes}
    (hev : Event.signed id pk ∈ evs) : ∃ row, s'.db.getPeer id = some row ∧ row.pk = pk := by
  have ha : Agreement (Criterion.whole cfg false) (s.registry cfg) :=
    run_agreement (fun hcl => by cases hcl) (fun _ hok hs => hok.orderly hs) hrun
  rcases step_cases h with ⟨d, -, rfl, rfl⟩ | ⟨r, -, rfl, rfl⟩ |
    ⟨i, ch, t, out, rfl, hi, -, hm, rfl, rfl⟩
  · cases hev
  · cases hev
  · obtain ⟨o, rfl, rfl, hstore⟩ := hm.signed_eq hev
    obtain ⟨hidle, hne⟩ := hok.read rfl hi
    have hget : s.map.get id = some o :=
      (run_wellFormed hrun).held _ (List.mem_of_getElem? hi) (id, o) List.mem_cons_self
    change ∃ row, out.store.db.getPeer id = some row ∧ _
    rw [hstore]
    rcases ha.peer (cached_of_get hget) hidle with ⟨hblank, -⟩ | ⟨row, hrow, hmatch⟩
    · exact absurd hblank.pk hne
    · exact ⟨row, hrow, hmatch.pk⟩

private theorem readsCommitted_of_settled {tr : List Event} {s : State} {a : Action}
    (h : settled s a = true) : ReadsCommitted tr s a := by
  refine ⟨fun ha hi => ?_, fun hev => absurd hev (not_evicts_of_settled h)⟩
  subst ha
  simpa [settled, hi] using h

/-- A registration that is stored, and a request for the key. -/
theorem signed_key_committed_stored :
    ∃ (s s' : State) (tr evs : List Event),
      Run (step (sampleConfig true)) ReadsCommitted (State.initial sampleStart .empty) tr s ∧
      step (sampleConfig true) s (.run 2 {}) = some (s', evs) ∧
      Event.signed sampleId (sampleRequest 1 2).pk ∈ evs ∧
      ∃ row, s'.db.getPeer sampleId = some row ∧ row.pk = (sampleRequest 1 2).pk := by
  obtain ⟨s, tr, hrun, hshow⟩ := exists_run_of_exec (guarded (step (sampleConfig true)) settled)
    (State.initial sampleStart .empty)
    (.call (.registerPk (sampleOrigin 0) (sampleRequest 1 2)) :: runs 0 6 ++ runs 1 2 ++
      .call (.getPk "1.4.0" sampleId) :: runs 2 2)
    (fun x => (settled x.1 (.run 2 {}),
      (step (sampleConfig true) x.1 (.run 2 {})).map fun (y : State × List Event) =>
        decide (Event.signed sampleId (sampleRequest 1 2).pk ∈ y.2)))
    (b := (true, some true)) (by decide +kernel)
  obtain ⟨hok, hstep⟩ := Prod.ext_iff.1 hshow
  obtain ⟨⟨s', evs⟩, hs, hev⟩ := Option.map_eq_some_iff.1 hstep
  have hrun' : Run (step (sampleConfig true)) ReadsCommitted
      (State.initial sampleStart .empty) tr s :=
    hrun.of_guarded.mono fun _ hok => readsCommitted_of_settled hok
  refine ⟨s, s', tr, evs, hrun', hs, of_decide_eq_true hev, ?_⟩
  exact signed_key_committed hrun' (readsCommitted_of_settled hok) hs (of_decide_eq_true hev)

/-- The key of a request is signed while its write is still to come, and then the
write fails: the request is answered `SERVER_ERROR` and the table never had a row
of the id. -/
theorem signed_key_rolled_back :
    ∃ (s : State) (tr : List Event),
      Run (step (sampleConfig true)) anything (State.initial sampleStart .empty) tr s ∧
      Event.signed sampleId (sampleRequest 1 2).pk ∈ tr ∧
      Task.done (.registerPk (sampleOrigin 0) (sampleRequest 1 2) (.ok .serverError)) ∈ s.tasks ∧
      s.db.rows = [] := by
  obtain ⟨s, tr, hrun, hshow⟩ := exists_run_of_exec (step (sampleConfig true))
    (State.initial sampleStart .empty)
    (.call (.registerPk (sampleOrigin 0) (sampleRequest 1 2)) :: runs 0 6 ++
      .call (.getPk "1.4.0" sampleId) :: runs 2 3 ++ .run 1 { dbOk := false } :: runs 1 1 ++
      runs 0 1)
    (fun x => (decide (Event.signed sampleId (sampleRequest 1 2).pk ∈ x.2),
      decide (Task.done (.registerPk (sampleOrigin 0) (sampleRequest 1 2) (.ok .serverError)) ∈
        x.1.tasks), x.1.db.rows))
    (b := (true, true, [])) (by decide +kernel)
  obtain ⟨hev, hrest⟩ := Prod.ext_iff.1 hshow
  obtain ⟨hdone, hrows⟩ := Prod.ext_iff.1 hrest
  exact ⟨s, tr, hrun, of_decide_eq_true hev, of_decide_eq_true hdone, hrows⟩

end RemoteServer.PeerStore
