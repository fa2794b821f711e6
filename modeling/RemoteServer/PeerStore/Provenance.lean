import RemoteServer.PeerStore.Coherence

/-!
# Where a peer comes from

A `Provenance` is something that the events so far tell about a peer, as far as a
rollback restores it: the address, the times, the identity.  It is asked of every
place from which a cached peer can come back: the cached peers themselves, the
peers that lookups are about to offer, the snapshots of the open persistences and
the rows.

The fields of the structure are the obligations, one for each write that the
server makes.  `run_provenance` is the rule: what meets them holds in every run,
whatever evictions, reloads and failed writes there are.

The rule needs to know which row a persistence writes.  That much holds in every
run (`run_tied`).
-/

namespace RemoteServer.PeerStore

open RustStd Lts

/-! ## The row of a persistence -/

/-- A peer in memory has the `guid` of its row, and nothing more is asked of it. -/
def Criterion.tied (cfg : Config) : Criterion cfg where
  rel := fun _ row x => row.guid = x.guid
  strict := fun _ => false
  stable := fun _ => true
  claimed := false
  guid_eq := id
  of_row := fun _ _ => rfl
  of_guid := fun _ hrel hguid => hguid.trans hrel

theorem run_tied {cfg : Config} {ok : List Event → State → Action → Prop} {now : Nat}
    {db : Database} {tr : List Event} {s : State}
    (h : Run (step cfg) ok (State.initial now db) tr s) :
    Agreement (Criterion.tied cfg) (s.registry cfg) := by
  refine run_agreement (fun hcl => by cases hcl) (fun _ _ hs => orderly_of_step hs ?_ ?_) h
  · intro id f _ _
    unfold Criterion.Tolerates
    split <;> rfl
  · intro i ch call f _ _ _ hstrict
    cases hstrict

/-! ## Provenances -/

/-- A property of the peers of an id, from the instant `start` on. -/
structure Provenance (cfg : Config) (start : Nat) where
  peer : List Event → Nat → PeerId → PeerRegistrationRollback → Prop
  /-- The same for the persisted `info`. -/
  row : List Event → PeerId → String → Prop
  peer_mono : ∀ {tr now id x} (evs : List Event) (d : Nat), peer tr now id x →
    peer (tr ++ evs) (now + d) id x
  row_mono : ∀ {tr id info} (evs : List Event), row tr id info → row (tr ++ evs) id info
  blank : ∀ {tr now id}, start ≤ now → peer tr now id (Peer.fresh now).snapshot
  loaded : ∀ {tr now id} {r : Row} {info}, start ≤ now → row tr id r.info →
    cfg.infoCodec.decode r.info = some info → peer tr now id (loadedPeer r info now).snapshot
  beat : ∀ {tr now id} {p : Peer} (origin : Origin), peer tr now id p.snapshot →
    peer (tr ++ [.beat origin id (heartbeat cfg.allowUnmanagedDevices p origin.addr now).2]) now id
      (heartbeat cfg.allowUnmanagedDevices p origin.addr now).1.snapshot
  staged : ∀ {tr now id} {p : Peer} (i : Nat) (origin : Origin) (uuid pk : Bytes),
    peer tr now id p.snapshot →
    peer (tr ++ [.staged i origin id now]) now id
      (p.staged origin.addr uuid pk origin.addr.ip.toString now).snapshot
  stagedRow : ∀ {tr now id} {p : Peer} (i : Nat) (origin : Origin), peer tr now id p.snapshot →
    row (tr ++ [.staged i origin id now]) id
      (cfg.infoCodec.encode { p.info with ip := origin.addr.ip.toString })
  verified : ∀ {tr now id} {p : Peer} (i : Nat) (origin : Origin), peer tr now id p.snapshot →
    peer (tr ++ [.completed i origin id now]) now id (p.verifiedNow now).snapshot

/-- The property holds wherever a cached peer can come from. -/
structure Provenance.Known {cfg : Config} {start : Nat} (k : Provenance cfg start)
    (tr : List Event) (r : Registry) : Prop where
  start_le : start ≤ r.now
  peer : ∀ {id p}, r.cached id = some p → k.peer tr r.now id p.snapshot
  offer : ∀ {id f}, some (.fresh id f) ∈ r.cargos → k.peer tr r.now id f.peer.snapshot
  pending : ∀ {c p}, c ∈ r.cargos → c.bind Cargo.pending = some p →
    k.peer tr r.now p.id p.rollback ∧ k.row tr p.id p.info
  row : ∀ {id row}, r.db.getPeer id = some row → k.row tr id row.info

section Step

variable {cfg : Config} {start : Nat} {k : Provenance cfg start} {tr : List Event} {r : Registry}
  {i : Nat} {c c' : Option Cargo} {v : View} {spawned : List Persist} {evs : List Event}

theorem Provenance.peer_append {now : Nat} {id : PeerId} {x : PeerRegistrationRollback}
    (h : k.peer tr now id x) (evs : List Event) : k.peer (tr ++ evs) now id x :=
  k.peer_mono evs 0 h

/-- A peer with the property is put into the cache. -/
theorem Provenance.Known.peer_put (hk : k.Known tr r) {id : PeerId} {p' : Peer}
    (hp' : k.peer (tr ++ evs) r.now id p'.snapshot) {id' : PeerId} {q : Peer}
    (hq : (r.set id p').cached id' = some q) : k.peer (tr ++ evs) r.now id' q.snapshot := by
  rcases View.cached_set_cases hq with ⟨rfl, rfl⟩ | ⟨-, hq⟩
  · exact hp'
  · exact k.peer_append (hk.peer hq) evs

/-- Every write to a cached peer meets the obligation for it. -/
theorem Effect.known_peer (h : Effect cfg r i c v c' spawned evs) (hk : k.Known tr r)
    (hi : r.cargos[i]? = some c) {id : PeerId} {q : Peer} (hq : v.cached id = some q) :
    k.peer (tr ++ evs) r.now id q.snapshot := by
  have hc := List.mem_of_getElem? hi
  cases h with
  | insert => exact hk.peer_put (k.peer_append (hk.offer hc) _) hq
  | evict _ hsub =>
    rcases hsub id with hsame | hgone
    · exact k.peer_append (hk.peer (hsame ▸ hq)) _
    · rw [hgone] at hq
      cases hq
  | edit hp hedit =>
    refine hk.peer_put ?_ hq
    cases hedit with
    | touch => exact k.peer_append (hk.peer hp) _
    | attempt => exact k.peer_append (hk.peer hp) _
    | beat => exact k.beat _ (hk.peer hp)
  | acceptSame hp =>
    refine hk.peer_put ?_ hq
    exact k.peer_append (hk.peer hp) _
  | acceptVerified hp => exact hk.peer_put (k.verified _ _ (hk.peer hp)) hq
  | @stage origin rk _ _ p _ _ hp _ hstage =>
    obtain ⟨-, -, -, -, -, regPk, rfl⟩ := stage_persist hstage
    refine hk.peer_put ?_ hq
    exact k.staged (p := p) i origin rk.uuid rk.pk (hk.peer hp)
  | @commit p guid peer hp =>
    refine hk.peer_put ?_ hq
    -- an authorized commit is a verification, and any other one writes nothing of the snapshot
    cases hm : p.managedAuthorized with
    | true => exact k.verified _ _ (hk.peer hp)
    | false => exact k.peer_append (hk.peer hp) _
  | rollback => exact hk.peer_put (k.peer_append (hk.pending hc rfl).1 _) hq
  | _ => exact k.peer_append (hk.peer hq) _

theorem Effect.known_offer (h : Effect cfg r i c v c' spawned evs) (hk : k.Known tr r)
    (hi : r.cargos[i]? = some c) {id : PeerId} {f : Fresh} (hf : c' = some (.fresh id f)) :
    k.peer (tr ++ evs) r.now id f.peer.snapshot := by
  cases h with
  | idle => exact k.peer_append (hk.offer (hf ▸ List.mem_of_getElem? hi)) _
  | evict => exact k.peer_append (hk.offer (hf ▸ List.mem_of_getElem? hi)) _
  | load hrow hinfo =>
    cases hf
    exact k.peer_append (k.loaded hk.start_le (hk.row hrow) hinfo) _
  | absent =>
    cases hf
    exact k.peer_append (k.blank hk.start_le) _
  | noRoom =>
    cases hf
    exact k.peer_append (k.blank hk.start_le) _
  | _ => cases hf

/-- The snapshot of a staging is the peer before it. -/
theorem Effect.known_spawned (h : Effect cfg r i c v c' spawned evs) (hk : k.Known tr r)
    {p : Persist} (hp : p ∈ spawned) :
    k.peer (tr ++ evs) r.now p.id p.rollback ∧ k.row (tr ++ evs) p.id p.info := by
  cases h with
  | stage hcached _ hstage =>
    obtain ⟨-, -, -, hrollback, hinfo, -⟩ := stage_persist hstage
    cases List.mem_singleton.1 hp
    dsimp only
    rw [hrollback, hinfo]
    exact ⟨k.peer_append (hk.peer hcached) _, k.stagedRow _ _ (hk.peer hcached)⟩
  | _ => cases hp

/-- A row is an old one or the one of a persistence. -/
theorem Effect.known_row (h : Effect cfg r i c v c' spawned evs)
    (ha : Agreement (Criterion.tied cfg) r) (hk : k.Known tr r) (hi : r.cargos[i]? = some c)
    {id : PeerId} {row : Row} (hrow : v.db.getPeer id = some row) :
    k.row (tr ++ evs) id row.info := by
  have hc := List.mem_of_getElem? hi
  cases h with
  | evict hdb => exact k.row_mono _ (hk.row (hdb ▸ hrow))
  | @write p db guid _ hdb =>
    obtain ⟨hnew, -, hother⟩ := ha.write hc hdb
    by_cases hid : id = p.id
    · subst hid
      change db.getPeer p.id = some row at hrow
      rw [hnew] at hrow
      cases hrow
      exact k.row_mono _ (hk.pending hc rfl).2
    · exact k.row_mono _ (hk.row ((hother id hid).symm.trans hrow))
  | _ => exact k.row_mono _ (hk.row hrow)

end Step

/-! ## Runs -/

theorem step_known {cfg : Config} {start : Nat} {k : Provenance cfg start} {tr : List Event}
    {r r' : Registry} {evs : List Event} (hk : k.Known tr r)
    (ha : Agreement (Criterion.tied cfg) r) (h : r.Step cfg evs r') : k.Known (tr ++ evs) r' := by
  cases h with
  | tick d =>
    have hmono : ∀ {id x}, k.peer tr r.now id x → k.peer (tr ++ []) (r.now + d) id x :=
      fun hx => k.peer_mono [] d hx
    refine ⟨Nat.le_add_right_of_le hk.start_le, fun hp => hmono (hk.peer hp),
      fun hf => hmono (hk.offer hf), fun hc hp => ?_, fun hrow => k.row_mono _ (hk.row hrow)⟩
    obtain ⟨hback, hinfo⟩ := hk.pending hc hp
    exact ⟨hmono hback, k.row_mono _ hinfo⟩
  | call =>
    rw [List.append_nil]
    refine ⟨hk.start_le, hk.peer, fun hmem => ?_, fun hmem hp => ?_, hk.row⟩
    · rcases List.mem_append.1 hmem with hmem | hmem
      · exact hk.offer hmem
      · cases List.mem_singleton.1 hmem
    · rcases List.mem_append.1 hmem with hmem | hmem
      · exact hk.pending hmem hp
      · rw [List.mem_singleton.1 hmem] at hp
        cases hp
  | move hi heff =>
    -- what a task that does not move carries is as before
    have hold : ∀ {c p}, c ∈ r.cargos → c.bind Cargo.pending = some p →
        k.peer (tr ++ evs) r.now p.id p.rollback ∧ k.row (tr ++ evs) p.id p.info := by
      intro c p hc hp
      obtain ⟨hback, hinfo⟩ := hk.pending hc hp
      exact ⟨k.peer_append hback _, k.row_mono _ hinfo⟩
    refine ⟨hk.start_le, fun hq => heff.known_peer hk hi hq, fun hmem => ?_, fun hmem hp => ?_,
      fun hrow => heff.known_row ha hk hi hrow⟩
    · rcases mem_advance hmem with hc | hmem | ⟨j, -, hj⟩
      · exact heff.known_offer hk hi hc.symm
      · obtain ⟨p, -, hp⟩ := List.mem_map.1 hmem
        cases hp
      · exact k.peer_append (hk.offer (List.mem_of_getElem? hj)) _
    · rcases mem_advance hmem with rfl | hmem | ⟨j, -, hj⟩
      · exact hold (List.mem_of_getElem? hi) (heff.pending_eq hp)
      · obtain ⟨q, hq, rfl⟩ := List.mem_map.1 hmem
        cases hp
        exact heff.known_spawned hk hq
      · exact hold (List.mem_of_getElem? hj) hp

/-- A provenance that the first rows have holds in every run. -/
theorem run_provenance {cfg : Config} {now : Nat} (k : Provenance cfg now)
    {ok : List Event → State → Action → Prop} {db : Database}
    (hdb : ∀ {id row}, db.getPeer id = some row → k.row [] id row.info) {tr : List Event} {s : State}
    (h : Run (step cfg) ok (State.initial now db) tr s) : k.Known tr (s.registry cfg) := by
  refine run_registry (G := fun r _ => Agreement (Criterion.tied cfg) r) (J := k.Known) ?_
    (fun hr _ _ => run_tied hr) (fun hk ha hs => step_known hk ha hs) h
  exact ⟨Nat.le_refl now, nofun, fun hmem => absurd hmem List.not_mem_nil,
    fun hmem => absurd hmem List.not_mem_nil, hdb⟩

end RemoteServer.PeerStore
