import RemoteServer.PeerStore.Exclusive

/-!
# Peers that nobody has registered

A peer that is only loaded from the database, or that a registration has only just
created, must not count as online.  The server gives it the registration time of
`get_expired_time`, an hour ago.

* `Registered` says that a `RegisterPk` or a heartbeat for the id was accepted.
* `Aged` is the invariant of the registry: a peer for which that is not so, and which
  no registration is being stored for, has a registration time of at least an hour
  ago.  The snapshot of a registration that is being stored has it as well, so a
  rollback keeps it.

The clock has to be an hour old from the start: on a younger one `get_expired_time`
returns the current instant.
-/

namespace RemoteServer.PeerStore

open RustStd Lts

/-- The events accept a registration of `id`. -/
def Registered (tr : List Event) (id : PeerId) : Prop :=
  ∃ e ∈ tr, (∃ i origin now, e = .completed i origin id now) ∨ ∃ origin, e = .beat origin id false

theorem Registered.append {tr : List Event} {id : PeerId} (h : Registered tr id)
    (evs : List Event) : Registered (tr ++ evs) id := by
  obtain ⟨e, he, hacc⟩ := h
  exact ⟨e, List.mem_append_left _ he, hacc⟩

theorem registered_of_completed {tr : List Event} {i : Nat} {origin : Origin} {id : PeerId}
    {now : Nat} : Registered (tr ++ [.completed i origin id now]) id :=
  ⟨_, List.mem_append_right _ (List.mem_singleton_self _), Or.inl ⟨i, origin, now, rfl⟩⟩

theorem registered_of_beat {tr : List Event} {origin : Origin} {id : PeerId} :
    Registered (tr ++ [.beat origin id false]) id :=
  ⟨_, List.mem_append_right _ (List.mem_singleton_self _), Or.inr ⟨origin, rfl⟩⟩

/-- The registration time of an unregistered id is at least an hour old. -/
def AgedTime (tr : List Event) (now : Nat) (id : PeerId) (lastRegTime : Nat) : Prop :=
  Registered tr id ∨ lastRegTime + Instant.ofSecs 3600 ≤ now

theorem AgedTime.append {tr : List Event} {now lastRegTime : Nat} {id : PeerId}
    (h : AgedTime tr now id lastRegTime) (evs : List Event) (d : Nat) :
    AgedTime (tr ++ evs) (now + d) id lastRegTime := by
  rcases h with h | h
  · exact Or.inl (h.append evs)
  · exact Or.inr (by omega)

theorem agedTime_fresh {tr : List Event} {now : Nat} {id : PeerId}
    (h : Instant.ofSecs 3600 ≤ now) : AgedTime tr now id (getExpiredTime now) := by
  right
  rw [getExpiredTime, if_pos h]
  omega

structure Aged (tr : List Event) (r : Registry) : Prop where
  clock : Instant.ofSecs 3600 ≤ r.now
  peer : ∀ id p, r.cached id = some p → p.persistenceInProgress = false →
    AgedTime tr r.now id p.lastRegTime
  offer : ∀ id f, some (.fresh id f) ∈ r.cargos → AgedTime tr r.now id f.peer.lastRegTime
  pending : ∀ c p, c ∈ r.cargos → c.bind Cargo.pending = some p →
    AgedTime tr r.now p.id p.rollback.lastRegTime

section Step

variable {cfg : Config} {tr : List Event} {r : Registry} {i : Nat} {c c' : Option Cargo}
  {v : View} {spawned : List Persist} {evs : List Event}

/-- A peer with an old registration time is put into the cache. -/
theorem Aged.peer_put (h : Aged tr r) {id : PeerId} {p : Peer}
    (hp : p.persistenceInProgress = false → AgedTime (tr ++ evs) r.now id p.lastRegTime)
    {id' : PeerId} {q : Peer} (hq : (r.set id p).cached id' = some q)
    (hbusy : q.persistenceInProgress = false) : AgedTime (tr ++ evs) r.now id' q.lastRegTime := by
  rcases View.cached_set_cases hq with ⟨rfl, rfl⟩ | ⟨-, hq⟩
  · exact hp hbusy
  · exact (h.peer id' q hq hbusy).append evs 0

theorem Edit.aged {id : PeerId} {p p' : Peer} {now : Nat} (he : Edit cfg now id p p' evs)
    (hp : p.persistenceInProgress = false → AgedTime tr now id p.lastRegTime)
    (hbusy : p'.persistenceInProgress = false) : AgedTime (tr ++ evs) now id p'.lastRegTime := by
  cases he with
  | touch => exact (hp hbusy).append evs 0
  | attempt => exact (hp hbusy).append evs 0
  | @beat origin =>
    rcases heartbeat_cases cfg.allowUnmanagedDevices p origin.addr now with hsame | ⟨hnew, -⟩
    · rw [hsame] at hbusy ⊢
      exact (hp hbusy).append _ 0
    · rw [hnew]
      exact Or.inl registered_of_beat

theorem Effect.aged_peer (h : Effect cfg r i c v c' spawned evs) (ha : Aged tr r)
    (hi : r.cargos[i]? = some c) {id : PeerId} {q : Peer} (hq : v.cached id = some q)
    (hbusy : q.persistenceInProgress = false) : AgedTime (tr ++ evs) r.now id q.lastRegTime := by
  have hc := List.mem_of_getElem? hi
  cases h with
  | insert => exact ha.peer_put (fun _ => (ha.offer _ _ hc).append evs 0) hq hbusy
  | evict _ hsub =>
    rcases hsub id with hsame | hgone
    · exact (ha.peer id q (hsame ▸ hq) hbusy).append _ 0
    · rw [hgone] at hq
      cases hq
  | edit hp hedit => exact ha.peer_put (hedit.aged (ha.peer _ _ hp)) hq hbusy
  | acceptSame => exact ha.peer_put (fun _ => Or.inl registered_of_completed) hq hbusy
  | acceptVerified => exact ha.peer_put (fun _ => Or.inl registered_of_completed) hq hbusy
  | stage _ _ hstage =>
    -- a staged peer is in progress
    obtain ⟨-, -, -, -, -, regPk, rfl⟩ := stage_persist hstage
    exact ha.peer_put (fun hfree : true = false => by cases hfree) hq hbusy
  | commit => exact ha.peer_put (fun _ => Or.inl registered_of_completed) hq hbusy
  | rollback => exact ha.peer_put (fun _ => (ha.pending _ _ hc rfl).append _ 0) hq hbusy
  | _ => exact (ha.peer id q hq hbusy).append _ 0

theorem Effect.aged_offer (h : Effect cfg r i c v c' spawned evs) (ha : Aged tr r)
    (hi : r.cargos[i]? = some c) {id : PeerId} {f : Fresh} (hf : c' = some (.fresh id f)) :
    AgedTime (tr ++ evs) r.now id f.peer.lastRegTime := by
  cases h with
  | idle => exact (ha.offer id f (hf ▸ List.mem_of_getElem? hi)).append _ 0
  | evict => exact (ha.offer id f (hf ▸ List.mem_of_getElem? hi)).append _ 0
  | load => cases hf; exact agedTime_fresh ha.clock
  | absent => cases hf; exact agedTime_fresh ha.clock
  | noRoom => cases hf; exact agedTime_fresh ha.clock
  | _ => cases hf

/-- The snapshot of a staging is a peer that was not in progress. -/
theorem Effect.aged_spawned (h : Effect cfg r i c v c' spawned evs) (ha : Aged tr r)
    {p : Persist} (hp : p ∈ spawned) :
    AgedTime (tr ++ evs) r.now p.id p.rollback.lastRegTime := by
  cases h with
  | stage hcached _ hstage =>
    obtain ⟨hbusy, -, -, hrollback, -⟩ := stage_persist hstage
    cases List.mem_singleton.1 hp
    dsimp only
    rw [hrollback]
    exact (ha.peer _ _ hcached hbusy).append _ 0
  | _ => cases hp

end Step

theorem step_aged {cfg : Config} {tr : List Event} {r r' : Registry} {evs : List Event}
    (ha : Aged tr r) (h : r.Step cfg evs r') : Aged (tr ++ evs) r' := by
  cases h with
  | tick d =>
    exact ⟨Nat.le_add_right_of_le ha.clock, fun id p hp hbusy => (ha.peer id p hp hbusy).append _ d,
      fun id f hf => (ha.offer id f hf).append _ d, fun c p hc hp => (ha.pending c p hc hp).append _ d⟩
  | call =>
    rw [List.append_nil]
    refine ⟨ha.clock, ha.peer, fun id f hmem => ?_, fun c p hmem hp => ?_⟩
    · rcases List.mem_append.1 hmem with hmem | hmem
      · exact ha.offer id f hmem
      · cases List.mem_singleton.1 hmem
    · rcases List.mem_append.1 hmem with hmem | hmem
      · exact ha.pending c p hmem hp
      · rw [List.mem_singleton.1 hmem] at hp
        cases hp
  | move hi heff =>
    refine ⟨ha.clock, fun id p hp hbusy => heff.aged_peer ha hi hp hbusy, fun id f hmem => ?_,
      fun c p hmem hp => ?_⟩
    · rcases mem_advance hmem with hc | hmem | ⟨j, -, hj⟩
      · exact heff.aged_offer ha hi hc.symm
      · obtain ⟨p, -, hp⟩ := List.mem_map.1 hmem
        cases hp
      · exact (ha.offer id f (List.mem_of_getElem? hj)).append _ 0
    · rcases mem_advance hmem with rfl | hmem | ⟨j, -, hj⟩
      · exact (ha.pending _ p (List.mem_of_getElem? hi) (heff.pending_eq hp)).append _ 0
      · obtain ⟨q, hq, rfl⟩ := List.mem_map.1 hmem
        cases hp
        exact heff.aged_spawned ha hq
      · exact (ha.pending c p (List.mem_of_getElem? hj) hp).append _ 0

theorem run_aged {cfg : Config} {ok : List Event → State → Action → Prop} {now : Nat}
    {db : Database} (hclock : Instant.ofSecs 3600 ≤ now) {tr : List Event} {s : State}
    (h : Run (step cfg) ok (State.initial now db) tr s) : Aged tr (s.registry cfg) :=
  run_registry (G := fun _ _ => True) (J := Aged)
    ⟨hclock, nofun, fun _ _ hmem => absurd hmem List.not_mem_nil,
      fun _ _ hmem => absurd hmem List.not_mem_nil⟩
    (fun _ _ _ => trivial) (fun ha _ hs => step_aged ha hs) h

/-- A peer that was never registered, and is not being registered, is offline. -/
theorem Aged.offline {cfg : Config} {tr : List Event} {s : State} (ha : Aged tr (s.registry cfg))
    {id : PeerId} {o : Nat} (hget : s.map.get id = some o) (hnew : ¬Registered tr id)
    (hbusy : (s.peers o).persistenceInProgress = false) : (s.peers o).online s.now = false := by
  rcases ha.peer id (s.peers o) (cached_of_get hget) hbusy with h | h
  · exact absurd h hnew
  · have h : (s.peers o).lastRegTime + 3600 * 1000000000 ≤ s.now := h
    rw [Peer.online, decide_eq_false_iff_not, Peer.regTimeout, Instant.elapsedMillis]
    omega

end RemoteServer.PeerStore
