import RemoteServer.PeerStore.Agreement

/-!
# Memory and table below capacity

`Criterion.whole` asks a cached peer for everything that the table stores of it.
`evicts_of_step` and `Move.noRoom_of_cargo` find the steps of the machine that an
`Orderly` step excludes, so that a condition on the machine gives one on its
registry.

`memory_agrees` is the result for the normal operation of the cache: while it
stays below its capacity and no eviction pass runs, memory and table agree
outside a persistence, and a persistence is one task.
-/

namespace RemoteServer.PeerStore

open RustStd Lts

/-- The row stores the identity. -/
structure Matches (codec : InfoCodec) (row : Row) (x : Peer.Identity) : Prop where
  guid : row.guid = x.guid
  uuid : row.uuid = x.uuid
  pk : row.pk = x.pk
  info : codec.decode row.info = some x.info

/-- A peer in memory is the whole row. -/
def Criterion.whole (cfg : Config) (strict : Bool) : Criterion cfg where
  rel := fun _ => Matches cfg.infoCodec
  strict := fun _ => strict
  stable := fun _ => false
  claimed := false
  guid_eq := Matches.guid
  of_row := fun _ hinfo => ⟨rfl, rfl, rfl, hinfo⟩
  of_guid := nofun

/-! ## The steps that are not orderly -/

/-- The action ends an eviction pass, and the pass removes the id. -/
def Evicts (s : State) : Action → PeerId → Prop
  | .run i ch, id => ∃ caller snap candidates,
      s.tasks[i]? = some (.evict caller (.scan snap [] candidates)) ∧ s.map.get id ≠ none ∧
      (removeCandidates s ch.tryRead candidates s.map).get id = none
  | _, _ => False

/-- Some task has looked the id up in the table and has not yet offered the
result to the cache; `loaded` says whether it found a row. -/
def Offered (s : State) (id : PeerId) (loaded : Bool) : Prop :=
  ∃ t ∈ s.tasks, ∃ f, t.cargo = some (.fresh id f) ∧ f.loaded = loaded

section

variable {cfg : Config} {s s' : State} {a : Action} {evs : List Event}

/-- An id leaves the cache by an eviction only. -/
theorem evicts_of_step (h : step cfg s a = some (s', evs)) {id : PeerId}
    (hold : s.map.get id ≠ none) (hnew : s'.map.get id = none) : Evicts s a id := by
  rcases step_cases h with ⟨d, -, rfl, -⟩ | ⟨r, -, rfl, -⟩ |
    ⟨i, ch, t, out, rfl, hi, hstep, hm, rfl, -⟩
  · exact absurd hnew hold
  · exact absurd hnew hold
  · change out.store.map.get id = none at hnew
    rcases hm.map_cases with ⟨hmap, -⟩ | ⟨id', hid', -, hmap, -⟩ |
      ⟨caller, snap, candidates, _, rfl, -, -⟩
    · rw [hmap] at hnew
      exact absurd hnew hold
    · rw [hmap, HashMap.get_insert] at hnew
      split at hnew
      · cases hnew
      · exact absurd hnew hold
    · cases hstep
      exact ⟨caller, snap, candidates, hi, hold, hnew⟩

/-- A lookup loses the row it read only when it finds the cache full. -/
theorem Move.noRoom_of_cargo {i : Nat} {t : Task} {out : Outcome} (h : Move cfg s i t out)
    {id : PeerId} {f f' : Fresh} (hc : t.cargo = some (.fresh id f)) (hf : f.loaded = true)
    (hc' : out.task.cargo = some (.fresh id f')) (hf' : f'.loaded = false) :
    ∃ call, t = .lookup call (.cacheLast f) ∧ call.id = id ∧ s.map.get id = none ∧
      cfg.maxCachedPeers ≤ s.map.len := by
  -- a move that passes the offer on
  have hsame : ∀ {u : Task}, u.cargo = t.cargo → u.cargo = some (.fresh id f') → False := by
    intro u hu hu'
    rw [hu, hc] at hu'
    cases hu'
    rw [hf] at hf'
    cases hf'
  -- a move that does not
  have hnone : ∀ {u : Task}, u.cargo = none → u.cargo = some (.fresh id f') → False := by
    intro u hu hu'
    rw [hu] at hu'
    cases hu'
  cases h with
  | @noRoom call f₀ hget hfull =>
    cases hc
    exact ⟨call, rfl, rfl, hget, hfull⟩
  | refuse hreg => rw [Task.cargo_of_registration hreg] at hc; cases hc
  | cached => exact (hnone (Call.cargo_resume _ _) hc').elim
  | inserted => exact (hnone (Call.cargo_resume _ _) hc').elim
  | toWrite => exact (hsame rfl hc').elim
  | toEvict hpc =>
    refine (hsame ?_ hc').elim
    exact (Lookup.cargo_offer hpc).symm
  | @scan caller =>
    cases caller with
    | timer => cases hc
    | cachePeer call f₀ => exact (hsame rfl hc').elim
  | @evicted caller => exact (hsame (caller.cargo_resume _) hc').elim
  | _ => cases hc

theorem registry_cargo {i : Nat} {c : Option Cargo} (h : (s.registry cfg).cargos[i]? = some c) :
    ∃ t, s.tasks[i]? = some t ∧ t.cargo = c := by
  change (s.tasks.map Task.cargo)[i]? = some c at h
  rw [List.getElem?_map] at h
  exact Option.map_eq_some_iff.1 h

/-- A step is orderly when no id is removed while an offer that matters is made
for it, and when no lookup with a row finds the cache full. -/
theorem orderly_of_step {k : Criterion cfg} (h : step cfg s a = some (s', evs))
    (hevict : ∀ {id f}, Evicts s a id → (∃ t ∈ s.tasks, t.cargo = some (.fresh id f)) →
      k.Tolerates id f)
    (hroom : ∀ {i ch call f}, a = .run i ch → s.tasks[i]? = some (.lookup call (.cacheLast f)) →
      f.loaded = true → k.strict call.id = true →
      s.map.get call.id ≠ none ∨ s.map.len < cfg.maxCachedPeers) :
    Orderly k (s.registry cfg) (s'.registry cfg) := by
  refine ⟨fun {id f} hold hnew hmem => ?_, fun {i id f f'} hstrict hi hi' hf => ?_⟩
  · obtain ⟨t, ht, hcargo⟩ := List.mem_map.1 hmem
    refine hevict (evicts_of_step h (fun hnone => hold ?_) (cached_eq_none.1 hnew)) ⟨t, ht, hcargo⟩
    exact cached_eq_none.2 hnone
  · cases hf' : f'.loaded with
    | true => rfl
    | false =>
      exfalso
      obtain ⟨t, ht, hc⟩ := registry_cargo hi
      obtain ⟨t', ht', hc'⟩ := registry_cargo hi'
      -- a task that did not move still offers the same peer
      have hmoved : t' ≠ t := by
        rintro rfl
        rw [hc] at hc'
        cases hc'
        rw [hf] at hf'
        cases hf'
      rcases step_cases h with ⟨d, -, rfl, -⟩ | ⟨r, -, rfl, -⟩ |
        ⟨j, ch, u, out, rfl, hj, -, hm, rfl, -⟩
      · rw [ht] at ht'
        exact hmoved (Option.some.inj ht').symm
      · change (s.tasks ++ [r.start])[i]? = some t' at ht'
        rw [List.getElem?_append_left (List.getElem?_eq_some_iff.1 ht).1, ht] at ht'
        exact hmoved (Option.some.inj ht').symm
      · by_cases hij : i = j
        · subst hij
          rw [ht] at hj
          cases hj
          have hout : (s.after i out).tasks[i]? = some out.task := getElem?_advance_self ht
          rw [hout] at ht'
          cases ht'
          obtain ⟨call, rfl, rfl, hget, hfull⟩ := hm.noRoom_of_cargo hc hf hc' hf'
          rcases hroom rfl ht hf hstrict with hsome | hlt
          · exact hsome hget
          · omega
        · have hout : (s.after j out).tasks[i]? = some t := getElem?_advance_of_ne hij ht
          rw [hout] at ht'
          exact hmoved (Option.some.inj ht').symm

end

/-! ## Below capacity -/

/-- The cache has room and no eviction pass is started. -/
def BelowCapacity (cfg : Config) : List Event → State → Action → Prop := fun _ s a =>
  s.map.len < cfg.maxCachedPeers ∧ a ≠ .call .evictTimer

/-- No eviction pass is under way. -/
def NoPass (s : State) : Prop := ∀ caller e, Task.evict caller e ∉ s.tasks

theorem Call.resume_ne_evict (call : Call) (o : Nat) (caller : Evictor) (e : Evict) :
    call.resume o ≠ .evict caller e := by
  cases call <;> exact nofun

/-- Only a full cache or a pass that is under way leads to a pass. -/
theorem Move.evict_cases {cfg : Config} {s : State} {i : Nat} {t : Task} {out : Outcome}
    (h : Move cfg s i t out) {caller : Evictor} {e : Evict} (htask : out.task = .evict caller e) :
    cfg.maxCachedPeers ≤ s.map.len ∨ ∃ e', t = .evict caller e' := by
  cases h with
  | toEvict _ _ hfull => exact Or.inl hfull
  | scan =>
    cases htask
    exact Or.inr ⟨_, rfl⟩
  | @evicted caller' => cases caller' <;> cases htask
  | touched => exact absurd htask (Call.resume_ne_evict _ _ _ _)
  | cached => exact absurd htask (Call.resume_ne_evict _ _ _ _)
  | inserted => exact absurd htask (Call.resume_ne_evict _ _ _ _)
  | @loadFailed call => cases call <;> cases htask
  | @loadAbsent call => cases call <;> cases htask
  | noRoom _ hfull => exact Or.inl hfull
  | joined =>
    dsimp only at htask
    split at htask <;> cases htask
  | _ => cases htask

theorem Request.start_evict {r : Request} {caller : Evictor} {e : Evict}
    (h : r.start = .evict caller e) : r = .evictTimer := by
  cases r with
  | evictTimer => rfl
  | getPk version id =>
    unfold Request.start at h
    dsimp only at h
    split at h <;> cases h
  | _ => cases h

theorem step_noPass {cfg : Config} {tr : List Event} {s s' : State} {a : Action}
    {evs : List Event} (hn : NoPass s) (hok : BelowCapacity cfg tr s a)
    (h : step cfg s a = some (s', evs)) : NoPass s' := by
  rcases step_cases h with ⟨d, -, rfl, -⟩ | ⟨r, rfl, rfl, -⟩ |
    ⟨i, ch, t, out, -, hi, -, hm, rfl, -⟩
  · exact hn
  · intro caller e hmem
    rcases List.mem_append.1 hmem with hmem | hmem
    · exact hn caller e hmem
    · have hr := Request.start_evict (List.mem_singleton.1 hmem).symm
      exact hok.2 (congrArg Action.call hr)
  · intro caller e hmem
    rcases mem_advance hmem with htask | hmem | ⟨j, -, hj⟩
    · rcases hm.evict_cases htask.symm with hfull | ⟨e', rfl⟩
      · have := hok.1
        omega
      · exact hn caller e' (List.mem_of_getElem? hi)
    · cases hm with
      | stagePersist => cases List.mem_singleton.1 hmem
      | _ => cases hmem
    · exact hn caller e (List.mem_of_getElem? hj)

theorem run_noPass {cfg : Config} {now : Nat} {db : Database} {tr : List Event} {s : State}
    (h : Run (step cfg) (BelowCapacity cfg) (State.initial now db) tr s) : NoPass s :=
  h.inv_state (fun _ _ hmem => absurd hmem List.not_mem_nil)
    fun hn hok hs => step_noPass hn hok hs

/-- The task still has to finish a persistence of the object. -/
def persists (o : Nat) : Task → Bool
  | .persistWrite p => decide (p.obj = o)
  | .persistEnd p _ => decide (p.obj = o)
  | _ => false

theorem persists_eq (o : Nat) (t : Task) :
    persists o t = decide ((t.cargo.bind Cargo.pending).map Persist.obj = some o) := by
  cases t with
  | persistWrite p => simp [persists, Task.cargo, Cargo.pending]
  | persistEnd p result => simp [persists, Task.cargo, Cargo.pending]
  | lookup call pc => cases pc <;> rfl
  | evict caller e => cases caller <;> rfl
  | done answer =>
    cases answer with
    | persisted p stored => cases stored <;> rfl
    | registerPk origin rk result =>
      cases result with
      | error err => rfl
      | ok result => cases result <;> rfl
    | _ => rfl
  | _ => rfl

/-- The persistences of a cached object are those of its id. -/
theorem countP_persists {cfg : Config} {s : State} (hwf : WellFormed s) {id : PeerId} {o : Nat}
    (hget : s.map.get id = some o) :
    s.tasks.countP (persists o) = (s.registry cfg).cargos.countP (opens id) := by
  change _ = (s.tasks.map Task.cargo).countP (opens id)
  rw [List.countP_map]
  refine List.countP_congr fun t ht => ?_
  rw [persists_eq, Function.comp_apply, opens, decide_eq_true_iff, decide_eq_true_iff]
  cases hp : t.cargo.bind Cargo.pending with
  | none => simp
  | some p =>
    have hheld := hwf.held t ht _ (Task.pending_refs hp)
    rw [Option.map_some, Option.map_some, Option.some.injEq, Option.some.injEq]
    constructor
    · intro hobj
      exact hwf.inj (hobj ▸ hheld) hget
    · intro hid
      rw [hid, hget] at hheld
      exact (Option.some.inj hheld).symm

/-- While the cache stays below its capacity and no eviction pass runs, a cached
peer is in progress exactly while one persistence task for it is unfinished, there
are never two, and outside of it the peer is blank without a row or the row. -/
theorem memory_agrees {cfg : Config} {now : Nat} {db : Database} {tr : List Event} {s : State}
    (h : Run (step cfg) (BelowCapacity cfg) (State.initial now db) tr s) {id : PeerId} {o : Nat}
    (hget : s.map.get id = some o) :
    ((s.peers o).persistenceInProgress = true ↔ s.tasks.countP (persists o) = 1) ∧
      s.tasks.countP (persists o) ≤ 1 ∧
      ((s.peers o).persistenceInProgress = false →
        (s.peers o).identity.Blank ∧ s.db.getPeer id = none ∨
          ∃ row, s.db.getPeer id = some row ∧ Matches cfg.infoCodec row (s.peers o).identity) := by
  have hcached : (s.registry cfg).cached id = some (s.peers o) := cached_of_get hget
  have hcount := (run_exclusive h).count id
  rw [← countP_persists (run_wellFormed h) hget, View.busy_of_cached hcached] at hcount
  refine ⟨?_, ?_, fun hbusy => ?_⟩
  · rw [hcount]
    cases (s.peers o).persistenceInProgress <;> simp
  · rw [hcount]
    split <;> omega
  · have hagree : Agreement (Criterion.whole cfg true) (s.registry cfg) := by
      refine run_agreement (fun hcl => by cases hcl) (fun hr hok hs => orderly_of_step hs ?_ ?_) h
      · intro id f hev
        exfalso
        -- no pass, so nothing is removed
        unfold Evicts at hev
        split at hev
        · obtain ⟨caller, snap, candidates, hi, -⟩ := hev
          exact run_noPass hr _ _ (List.mem_of_getElem? hi)
        · exact hev
      · intro i ch call f _ _ _ _
        exact Or.inr hok.1
    rcases hagree.peer hcached hbusy with ⟨hblank, hnone⟩ | hrel
    · exact Or.inl ⟨hblank, hnone rfl⟩
    · exact Or.inr hrel

/-- `BelowCapacity` as a check. -/
private def belowCapacity (cfg : Config) (s : State) (a : Action) : Bool :=
  decide (s.map.len < cfg.maxCachedPeers) &&
    match a with
    | .call .evictTimer => false
    | _ => true

/-- A first registration with a heartbeat of the same device in the middle. -/
private def registerAndBeat : List Action :=
  .call (.registerPk (sampleOrigin 0) (sampleRequest 1 2)) :: runs 0 6 ++
    .call (.registerPeer (sampleOrigin 0) ⟨sampleId, 0⟩) :: runs 2 3 ++ runs 1 2 ++ runs 0 1

theorem memory_agrees_registered :
    ∃ (s : State) (tr : List Event),
      Run (step (sampleConfig true)) (BelowCapacity (sampleConfig true))
        (State.initial sampleStart .empty) tr s ∧
      s.map.get sampleId = some 0 ∧ (s.peers 0).persistenceInProgress = false ∧
      ((s.peers 0).identity.Blank ∧ s.db.getPeer sampleId = none ∨
        ∃ row, s.db.getPeer sampleId = some row ∧
          Matches (sampleConfig true).infoCodec row (s.peers 0).identity) := by
  obtain ⟨s, tr, hrun, hshow⟩ := exists_run_of_exec
    (guarded (step (sampleConfig true)) (belowCapacity (sampleConfig true)))
    (State.initial sampleStart .empty) registerAndBeat
    (fun x => (x.1.map.get sampleId, (x.1.peers 0).persistenceInProgress))
    (b := (some 0, false)) (by decide +kernel)
  have hrun' : Run (step (sampleConfig true)) (BelowCapacity (sampleConfig true))
      (State.initial sampleStart .empty) tr s := by
    refine hrun.of_guarded.mono fun {_ s a} _ hok => ?_
    obtain ⟨hlen, hcall⟩ := Bool.and_eq_true_iff.1 hok
    exact ⟨of_decide_eq_true hlen, fun ha => by rw [ha] at hcall; cases hcall⟩
  obtain ⟨hget, hbusy⟩ := Prod.ext_iff.1 hshow
  exact ⟨s, tr, hrun', hget, hbusy, (memory_agrees hrun' hget).2.2 hbusy⟩

end RemoteServer.PeerStore
