import RemoteServer.PeerStore.Moves

/-!
# Objects and references

`evict_inactive` drops an entry when `Arc::strong_count` is at most two: the
reference of the map and the one of its own snapshot.  The consequence that
everything else rests on is `WellFormed`: an object that some task holds is the
cached object of its id, so two tasks that work on one id at the same time work
on the same object.

* `removeCandidates_get` is what the removal loop does to one id.
* `Move.refs_held` and `Move.keeps_held` are the two halves of the step: the task
  that moves holds cached objects only, and no other task loses one.
* `step_wellFormed` and `run_wellFormed` put them together.
* `one_object_per_id` is the result, with the capacity of the cache.
-/

namespace RemoteServer.PeerStore

open RustStd Lts

/-- The candidates of a scan come from its snapshot. -/
def Evict.FromSnapshot : Evict → Prop
  | .snapshot => True
  | .scan snap todo candidates =>
    (∀ q ∈ todo, q ∈ snap) ∧ ∀ c ∈ candidates, ∃ q ∈ snap, q.1 = c.1

def Task.ScanOk : Task → Prop
  | .evict _ e => e.FromSnapshot
  | _ => True

/-- Every reference leads to the cached object of its id, and an object is
cached under one id. -/
structure WellFormed (s : State) : Prop where
  held : ∀ t ∈ s.tasks, ∀ q ∈ t.refs, s.map.get q.1 = some q.2
  below : ∀ {id o}, s.map.get id = some o → o < s.next
  inj : ∀ {id id' o}, s.map.get id = some o → s.map.get id' = some o → id = id'
  scans : ∀ t ∈ s.tasks, t.ScanOk

/-! ## The removal loop -/

/-- The loop keeps an id or removes it.  It removes an id only when a candidate
names it, its object was not used since the scan, and at most one task holds the
object. -/
theorem removeCandidates_get (s : State) (tryRead : PeerId → Bool) (id : PeerId) :
    ∀ (candidates : List (PeerId × Nat)) (map : HashMap PeerId Nat),
      (removeCandidates s tryRead candidates map).get id = map.get id ∨
      (removeCandidates s tryRead candidates map).get id = none ∧
        ∃ o, map.get id = some o ∧ taskRefs s.tasks o ≤ 1 ∧
          (id, (s.peers o).lastAccessTime) ∈ candidates := by
  intro candidates
  induction candidates with
  | nil => exact fun map => Or.inl rfl
  | cons c rest ih =>
    obtain ⟨cid, time⟩ := c
    intro map
    -- what the rest of the loop does to a map that still has the entry of `id`
    have hrest : ∀ map' : HashMap PeerId Nat, map'.get id = map.get id →
        (removeCandidates s tryRead rest map').get id = map.get id ∨
        (removeCandidates s tryRead rest map').get id = none ∧
          ∃ o, map.get id = some o ∧ taskRefs s.tasks o ≤ 1 ∧
            (id, (s.peers o).lastAccessTime) ∈ (cid, time) :: rest := by
      intro map' hmap'
      rcases ih map' with hkeep | ⟨hgone, o, ho, hrefs, hmem⟩
      · exact Or.inl (hkeep.trans hmap')
      · exact Or.inr ⟨hgone, o, hmap' ▸ ho, hrefs, List.mem_cons_of_mem _ hmem⟩
    simp only [removeCandidates]
    split
    · rename_i o hget
      split
      · rename_i hcond
        by_cases hid : id = cid
        · subst hid
          right
          refine ⟨?_, o, hget, ?_, ?_⟩
          · have hnone : (map.remove id).get id = none := by simp [HashMap.get_remove]
            rcases ih (map.remove id) with hkeep | ⟨hgone, -⟩
            · exact hkeep.trans hnone
            · exact hgone
          · -- the map itself holds one of the two references
            have hone : 0 < map.entries.countP fun e => decide (e.2 = o) :=
              List.countP_pos_iff.2 ⟨(id, o), (map.get_eq_some_iff id o).1 hget, by simp⟩
            have := hcond.1
            unfold strongCount at this
            omega
          · rw [hcond.2.2]
            exact List.mem_cons_self
        · exact hrest _ (by rw [HashMap.get_remove, if_neg hid])
      · exact hrest _ rfl
    · exact hrest _ rfl

theorem removeCandidates_len_le (s : State) (tryRead : PeerId → Bool) :
    ∀ (candidates : List (PeerId × Nat)) (map : HashMap PeerId Nat),
      (removeCandidates s tryRead candidates map).len ≤ map.len := by
  intro candidates
  induction candidates with
  | nil => exact fun _ => Nat.le_refl _
  | cons c rest ih =>
    intro map
    simp only [removeCandidates]
    split
    · split
      · exact Nat.le_trans (ih _) (map.len_remove_le _)
      · exact ih _
    · exact ih _

/-- Two tasks that hold one object are counted as two. -/
theorem two_le_taskRefs {tasks : List Task} {i j : Nat} {t u : Task} {id id' : PeerId} {o : Nat}
    (hne : i ≠ j) (hi : tasks[i]? = some t) (hj : tasks[j]? = some u) (ht : (id, o) ∈ t.refs)
    (hu : (id', o) ∈ u.refs) : 2 ≤ taskRefs tasks o := by
  have hone : ∀ {v : Task} {id : PeerId}, (id, o) ∈ v.refs →
      0 < v.refs.countP fun q => decide (q.2 = o) := fun hv =>
    List.countP_pos_iff.2 ⟨_, hv, by simp⟩
  have hsum := add_le_sum (fun t : Task => t.refs.countP fun q => decide (q.2 = o)) hne hi hj
  have := hone ht
  have := hone hu
  unfold taskRefs
  omega

/-- A pass takes nothing away that another task holds. -/
theorem WellFormed.evict_keeps {s : State} (hwf : WellFormed s) {i j : Nat} {caller : Evictor}
    {snap candidates : List (PeerId × Nat)} {tryRead : PeerId → Bool} {u : Task}
    (hi : s.tasks[i]? = some (.evict caller (.scan snap [] candidates))) (hne : j ≠ i)
    (hj : s.tasks[j]? = some u) {q : PeerId × Nat} (hq : q ∈ u.refs) :
    (removeCandidates s tryRead candidates s.map).get q.1 = some q.2 := by
  have hget := hwf.held u (List.mem_of_getElem? hj) q hq
  rcases removeCandidates_get s tryRead q.1 candidates s.map with hkeep | ⟨-, o, ho, hrefs, hmem⟩
  · exact hkeep.trans hget
  · obtain rfl : q.2 = o := Option.some.inj (hget.symm.trans ho)
    -- the pass holds the object as well, through its snapshot
    obtain ⟨-, hcand⟩ := hwf.scans _ (List.mem_of_getElem? hi)
    obtain ⟨q', hq', hid⟩ := hcand _ hmem
    have hsnap := hwf.held _ (List.mem_of_getElem? hi) q' hq'
    rw [hid, hget] at hsnap
    have hself : (q'.1, q.2) ∈ (Task.evict caller (.scan snap [] candidates)).refs := by
      rw [Option.some.inj hsnap]
      exact hq'
    have := two_le_taskRefs (fun he => hne he.symm) hi hj hself hq
    omega

/-! ## One step -/

section Step

variable {cfg : Config} {s : State} {i : Nat} {t : Task} {out : Outcome}

/-- What a move does to the cache: nothing, an insertion, or a removal. -/
theorem Move.map_cases (h : Move cfg s i t out) :
    out.store.map = s.map ∧ out.store.next = s.next ∨
    (∃ id, s.map.get id = none ∧ s.map.len < cfg.maxCachedPeers ∧
      out.store.map = s.map.insert id s.next ∧ out.store.next = s.next + 1) ∨
    (∃ caller snap candidates tryRead, t = .evict caller (.scan snap [] candidates) ∧
      out.store.map = removeCandidates s tryRead candidates s.map ∧ out.store.next = s.next) := by
  cases h with
  | inserted hpc hget hroom => exact Or.inr (Or.inl ⟨_, hget, hroom, rfl, rfl⟩)
  | evicted => exact Or.inr (Or.inr ⟨_, _, _, _, rfl, rfl, rfl⟩)
  | refuse _ hstore _ => exact Or.inl ⟨hstore.map, hstore.next⟩
  | allowed _ hstore _ => exact Or.inl ⟨hstore.map, hstore.next⟩
  | askApi _ hstore _ => exact Or.inl ⟨hstore.map, hstore.next⟩
  | recorded hstore => exact Or.inl ⟨hstore.map, hstore.next⟩
  | _ => exact Or.inl ⟨rfl, rfl⟩

theorem Call.refs_resume (call : Call) (o : Nat) : (call.resume o).refs = [(call.id, o)] := by
  cases call <;> rfl

theorem Call.refs_failed (call : Call) (err : String) : (call.failed err).refs = [] := by
  cases call <;> rfl

theorem Call.refs_absent (call : Call) (cfg : Config) (now : Nat) :
    (call.absent cfg now).refs = [] := by
  cases call <;> rfl

theorem returnNoRoom_refs (cfg : Config) (s : Store) (call : Call) (f : Fresh) :
    (returnNoRoom cfg s call f).task.refs = [] := by
  unfold returnNoRoom
  dsimp only
  split
  · exact call.refs_absent cfg s.now
  · split
    · rfl
    · exact Call.refs_absent _ cfg s.now

/-- The task that moved holds cached objects only. -/
theorem Move.refs_held (h : Move cfg s i t out) (ht : ∀ q ∈ t.refs, s.map.get q.1 = some q.2) :
    ∀ u, u = out.task ∨ u ∈ out.spawned → ∀ q ∈ u.refs, out.store.map.get q.1 = some q.2 := by
  have hnone : ∀ {l : List (PeerId × Nat)} {m : HashMap PeerId Nat}, l = [] →
      ∀ q ∈ l, m.get q.1 = some q.2 := fun hl q hq => by rw [hl] at hq; cases hq
  have hone : ∀ {id : PeerId} {o : Nat} {m : HashMap PeerId Nat}, m.get id = some o →
      ∀ q ∈ [(id, o)], m.get q.1 = some q.2 := fun hget q hq => by
    rw [List.mem_singleton.1 hq]; exact hget
  rintro u (rfl | hu)
  · cases h with
    | hit hget => exact hone hget
    | memHit hget => exact hone hget
    | cached hpc hget => rw [returnObject, Call.refs_resume]; exact hone hget
    | touched => rw [returnObject, Call.refs_resume]; exact hone (ht _ List.mem_cons_self)
    | inserted hpc hget hroom =>
      rw [returnInserted, returnObject, Call.refs_resume]
      exact hone (HashMap.get_insert_self _ _ _)
    | loadFailed => exact hnone (Call.refs_failed _ _)
    | loadAbsent => exact hnone (Call.refs_absent _ _ _)
    | noRoom => exact hnone (returnNoRoom_refs _ _ _ _)
    | toEvict => exact hnone rfl
    | scan hnext =>
      cases hnext with
      | snapshot => exact fun q hq => (s.map.get_eq_some_iff _ _).2 hq
      | skip => exact ht
      | pick => exact ht
    | @evicted caller => cases caller <;> exact hnone rfl
    | joined =>
      dsimp only
      split
      · exact ht
      · exact hnone rfl
    | stageSameManaged => exact ht
    | stagePersist => exact ht
    | memTouched => exact ht
    | addrRead => exact ht
    | written => exact ht
    | writeFailed => exact ht
    | _ => exact hnone rfl
  · cases h with
    | stagePersist =>
      rw [List.mem_singleton.1 hu]
      exact ht
    | _ => cases hu

/-- The other tasks keep what they hold. -/
theorem Move.keeps_held (h : Move cfg s i t out) (hwf : WellFormed s) (hi : s.tasks[i]? = some t)
    {j : Nat} {u : Task} (hne : j ≠ i) (hj : s.tasks[j]? = some u) :
    ∀ q ∈ u.refs, out.store.map.get q.1 = some q.2 := by
  intro q hq
  have hget := hwf.held u (List.mem_of_getElem? hj) q hq
  rcases h.map_cases with ⟨hmap, -⟩ | ⟨id, hid, -, hmap, -⟩ | ⟨_, _, _, _, rfl, hmap, -⟩
  · rw [hmap]
    exact hget
  · rw [hmap, HashMap.get_insert_of_ne _ _ (fun he => by rw [he, hid] at hget; cases hget)]
    exact hget
  · rw [hmap]
    exact hwf.evict_keeps hi hne hj hq

/-- Every cached object of the new store was cached before or is the new one. -/
theorem Move.get_cases (h : Move cfg s i t out) {id : PeerId} {o : Nat}
    (hget : out.store.map.get id = some o) :
    s.map.get id = some o ∨ s.map.get id = none ∧ o = s.next ∧ out.store.next = s.next + 1 ∧
      out.store.map = s.map.insert id s.next := by
  rcases h.map_cases with ⟨hmap, -⟩ | ⟨id', hid', -, hmap, hnext⟩ | ⟨_, _, _, _, rfl, hmap, -⟩
  · exact Or.inl (hmap ▸ hget)
  · rw [hmap, HashMap.get_insert] at hget
    split at hget
    · rename_i he
      subst he
      exact Or.inr ⟨hid', (Option.some.inj hget).symm, hnext, hmap⟩
    · exact Or.inl hget
  · rw [hmap] at hget
    rcases removeCandidates_get s _ id _ s.map with hkeep | ⟨hgone, -⟩
    · exact Or.inl (hkeep ▸ hget)
    · rw [hgone] at hget
      cases hget

theorem Move.next_le (h : Move cfg s i t out) : s.next ≤ out.store.next := by
  rcases h.map_cases with ⟨-, hnext⟩ | ⟨_, _, _, _, hnext⟩ | ⟨_, _, _, _, _, _, hnext⟩ <;> omega

/-- The scan of the task that moved is still over its snapshot. -/
theorem Move.scanOk (h : Move cfg s i t out) (ht : t.ScanOk) :
    ∀ u, u = out.task ∨ u ∈ out.spawned → u.ScanOk := by
  rintro u (rfl | hu)
  · cases h with
    | scan hnext =>
      cases hnext with
      | snapshot => exact ⟨fun _ hq => hq, by simp⟩
      | skip => exact ⟨fun q hq => ht.1 q (List.mem_cons_of_mem _ hq), ht.2⟩
      | pick =>
        refine ⟨fun q hq => ht.1 q (List.mem_cons_of_mem _ hq), fun c hc => ?_⟩
        rcases List.mem_append.1 hc with hc | hc
        · exact ht.2 c hc
        · rw [List.mem_singleton.1 hc]
          exact ⟨_, ht.1 _ List.mem_cons_self, rfl⟩
    | @evicted caller => cases caller <;> trivial
    | @touched call => cases call <;> trivial
    | @cached call => cases call <;> trivial
    | @inserted call => cases call <;> trivial
    | @loadFailed call => cases call <;> trivial
    | @loadAbsent call => cases call <;> trivial
    | @noRoom call =>
      unfold returnNoRoom
      cases call <;> dsimp only <;> split <;> trivial
    | joined =>
      dsimp only
      split <;> trivial
    | _ => trivial
  · cases h with
    | stagePersist =>
      rw [List.mem_singleton.1 hu]
      trivial
    | _ => cases hu

end Step

theorem wellFormed_initial (now : Nat) (db : Database) : WellFormed (State.initial now db) where
  held := fun _ ht => absurd ht List.not_mem_nil
  below := fun h => by cases h
  inj := fun h => by cases h
  scans := fun _ ht => absurd ht List.not_mem_nil

theorem Request.refs_start (r : Request) : r.start.refs = [] := by
  cases r with
  | getPk version id =>
    unfold Request.start
    dsimp only
    split <;> rfl
  | _ => rfl

theorem Request.scanOk_start (r : Request) : r.start.ScanOk := by
  cases r with
  | getPk version id =>
    unfold Request.start
    dsimp only
    split <;> trivial
  | _ => trivial

theorem step_wellFormed {cfg : Config} {s s' : State} {a : Action} {evs : List Event}
    (hwf : WellFormed s) (h : step cfg s a = some (s', evs)) : WellFormed s' := by
  rcases step_cases h with ⟨d, -, rfl, -⟩ | ⟨r, -, rfl, -⟩ | ⟨i, ch, t, out, -, hi, -, hm, rfl, -⟩
  · exact ⟨hwf.held, hwf.below, hwf.inj, hwf.scans⟩
  · refine ⟨fun t ht => ?_, hwf.below, hwf.inj, fun t ht => ?_⟩
    · rcases List.mem_append.1 ht with ht | ht
      · exact hwf.held t ht
      · rw [List.mem_singleton.1 ht, r.refs_start]
        exact fun q hq => absurd hq List.not_mem_nil
    · rcases List.mem_append.1 ht with ht | ht
      · exact hwf.scans t ht
      · rw [List.mem_singleton.1 ht]
        exact r.scanOk_start
  · have hti := List.mem_of_getElem? hi
    refine ⟨fun u hu => ?_, fun hget => ?_, fun hget hget' => ?_, fun u hu => ?_⟩
    · rcases mem_advance hu with hu | hu | ⟨j, hne, hj⟩
      · exact hm.refs_held (hwf.held t hti) u (Or.inl hu)
      · exact hm.refs_held (hwf.held t hti) u (Or.inr hu)
      · exact hm.keeps_held hwf hi hne hj
    · rcases hm.get_cases hget with hold | ⟨-, rfl, hnext, -⟩
      · exact Nat.lt_of_lt_of_le (hwf.below hold) hm.next_le
      · change s.next < out.store.next
        omega
    · rcases hm.get_cases hget with hold | ⟨hnone, rfl, -, hmap⟩
      · rcases hm.get_cases hget' with hold' | ⟨-, rfl, -, -⟩
        · exact hwf.inj hold hold'
        · exact absurd (hwf.below hold) (Nat.lt_irrefl _)
      · rcases hm.get_cases hget' with hold' | ⟨-, -, -, hmap'⟩
        · exact absurd (hwf.below hold') (Nat.lt_irrefl _)
        · -- both ids were inserted by this one step
          by_contra hne
          have hget₂ : out.store.map.get _ = some _ := hget'
          rw [hmap, HashMap.get_insert_of_ne _ _ (fun he => hne he.symm)] at hget₂
          exact absurd (hwf.below hget₂) (Nat.lt_irrefl _)
    · rcases mem_advance hu with hu | hu | ⟨j, -, hj⟩
      · exact hm.scanOk (hwf.scans t hti) u (Or.inl hu)
      · exact hm.scanOk (hwf.scans t hti) u (Or.inr hu)
      · exact hwf.scans u (List.mem_of_getElem? hj)

/-- In every reachable state an object that a task holds is the cached one. -/
theorem run_wellFormed {cfg : Config} {ok : List Event → State → Action → Prop} {now : Nat}
    {db : Database} {tr : List Event} {s : State}
    (h : Run (step cfg) ok (State.initial now db) tr s) : WellFormed s :=
  h.inv_state (wellFormed_initial now db) fun hwf _ hs => step_wellFormed hwf hs

/-! ## The capacity, and the result -/

theorem step_len_le {cfg : Config} {s s' : State} {a : Action} {evs : List Event}
    (hlen : s.map.len ≤ cfg.maxCachedPeers) (h : step cfg s a = some (s', evs)) :
    s'.map.len ≤ cfg.maxCachedPeers := by
  rcases step_cases h with ⟨d, -, rfl, -⟩ | ⟨r, -, rfl, -⟩ | ⟨i, ch, t, out, -, hi, -, hm, rfl, -⟩
  · exact hlen
  · exact hlen
  · change out.store.map.len ≤ cfg.maxCachedPeers
    rcases hm.map_cases with ⟨hmap, -⟩ | ⟨id, hid, hroom, hmap, -⟩ | ⟨_, _, _, _, -, hmap, -⟩
    · rw [hmap]
      exact hlen
    · rw [hmap, HashMap.len_insert_of_get_eq_none _ _ hid]
      exact hroom
    · rw [hmap]
      exact Nat.le_trans (removeCandidates_len_le s _ _ _) hlen

/-- In every run, all tasks that hold an object for one id hold the same one, and it is
the cached one.  A pass of `evict_inactive` takes no entry away whose object another
task holds, and the cache stays within its capacity. -/
theorem one_object_per_id {cfg : Config} {now : Nat} {db : Database} {tr : List Event} {s : State}
    (hrun : Run (step cfg) anything (State.initial now db) tr s) :
    (∀ t ∈ s.tasks, ∀ u ∈ s.tasks, ∀ {id o o'}, (id, o) ∈ t.refs → (id, o') ∈ u.refs →
      o = o' ∧ s.map.get id = some o) ∧
    (∀ {i caller e ch s' evs}, s.tasks[i]? = some (.evict caller e) →
      step cfg s (.run i ch) = some (s', evs) →
      ∀ {j : Nat} {u : Task} {id o}, j ≠ i → s.tasks[j]? = some u → (id, o) ∈ u.refs →
        s'.map.get id = some o) ∧
    s.map.len ≤ cfg.maxCachedPeers := by
  have hwf := run_wellFormed hrun
  refine ⟨fun t ht u hu {id o o'} ho ho' => ?_, fun {i caller e ch s' evs} hi hstep => ?_, ?_⟩
  · have hget := hwf.held t ht _ ho
    exact ⟨Option.some.inj (hget.symm.trans (hwf.held u hu _ ho')), hget⟩
  · intro j u id o hne hj hq
    rcases step_cases hstep with ⟨d, ha, -⟩ | ⟨r, ha, -⟩ | ⟨i', ch', t, out, ha, hi', -, hm, rfl, -⟩
    · cases ha
    · cases ha
    · cases ha
      exact hm.keeps_held hwf hi' hne hj _ hq
  · exact hrun.inv_state (Nat.zero_le _) fun hlen _ hs => step_len_le hlen hs

/-- A handler and the persistence task it spawned hold the object of the peer. -/
theorem one_object_per_id_persisting :
    ∃ s tr t u, Run (step (sampleConfig true)) anything (State.initial 0 .empty) tr s ∧
      s.tasks = [t, u] ∧ (sampleId, 0) ∈ t.refs ∧ (sampleId, 0) ∈ u.refs ∧
      s.map.get sampleId = some 0 ∧ s.map.len ≤ 1024 := by
  obtain ⟨s, tr, hrun, hshow⟩ := exists_run_of_exec (step (sampleConfig true))
    (State.initial 0 .empty)
    (.call (.registerPk (sampleOrigin 0) (sampleRequest 1 2)) :: runs 0 6)
    (fun x => x.1.tasks.map Task.refs) (b := [[(sampleId, 0)], [(sampleId, 0)]]) (by decide +kernel)
  obtain ⟨t, rest, htasks, ht, hrest⟩ := List.map_eq_cons_iff.1 hshow
  obtain ⟨u, rest', rfl, hu, hnil⟩ := List.map_eq_cons_iff.1 hrest
  cases List.map_eq_nil_iff.1 hnil
  change s.tasks = [t, u] at htasks
  have hmem : (sampleId, 0) ∈ t.refs := ht ▸ List.mem_singleton_self _
  have hmem' : (sampleId, 0) ∈ u.refs := hu ▸ List.mem_singleton_self _
  obtain ⟨hsame, -, hlen⟩ := one_object_per_id hrun
  have hget := (hsame t (by simp [htasks]) u (by simp [htasks]) hmem hmem').2
  exact ⟨s, tr, t, u, hrun, htasks, hmem, hmem', hget, hlen⟩

end RemoteServer.PeerStore
