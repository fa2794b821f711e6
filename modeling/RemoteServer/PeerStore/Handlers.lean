import RemoteServer.PeerStore.Objects

/-!
# What a handler has already done

The point at which a `RegisterPk` handler stands says what happened before.  Past
the checks at its head the request is well formed, and it is authorized exactly
in managed mode: `Task.Vetted`.  A handler that waits for a persistence task
waits for the one that it spawned, which stores what the request asked for:
`Joins`.
-/

namespace RemoteServer.PeerStore

open RustStd Lts

/-- A request past the checks at the head of `register_pk_common`. -/
structure Authorized (cfg : Config) (rk : RegisterPk) (managed : Bool) : Prop where
  wellFormed : rk.refusal = none
  managed_eq : managed = !cfg.allowUnmanagedDevices

def Call.Vetted (cfg : Config) : Call → Prop
  | .registerPk _ rk managed => Authorized cfg rk managed
  | _ => True

def Task.Vetted (cfg : Config) : Task → Prop
  | .verify _ rk => Authorized cfg rk true
  | .lookup call _ => call.Vetted cfg
  | .evict (.cachePeer call _) _ => call.Vetted cfg
  | .stage _ rk managed _ => Authorized cfg rk managed
  | .unchanged _ rk _ => Authorized cfg rk true
  | _ => True

/-- The persistence task that a task is or was. -/
def Task.persist? : Task → Option Persist
  | .persistWrite p => some p
  | .persistEnd p _ => some p
  | .done (.persisted p _) => some p
  | _ => none

/-- The task stores what the request of handler `i` asks for. -/
structure Persist.For (p : Persist) (i : Nat) (origin : Origin) (rk : RegisterPk) : Prop where
  owner : p.owner = i
  origin : p.origin = origin
  id : p.id = rk.id
  uuid : p.uuid = rk.uuid
  pk : p.pk = rk.pk

/-- Every handler that waits waits for its own persistence task. -/
def Joins (tasks : List Task) : Prop :=
  ∀ (i : Nat) (origin : Origin) (rk : RegisterPk) (o : Nat) (ipChanged : Bool) (j : Nat),
    tasks[i]? = some (Task.join origin rk o ipChanged j) →
    ∃ (u : Task) (p : Persist), tasks[j]? = some u ∧ u.persist? = some p ∧ p.For i origin rk

section Step

variable {cfg : Config} {s : State} {i : Nat} {t : Task} {out : Outcome}

theorem Call.vetted_resume {call : Call} (h : call.Vetted cfg) (o : Nat) :
    (call.resume o).Vetted cfg := by
  cases call <;> exact h

theorem Call.vetted_absent {call : Call} (h : call.Vetted cfg) (now : Nat) :
    (call.absent cfg now).Vetted cfg := by
  cases call <;> exact h

theorem Call.vetted_failed (call : Call) (err : String) : (call.failed err).Vetted cfg := by
  cases call <;> trivial

theorem Move.vetted (h : Move cfg s i t out) (ht : t.Vetted cfg) :
    ∀ u, u = out.task ∨ u ∈ out.spawned → u.Vetted cfg := by
  rintro u (rfl | hu)
  · cases h with
    | allowed hrk _ hmode => exact ⟨hrk, by rw [hmode]; rfl⟩
    | askApi hrk _ hmode => exact ⟨hrk, by rw [hmode]; rfl⟩
    | apiAgrees => exact ht
    | hit => exact ht
    | miss => exact ht
    | touched => exact Call.vetted_resume ht _
    | loadFailed => exact Call.vetted_failed _ _
    | loadAbsent => exact Call.vetted_absent ht _
    | loaded => exact ht
    | cached => exact Call.vetted_resume ht _
    | toWrite => exact ht
    | toEvict => exact ht
    | inserted => exact Call.vetted_resume ht _
    | @noRoom call =>
      unfold returnNoRoom
      dsimp only
      split
      · exact Call.vetted_absent ht _
      · split
        · trivial
        · exact Call.vetted_absent ht _
    | @scan caller =>
      cases caller with
      | timer => trivial
      | cachePeer call f => exact ht
    | @evicted caller =>
      cases caller with
      | timer => trivial
      | cachePeer call f => exact ht
    | stageSameManaged => exact ht
    | joined =>
      dsimp only
      split <;> trivial
    | _ => trivial
  · cases h with
    | stagePersist =>
      rw [List.mem_singleton.1 hu]
      trivial
    | _ => cases hu

/-- A persistence task stays the same one until it is done. -/
theorem Move.persist?_eq (h : Move cfg s i t out) {p : Persist} (ht : t.persist? = some p) :
    out.task.persist? = some p := by
  cases h with
  | written => exact ht
  | writeFailed => exact ht
  | committed => exact ht
  | rolledBack => exact ht
  | refuse hreg =>
    -- no task both handles a request and persists
    cases t with
    | persistWrite => cases hreg
    | persistEnd => cases hreg
    | done => cases hreg
    | _ => cases ht
  | _ => cases ht

/-- A handler starts to wait in the step that spawns its persistence task. -/
theorem Move.join_eq (h : Move cfg s i t out) {origin : Origin} {rk : RegisterPk} {o j : Nat}
    {ipChanged : Bool} (htask : out.task = .join origin rk o ipChanged j) :
    j = s.tasks.length ∧ ∃ p, out.spawned = [.persistWrite p] ∧ p.For i origin rk := by
  cases h with
  | stagePersist =>
    cases htask
    exact ⟨rfl, _, rfl, rfl, rfl, rfl, rfl, rfl⟩
  | @touched call => cases call <;> cases htask
  | @cached call => cases call <;> cases htask
  | @inserted call => cases call <;> cases htask
  | @loadFailed call => cases call <;> cases htask
  | @loadAbsent call => cases call <;> cases htask
  | @noRoom call =>
    unfold returnNoRoom at htask
    cases call <;> dsimp only at htask <;> split at htask <;> cases htask
  | @evicted caller => cases caller <;> cases htask
  | joined =>
    dsimp only at htask
    split at htask <;> cases htask
  | _ => cases htask

theorem Move.joins (h : Move cfg s i t out) (hi : s.tasks[i]? = some t) (hjoins : Joins s.tasks) :
    Joins (s.after i out).tasks := by
  intro k origin rk o ipChanged j hk
  rcases getElem?_advance hk with ⟨rfl, htask⟩ | ⟨hne, hk⟩ | ⟨-, hk⟩
  · obtain ⟨rfl, p, hspawn, hp⟩ := h.join_eq htask.symm
    refine ⟨.persistWrite p, p, ?_, rfl, hp⟩
    change (advance s.tasks k out.task out.spawned)[s.tasks.length]? = _
    rw [hspawn]
    exact getElem?_advance_spawned
  · obtain ⟨u, p, hu, hup, hp⟩ := hjoins _ _ _ _ _ _ hk
    by_cases hj : j = i
    · subst hj
      rw [hi] at hu
      cases hu
      exact ⟨out.task, p, getElem?_advance_self hi, h.persist?_eq hup, hp⟩
    · exact ⟨u, p, getElem?_advance_of_ne hj hu, hup, hp⟩
  · -- only persistence tasks are spawned
    cases h with
    | stagePersist =>
      have := List.mem_of_getElem? hk
      rw [List.mem_singleton] at this
      cases this
    | _ => cases hk

end Step

/-- What every handler has done. -/
structure Handled (cfg : Config) (s : State) : Prop where
  vetted : ∀ t ∈ s.tasks, t.Vetted cfg
  joins : Joins s.tasks

theorem Request.vetted_start (cfg : Config) (r : Request) : r.start.Vetted cfg := by
  cases r with
  | getPk version id =>
    unfold Request.start
    dsimp only
    split <;> trivial
  | _ => trivial

theorem Request.start_ne_join (r : Request) {origin : Origin} {rk : RegisterPk} {o j : Nat}
    {ipChanged : Bool} : r.start ≠ .join origin rk o ipChanged j := by
  cases r with
  | getPk version id =>
    unfold Request.start
    dsimp only
    split <;> exact nofun
  | _ => exact nofun

theorem step_joins {cfg : Config} {s s' : State} {a : Action} {evs : List Event}
    (hjoins : Joins s.tasks) (h : step cfg s a = some (s', evs)) : Joins s'.tasks := by
  rcases step_cases h with ⟨d, -, rfl, -⟩ | ⟨r, -, rfl, -⟩ | ⟨i, ch, t, out, -, hi, -, hm, rfl, -⟩
  · exact hjoins
  · intro i origin rk o ipChanged j hk
    change (s.tasks ++ [r.start])[i]? = _ at hk
    rw [List.getElem?_append] at hk
    split at hk
    · obtain ⟨u, p, hu, hp⟩ := hjoins _ _ _ _ _ _ hk
      have hlt : j < s.tasks.length := (List.getElem?_eq_some_iff.1 hu).1
      exact ⟨u, p, by rw [List.getElem?_append_left hlt]; exact hu, hp⟩
    · exact absurd (List.mem_singleton.1 (List.mem_of_getElem? hk)).symm r.start_ne_join
  · exact hm.joins hi hjoins

theorem run_handled {cfg : Config} {ok : List Event → State → Action → Prop} {now : Nat}
    {db : Database} {tr : List Event} {s : State}
    (h : Run (step cfg) ok (State.initial now db) tr s) : Handled cfg s := by
  refine ⟨fun t ht => ?_, ?_⟩
  · obtain ⟨i, hi⟩ := List.mem_iff_getElem?.1 ht
    exact run_tasks (P := fun _ _ t => t.Vetted cfg) (fun _ ht => ht)
      (fun _ _ r => r.vetted_start cfg) (fun hm ht => hm.vetted ht _ (Or.inl rfl))
      (fun hm ht u hu _ => hm.vetted ht u (Or.inr hu)) h hi
  · refine h.inv_state (I := fun s => Joins s.tasks) ?_ fun hjoins _ hs => step_joins hjoins hs
    intro i origin rk o ipChanged j hi
    cases hi

end RemoteServer.PeerStore
