import RemoteServer.PeerStore.Moves

/-!
# How far a registration has come

In managed mode a `RegisterPk` asks the management API before it looks its id up and
is staged.  `Task.phase` says how far the handler of one has come, `Move.phase` what
one step does to it, and `run_cleared` that a handler past its verification was
approved.
-/

namespace RemoteServer.PeerStore

open RustStd Lts

/-- How far the handler of a `RegisterPk` has come.  Every other task is `settled`. -/
inductive Phase where
  | asked
  | verifying
  | cleared
  | settled
deriving DecidableEq, Repr

def Call.phase (id : PeerId) : Call → Phase
  | .registerPk _ rk _ => if rk.id = id then .cleared else .settled
  | _ => .settled

def Task.phase (id : PeerId) : Task → Phase
  | .allowIp _ rk => if rk.id = id then .asked else .settled
  | .verify _ rk => if rk.id = id then .verifying else .settled
  | .lookup call _ => call.phase id
  | .evict (.cachePeer call _) _ => call.phase id
  | .stage _ rk _ _ => if rk.id = id then .cleared else .settled
  | _ => .settled

/-- What one move of task `i` can do to its phase. -/
inductive Phase.Next (i : Nat) (id : PeerId) (evs : List Event) : Phase → Phase → Prop where
  | stay (p : Phase) : Next i id evs p p
  | ask (hev : Event.verifying i id ∈ evs) : Next i id evs .asked .verifying
  | clear (hev : Event.verified i id ∈ evs) : Next i id evs .verifying .cleared
  | leave (p : Phase) : Next i id evs p .settled

section Moves

variable {cfg : Config} {s : State} {i : Nat} {t : Task} {out : Outcome} {id : PeerId}

theorem Call.phase_resume (call : Call) (o : Nat) : (call.resume o).phase id = call.phase id := by
  cases call <;> rfl

theorem Call.phase_failed (call : Call) (err : String) : (call.failed err).phase id = .settled := by
  cases call <;> rfl

theorem Call.phase_absent (call : Call) (now : Nat) :
    (call.absent cfg now).phase id = call.phase id := by
  cases call <;> rfl

theorem Request.phase_start (r : Request) (h : r.start.phase id ≠ .settled) :
    ∃ origin rk, r = .registerPk origin rk ∧ rk.id = id := by
  cases r with
  | registerPk origin rk =>
    refine ⟨origin, rk, rfl, ?_⟩
    by_contra hne
    exact h (if_neg hne)
  | getPk version id' =>
    unfold Request.start at h
    dsimp only at h
    split at h <;> exact absurd rfl h
  | _ => exact absurd rfl h

/-- In managed mode a phase changes as in the order of its constructors. -/
theorem Move.phase (h : Move cfg s i t out) (hmode : cfg.allowUnmanagedDevices = false) :
    Phase.Next i id out.events (t.phase id) (out.task.phase id) := by
  cases h with
  | allowed _ _ hmode' =>
    rw [hmode] at hmode'
    cases hmode'
  | @askApi origin rk =>
    change Phase.Next i id _ (if rk.id = id then Phase.asked else .settled)
      (if rk.id = id then Phase.verifying else .settled)
    split
    · rename_i hid
      exact .ask (by rw [hid]; exact List.mem_singleton_self _)
    · exact .stay _
  | @apiAgrees origin rk =>
    change Phase.Next i id _ (if rk.id = id then Phase.verifying else .settled)
      (if rk.id = id then Phase.cleared else .settled)
    split
    · rename_i hid
      exact .clear (by rw [hid]; exact List.mem_singleton_self _)
    · exact .stay _
  | touched =>
    rw [returnObject, Call.phase_resume]
    exact .stay _
  | loadFailed =>
    rw [Call.phase_failed]
    exact .leave _
  | loadAbsent =>
    rw [Call.phase_absent]
    exact .stay _
  | cached =>
    rw [returnObject, Call.phase_resume]
    exact .stay _
  | inserted =>
    rw [returnInserted, returnObject, Call.phase_resume]
    exact .stay _
  | @noRoom call f =>
    unfold returnNoRoom
    dsimp only
    split
    · rw [Call.phase_absent]
      exact .stay _
    · split
      · exact .leave _
      · rw [Call.phase_absent]
        exact .stay _
  | @scan caller =>
    cases caller with
    | timer => exact .leave _
    | cachePeer => exact .stay _
  | @evicted caller =>
    cases caller with
    | timer => exact .leave _
    | cachePeer => exact .stay _
  | joined =>
    dsimp only
    split <;> exact .leave _
  | hit => exact .stay _
  | miss => exact .stay _
  | loaded => exact .stay _
  | toWrite => exact .stay _
  | toEvict => exact .stay _
  | _ => exact .leave _

/-- A verification returns to a cleared handler. -/
theorem Move.phase_of_verified (h : Move cfg s i t out) {k : Nat}
    (hev : Event.verified k id ∈ out.events) : k = i ∧ out.task.phase id = .cleared := by
  cases h with
  | apiAgrees =>
    cases List.mem_singleton.1 hev
    exact ⟨rfl, if_pos rfl⟩
  | touched => rcases mem_returnObject_events hev with he | he <;> cases he
  | cached => rcases mem_returnObject_events hev with he | he <;> cases he
  | inserted => rcases mem_returnObject_events hev with he | he <;> cases he
  | noRoom => cases (mem_returnNoRoom_events hev).2
  | _ => simp at hev

/-- Only a persistence task is spawned, and by a handler that is cleared for its id. -/
theorem Move.spawned_eq (h : Move cfg s i t out) {u : Task} (hu : u ∈ out.spawned) :
    ∃ p, u = .persistWrite p ∧ t.phase p.id = .cleared := by
  cases h with
  | stagePersist =>
    cases List.mem_singleton.1 hu
    exact ⟨_, rfl, if_pos rfl⟩
  | _ => cases hu

/-- A verification begins at the first point of a handler. -/
theorem Move.allowIp_of_verifying (h : Move cfg s i t out) {k : Nat}
    (hev : Event.verifying k id ∈ out.events) :
    k = i ∧ ∃ origin rk, t = .allowIp origin rk ∧ rk.id = id := by
  cases h with
  | askApi =>
    cases List.mem_singleton.1 hev
    exact ⟨rfl, _, _, rfl, rfl⟩
  | touched => rcases mem_returnObject_events hev with he | he <;> cases he
  | cached => rcases mem_returnObject_events hev with he | he <;> cases he
  | inserted => rcases mem_returnObject_events hev with he | he <;> cases he
  | noRoom => cases (mem_returnNoRoom_events hev).2
  | _ => simp at hev

end Moves

/-- If task `i` is cleared for an id, it was approved for it. -/
def Task.Cleared (tr : List Event) (i : Nat) (t : Task) : Prop :=
  ∀ id, t.phase id = .cleared → Event.verified i id ∈ tr

theorem Task.Cleared.append {tr : List Event} {i : Nat} {t : Task} (h : t.Cleared tr i)
    (evs : List Event) : t.Cleared (tr ++ evs) i :=
  fun id hphase => List.mem_append_left _ (h id hphase)

theorem Request.cleared_start (tr : List Event) (i : Nat) (r : Request) : r.start.Cleared tr i := by
  intro id hphase
  obtain ⟨origin, rk, rfl, hid⟩ := r.phase_start (by rw [hphase]; decide)
  rw [Request.start, Task.phase, if_pos hid] at hphase
  cases hphase

theorem Move.cleared {cfg : Config} {s : State} {i : Nat} {t : Task} {out : Outcome}
    {tr : List Event} (h : Move cfg s i t out) (hmode : cfg.allowUnmanagedDevices = false)
    (ht : t.Cleared tr i) : out.task.Cleared (tr ++ out.events) i := by
  intro id hphase
  have hnext : Phase.Next i id out.events (t.phase id) (out.task.phase id) := h.phase hmode
  rw [hphase] at hnext
  generalize hold : t.phase id = phase at hnext
  cases hnext with
  | stay => exact List.mem_append_left _ (ht id hold)
  | clear hev => exact List.mem_append_right _ hev

theorem Move.cleared_spawned {cfg : Config} {s : State} {i : Nat} {t : Task} {out : Outcome}
    (h : Move cfg s i t out) {u : Task} (hu : u ∈ out.spawned) (tr : List Event) (j : Nat) :
    u.Cleared tr j := by
  obtain ⟨p, rfl, -⟩ := h.spawned_eq hu
  exact fun id hphase => by cases hphase

/-- In managed mode a handler is cleared by an approval only. -/
theorem run_cleared {cfg : Config} (hmode : cfg.allowUnmanagedDevices = false)
    {ok : List Event → State → Action → Prop} {now : Nat} {db : Database} {tr : List Event}
    {s : State} (h : Run (step cfg) ok (State.initial now db) tr s) {i : Nat} {t : Task}
    (hi : s.tasks[i]? = some t) : t.Cleared tr i :=
  run_tasks (P := fun tr i t => t.Cleared tr i) (fun evs ht => ht.append evs)
    (fun tr i r => r.cleared_start tr i) (fun hm ht => hm.cleared hmode ht)
    (fun hm _ _ hu j => hm.cleared_spawned hu _ j) h hi

end RemoteServer.PeerStore
