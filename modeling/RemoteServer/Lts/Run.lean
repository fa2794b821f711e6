import Mathlib.Data.List.Basic

/-!
# Runs of a labelled transition system

A system is a function `step : σ → α → Option (σ × List ε)`: in a state, an
action is either impossible or leads to one state and emits some events.  An
action names everything the environment decides (which task runs, what an
outside call answers, how far the clock moves), so a run is a list of actions
and "for every interleaving" is "for every run".

`Run step ok s₀ tr s` says that some run from `s₀` ends in `s` after the events
`tr`, oldest first.  Every action of it satisfies `ok`, which may look at the
events so far and at the state before the action.  `fun _ _ _ => True` is no
restriction at all.

* `Run.inv` is the invariant rule: a predicate of the events and the state that
  holds at the start and is kept by every step holds at the end.
* `Run.event` goes back from an event of the trace to the step that emitted it.
* `exec` runs a list of actions, and `run_of_exec` makes a `Run` of it.
  `exists_run_of_exec` does so for a part of the outcome that can be computed,
  and `Run.of_guarded` turns a guard that can be computed into one of the run.
  `exists_run_of_exec_guarded` is for guards that look at the trace as well.
  `exec_map` is for two systems of which one takes the images of the other's steps.
* `Run.project` is the run of a component inside the run of a system.
* `observed` replaces the events by notes that are computed from each step, for a
  property or a guard about what the events do not show.
-/

namespace Lts

variable {σ α ε : Type}

/-- The runs from `s₀` whose every action satisfies `ok`. -/
inductive Run (step : σ → α → Option (σ × List ε)) (ok : List ε → σ → α → Prop)
    (s₀ : σ) : List ε → σ → Prop where
  | start : Run step ok s₀ [] s₀
  | step {tr evs : List ε} {s s' : σ} {a : α} :
      Run step ok s₀ tr s → ok tr s a → step s a = some (s', evs) →
      Run step ok s₀ (tr ++ evs) s'

/-- The guard that allows every action. -/
def anything : List ε → σ → α → Prop := fun _ _ _ => True

variable {step : σ → α → Option (σ × List ε)} {ok ok' : List ε → σ → α → Prop}
  {s₀ s : σ} {tr : List ε}

/-- The invariant rule.  The step may use that it starts in a state of a run. -/
theorem Run.inv {I : List ε → σ → Prop} (h : Run step ok s₀ tr s) (h0 : I [] s₀)
    (hstep : ∀ {tr s a s' evs}, Run step ok s₀ tr s → I tr s → ok tr s a →
      step s a = some (s', evs) → I (tr ++ evs) s') : I tr s := by
  induction h with
  | start => exact h0
  | step hr hok hs ih => exact hstep hr ih hok hs

/-- The invariant rule for a predicate of the state alone. -/
theorem Run.inv_state {I : σ → Prop} (h : Run step ok s₀ tr s) (h0 : I s₀)
    (hstep : ∀ {tr s a s' evs}, I s → ok tr s a → step s a = some (s', evs) → I s') : I s := by
  induction h with
  | start => exact h0
  | step _ hok hs ih => exact hstep ih hok hs

/-- A run under a stronger guard is a run under a weaker one.  The comparison
may use that the guard is only asked in states of the run. -/
theorem Run.mono (h : Run step ok s₀ tr s)
    (hok : ∀ {tr s a}, Run step ok s₀ tr s → ok tr s a → ok' tr s a) :
    Run step ok' s₀ tr s := by
  induction h with
  | start => exact .start
  | step hr ha hs ih => exact .step ih (hok hr ha) hs

theorem Run.anything (h : Run step ok s₀ tr s) : Run step anything s₀ tr s :=
  h.mono fun _ _ => trivial

/-- Every event of a run was emitted by one of its steps, and the events before
that step are a prefix of the trace. -/
theorem Run.event (h : Run step ok s₀ tr s) {e : ε} (he : e ∈ tr) :
    ∃ pre evs post s₁ a s₂, Run step ok s₀ pre s₁ ∧ ok pre s₁ a ∧
      step s₁ a = some (s₂, evs) ∧ e ∈ evs ∧ tr = pre ++ evs ++ post := by
  induction h with
  | start => cases he
  | @step tr evs s s' a hr hok hs ih =>
    rcases List.mem_append.1 he with he | he
    · obtain ⟨pre, evs₁, post, s₁, a₁, s₂, hr₁, hok₁, hs₁, he₁, htr⟩ := ih he
      refine ⟨pre, evs₁, post ++ evs, s₁, a₁, s₂, hr₁, hok₁, hs₁, he₁, ?_⟩
      rw [htr]
      simp
    · exact ⟨tr, evs, [], s, a, s', hr, hok, hs, he, by simp⟩

/-- An event of a longer trace is one of the old events or one of the new ones. -/
theorem append_eq_append_cons {tr evs pre post : List ε} {e : ε}
    (h : tr ++ evs = pre ++ e :: post) :
    (∃ mid, tr = pre ++ e :: mid ∧ post = mid ++ evs) ∨
      ∃ mid, pre = tr ++ mid ∧ evs = mid ++ e :: post := by
  rcases List.append_eq_append_iff.1 h with ⟨mid, hpre, hevs⟩ | ⟨mid, htr, hpost⟩
  · exact Or.inr ⟨mid, hpre, hevs⟩
  · cases mid with
    | nil => exact Or.inr ⟨[], by simpa using htr.symm, by simpa using hpost.symm⟩
    | cons e' mid =>
      cases hpost
      exact Or.inl ⟨mid, htr, rfl⟩

/-! ## Components -/

/-- The run of a component: every step of the system leaves the component alone or is one step
of it, and `g` picks its events. -/
theorem Run.project {σ' α' ε' : Type} {step' : σ' → α' → Option (σ' × List ε')}
    {ok' : List ε' → σ' → α' → Prop} (f : σ → σ') (g : ε → Option ε')
    (hstep : ∀ {tr s a s' evs}, ok tr s a → step s a = some (s', evs) →
      f s' = f s ∧ evs.filterMap g = [] ∨
        ∃ a', ok' (tr.filterMap g) (f s) a' ∧ step' (f s) a' = some (f s', evs.filterMap g))
    (h : Run step ok s₀ tr s) : Run step' ok' (f s₀) (tr.filterMap g) (f s) := by
  induction h with
  | start => exact .start
  | step _ hok hs ih =>
    rw [List.filterMap_append]
    rcases hstep hok hs with ⟨hsame, hnil⟩ | ⟨a', hok', hs'⟩
    · rw [hsame, hnil, List.append_nil]
      exact ih
    · exact .step ih hok' hs'

/-! ## Running a list of actions -/

/-- The run that takes the given actions in order. -/
def exec (step : σ → α → Option (σ × List ε)) : σ → List α → Option (σ × List ε)
  | s, [] => some (s, [])
  | s, a :: rest =>
    match step s a with
    | none => none
    | some (s', evs) =>
      match exec step s' rest with
      | none => none
      | some (s'', evs') => some (s'', evs ++ evs')

/-- Where each step of one system is the image of a step of the other, so is each run. -/
theorem exec_map {σ' α' ε' : Type} {step : σ → α → Option (σ × List ε)}
    {step' : σ' → α' → Option (σ' × List ε')} {f : σ → σ'} {g : α → α'} {h : ε → ε'}
    (hstep : ∀ s a, step' (f s) (g a) = (step s a).map (Prod.map f (List.map h))) (s : σ)
    (as : List α) :
    exec step' (f s) (as.map g) = (exec step s as).map (Prod.map f (List.map h)) := by
  induction as generalizing s with
  | nil => rfl
  | cons a rest ih =>
    rw [List.map_cons, exec, exec, hstep]
    cases step s a with
    | none => rfl
    | some out =>
      obtain ⟨s', evs⟩ := out
      simp only [Option.map_some, Prod.map, ih]
      cases exec step s' rest with
      | none => rfl
      | some out =>
        obtain ⟨s'', evs'⟩ := out
        simp only [Option.map_some, Prod.map, List.map_append]

private theorem run_of_exec_aux (step : σ → α → Option (σ × List ε)) (s₀ : σ) :
    ∀ (as : List α) (tr evs : List ε) (s s' : σ),
      Run step anything s₀ tr s → exec step s as = some (s', evs) →
      Run step anything s₀ (tr ++ evs) s' := by
  intro as
  induction as with
  | nil =>
    intro tr evs s s' hr h
    obtain ⟨rfl, rfl⟩ : s = s' ∧ [] = evs := by simpa [exec] using h
    simpa using hr
  | cons a rest ih =>
    intro tr evs s s' hr h
    simp only [exec] at h
    split at h
    · cases h
    · rename_i s₁ evs₁ hs
      split at h
      · cases h
      · rename_i s₂ evs₂ hrest
        obtain ⟨rfl, rfl⟩ : s₂ = s' ∧ evs₁ ++ evs₂ = evs := by simpa using h
        have := ih (tr ++ evs₁) evs₂ s₁ s₂ (.step hr trivial hs) hrest
        simpa using this

/-- The executed actions are a run. -/
theorem run_of_exec {as : List α} {evs : List ε} {s' : σ}
    (h : exec step s₀ as = some (s', evs)) : Run step anything s₀ evs s' := by
  simpa using run_of_exec_aux step s₀ as [] evs s₀ s' .start h

/-- What the executed actions show is shown by a run. -/
theorem exists_run_of_exec {β : Type} (step : σ → α → Option (σ × List ε)) (s₀ : σ)
    (as : List α) (f : σ × List ε → β) {b : β} (h : (exec step s₀ as).map f = some b) :
    ∃ s tr, Run step anything s₀ tr s ∧ f (s, tr) = b := by
  obtain ⟨⟨s, tr⟩, hexec, hf⟩ := Option.map_eq_some_iff.1 h
  exact ⟨s, tr, run_of_exec hexec, hf⟩

/-- The step function that only takes the actions that `ok` allows. -/
def guarded (step : σ → α → Option (σ × List ε)) (ok : σ → α → Bool) (s : σ) (a : α) :
    Option (σ × List ε) :=
  if ok s a then step s a else none

/-- A run of the guarded function is a run whose every action the guard allows. -/
theorem Run.of_guarded {ok : σ → α → Bool} (h : Run (guarded step ok) Lts.anything s₀ tr s) :
    Run step (fun _ s a => ok s a = true) s₀ tr s := by
  induction h with
  | start => exact .start
  | @step tr evs s s' a _ _ hs ih =>
    unfold guarded at hs
    split at hs
    · rename_i hok
      exact .step ih hok hs
    · cases hs

/-- The system that remembers its trace, for a guard that looks at it. -/
def traced (step : σ → α → Option (σ × List ε)) (x : σ × List ε) (a : α) :
    Option ((σ × List ε) × List ε) :=
  (step x.1 a).map fun y => ((y.1, x.2 ++ y.2), y.2)

theorem Run.of_traced {ok : List ε → σ → α → Prop} {x : σ × List ε}
    (h : Run (traced step) (fun _ x a => ok x.2 x.1 a) (s₀, []) tr x) :
    Run step ok s₀ x.2 x.1 := by
  induction h with
  | start => exact .start
  | step _ hok hs ih =>
    obtain ⟨y, hy, hpair⟩ := Option.map_eq_some_iff.1 hs
    cases hpair
    exact .step ih hok hy

/-- What the executed actions show is shown by a run under a guard, if the guard can be
computed and allows them all. -/
theorem exists_run_of_exec_guarded {β : Type} (step : σ → α → Option (σ × List ε))
    (ok : List ε → σ → α → Prop) [∀ tr s a, Decidable (ok tr s a)] (s₀ : σ) (as : List α)
    (f : σ × List ε → β) {b : β}
    (h : (exec (guarded (traced step) fun x a => decide (ok x.2 x.1 a)) (s₀, []) as).map
      (fun x => f x.1) = some b) :
    ∃ s tr, Run step ok s₀ tr s ∧ f (s, tr) = b := by
  obtain ⟨x, tr, hrun, hf⟩ := exists_run_of_exec _ _ as (fun x => f x.1) h
  exact ⟨x.1, x.2, (hrun.of_guarded.mono fun _ => of_decide_eq_true).of_traced, hf⟩

/-! ## Notes on the steps -/

variable {β : Type}

/-- The same system, with notes on each step in place of its events. -/
def observed (step : σ → α → Option (σ × List ε)) (note : σ → α → σ × List ε → List β) (s : σ)
    (a : α) : Option (σ × List β) :=
  (step s a).map fun y => (y.1, note s a y)

variable {note : σ → α → σ × List ε → List β}

theorem observed_eq_some {s' : σ} {a : α} {ns : List β}
    (h : observed step note s a = some (s', ns)) :
    ∃ evs, step s a = some (s', evs) ∧ note s a (s', evs) = ns := by
  obtain ⟨⟨s₁, evs⟩, hs, hpair⟩ := Option.map_eq_some_iff.1 h
  cases hpair
  exact ⟨evs, hs, rfl⟩

end Lts
