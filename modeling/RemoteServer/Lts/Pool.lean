import Mathlib

/-!
# A pool of tasks

A system of tasks keeps them in a list, and the place of a task in the list is
its number.  One step rewrites the task that moves and appends the tasks that it
spawns: `advance`.  The lemmas here say what that does to membership, to a read
by number and to a count, for tasks of any type.

`add_le_sum` is the counting argument of reference counts: two different tasks
that each contribute to a sum contribute together.
-/

namespace Lts

variable {τ : Type}

/-- Task `i` becomes `t` and the tasks `spawned` are added. -/
def advance (tasks : List τ) (i : Nat) (t : τ) (spawned : List τ) : List τ :=
  tasks.set i t ++ spawned

variable {tasks spawned : List τ} {i j : Nat} {t t' u : τ}

/-- A task of the rewritten list is the new one, or it was there under another number. -/
theorem getElem?_set_cases (h : (tasks.set i t)[j]? = some u) :
    (j = i ∧ u = t) ∨ (j ≠ i ∧ tasks[j]? = some u) := by
  rw [List.getElem?_set] at h
  split at h
  · split at h
    · rename_i he _
      exact Or.inl ⟨he.symm, (Option.some.inj h).symm⟩
    · cases h
  · rename_i hne
    exact Or.inr ⟨fun he => hne he.symm, h⟩

/-- A task after the step is the one that moved, a new one, or one that was
there before under another number. -/
theorem mem_advance (h : u ∈ advance tasks i t spawned) :
    u = t ∨ u ∈ spawned ∨ ∃ j, j ≠ i ∧ tasks[j]? = some u := by
  rcases List.mem_append.1 h with h | h
  · obtain ⟨j, hj⟩ := List.mem_iff_getElem?.1 h
    rcases getElem?_set_cases hj with ⟨-, rfl⟩ | hother
    · exact Or.inl rfl
    · exact Or.inr (Or.inr ⟨j, hother⟩)
  · exact Or.inr (Or.inl h)

/-- The same for a read by number. -/
theorem getElem?_advance (h : (advance tasks i t spawned)[j]? = some u) :
    (j = i ∧ u = t) ∨ (j ≠ i ∧ tasks[j]? = some u) ∨
      (tasks.length ≤ j ∧ spawned[j - tasks.length]? = some u) := by
  rw [advance, List.getElem?_append, List.length_set] at h
  split at h
  · rcases getElem?_set_cases h with hself | hother
    · exact Or.inl hself
    · exact Or.inr (Or.inl hother)
  · rename_i hge
    exact Or.inr (Or.inr ⟨Nat.le_of_not_lt hge, h⟩)

theorem getElem?_advance_self (hi : tasks[i]? = some t') :
    (advance tasks i t spawned)[i]? = some t := by
  have hlt : i < tasks.length := (List.getElem?_eq_some_iff.1 hi).1
  rw [advance, List.getElem?_append_left (by rw [List.length_set]; exact hlt),
    List.getElem?_set_self hlt]

theorem getElem?_advance_of_ne (hne : j ≠ i) (hj : tasks[j]? = some u) :
    (advance tasks i t spawned)[j]? = some u := by
  have hlt : j < tasks.length := (List.getElem?_eq_some_iff.1 hj).1
  rw [advance, List.getElem?_append_left (by rw [List.length_set]; exact hlt),
    List.getElem?_set_ne (fun he => hne he.symm)]
  exact hj

/-- The first spawned task gets the next free number. -/
theorem getElem?_advance_spawned :
    (advance tasks i t (u :: spawned))[tasks.length]? = some u := by
  rw [advance, List.getElem?_append_right (by rw [List.length_set]), List.length_set, Nat.sub_self]
  rfl

theorem map_advance {τ' : Type} (f : τ → τ') :
    (advance tasks i t spawned).map f = advance (tasks.map f) i (f t) (spawned.map f) := by
  rw [advance, advance, List.map_append, List.map_set]

/-- A count loses what task `i` was and gains what it became and what it
spawned. -/
theorem countP_advance (p : τ → Bool) (hi : tasks[i]? = some t') :
    (advance tasks i t spawned).countP p + (if p t' then 1 else 0) =
      tasks.countP p + (if p t then 1 else 0) + spawned.countP p := by
  rw [advance, List.countP_append]
  have hset : (tasks.set i t).countP p + (if p t' then 1 else 0) =
      tasks.countP p + (if p t then 1 else 0) := by
    induction tasks generalizing i with
    | nil => simp at hi
    | cons x rest ih =>
      cases i with
      | zero =>
        obtain rfl : x = t' := by simpa using hi
        rw [List.set_cons_zero, List.countP_cons, List.countP_cons]
        omega
      | succ i =>
        have := ih (i := i) (by simpa using hi)
        rw [List.set_cons_succ, List.countP_cons, List.countP_cons]
        omega
  omega

/-- Two different tasks contribute together. -/
theorem add_le_sum (f : τ → Nat) (hne : i ≠ j) (hi : tasks[i]? = some t) (hj : tasks[j]? = some u) :
    f t + f u ≤ (tasks.map f).sum := by
  induction tasks generalizing i j with
  | nil => simp at hi
  | cons x rest ih =>
    have hone : ∀ {k : Nat} {v : τ}, rest[k]? = some v → f v ≤ (rest.map f).sum := fun hk =>
      List.single_le_sum (fun _ _ => Nat.zero_le _) _
        (List.mem_map_of_mem (List.mem_of_getElem? hk))
    rw [List.map_cons, List.sum_cons]
    cases i with
    | zero =>
      cases j with
      | zero => exact absurd rfl hne
      | succ j =>
        obtain rfl : x = t := by simpa using hi
        have := hone (k := j) (by simpa using hj)
        omega
    | succ i =>
      cases j with
      | zero =>
        obtain rfl : x = u := by simpa using hj
        have := hone (k := i) (by simpa using hi)
        omega
      | succ j =>
        have := ih (i := i) (j := j) (fun he => hne (by rw [he])) (by simpa using hi)
          (by simpa using hj)
        omega

/-- Two different tasks with a property are counted as two. -/
theorem two_le_countP {p : τ → Bool} (hne : i ≠ j) (hi : tasks[i]? = some t)
    (hj : tasks[j]? = some u) (ht : p t = true) (hu : p u = true) : 2 ≤ tasks.countP p := by
  have hsum : ∀ l : List τ, l.countP p = (l.map fun x => if p x then 1 else 0).sum := by
    intro l
    induction l with
    | nil => rfl
    | cons x rest ih => rw [List.countP_cons, ih, List.map_cons, List.sum_cons, Nat.add_comm]
  have := add_le_sum (fun x => if p x then 1 else 0) hne hi hj
  rw [if_pos ht, if_pos hu, ← hsum] at this
  exact this

end Lts
