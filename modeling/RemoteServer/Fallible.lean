import Mathlib.Init

/-!
# Functions that can fail

When a function that returns an `Except` comes to a result, step by step.
-/

namespace Fallible

variable {α β ε : Type}

/-- A step of a fallible function. -/
theorem bind_eq_ok {x : Except ε α} {f : α → Except ε β} {b : β} (h : x >>= f = .ok b) :
    ∃ a, x = .ok a ∧ f a = .ok b := by
  cases x with
  | error e => cases h
  | ok a => exact ⟨a, rfl, h⟩

theorem bind_eq_ok_iff {x : Except ε α} {f : α → Except ε β} {b : β} :
    x >>= f = .ok b ↔ ∃ a, x = .ok a ∧ f a = .ok b := by
  refine ⟨bind_eq_ok, ?_⟩
  rintro ⟨a, rfl, h⟩
  exact h

theorem map_eq_ok {x : Except ε α} {f : α → β} {b : β} (h : x.map f = .ok b) :
    ∃ a, x = .ok a ∧ f a = b := by
  cases x with
  | error e => cases h
  | ok a => exact ⟨a, rfl, Except.ok.inj h⟩

theorem isOk_map (x : Except ε α) (f : α → β) : (x.map f).isOk = x.isOk := by
  cases x <;> rfl

/-- A check that the function makes. -/
theorem ite_error_eq_ok {c : Prop} [Decidable c] {e : ε} {x : Except ε α} {a : α} :
    (if c then .error e else x) = .ok a ↔ ¬c ∧ x = .ok a := by
  by_cases hc : c
  · rw [if_pos hc]
    exact ⟨fun h => (nomatch h), fun h => absurd hc h.1⟩
  · rw [if_neg hc]
    exact ⟨fun h => ⟨hc, h⟩, fun h => h.2⟩

/-- `raise` unless a condition holds. -/
def ensure (c : Prop) [Decidable c] (e : ε) : Except ε Unit := if c then .ok () else .error e

@[simp] theorem ensure_eq_ok {c : Prop} [Decidable c] {e : ε} {u : Unit} :
    ensure c e = .ok u ↔ c := by
  unfold ensure
  by_cases hc : c
  · simp [hc]
  · simp [hc]

/-- A loop whose every step gives what `g` says. -/
theorem mapM_eq_map {f : α → Except ε β} {g : α → β} {l : List α} (h : ∀ a ∈ l, f a = .ok (g a)) :
    l.mapM f = .ok (l.map g) := by
  induction l with
  | nil => rfl
  | cons a l ih =>
    rw [List.mapM_cons, h a List.mem_cons_self, ih fun b hb => h b (List.mem_cons_of_mem _ hb)]
    rfl

/-- A loop that reads back what was written. -/
theorem mapM_map_eq_some {f : β → Option α} {g : α → β} (h : ∀ a, f (g a) = some a) (l : List α) :
    (l.map g).mapM f = some l := by
  induction l with
  | nil => rfl
  | cons a l ih =>
    rw [List.map_cons, List.mapM_cons, h, ih]
    rfl

/-- A loop over the items with their indices. -/
theorem mapM_zipIdx_eq_map {f : α × Nat → Except ε β} {g : α → β} {l : List α}
    (h : ∀ a ∈ l, ∀ i, f (a, i) = .ok (g a)) : l.zipIdx.mapM f = .ok (l.map g) := by
  have hmap : l.zipIdx.map (fun p => g p.1) = l.map g := by
    show l.zipIdx.map (g ∘ Prod.fst) = l.map g
    rw [← List.map_map, List.zipIdx_map_fst]
  rw [← hmap]
  exact mapM_eq_map fun p hp => h p.1 (List.fst_mem_of_mem_zipIdx hp) p.2

/-- A loop that comes to its end, when a step can only give what `g` says. -/
theorem mapM_eq_ok {f : α → Except ε β} {g : α → β} {l : List α} {bs : List β}
    (hg : ∀ a b, f a = .ok b → b = g a) (h : l.mapM f = .ok bs) :
    bs = l.map g ∧ ∀ a ∈ l, f a = .ok (g a) := by
  induction l generalizing bs with
  | nil =>
    obtain rfl : [] = bs := Except.ok.inj h
    exact ⟨rfl, fun a ha => (nomatch ha)⟩
  | cons a l ih =>
    rw [List.mapM_cons] at h
    obtain ⟨b, hb, h⟩ := bind_eq_ok h
    obtain ⟨bs', hbs', h⟩ := bind_eq_ok h
    obtain rfl : b :: bs' = bs := Except.ok.inj h
    obtain ⟨hrest, hall⟩ := ih hbs'
    obtain rfl : b = g a := hg a b hb
    exact ⟨congrArg _ hrest, List.forall_mem_cons.2 ⟨hb, hall⟩⟩

/-- Every step of a loop that comes to its end gives a result. -/
theorem exists_of_mapM_eq_ok {f : α → Except ε β} {l : List α} {bs : List β}
    (h : l.mapM f = .ok bs) {a : α} (ha : a ∈ l) : ∃ b, f a = .ok b := by
  induction l generalizing bs with
  | nil => cases ha
  | cons x l ih =>
    rw [List.mapM_cons] at h
    obtain ⟨b, hb, h⟩ := bind_eq_ok h
    obtain ⟨bs', hbs', -⟩ := bind_eq_ok h
    rcases List.mem_cons.1 ha with rfl | ha
    · exact ⟨b, hb⟩
    · exact ih hbs' ha

theorem exists_of_mapM_zipIdx_eq_ok {f : α × Nat → Except ε β} {l : List α} {bs : List β}
    (h : l.zipIdx.mapM f = .ok bs) {a : α} (ha : a ∈ l) : ∃ i b, f (a, i) = .ok b := by
  rw [← List.zipIdx_map_fst 0 l] at ha
  obtain ⟨⟨a, i⟩, hmem, rfl⟩ := List.mem_map.1 ha
  exact ⟨i, exists_of_mapM_eq_ok h hmem⟩

end Fallible
