import Mathlib.Data.List.Nodup

/-!
# A model of `std::collections::HashMap`

The model is the observable content of the map: one pair per live key.
The hash table, its buckets and its hash function are absent.

Unlike a bare list of pairs, the structure carries the fact that a key
occurs at most once, so no lemma below takes it as a hypothesis and no
caller has to prove it again.  The order of `entries` is one possible
iteration order: Rust promises none, and no lemma here depends on it.

Every read of a map in the development goes through `get`, and the four
lemmas `get_insert`, `get_remove`, `get_retain` and `get_empty` say what each
operation does to it.  `len` is only compared with a bound, so its lemmas are
inequalities apart from those of `insert`.
-/

namespace RustStd

/-- The observable content of a map, with distinct keys. -/
structure HashMap (K V : Type) where
  entries : List (K × V)
  nodup : (entries.map Prod.fst).Nodup

namespace HashMap

variable {K V : Type}

/-- `HashMap::new`. -/
def empty : HashMap K V := ⟨[], List.nodup_nil⟩

/-- `HashMap::len`. -/
def len (m : HashMap K V) : Nat := m.entries.length

/-- `HashMap::retain`: keep the entries on which `p` answers `true`. -/
def retain (m : HashMap K V) (p : K → V → Bool) : HashMap K V where
  entries := m.entries.filter fun e => p e.1 e.2
  nodup := m.nodup.sublist (List.filter_sublist.map _)

theorem len_retain_le (m : HashMap K V) (p : K → V → Bool) :
    (m.retain p).len ≤ m.len :=
  List.length_filter_le _ _

variable [DecidableEq K]

/-- `HashMap::get`, with the value copied out. -/
def get (m : HashMap K V) (key : K) : Option V :=
  (m.entries.find? fun e => decide (e.1 = key)).map Prod.snd

/-- `HashMap::contains_key`. -/
def containsKey (m : HashMap K V) (key : K) : Bool := (m.get key).isSome

/-- `HashMap::remove`, without the displaced value. -/
def remove (m : HashMap K V) (key : K) : HashMap K V :=
  m.retain fun k _ => decide (k ≠ key)

/-- The entries after `insert`: a live key is overwritten in place, a new one
is appended. -/
def insertEntries (entries : List (K × V)) (key : K) (value : V) :
    List (K × V) :=
  if key ∈ entries.map Prod.fst then
    entries.map fun e => if e.1 = key then (key, value) else e
  else entries ++ [(key, value)]

theorem nodup_insertEntries {entries : List (K × V)}
    (h : (entries.map Prod.fst).Nodup) (key : K) (value : V) :
    ((insertEntries entries key value).map Prod.fst).Nodup := by
  unfold insertEntries
  split
  · have hkeys : (entries.map fun e => if e.1 = key then (key, value) else e).map
        Prod.fst = entries.map Prod.fst := by
      rw [List.map_map]
      refine List.map_congr_left fun e _ => ?_
      by_cases he : e.1 = key <;> simp [he]
    rw [hkeys]
    exact h
  · rename_i hkey
    rw [List.map_append, List.nodup_append]
    refine ⟨h, by simp, ?_⟩
    rintro a ha b hb rfl
    obtain rfl : a = key := by simpa using hb
    exact hkey ha

/-- `HashMap::insert`, without the displaced value. -/
def insert (m : HashMap K V) (key : K) (value : V) : HashMap K V where
  entries := insertEntries m.entries key value
  nodup := nodup_insertEntries m.nodup key value

/-! ## Reading a map -/

@[simp] theorem get_empty (key : K) : (empty : HashMap K V).get key = none := rfl

/-- The entries under one key are all the same entry. -/
theorem get_eq_some_iff (m : HashMap K V) (key : K) (value : V) :
    m.get key = some value ↔ (key, value) ∈ m.entries := by
  obtain ⟨entries, hnodup⟩ := m
  induction entries with
  | nil => simp [get]
  | cons e rest ih =>
    rw [List.map_cons, List.nodup_cons] at hnodup
    have ih := ih hnodup.2
    simp only [get] at ih ⊢
    by_cases he : e.1 = key
    · have hrest : (key, value) ∉ rest := fun hmem =>
        hnodup.1 (he ▸ List.mem_map_of_mem (f := Prod.fst) hmem)
      rw [List.find?_cons_of_pos (by simpa using he), List.mem_cons]
      constructor
      · intro h
        refine Or.inl (Prod.ext he.symm ?_)
        simpa using h.symm
      · rintro (rfl | hmem)
        · rfl
        · exact absurd hmem hrest
    · rw [List.find?_cons_of_neg (by simpa using he), ih, List.mem_cons]
      constructor
      · exact Or.inr
      · rintro (rfl | hmem)
        · exact absurd rfl he
        · exact hmem

theorem get_eq_none_iff (m : HashMap K V) (key : K) :
    m.get key = none ↔ key ∉ m.entries.map Prod.fst := by
  constructor
  · intro h hmem
    obtain ⟨e, he, rfl⟩ := List.mem_map.1 hmem
    rw [(get_eq_some_iff m e.1 e.2).2 he] at h
    cases h
  · intro h
    cases hget : m.get key with
    | none => rfl
    | some value =>
      exact absurd (List.mem_map_of_mem (f := Prod.fst)
        ((get_eq_some_iff m key value).1 hget)) h

/-- Two maps agree on a key when they hold the same entries under it. -/
theorem get_congr {m m' : HashMap K V} {key : K}
    (h : ∀ value, (key, value) ∈ m.entries ↔ (key, value) ∈ m'.entries) :
    m.get key = m'.get key := by
  refine Option.ext fun value => ?_
  rw [get_eq_some_iff, get_eq_some_iff]
  exact h value

/-! ## What an operation does to a read -/

theorem get_insert_self (m : HashMap K V) (key : K) (value : V) :
    (m.insert key value).get key = some value := by
  rw [get_eq_some_iff]
  change (key, value) ∈ insertEntries m.entries key value
  unfold insertEntries
  split
  · rename_i hmem
    obtain ⟨e, he, hkey⟩ := List.mem_map.1 hmem
    exact List.mem_map.2 ⟨e, he, by simp [hkey]⟩
  · simp

theorem get_insert_of_ne (m : HashMap K V) {key key' : K} (value : V)
    (h : key' ≠ key) : (m.insert key value).get key' = m.get key' := by
  refine get_congr fun v => ?_
  change (key', v) ∈ insertEntries m.entries key value ↔ _
  unfold insertEntries
  split
  · rw [List.mem_map]
    constructor
    · rintro ⟨e, he, heq⟩
      split at heq
      · exact absurd (congrArg Prod.fst heq).symm h
      · exact heq ▸ he
    · intro hmem
      exact ⟨(key', v), hmem, by simp [h]⟩
  · simp [h]

theorem get_insert (m : HashMap K V) (key key' : K) (value : V) :
    (m.insert key value).get key' = if key' = key then some value else m.get key' := by
  split
  · rename_i h
    rw [h, get_insert_self]
  · rename_i h
    exact get_insert_of_ne m value h

theorem get_retain (m : HashMap K V) (p : K → V → Bool) (key : K) :
    (m.retain p).get key = (m.get key).filter (p key) := by
  refine Option.ext fun value => ?_
  rw [get_eq_some_iff, Option.filter_eq_some_iff, get_eq_some_iff]
  simp [retain]

theorem get_remove (m : HashMap K V) (key key' : K) :
    (m.remove key).get key' = if key' = key then none else m.get key' := by
  rw [remove, get_retain]
  split
  · rename_i h
    cases m.get key' <;> simp [h]
  · rename_i h
    cases m.get key' <;> simp [h]

theorem containsKey_eq_false_iff (m : HashMap K V) (key : K) :
    m.containsKey key = false ↔ m.get key = none := by
  simp [containsKey]

/-! ## How an operation changes the entry count -/

theorem len_remove_le (m : HashMap K V) (key : K) : (m.remove key).len ≤ m.len :=
  len_retain_le m _

/-- A new key is added at the end. -/
theorem entries_insert_of_get_eq_none (m : HashMap K V) {key : K} (value : V)
    (h : m.get key = none) : (m.insert key value).entries = m.entries ++ [(key, value)] := by
  show insertEntries m.entries key value = m.entries ++ [(key, value)]
  rw [insertEntries, if_neg ((get_eq_none_iff m key).1 h)]

theorem len_insert_of_get_eq_none (m : HashMap K V) {key : K} (value : V)
    (h : m.get key = none) : (m.insert key value).len = m.len + 1 := by
  show (m.insert key value).entries.length = m.entries.length + 1
  rw [entries_insert_of_get_eq_none m value h]
  simp

/-- A live key is overwritten in place. -/
theorem len_insert_of_get_eq_some (m : HashMap K V) {key : K} {old : V} (value : V)
    (h : m.get key = some old) : (m.insert key value).len = m.len := by
  have hmem : key ∈ m.entries.map Prod.fst :=
    List.mem_map_of_mem (f := Prod.fst) ((get_eq_some_iff m key old).1 h)
  show (insertEntries m.entries key value).length = m.entries.length
  rw [insertEntries, if_pos hmem, List.length_map]

theorem countP_remove_le (m : HashMap K V) (key : K) (p : K × V → Bool) :
    (m.remove key).entries.countP p ≤ m.entries.countP p :=
  List.filter_sublist.countP_le

end HashMap

/-! ## Sets -/

/-- `std::collections::HashSet`. -/
abbrev HashSet (K : Type) := HashMap K Unit

namespace HashSet

variable {K : Type} [DecidableEq K]

/-- `HashSet::contains`. -/
def contains (set : HashSet K) (key : K) : Bool := HashMap.containsKey set key

/-- `HashSet::insert`, without its result. -/
def insert (set : HashSet K) (key : K) : HashSet K := HashMap.insert set key ()

/-- `HashSet::extend`. -/
def extend (set : HashSet K) (keys : List K) : HashSet K := keys.foldl insert set

end HashSet

end RustStd
