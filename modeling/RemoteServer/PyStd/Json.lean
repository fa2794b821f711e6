import Mathlib.Data.List.Dedup
import Mathlib.Data.List.Sort
import Mathlib.Data.Prod.Lex
import Mathlib.Data.String.Basic

/-!
# JSON documents in Python

* `Json` are the values that `json.loads` returns, and `Fields` is a dictionary.
* `get`, `hasKeys`: `dict.get`, and the comparison of the keys with a set.
* `sortedSet` is `sorted(set(items))`.  `sortedSet_eq_self_iff` says which lists are left as they
  are.
* `Python` is what the interpreter does with values whose types a program did not test: the text of
  any value, the order of values of different types, and the texts that are times.
-/

namespace PyStd

/-! ## Values -/

/-- A value that `json.loads` returns.  A number with a fraction or an exponent is given by the text
that `str` has for it. -/
inductive Json where
  | null
  | bool (b : Bool)
  | int (n : ℤ)
  | float (text : String)
  | str (s : String)
  | arr (items : List Json)
  | obj (fields : List (String × Json))

abbrev Fields := List (String × Json)

/-- `mapping.get(name, default)`. -/
def getOr (mapping : Fields) (name : String) (default : Json) : Json :=
  (mapping.lookup name).getD default

/-- `mapping.get(name)`. -/
def get (mapping : Fields) (name : String) : Json := getOr mapping name .null

/-- `set(mapping) == names`. -/
def hasKeys (mapping : Fields) (names : List String) : Bool :=
  (mapping.all fun field => names.contains field.1) &&
    names.all fun name => mapping.any fun field => field.1 == name

namespace Json

/-- `value == text`. -/
def isText (value : Json) (text : String) : Bool :=
  match value with
  | .str s => s == text
  | _ => false

/-- `value == 1`. -/
def isOne : Json → Bool
  | .int n => n == 1
  | .bool b => b
  | .float text => text == "1.0"
  | _ => false

/-- An integer above zero, and no truth value. -/
def isPositive : Json → Bool
  | .int n => decide (1 ≤ n)
  | _ => false

def text? : Json → Option String
  | .str s => some s
  | _ => none

theorem isText_iff {value : Json} {text : String} :
    value.isText text = true ↔ value = .str text := by
  unfold isText
  split
  · rename_i s
    rw [beq_iff_eq, Json.str.injEq]
  · rename_i hother
    exact ⟨fun h => (nomatch h), fun h => absurd h (hother text)⟩

end Json

/-- A key that is present has one value for every default. -/
theorem getOr_of_hasKeys {mapping : Fields} {names : List String} (h : hasKeys mapping names = true)
    {name : String} (hname : name ∈ names) (default : Json) :
    getOr mapping name default = get mapping name := by
  unfold hasKeys at h
  rw [Bool.and_eq_true, List.all_eq_true, List.all_eq_true] at h
  obtain ⟨field, hfield, hkey⟩ := List.any_eq_true.1 (h.2 name hname)
  rw [get, getOr, getOr]
  cases hlookup : mapping.lookup name with
  | some value => rfl
  | none =>
    rw [List.lookup_eq_none_iff] at hlookup
    have hne := hlookup field hfield
    rw [beq_iff_eq.1 hkey, bne_self_eq_false] at hne
    cases hne

/-! ## Sorted lists -/

section Sorted

variable {α : Type} [LinearOrder α]

/-- `sorted(set(items))`. -/
def sortedSet (items : List α) : List α := items.dedup.insertionSort (· ≤ ·)

theorem sortedSet_eq_self_iff {items : List α} :
    sortedSet items = items ↔ items.Pairwise (· < ·) := by
  constructor
  · intro h
    have hsorted : items.Pairwise (· ≤ ·) := by
      rw [← h]
      exact List.pairwise_insertionSort _ _
    have hnodup : items.Nodup := by
      rw [← h]
      exact (List.perm_insertionSort _ _).nodup_iff.2 (List.nodup_dedup _)
    exact (hsorted.and hnodup).imp fun hab => lt_of_le_of_ne hab.1 hab.2
  · intro h
    have hnodup : items.Nodup := h.imp fun hab => ne_of_lt hab
    rw [sortedSet, List.dedup_eq_self.2 hnodup]
    exact (h.imp fun hab => le_of_lt hab).insertionSort_eq

end Sorted

/-! ## The interpreter -/

/-- What the interpreter does with values of any type. -/
structure Python where
  /-- `str(value)`. -/
  str : Json → String
  str_str : ∀ s, str (.str s) = s
  /-- Whether a list of tuples equals the sorted list of its set.  That is not so when two of them
  have no order. -/
  isSortedSet : List (Json × String × Json) → Bool
  isSortedSet_texts : ∀ items : List (String ×ₗ String ×ₗ String),
    isSortedSet (items.map fun item =>
      (.str (ofLex item).1, (ofLex (ofLex item).2).1, .str (ofLex (ofLex item).2).2)) =
        decide (sortedSet items = items)
  /-- `datetime.fromisoformat`: the number of the day, and whether the zone is UTC. -/
  datetime : String → Option (ℕ × Bool)
  /-- `date.fromisoformat`: the number of the day. -/
  date : String → Option ℕ

end PyStd
