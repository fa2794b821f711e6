import Mathlib

/-!
# A dictionary of the greatest items

A loop that goes over items, asks each one for the key that it belongs to, and keeps the item with
the greatest rank for every key.  The dictionary is an association list of Mathlib.

* `keepGreatest` is the body of the loop and `greatest` the loop.
* `IsGreatest` says what the dictionary should hold for a key, with no order of the items.
* `lookup_greatest` says that it holds this when the ranks differ.
-/

namespace PyStd

variable {α κ β : Type} [DecidableEq κ] [LinearOrder β] (owner : α → Option κ) (rank : α → β)

/-- One item.  The first one of a key is kept, and after it only one with a greater rank. -/
def keepGreatest (latest : AList fun _ : κ => α) (item : α) : AList fun _ : κ => α :=
  match owner item with
  | none => latest
  | some key =>
    match latest.lookup key with
    | none => latest.insert key item
    | some previous => if rank previous < rank item then latest.insert key item else latest

def greatest (items : List α) : AList fun _ : κ => α :=
  items.foldl (keepGreatest owner rank) ∅

/-- The item belongs to the key and no other item of the key has a greater rank. -/
structure IsGreatest (items : List α) (key : κ) (item : α) : Prop where
  mem : item ∈ items
  owned : owner item = some key
  le : ∀ other ∈ items, owner other = some key → rank other ≤ rank item

/-- The dictionary after these items. -/
structure Holds (latest : AList fun _ : κ => α) (items : List α) : Prop where
  found : ∀ key item, latest.lookup key = some item → IsGreatest owner rank items key item
  missing : ∀ key, latest.lookup key = none → ∀ item ∈ items, owner item ≠ some key

variable {owner rank} {latest : AList fun _ : κ => α} {items items' : List α} {key : κ}
  {item item' : α}

omit [DecidableEq κ] in
theorem IsGreatest.perm (h : IsGreatest owner rank items key item) (hperm : items.Perm items') :
    IsGreatest owner rank items' key item :=
  ⟨hperm.mem_iff.1 h.mem, h.owned, fun other hother => h.le other (hperm.mem_iff.2 hother)⟩

omit [DecidableEq κ] in
/-- One more item that is not greater. -/
theorem IsGreatest.append (h : IsGreatest owner rank items key item)
    (hle : owner item' = some key → rank item' ≤ rank item) :
    IsGreatest owner rank (items ++ [item']) key item := by
  refine ⟨List.mem_append_left _ h.mem, h.owned, fun other hother hkey => ?_⟩
  rcases List.mem_append.1 hother with hother | hother
  · exact h.le other hother hkey
  · obtain rfl := List.mem_singleton.1 hother
    exact hle hkey

omit [DecidableEq κ] in
/-- One more item that is not smaller than the items of its key. -/
theorem isGreatest_append_self (hkey : owner item = some key)
    (hle : ∀ other ∈ items, owner other = some key → rank other ≤ rank item) :
    IsGreatest owner rank (items ++ [item]) key item := by
  refine ⟨List.mem_append_right _ List.mem_cons_self, hkey, fun other hother howner => ?_⟩
  rcases List.mem_append.1 hother with hother | hother
  · exact hle other hother howner
  · rw [List.mem_singleton.1 hother]

/-- An item that is not kept. -/
theorem Holds.skip (h : Holds owner rank latest items)
    (hitem : ∀ key, owner item = some key →
      ∃ previous, latest.lookup key = some previous ∧ rank item ≤ rank previous) :
    Holds owner rank latest (items ++ [item]) := by
  refine ⟨fun key item' hfound => ?_, fun key hnone item' hmem howner => ?_⟩
  · refine (h.found key item' hfound).append fun hkey => ?_
    obtain ⟨previous, hprevious, hle⟩ := hitem key hkey
    cases hfound.symm.trans hprevious
    exact hle
  · rcases List.mem_append.1 hmem with hmem | hmem
    · exact h.missing key hnone item' hmem howner
    · obtain rfl := List.mem_singleton.1 hmem
      obtain ⟨previous, hprevious, -⟩ := hitem key howner
      cases hnone.symm.trans hprevious

/-- An item that is kept. -/
theorem Holds.insert (h : Holds owner rank latest items) (hkey : owner item = some key)
    (hle : ∀ other ∈ items, owner other = some key → rank other ≤ rank item) :
    Holds owner rank (latest.insert key item) (items ++ [item]) := by
  have hother : ∀ {key' : κ}, key' ≠ key → owner item ≠ some key' := fun hne howner =>
    hne (Option.some.inj (howner.symm.trans hkey))
  refine ⟨fun key' item' hfound => ?_, fun key' hnone item' hmem howner => ?_⟩
  · by_cases heq : key' = key
    · subst heq
      rw [AList.lookup_insert] at hfound
      cases hfound
      exact isGreatest_append_self hkey hle
    · rw [AList.lookup_insert_ne heq] at hfound
      exact (h.found key' item' hfound).append fun howner => absurd howner (hother heq)
  · obtain ⟨hne, hnone⟩ := AList.lookup_insert_eq_none.1 hnone
    rcases List.mem_append.1 hmem with hmem | hmem
    · exact h.missing key' hnone item' hmem howner
    · rw [List.mem_singleton.1 hmem] at howner
      exact hother hne howner

theorem Holds.keepGreatest (h : Holds owner rank latest items) (item : α) :
    Holds owner rank (keepGreatest owner rank latest item) (items ++ [item]) := by
  rw [PyStd.keepGreatest]
  cases howner : owner item with
  | none => exact h.skip fun key hkey => nomatch howner.symm.trans hkey
  | some key =>
    dsimp only
    cases hlookup : latest.lookup key with
    | none =>
      refine h.insert howner fun other hmem hkey => ?_
      exact absurd hkey (h.missing key hlookup other hmem)
    | some previous =>
      have hprevious := h.found key previous hlookup
      dsimp only
      split
      next hlt =>
        refine h.insert howner fun other hmem hkey => ?_
        exact le_trans (hprevious.le other hmem hkey) (le_of_lt hlt)
      next hle =>
        refine h.skip fun key' hkey' => ?_
        cases howner.symm.trans hkey'
        exact ⟨previous, hlookup, not_lt.1 hle⟩

theorem Holds.foldl (h : Holds owner rank latest items) (more : List α) :
    Holds owner rank (more.foldl (PyStd.keepGreatest owner rank) latest) (items ++ more) := by
  induction more generalizing latest items with
  | nil =>
    rw [List.append_nil]
    exact h
  | cons item more ih =>
    have hmore := ih (h.keepGreatest item)
    rw [List.append_assoc] at hmore
    exact hmore

theorem holds_greatest (items : List α) : Holds owner rank (greatest owner rank items) items := by
  have hempty : Holds owner rank (∅ : AList fun _ : κ => α) [] := by
    refine ⟨fun key item hfound => ?_, fun key _ item hmem => nomatch hmem⟩
    rw [AList.lookup_empty] at hfound
    cases hfound
  exact hempty.foldl items

/-- The dictionary holds the greatest item of every key. -/
theorem lookup_greatest (hrank : ∀ a ∈ items, ∀ b ∈ items, rank a = rank b → a = b) :
    (greatest owner rank items).lookup key = some item ↔ IsGreatest owner rank items key item := by
  have hholds : Holds owner rank (greatest owner rank items) items := holds_greatest items
  refine ⟨hholds.found key item, fun hitem => ?_⟩
  cases hlookup : (greatest owner rank items).lookup key with
  | none => exact absurd hitem.owned (hholds.missing key hlookup item hitem.mem)
  | some found =>
    have hfound := hholds.found key found hlookup
    have hsame : rank found = rank item := le_antisymm
      (hitem.le found hfound.mem hfound.owned) (hfound.le item hitem.mem hitem.owned)
    rw [hrank found hfound.mem item hitem.mem hsame]

end PyStd
