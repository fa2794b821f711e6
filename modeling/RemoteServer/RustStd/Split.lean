import Mathlib
import RemoteServer.RustStd.Text

/-!
# Texts with separators

How `trim`, `split` and a join with a separator work together, and how many bytes they take.

* `trim_trim`, `trim_eq_empty_iff`: what `trim` leaves.
* `split_intercalate` and `intercalate_split`: a join of pieces without the separator is split
  into the pieces, and a text is the join of its pieces.
* `joinSize` is the size of a join, with a separator more; `joinSize_le` says that it only
  counts which pieces there are.
* `eraseDups` keeps the first of several equal elements: `nodup_eraseDups`,
  `eraseDups_sublist`, `eraseDups_eq_self`.
-/

namespace RustStd

/-! ## Lists without repetitions -/

section EraseDups

variable {α : Type} [BEq α]

theorem eraseDups_sublist (l : List α) : l.eraseDups.Sublist l := by
  match l with
  | [] => exact List.Sublist.refl _
  | a :: rest =>
    rw [List.eraseDups_cons]
    exact ((eraseDups_sublist _).trans List.filter_sublist).cons_cons a
termination_by l.length
decreasing_by exact Nat.lt_succ_of_le (List.length_filter_le _ rest)

variable [LawfulBEq α]

theorem nodup_eraseDups (l : List α) : l.eraseDups.Nodup := by
  match l with
  | [] => exact List.nodup_nil
  | a :: rest =>
    rw [List.eraseDups_cons, List.nodup_cons]
    refine ⟨fun hmem => ?_, nodup_eraseDups _⟩
    have hfilter := List.mem_filter.1 (List.mem_eraseDups.1 hmem)
    simp at hfilter
termination_by l.length
decreasing_by exact Nat.lt_succ_of_le (List.length_filter_le _ rest)

theorem eraseDups_eq_self {l : List α} (h : l.Nodup) : l.eraseDups = l := by
  induction l with
  | nil => rfl
  | cons a rest ih =>
    obtain ⟨hnot, hrest⟩ := List.nodup_cons.1 h
    have hfilter : rest.filter (fun b => !b == a) = rest := by
      refine List.filter_eq_self.2 fun b hb => ?_
      have hne : b ≠ a := by
        rintro rfl
        exact hnot hb
      simpa using hne
    rw [List.eraseDups_cons, hfilter, ih hrest]

/-- An element that is there already is left out. -/
theorem eraseDups_append_cons_of_mem {l rest : List α} {a : α} (h : a ∈ l) :
    (l ++ a :: rest).eraseDups = (l ++ rest).eraseDups := by
  have hremove : (a :: rest).removeAll l = rest.removeAll l := by
    simp [List.removeAll, h]
  rw [List.eraseDups_append, List.eraseDups_append, hremove]

end EraseDups

namespace Str

/-! ## `trim` -/

theorem toList_trim (s : String) :
    (trim s).toList = (s.toList.dropWhile isWhitespace).rdropWhile isWhitespace :=
  String.toList_ofList

theorem trim_within (s : String) : (trim s).toList <:+: s.toList := by
  rw [toList_trim]
  exact (List.rdropWhile_prefix _ _).isInfix.trans (List.dropWhile_suffix _).isInfix

/-- What `trim` leaves does not start with white space. -/
theorem dropWhile_trim (s : String) :
    (trim s).toList.dropWhile isWhitespace = (trim s).toList := by
  have hprefix : (trim s).toList <+: s.toList.dropWhile isWhitespace := by
    rw [toList_trim]
    exact List.rdropWhile_prefix _ _
  obtain ⟨rest, hrest⟩ := hprefix
  cases htrim : (trim s).toList with
  | nil => rfl
  | cons c chars =>
    rw [htrim] at hrest
    have hhead := List.dropWhile_get_zero_not isWhitespace s.toList (by rw [← hrest]; simp)
    refine List.dropWhile_cons_of_neg ?_
    simpa [← hrest] using hhead

/-- What `trim` leaves does not end with white space. -/
theorem getLast_trim (s : String) : ∀ c ∈ (trim s).toList.getLast?, isWhitespace c = false := by
  intro c hc
  have hfix : (trim s).toList.rdropWhile isWhitespace = (trim s).toList := by
    rw [toList_trim, List.rdropWhile_idempotent]
  have hne : (trim s).toList ≠ [] := by
    intro hnil
    rw [hnil] at hc
    cases hc
  rw [List.getLast?_eq_getLast_of_ne_nil hne] at hc
  obtain rfl := Option.some.inj hc
  exact Bool.eq_false_iff.2 (List.rdropWhile_eq_self_iff.1 hfix hne)

@[simp] theorem trim_trim (s : String) : trim (trim s) = trim s := by
  apply String.toList_inj.1
  rw [toList_trim, dropWhile_trim, toList_trim, List.rdropWhile_idempotent]

theorem trim_eq_empty_iff {s : String} :
    trim s = "" ↔ ∀ c ∈ s.toList, isWhitespace c = true := by
  have hempty : trim s = "" ↔ (trim s).toList = [] := by
    rw [← String.toList_inj, String.toList_empty]
  rw [hempty, toList_trim, List.rdropWhile_eq_nil_iff]
  constructor
  · intro h c hc
    by_contra hnot
    have hall : ∀ d ∈ s.toList, isWhitespace d = true := by
      have hnil : s.toList.dropWhile isWhitespace = [] := by
        cases hdrop : s.toList.dropWhile isWhitespace with
        | nil => rfl
        | cons d rest =>
          have hhead := List.dropWhile_get_zero_not isWhitespace s.toList (by rw [hdrop]; simp)
          rw [hdrop] at h
          have hd := h d List.mem_cons_self
          simp [hdrop, hd] at hhead
      exact List.dropWhile_eq_nil_iff.1 hnil
    exact hnot (hall c hc)
  · intro h
    rw [List.dropWhile_eq_nil_iff.2 h]
    nofun

theorem utf8ByteSize_eq (s : String) : s.utf8ByteSize = String.utf8Len s.toList := by
  conv_lhs => rw [← String.ofList_toList (s := s)]
  rw [String.utf8ByteSize_ofList]

theorem utf8ByteSize_trim_le (s : String) : (trim s).utf8ByteSize ≤ s.utf8ByteSize := by
  rw [utf8ByteSize_eq, utf8ByteSize_eq]
  exact String.utf8Len_le_of_infix (trim_within s)

/-! ## `split` -/

variable {sep : Char}

theorem split_ne_nil (s : String) : split sep s ≠ [] := by
  intro h
  exact List.splitOn_ne_nil sep s.toList (List.map_eq_nil_iff.1 h)

/-- A piece does not have the separator. -/
theorem not_mem_of_mem_splitOn {text piece : List Char} (h : piece ∈ text.splitOn sep) :
    sep ∉ piece := by
  induction text generalizing piece with
  | nil =>
    rw [List.splitOn_nil, List.mem_singleton] at h
    subst h
    exact List.not_mem_nil
  | cons c rest ih =>
    rw [List.splitOn, List.splitOnP_cons_eq_if_modifyHead] at h
    split at h
    · rcases List.mem_cons.1 h with rfl | h
      · exact List.not_mem_nil
      · exact ih h
    · rename_i hc
      cases hsplit : rest.splitOnP (· == sep) with
      | nil => exact absurd hsplit (List.splitOnP_ne_nil _ rest)
      | cons first more =>
        rw [hsplit, List.modifyHead_cons] at h
        rcases List.mem_cons.1 h with rfl | h
        · have hfirst : sep ∉ first := ih (by rw [List.splitOn, hsplit]; exact List.mem_cons_self)
          intro hmem
          rcases List.mem_cons.1 hmem with rfl | hmem
          · exact hc (by simp)
          · exact hfirst hmem
        · exact ih (by rw [List.splitOn, hsplit]; exact List.mem_cons_of_mem _ h)

theorem not_mem_of_mem_split {s piece : String} (h : piece ∈ split sep s) :
    sep ∉ piece.toList := by
  obtain ⟨chars, hchars, rfl⟩ := List.mem_map.1 h
  rw [String.toList_ofList]
  exact not_mem_of_mem_splitOn hchars

/-- The pieces with the separator between them. -/
def join (sep : Char) (pieces : List String) : String := (String.singleton sep).intercalate pieces

theorem toList_join (pieces : List String) :
    (join sep pieces).toList = [sep].intercalate (pieces.map String.toList) := by
  rw [join, String.toList_intercalate, String.toList_singleton]

theorem join_split (s : String) : join sep (split sep s) = s := by
  apply String.toList_inj.1
  rw [toList_join, split, List.map_map]
  have hid : (String.toList ∘ String.ofList) = id := by
    funext chars
    exact String.toList_ofList
  rw [hid, List.map_id, List.intercalate_splitOn]

theorem split_join {pieces : List String} (hne : pieces ≠ [])
    (h : ∀ piece ∈ pieces, sep ∉ piece.toList) : split sep (join sep pieces) = pieces := by
  rw [split, toList_join, List.splitOn_intercalate sep ?_ (by simpa using hne), List.map_map]
  · have hid : (String.ofList ∘ String.toList) = id := by
      funext s
      exact String.ofList_toList
    rw [hid, List.map_id]
  · intro chars hchars
    obtain ⟨piece, hpiece, rfl⟩ := List.mem_map.1 hchars
    exact h piece hpiece

/-- The characters of a piece are characters of the join. -/
theorem mem_join {pieces : List String} {piece : String} (h : piece ∈ pieces) {c : Char}
    (hc : c ∈ piece.toList) : c ∈ (join sep pieces).toList := by
  induction pieces with
  | nil => cases h
  | cons first rest ih =>
    by_cases hrest : rest = []
    · subst hrest
      obtain rfl := List.mem_singleton.1 h
      simpa [join] using hc
    · rw [join, String.intercalate_cons_of_ne_nil hrest, String.toList_append, List.mem_append]
      rcases List.mem_cons.1 h with rfl | h
      · exact Or.inl (by rw [String.toList_append]; exact List.mem_append_left _ hc)
      · exact Or.inr (ih h)

/-- A character of the join is the separator or a character of a piece. -/
theorem of_mem_join {pieces : List String} {c : Char} (h : c ∈ (join sep pieces).toList) :
    c = sep ∨ ∃ piece ∈ pieces, c ∈ piece.toList := by
  induction pieces with
  | nil => simp [join] at h
  | cons first rest ih =>
    by_cases hrest : rest = []
    · subst hrest
      exact Or.inr ⟨first, List.mem_cons_self, by simpa [join] using h⟩
    · rw [join, String.intercalate_cons_of_ne_nil hrest, String.toList_append, List.mem_append,
        String.toList_append, List.mem_append, String.toList_singleton, List.mem_singleton] at h
      rcases h with (h | h) | h
      · exact Or.inr ⟨first, List.mem_cons_self, h⟩
      · exact Or.inl h
      · rcases ih h with h | ⟨piece, hpiece, hc⟩
        · exact Or.inl h
        · exact Or.inr ⟨piece, List.mem_cons_of_mem _ hpiece, hc⟩

/-! ## Sizes -/

/-- The bytes of the pieces, each with a separator of one byte. -/
def joinSize (pieces : List String) : Nat := (pieces.map fun s => s.utf8ByteSize + 1).sum

theorem utf8ByteSize_join (hsep : sep.utf8Size = 1) {pieces : List String} (hne : pieces ≠ []) :
    (join sep pieces).utf8ByteSize + 1 = joinSize pieces := by
  induction pieces with
  | nil => exact absurd rfl hne
  | cons first rest ih =>
    by_cases hrest : rest = []
    · subst hrest
      simp [join, joinSize]
    · have ih := ih hrest
      rw [join] at ih ⊢
      rw [String.intercalate_cons_of_ne_nil hrest, String.utf8ByteSize_append,
        String.utf8ByteSize_append, String.utf8ByteSize_singleton, hsep]
      rw [joinSize] at ih ⊢
      rw [List.map_cons, List.sum_cons]
      omega

theorem joinSize_le {pieces pieces' : List String} (h : pieces.Subperm pieces') :
    joinSize pieces ≤ joinSize pieces' := by
  obtain ⟨middle, hperm, hsub⟩ := h
  have heq : joinSize pieces = joinSize middle := ((hperm.map _).sum_eq).symm
  rw [heq]
  exact (hsub.map _).sum_le_sum fun _ _ => Nat.zero_le _

theorem joinSize_trim_le (pieces : List String) :
    joinSize (pieces.map trim) ≤ joinSize pieces := by
  induction pieces with
  | nil => exact Nat.le_refl _
  | cons first rest ih =>
    have hfirst := utf8ByteSize_trim_le first
    simp only [joinSize, List.map_cons, List.sum_cons] at ih ⊢
    omega

end Str

end RustStd
