import RemoteServer.Releases.Changelog

/-!
# The texts of release evidence

The regular expressions of `validate-release-evidence.py` and of the scripts that write what it
reads.  All of them match a whole text.

* `isWords` are words of small letters and digits with single separators.  A logical id, the name of
  an image and the path of a repository differ in the separators.
* `isEvidenceSemver` accepts more than the versions of managed Releases.
* `isRepositoryName` is the name of a repository with its registry; `isRepositoryName_append` says
  which names the scripts make.
-/

namespace RemoteServer.Releases

open PyStd

theorem append_ne_empty {a b : String} (h : a ≠ "" ∨ b ≠ "") : a ++ b ≠ "" := by
  intro hempty
  rw [String.append_eq_empty_iff] at hempty
  exact h.elim (fun ha => ha hempty.1) fun hb => hb hempty.2

/-! ## Words -/

/-- `[a-z0-9]` -/
def isLowerAlnum (c : Char) : Bool := c.isLower || c.isDigit

/-- `[a-z0-9]+(?:[...][a-z0-9]+)*` -/
def isWords (sep : Char → Bool) : Text → Bool
  | [] => false
  | [c] => isLowerAlnum c
  | c :: d :: rest =>
    isLowerAlnum c && if isLowerAlnum d then isWords sep (d :: rest) else sep d && isWords sep rest

section Words

variable {sep sep' : Char → Bool} {a b : Text}

theorem isWords_mono (h : ∀ c, sep c = true → sep' c = true) (ha : isWords sep a = true) :
    isWords sep' a = true := by
  fun_induction isWords sep a with
  | case1 => cases ha
  | case2 c => exact ha
  | case3 c d rest ih ih' =>
    rw [Bool.and_eq_true] at ha
    rw [isWords, Bool.and_eq_true]
    refine ⟨ha.1, ?_⟩
    by_cases hd : isLowerAlnum d = true
    · rw [if_pos hd] at ha ⊢
      exact ih ha.2
    · rw [if_neg hd, Bool.and_eq_true] at ha ⊢
      exact ⟨h d ha.2.1, ih' ha.2.2⟩

/-- Words, a separator and words. -/
theorem isWords_append {c : Char} (hc : sep c = true) (hword : isLowerAlnum c = false)
    (ha : isWords sep a = true) (hb : isWords sep b = true) :
    isWords sep (a ++ c :: b) = true := by
  fun_induction isWords sep a with
  | case1 => cases ha
  | case2 x =>
    rw [List.singleton_append, isWords, ha, hword, hc, hb]
    rfl
  | case3 x d rest ih ih' =>
    rw [Bool.and_eq_true] at ha
    rw [List.cons_append, List.cons_append, isWords, Bool.and_eq_true]
    refine ⟨ha.1, ?_⟩
    by_cases hd : isLowerAlnum d = true
    · rw [if_pos hd] at ha ⊢
      exact ih ha.2
    · rw [if_neg hd, Bool.and_eq_true] at ha ⊢
      exact ⟨ha.2.1, ih' ha.2.2⟩

end Words

/-- `LOGICAL_ID` -/
def isLogicalId (s : String) : Bool := isWords (fun c => c == '-') s.toList

/-- The name of an image, `[a-z0-9]+([._-][a-z0-9]+)*`. -/
def isImageName (s : Text) : Bool := isWords (fun c => c == '.' || c == '_' || c == '-') s

/-! ## Versions, revisions and digests -/

/-- `[0-9]+\.[0-9]+\.[0-9]+` -/
def isCore (s : Text) : Bool :=
  match s.splitOn '.' with
  | [major, minor, patch] =>
    [major, minor, patch].all fun number => !number.isEmpty && number.all Char.isDigit
  | _ => false

/-- `SEMVER_PATTERN`: the numbers, perhaps with a prerelease after the first dash. -/
def isEvidenceSemver (s : String) : Bool :=
  match s.toList.dropWhile (· != '-') with
  | [] => isCore s.toList
  | _ :: prerelease => isCore (s.toList.takeWhile (· != '-')) &&
      (prerelease.splitOn '.').all fun piece => !piece.isEmpty && piece.all Char.isAlphanum

/-- `REVISION_PATTERN` -/
def isRevision (s : String) : Bool :=
  let chars := s.toList
  "20".toList.isPrefixOf chars && isDate (chars.take 10) && (chars.drop 10).head? == some '.' &&
    isPositive (chars.drop 11)

/-- `[0-9a-f]{64}` -/
def isSha256 (s : String) : Bool := s.toList.length == 64 && s.toList.all isHex

theorem isEvidenceSemver_of_parseSemver {version : String}
    (h : (parseSemver version.toList).isSome = true) : isEvidenceSemver version = true := by
  have hdash : version.toList.dropWhile (· != '-') = [] := by
    rw [List.dropWhile_eq_nil_iff]
    intro c hc
    rw [bne_iff_ne]
    rintro rfl
    rcases char_of_parseSemver h _ hc with hc | hc
    · exact absurd hc (by decide)
    · exact absurd hc (by decide)
  obtain ⟨major, minor, patch, hparts, hmajor, hminor, hpatch⟩ := pieces_of_parseSemver h
  have hnumber : ∀ {number : Text}, (parseNumber number).isSome = true →
      (!number.isEmpty && number.all Char.isDigit) = true := by
    intro number hnumber
    obtain ⟨hne, hdigits⟩ := digits_of_parseNumber hnumber
    rw [List.isEmpty_eq_false_iff.2 hne, List.all_eq_true.2 hdigits]
    rfl
  rw [isEvidenceSemver, hdash, isCore, hparts]
  simp only [List.all_cons, List.all_nil, hnumber hmajor, hnumber hminor, hnumber hpatch,
    Bool.and_self]

/-! ## Repositories -/

/-- `[a-z0-9.-]+(?::[0-9]+)?` -/
def isRegistryHost (s : Text) : Bool :=
  let name := s.takeWhile (· != ':')
  !name.isEmpty && (name.all fun c => isLowerAlnum c || c == '.' || c == '-') &&
    match s.dropWhile (· != ':') with
    | [] => true
    | _ :: port => !port.isEmpty && port.all Char.isDigit

/-- `[a-z0-9.-]+(?::[0-9]+)?/[a-z0-9]+(?:[-._/][a-z0-9]+)*`.  There is no slash in the first
part. -/
def isRepositoryName (s : String) : Bool :=
  match s.toList.dropWhile (· != '/') with
  | [] => false
  | _ :: path => isRegistryHost (s.toList.takeWhile (· != '/')) &&
      isWords (fun c => c == '.' || c == '_' || c == '/' || c == '-') path

theorem isRepositoryName_append {host path : Text} (hslash : '/' ∉ host)
    (hhost : isRegistryHost host = true)
    (hpath : isWords (fun c => c == '.' || c == '_' || c == '/' || c == '-') path = true) :
    isRepositoryName (String.ofList (host ++ '/' :: path)) = true := by
  have hkeep : ∀ c ∈ host, (c != '/') = true := fun c hc => by
    rw [bne_iff_ne]
    rintro rfl
    exact hslash hc
  rw [isRepositoryName, String.toList_ofList, List.dropWhile_append_of_pos hkeep,
    List.takeWhile_append_of_pos hkeep]
  simp [hhost, hpath]

end RemoteServer.Releases
