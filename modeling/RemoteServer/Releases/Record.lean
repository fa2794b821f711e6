import Mathlib.Data.List.Sort
import Mathlib.Data.Prod.Lex
import RemoteServer.PyStd.Text

/-!
# The records of managed Releases

A managed Release keeps its state in the record at GitHub: whether it is a draft, and markers in
lines of the body.

* `marker` is a line with a marker, and `markerValues` are the values of the markers with a line
  of their own.
* `validateReleaseRecord` is the check of a record.
* `completedReleases` are the Releases that are complete, in the order of their versions.

The fields of a record have the types that GitHub documents, so the tests of types are left out.
-/

namespace RemoteServer.Releases

open PyStd

/-! ## Versions -/

/-- Major, minor and patch, in the order of tuples. -/
abbrev Version := ℕ ×ₗ ℕ ×ₗ ℕ

namespace Version

def mk (major minor patch : Nat) : Version := toLex (major, toLex (minor, patch))

def major (v : Version) : Nat := (ofLex v).1
def minor (v : Version) : Nat := (ofLex (ofLex v).2).1
def patch (v : Version) : Nat := (ofLex (ofLex v).2).2

end Version

/-- `0|[1-9][0-9]*` -/
def parseNumber (s : Text) : Option Nat :=
  if s.isEmpty || !s.all Char.isDigit || (s.head? == some '0' && decide (1 < s.length)) then none
  else some (Nat.ofDigitChars 10 s 0)

def parseSemver (s : Text) : Option Version :=
  match s.splitOn '.' with
  | [major, minor, patch] => do
    let major ← parseNumber major
    let minor ← parseNumber minor
    let patch ← parseNumber patch
    return Version.mk major minor patch
  | _ => none

theorem digits_of_parseNumber {s : Text} (h : (parseNumber s).isSome = true) :
    s ≠ [] ∧ ∀ c ∈ s, c.isDigit = true := by
  rw [parseNumber] at h
  split at h
  · cases h
  next hdigits =>
  simp only [Bool.or_eq_true, not_or, Bool.not_eq_true, Bool.not_eq_false', List.all_eq_true]
    at hdigits
  exact ⟨fun hnil => by simp [hnil] at hdigits, hdigits.1.2⟩

/-- The three numbers of a version. -/
theorem pieces_of_parseSemver {version : Text} (h : (parseSemver version).isSome = true) :
    ∃ major minor patch, version.splitOn '.' = [major, minor, patch] ∧
      (parseNumber major).isSome = true ∧ (parseNumber minor).isSome = true ∧
      (parseNumber patch).isSome = true := by
  rw [parseSemver] at h
  split at h
  next major minor patch hparts =>
    obtain ⟨v, hv⟩ := Option.isSome_iff_exists.1 h
    simp only [Option.bind_eq_bind, Option.bind_eq_some_iff] at hv
    obtain ⟨_, hmajor, _, hminor, _, hpatch, -⟩ := hv
    exact ⟨major, minor, patch, hparts, by rw [hmajor]; rfl, by rw [hminor]; rfl,
      by rw [hpatch]; rfl⟩
  next => cases h

/-- A version has digits and dots. -/
theorem char_of_parseSemver {version : Text} (h : (parseSemver version).isSome = true) :
    ∀ c ∈ version, c.isDigit = true ∨ c = '.' := by
  obtain ⟨major, minor, patch, hparts, hmajor, hminor, hpatch⟩ := pieces_of_parseSemver h
  have hversion : version = major ++ '.' :: (minor ++ '.' :: patch) := by
    have hjoin : ['.'].intercalate (version.splitOn '.') = version := List.intercalate_splitOn '.'
    rw [← hjoin, hparts]
    simp [List.intercalate]
  intro c hc
  rw [hversion, List.mem_append, List.mem_cons, List.mem_append, List.mem_cons] at hc
  rcases hc with hc | hc | hc | hc | hc
  · exact Or.inl ((digits_of_parseNumber hmajor).2 c hc)
  · exact Or.inr hc
  · exact Or.inl ((digits_of_parseNumber hminor).2 c hc)
  · exact Or.inr hc
  · exact Or.inl ((digits_of_parseNumber hpatch).2 c hc)

/-- `parse_version`. -/
def parseVersion (value : String) : Except String Version :=
  match parseSemver value.toList with
  | none => .error ("invalid stable SemVer: " ++ value)
  | some v =>
    if [v.major, v.minor, v.patch].any fun item => decide (2147000000 < item) then
      .error ("version component exceeds the supported release bound: " ++ value)
    else .ok v

/-- `version_text`. -/
def versionText (v : Version) : String :=
  toString v.major ++ "." ++ toString v.minor ++ "." ++ toString v.patch

/-- The version of a stable tag. -/
def parseTag (tag : String) : Option Version :=
  match tag.toList with
  | 'v' :: rest => parseSemver rest
  | _ => none

def isHex (c : Char) : Bool := c.isDigit || decide ('a' ≤ c ∧ c ≤ 'f')

/-- A full commit hash. -/
def isSha (sha : String) : Bool := sha.toList.length == 40 && sha.toList.all isHex

/-! ## Markers -/

/-- The text of a marker with a line of its own. -/
def marker (start : Text) (value : String) : Text := start ++ value.toList ++ " -->".toList

/-- What the group of `^start(value) -->$` matches. -/
def markerValue (start : Text) (valid : Text → Bool) (line : Text) : Option String :=
  let value := (line.drop start.length).take (line.length - start.length - 4)
  if valid value && line == start ++ value ++ " -->".toList then some (String.ofList value)
  else none

/-- The values of the markers with a line of their own. -/
def markerValues (start : Text) (valid : Text → Bool) (body : Text) : List String :=
  (lines body).filterMap (markerValue start valid)

/-- `[1-9][0-9]*` -/
def isPositive (s : Text) : Bool :=
  s.all Char.isDigit && s.head?.isSome && s.head? != some '0'

/-- `sha256:[0-9a-f]{64}` -/
def isDigest (digest : Text) : Bool :=
  "sha256:".toList.isPrefixOf digest && (digest.drop 7).length == 64 && (digest.drop 7).all isHex

def prStart : Text := "<!-- release-pr:".toList
def commitStart : Text := "<!-- release-commit:".toList
def digestStart : Text := "<!-- container-digest:".toList
def completeStart : Text := "<!-- release-complete:".toList

def prMarker (number : Nat) : Text := marker prStart (toString number)
def commitMarker (sha : String) : Text := marker commitStart sha
def digestMarker (digest : String) : Text := marker digestStart digest
def completeMarker (sha : String) : Text := marker completeStart sha

def prMatches (body : Text) : List String := markerValues prStart isPositive body
def digestMatches (body : Text) : List String := markerValues digestStart isDigest body

/-! ## Records -/

structure ReleaseConfig where
  title : String
  container : Bool
  /-- The login of the Release App, from the environment. -/
  appLogin : String
  allowedFiles : List String

/-- `release-config.json`. -/
def releaseConfig (appLogin : String) : ReleaseConfig where
  title := "Camellia Remote Server"
  container := true
  appLogin := appLogin
  allowedFiles := ["CHANGELOG.md", "Cargo.lock", "Cargo.toml"]

structure Release where
  id : Nat
  tagName : String
  targetCommitish : String
  name : String
  author : String
  draft : Bool
  prerelease : Bool
  immutable : Bool
  body : Option Text
  /-- The names and contents of the assets. -/
  assets : List (String × String)
deriving DecidableEq

/-- `validate_release_record`: whether the Release is a draft, its digest, and whether it is
complete. -/
def validateReleaseRecord (config : ReleaseConfig) (release : Release) (version sha : String)
    (number : Nat) : Except String (Bool × Option String × Bool) :=
  let tag := "v" ++ version
  if release.tagName != tag || release.targetCommitish != sha ||
      release.name != config.title ++ " " ++ version || release.author != config.appLogin then
    .error ("managed Release " ++ tag ++ " metadata is invalid")
  else if !release.draft && !release.immutable then
    .error ("published Release " ++ tag ++ " is not immutable")
  else
    match release.body with
    | none => .error ("managed Release " ++ tag ++ " has no body")
    | some body =>
      let digests := digestMatches body
      let digest := if digests.length = 1 then digests.head? else none
      let complete := (splitlines body).count (completeMarker sha) == 1
      if (splitlines body).count (prMarker number) != 1 then
        .error ("managed Release " ++ tag ++ " has invalid PR metadata")
      else if (splitlines body).count (commitMarker sha) != 1 then
        .error ("managed Release " ++ tag ++ " has invalid commit metadata")
      else if count digestStart body != digests.length then
        .error ("managed Release " ++ tag ++ " has malformed container metadata")
      else if 1 < digests.length then
        .error ("managed Release " ++ tag ++ " has duplicate container metadata")
      else if release.draft && digest.isSome then
        .error ("draft Release " ++ tag ++ " cannot claim a published digest")
      else if !release.draft && config.container && digest.isNone then
        .error ("published Release " ++ tag ++ " must record its container digest")
      else if !config.container && digest.isSome then
        .error ("non-container Release " ++ tag ++ " cannot record a container digest")
      else if count completeStart body != complete.toNat then
        .error ("managed Release " ++ tag ++ " has malformed completion metadata")
      else if complete && release.draft then
        .error ("draft Release " ++ tag ++ " cannot be complete")
      else .ok (release.draft, digest, complete)

/-- `completion_marker`. -/
def completionMarker (release : Release) : Bool :=
  isSha release.targetCommitish && match release.body with
    | some body => (splitlines body).count (completeMarker release.targetCommitish) == 1
    | none => false

/-- A Release that is out and complete. -/
def isCompleted (release : Release) : Bool :=
  !release.draft && !release.prerelease && release.immutable && completionMarker release

/-- The loop of `completed_releases`. -/
def collectCompleted (seen : List String) (result : List (Version × Release)) :
    List Release → Except String (List (Version × Release))
  | [] => .ok result
  | release :: rest =>
    match parseTag release.tagName with
    | none => collectCompleted seen result rest
    | some version =>
      if seen.contains release.tagName then
        .error ("multiple Releases use stable tag " ++ release.tagName)
      else
        collectCompleted (release.tagName :: seen)
          (if isCompleted release then result ++ [(version, release)] else result) rest

/-- `completed_releases`. -/
def completedReleases (releases : List Release) : Except String (List (Version × Release)) :=
  (collectCompleted [] [] releases).map (List.insertionSort fun a b => a.1 ≤ b.1)

end RemoteServer.Releases
