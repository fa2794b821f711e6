import RemoteServer.Releases.EvidenceValidator

/-!
# `build-container-release-evidence.py`

Before an image is pushed, `freeze` writes what is known of it to a document.  When the registries
have it, `finalize` adds their results and has the whole evidence checked.

* `validateFrozen` is the check of a frozen document.  It tests most fields through `str`, so that a
  number can stand where a text is meant.
* `freeze` and `finalize` are the two commands.  What a command reads from a file or the clock is an
  argument.
-/

namespace RemoteServer.Releases.Builder

open Fallible PyStd Validator

def policyRevision : String := "2026-07-31.1"

def signingRegistryRevision : String := "2026-07-31.1"

def frozenKeys : List String :=
  ["schema_version", "repository", "image", "version", "source", "generated_at", "policy",
    "dependencies", "digest", "platforms", "sbom", "provenance"]

/-- `SEMVER` -/
def isStableSemver (s : String) : Bool := (parseSemver s.toList).isSome

/-! ## Checks -/

/-- The version of a dependency can be absent. -/
def validateVersion (py : Python) (value : Json) : Except String Unit :=
  match value with
  | .null => .ok ()
  | version =>
    ensure (isStableSemver (py.str version)) "dependency version must be stable SemVer or null"

/-- The body of the loop of `validate_dependencies`: what identifies the dependency. -/
def validateDependency (py : Python) (item : Json) : Except String (Json × String × Json) := do
  let fields ← objectWith dependencyKeys "dependency has unexpected fields" item
  ensure (isLogicalId (py.str (getOr fields "repository" (.str ""))))
    "dependency repository must be a logical ID"
  ensure (isSha (py.str (getOr fields "commit" (.str ""))))
    "dependency commit must be a full lowercase SHA"
  validateVersion py (get fields "version")
  return (get fields "repository", py.str (getOr fields "relation" (.str "")), get fields "commit")

/-- `validate_dependencies`. -/
def validateDependencies (py : Python) (value : Json) : Except String Unit := do
  let items ← arrayOf "dependencies must be an array" value
  let identities ← items.mapM (validateDependency py)
  ensure (py.isSortedSet identities) "dependencies must be sorted and unique"

/-- The policy that a frozen document names. -/
def isPolicy : Json → Bool
  | .obj fields => hasKeys fields policyKeys &&
      (get fields "repository_policy_revision").isText policyRevision &&
      (get fields "signing_registry_revision").isText signingRegistryRevision &&
      match get fields "exceptions" with
      | .arr items => items.isEmpty
      | _ => false
  | _ => false

/-- The source of a frozen document with the version `version`. -/
def validateSource (py : Python) (value version : Json) : Except String Unit := do
  let source ← objectWith sourceKeys "frozen source has unexpected fields" value
  ensure (isSha (py.str (getOr source "commit" (.str "")))) "frozen source commit is invalid"
  ensure ((get source "ref").isText ("refs/tags/v" ++ py.str version))
    "frozen source ref does not match its version"
  ensure (get source "validation_run_id").isPositive "frozen validation run ID is invalid"

/-- One platform: its architecture. -/
def validatePlatform (py : Python) (item : Json) : Except String String := do
  let fields ← objectWith imagePlatformKeys "frozen platform has unexpected fields" item
  let architecture ← matchText (["amd64", "arm64"].contains ·) "frozen platform is invalid"
    (get fields "architecture")
  ensure ((get fields "platform").isText "linux" ∧
    isDigest (py.str (getOr fields "digest" (.str ""))).toList) "frozen platform is invalid"
  return architecture

/-- The platforms.  All of them are `linux`, so that the architectures are in the order of the
pairs. -/
def validatePlatforms (py : Python) (value : Json) : Except String Unit := do
  let platforms ← arrayOf "frozen platforms must be a non-empty array" value
  ensure (platforms ≠ []) "frozen platforms must be a non-empty array"
  let architectures ← platforms.mapM (validatePlatform py)
  ensure (architectures = sortedSet architectures) "frozen platforms must be sorted and unique"

/-- The reference to a file, `sbom` or `provenance`. -/
def validateReference (py : Python) (value : Json) (name : String) : Except String Unit := do
  let message := "frozen " ++ name ++ " reference is invalid"
  let fields ← objectWith ["name", "sha256"] message value
  let _ ← matchText (fun text => !text.isEmpty) message (get fields "name")
  ensure (isSha256 (py.str (getOr fields "sha256" (.str "")))) message

/-- `validate_frozen`. -/
def validateFrozen (py : Python) (value : Json) : Except String Fields := do
  let frozen ← objectWith frozenKeys "frozen container evidence has unexpected fields" value
  ensure (get frozen "schema_version").isOne "frozen evidence schema_version must be 1"
  ensure (isLogicalId (py.str (getOr frozen "repository" (.str ""))))
    "frozen repository must be a logical ID"
  ensure (isLogicalId (py.str (getOr frozen "image" (.str "")))) "frozen image must be a logical ID"
  ensure (isStableSemver (py.str (getOr frozen "version" (.str ""))))
    "frozen version must be stable SemVer"
  validateSource py (get frozen "source") (get frozen "version")
  ensure (isPolicy (get frozen "policy")) "frozen policy revisions or exceptions are invalid"
  validateDependencies py (get frozen "dependencies")
  ensure (isDigest (py.str (getOr frozen "digest" (.str ""))).toList) "frozen OCI digest is invalid"
  validatePlatforms py (get frozen "platforms")
  validateReference py (get frozen "sbom") "sbom"
  validateReference py (get frozen "provenance") "provenance"
  return frozen

/-! ## Commands -/

/-- A file with its name and hash, when it is a regular file that is not empty. -/
abbrev EvidenceFile := Except String (String × String)

/-- The arguments of `freeze`.  The files are read. -/
structure FreezeArgs where
  repository : String
  image : String
  version : String
  commit : String
  validationRunId : ℤ
  digest : String
  platform : List String
  sbom : EvidenceFile
  provenance : EvidenceFile
  dependencies : Option (Except String Json)
  generatedAt : Option String

/-- `text.split(separator, 1)` into two names. -/
def splitPair (separator : Char) (text : String) : Except String (String × String) :=
  match text.toList.dropWhile (· != separator) with
  | [] => .error "not enough values to unpack (expected 2, got 1)"
  | _ :: rest => .ok (String.ofList (text.toList.takeWhile (· != separator)), String.ofList rest)

/-- A platform as it is given: the system and the architecture, and the digest. -/
def parsePlatform (specification : String) : Except String ((String ×ₗ String) × String) := do
  let (name, digest) ← splitPair '=' specification
  let (operatingSystem, architecture) ← splitPair '/' name
  return (toLex (operatingSystem, architecture), digest)

/-- The first separator splits a text. -/
theorem splitPair_eq {separator : Char} {first : String} (h : separator ∉ first.toList)
    (second : String) :
    splitPair separator (first ++ String.singleton separator ++ second) = .ok (first, second) := by
  have hkeep : ∀ c ∈ first.toList, (c != separator) = true := by
    intro c hc
    rw [bne_iff_ne]
    rintro rfl
    exact h hc
  have hlist : (first ++ String.singleton separator ++ second).toList =
      first.toList ++ separator :: second.toList := by simp
  rw [splitPair, hlist, List.dropWhile_append_of_pos hkeep, List.takeWhile_append_of_pos hkeep]
  simp

/-- The parts of a platform as it is written. -/
theorem parsePlatform_eq {system architecture : String} (hsystem : '/' ∉ system.toList)
    (hname : '=' ∉ (system ++ "/" ++ architecture).toList) (digest : String) :
    parsePlatform (system ++ "/" ++ architecture ++ "=" ++ digest) =
      .ok (toLex (system, architecture), digest) := by
  have hfirst : splitPair '=' (system ++ "/" ++ architecture ++ "=" ++ digest) =
      .ok (system ++ "/" ++ architecture, digest) := splitPair_eq hname digest
  have hsecond : splitPair '/' (system ++ "/" ++ architecture) = .ok (system, architecture) :=
    splitPair_eq hsystem architecture
  rw [parsePlatform, hfirst]
  show (splitPair '/' (system ++ "/" ++ architecture) >>= _) = _
  rw [hsecond]
  rfl

def platformJson (item : (String ×ₗ String) × String) : Json :=
  .obj [("platform", .str (ofLex item.1).1), ("architecture", .str (ofLex item.1).2),
    ("digest", .str item.2)]

def fileJson (file : String × String) : Json :=
  .obj [("name", .str file.1), ("sha256", .str file.2)]

def policyJson : Json :=
  .obj [("repository_policy_revision", .str policyRevision),
    ("signing_registry_revision", .str signingRegistryRevision), ("exceptions", .arr [])]

/-- The time in a frozen document: as it is given, or else the current one. -/
def generatedText (now : String) : Option String → String
  | some text => if text.isEmpty then now else text
  | none => now

/-- The document that `freeze` makes. -/
def frozenJson (args : FreezeArgs) (generatedAt : String) (dependencies : Json)
    (platforms : List ((String ×ₗ String) × String)) (sbom provenance : String × String) : Json :=
  .obj [("schema_version", .int 1), ("repository", .str args.repository),
    ("image", .str args.image), ("version", .str args.version),
    ("source", .obj [("commit", .str args.commit), ("ref", .str ("refs/tags/v" ++ args.version)),
      ("validation_run_id", .int args.validationRunId)]),
    ("generated_at", .str generatedAt), ("policy", policyJson), ("dependencies", dependencies),
    ("digest", .str args.digest), ("platforms", .arr (platforms.map platformJson)),
    ("sbom", fileJson sbom), ("provenance", fileJson provenance)]

/-- `freeze`, at a time. -/
def freeze (py : Python) (now : String) (args : FreezeArgs) : Except String Json := do
  ensure (isLogicalId args.repository) "repository must be a logical ID"
  ensure (isLogicalId args.image) "image must be a logical ID"
  ensure (isStableSemver args.version) "version must be stable SemVer"
  ensure (isSha args.commit) "commit must be a full lowercase SHA"
  ensure (isDigest args.digest.toList) "digest must be a canonical OCI SHA-256"
  let platforms ← args.platform.mapM parsePlatform
  let platforms := platforms.insertionSort fun a b => a.1 ≤ b.1
  let dependencies ← args.dependencies.getD (.ok (.arr []))
  validateDependencies py dependencies
  let sbom ← args.sbom
  let provenance ← args.provenance
  let frozen := frozenJson args (generatedText now args.generatedAt) dependencies platforms sbom
    provenance
  let _ ← validateFrozen py frozen
  return frozen

/-- The names of the results that are dictionaries. -/
def resultNames (registries : List Json) : List Json :=
  registries.filterMap fun
    | .obj fields => some (get fields "name")
    | _ => none

/-- The image of a frozen document with the results of the registries. -/
def imageFields (frozen : Fields) (registries : Json) : Fields :=
  [("name", get frozen "image"), ("digest", get frozen "digest"),
    ("platforms", get frozen "platforms"), ("sbom", get frozen "sbom"),
    ("provenance", get frozen "provenance"), ("registries", registries)]

/-- The evidence of a release with one image. -/
def evidenceFields (frozen : Fields) (registries : Json) : Fields :=
  [("schema_version", .int 1), ("repository", get frozen "repository"),
    ("version", get frozen "version"), ("source", get frozen "source"),
    ("release_kind", .str "formal"), ("generated_at", get frozen "generated_at"),
    ("policy", get frozen "policy"), ("dependencies", get frozen "dependencies"),
    ("files", .arr []), ("images", .arr [.obj (imageFields frozen registries)])]

/-- `finalize`, of the frozen document and the results of the registries. -/
def finalize (py : Python) (frozen registries : Json) : Except String Json := do
  let frozen ← validateFrozen py frozen
  let message := "registry results must cover Docker Hub and GHCR in order"
  let results ← arrayOf message registries
  ensure (results.length = 2 ∧ (resultNames results).map Json.text? =
    [some "dockerhub", some "ghcr"]) message
  let value := evidenceFields frozen registries
  validateReleaseEvidence py value
  return .obj value

end RemoteServer.Releases.Builder
