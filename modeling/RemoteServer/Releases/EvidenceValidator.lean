import RemoteServer.PyStd.Json
import RemoteServer.Releases.EvidenceNames

/-!
# `validate-release-evidence.py`

The check of the evidence of a release: the source, the policy, the dependencies, the files and the
container images.  A document is tested field by field, and the first field that is wrong ends the
check with a message.

* `objectWith`, `arrayOf`, `matchText` and `requireString` are the tests that all parts share.
* `validateDependencies`, `validateFiles`, `validateImages` and `validatePolicy` each test an array,
  and what stands in it must be sorted and unique.
* `validateReleaseEvidence` is the check of a document.

A lemma about a test says when it is passed.
-/

namespace RemoteServer.Releases.Validator

open Fallible PyStd

/-! ## Parts of a document -/

/-- A dictionary with the given keys. -/
def objectWith (keys : List String) (message : String) : Json → Except String Fields
  | .obj fields => if hasKeys fields keys then .ok fields else .error message
  | _ => .error message

def arrayOf (message : String) : Json → Except String (List Json)
  | .arr items => .ok items
  | _ => .error message

/-- A text that an expression matches. -/
def matchText (valid : String → Bool) (message : String) : Json → Except String String
  | .str text => if valid text then .ok text else .error message
  | _ => .error message

/-- `require_string`. -/
def requireString (mapping : Fields) (name : String) : Except String String :=
  matchText (fun text => !text.isEmpty) (name ++ " must be a non-empty string") (get mapping name)

/-- `require_sorted_unique_strings`. -/
def requireSortedUniqueStrings (value : Json) (location : String) (allowEmpty : Bool) :
    Except String (List String) :=
  let message := location ++ " must be a sorted unique " ++
    (if allowEmpty then "" else "non-empty ") ++ "string array"
  match value with
  | .arr items =>
    match items.mapM Json.text? with
    | some texts =>
      if (texts.isEmpty && !allowEmpty) || texts.any String.isEmpty ||
          decide (texts ≠ sortedSet texts) then .error message
      else .ok texts
    | none => .error message
  | _ => .error message

def validateLogicalId (value : Json) (location : String) : Except String String :=
  matchText isLogicalId (location ++ " must be a logical id") value

def validateSemver (value : Json) (location : String) : Except String String :=
  matchText isEvidenceSemver
    (location ++ " must be SemVer without v prefix or build metadata") value

def validateRevision (value : Json) (location : String) : Except String String :=
  matchText isRevision (location ++ " must use YYYY-MM-DD.N") value

def validateSha256 (value : Json) (location : String) : Except String String :=
  matchText isSha256 (location ++ " must be lowercase SHA-256") value

def validateDigest (value : Json) (location : String) : Except String String :=
  matchText (fun text => isDigest text.toList)
    (location ++ " must be a canonical sha256 OCI digest") value

section Parts

variable {valid : String → Bool} {keys : List String} {message location name text : String}
  {value : Json} {mapping fields : Fields} {items : List Json} {texts : List String}
  {allowEmpty : Bool}

@[simp] theorem objectWith_eq_ok :
    objectWith keys message value = .ok fields ↔
      value = .obj fields ∧ hasKeys fields keys = true := by
  unfold objectWith
  split
  · rename_i fields'
    split
    · rename_i hkeys
      rw [Except.ok.injEq, Json.obj.injEq]
      exact ⟨fun h => ⟨h, h ▸ hkeys⟩, fun h => h.1⟩
    · rename_i hkeys
      exact ⟨fun h => (nomatch h), fun h => absurd h.2 (Json.obj.inj h.1 ▸ hkeys)⟩
  · rename_i hother
    exact ⟨fun h => (nomatch h), fun h => absurd h.1 (hother fields)⟩

@[simp] theorem arrayOf_eq_ok : arrayOf message value = .ok items ↔ value = .arr items := by
  unfold arrayOf
  split
  · rw [Except.ok.injEq, Json.arr.injEq]
  · rename_i hother
    exact ⟨fun h => (nomatch h), fun h => absurd h (hother items)⟩

@[simp] theorem matchText_eq_ok :
    matchText valid message value = .ok text ↔ value = .str text ∧ valid text = true := by
  unfold matchText
  split
  · rename_i text'
    split
    · rename_i hvalid
      rw [Except.ok.injEq, Json.str.injEq]
      exact ⟨fun h => ⟨h, h ▸ hvalid⟩, fun h => h.1⟩
    · rename_i hvalid
      exact ⟨fun h => (nomatch h), fun h => absurd h.2 (Json.str.inj h.1 ▸ hvalid)⟩
  · rename_i hother
    exact ⟨fun h => (nomatch h), fun h => absurd h.1 (hother text)⟩

@[simp] theorem requireString_eq_ok :
    requireString mapping name = .ok text ↔ get mapping name = .str text ∧ text ≠ "" := by
  rw [requireString, matchText_eq_ok]
  simp

/-- A strictly increasing array of texts that are not empty. -/
theorem requireSortedUniqueStrings_eq_ok (hsorted : texts.Pairwise (· < ·))
    (hne : ∀ text ∈ texts, text ≠ "") (hempty : texts ≠ [] ∨ allowEmpty = true) :
    requireSortedUniqueStrings (.arr (texts.map Json.str)) location allowEmpty = .ok texts := by
  have hfilled : texts.any String.isEmpty = false := by
    rw [List.any_eq_false]
    intro text htext
    rw [String.isEmpty_iff]
    exact hne text htext
  have hcount : (texts.isEmpty && !allowEmpty) = false := by
    rcases hempty with hempty | rfl
    · rw [List.isEmpty_eq_false_iff.2 hempty, Bool.false_and]
    · rw [Bool.not_true, Bool.and_false]
  have hset : ¬texts ≠ sortedSet texts := not_not.2 (sortedSet_eq_self_iff.2 hsorted).symm
  have htexts : (texts.map Json.str).mapM Json.text? = some texts :=
    mapM_map_eq_some (f := Json.text?) (fun _ => rfl) texts
  simp only [requireSortedUniqueStrings, htexts, hfilled, hcount, decide_eq_false hset,
    Bool.or_self, Bool.false_eq_true, if_false]

end Parts

/-- The place of an item of an array. -/
def itemAt (array : String) (index : Nat) : String := array ++ "[" ++ toString index ++ "]"

def validateEvidenceFile (value : Json) (location : String) : Except String Unit := do
  let fields ← objectWith ["name", "sha256"] (location ++ " has unexpected fields") value
  let _ ← requireString fields "name"
  let _ ← validateSha256 (get fields "sha256") (location ++ ".sha256")

/-! ## Files -/

def signingKeys : List String :=
  ["category", "verification", "verifier", "timestamp", "distribution", "evidence"]

/-- How a category is verified. -/
def validateCategory (location platform category verification verifier timestamp : String)
    (evidence : List String) : Except String Unit :=
  if category = "not-applicable" then do
    ensure (verification = "not-applicable" ∧ verifier = "none" ∧ timestamp = "not-applicable" ∧
      evidence = []) (location ++ " contradicts its not-applicable category")
    ensure (platform ∈ ["source", "web"])
      (location ++ " is not applicable only to source or Web files")
  else if category = "unsigned" then do
    ensure (verification = "not-present" ∧ verifier = "none")
      (location ++ " contradicts its unsigned category")
    ensure (timestamp = "not-applicable" ∧ evidence = [])
      (location ++ " unsigned evidence must be empty")
  else
    ensure (verification = "verified" ∧ verifier ≠ "none" ∧ evidence ≠ [])
      (location ++ " signed evidence must be verified")

def validateSigning (value : Json) (location platform : String) : Except String Unit := do
  let fields ← objectWith signingKeys (location ++ " has unexpected fields") value
  let category ← requireString fields "category"
  let verification ← requireString fields "verification"
  let verifier ← requireString fields "verifier"
  let timestamp ← requireString fields "timestamp"
  let distribution ← requireString fields "distribution"
  let evidence ← requireSortedUniqueStrings (get fields "evidence") (location ++ ".evidence") true
  ensure (category ∈ ["public-trust", "private-trust", "platform-key", "ad-hoc", "unsigned",
    "not-applicable"]) (location ++ ".category is invalid")
  ensure (verification ∈ ["verified", "not-present", "not-applicable"])
    (location ++ ".verification is invalid")
  ensure (timestamp ∈ ["verified", "missing", "not-applicable"])
    (location ++ ".timestamp is invalid")
  ensure (distribution ∈ ["installable", "restricted", "re-signing-input", "source-only",
    "not-applicable"]) (location ++ ".distribution is invalid")
  validateCategory location platform category verification verifier timestamp evidence
  ensure (platform ∈ ["source", "web"] → category = "not-applicable")
    (location ++ " source and Web files use not-applicable signing")
  ensure (distribution = "source-only" → platform = "source")
    (location ++ " source-only distribution requires source platform")
  ensure (distribution = "not-applicable" → platform ∈ ["source", "web"])
    (location ++ " not-applicable distribution requires source or Web platform")
  ensure (distribution = "re-signing-input" → platform ∈ ["android", "ios"])
    (location ++ " re-signing inputs are limited to Android and iOS")
  ensure (category = "unsigned" ∧ platform ∈ ["android", "ios"] →
    distribution = "re-signing-input")
    (location ++ " unsigned mobile output must be a re-signing input")
  ensure (¬(category = "ad-hoc" ∧ distribution = "installable"))
    (location ++ " ad-hoc artifacts cannot claim installable distribution")

def fileKeys : List String :=
  ["name", "sha256", "size_bytes", "platform", "architecture", "sbom", "provenance", "signing"]

/-- The body of the loop of `validate_files`: the name of the file. -/
def validateFile (location : String) (artifact : Json) : Except String String := do
  let fields ← objectWith fileKeys (location ++ " has unexpected fields") artifact
  let name ← requireString fields "name"
  let _ ← validateSha256 (get fields "sha256") (location ++ ".sha256")
  ensure (get fields "size_bytes").isPositive (location ++ ".size_bytes must be positive")
  let platform ← matchText (["android", "ios", "linux", "macos", "source", "web",
    "windows"].contains ·) (location ++ ".platform is invalid") (get fields "platform")
  let _ ← validateLogicalId (get fields "architecture") (location ++ ".architecture")
  validateEvidenceFile (get fields "sbom") (location ++ ".sbom")
  validateEvidenceFile (get fields "provenance") (location ++ ".provenance")
  validateSigning (get fields "signing") (location ++ ".signing") platform
  return name

def validateFiles (value : Json) : Except String Unit := do
  let items ← arrayOf "files must be an array" value
  let names ← items.zipIdx.mapM fun (artifact, index) =>
    validateFile (itemAt "files" index) artifact
  ensure (names = sortedSet names) "files must be sorted and unique by name"

/-! ## Policy -/

def policyKeys : List String :=
  ["repository_policy_revision", "signing_registry_revision", "exceptions"]

def exceptionKeys : List String :=
  ["id", "owner", "expires_on", "reason", "compensating_control", "evidence"]

/-- The body of the loop of `validate_policy`: the id of the exception. -/
def validateException (py : Python) (generatedOn : ℕ) (location : String) (exception : Json) :
    Except String String := do
  let fields ← objectWith exceptionKeys (location ++ " has unexpected fields") exception
  let exceptionId ← validateLogicalId (get fields "id") (location ++ ".id")
  let _ ← validateLogicalId (get fields "owner") (location ++ ".owner")
  match (requireString fields "expires_on").toOption.bind py.date with
  | none => .error (location ++ ".expires_on must be an ISO date")
  | some expiresOn =>
    ensure (generatedOn ≤ expiresOn) (location ++ " was expired when evidence was generated")
    let _ ← requireString fields "reason"
    let _ ← requireString fields "compensating_control"
    let _ ← requireSortedUniqueStrings (get fields "evidence") (location ++ ".evidence") false
    return exceptionId

def validatePolicy (py : Python) (value : Json) (generatedOn : ℕ) : Except String Unit := do
  let fields ← objectWith policyKeys "policy has unexpected fields" value
  let _ ← validateRevision (get fields "repository_policy_revision")
    "policy.repository_policy_revision"
  let _ ← validateRevision (get fields "signing_registry_revision")
    "policy.signing_registry_revision"
  let exceptions ← arrayOf "policy.exceptions must be an array" (get fields "exceptions")
  let exceptionIds ← exceptions.zipIdx.mapM fun (exception, index) =>
    validateException py generatedOn (itemAt "policy.exceptions" index) exception
  ensure (exceptionIds = sortedSet exceptionIds) "policy.exceptions must be sorted and unique by id"

/-! ## Dependencies -/

def dependencyKeys : List String := ["repository", "commit", "version", "relation", "evidence"]

def relations : List String := ["builds-from", "bundles", "compatible-with"]

/-- Repository, relation and commit, in the order of tuples. -/
abbrev Identity := String ×ₗ String ×ₗ String

/-- The version of a dependency can be absent. -/
def validateOptionalSemver (value : Json) (location : String) : Except String Unit :=
  match value with
  | .null => .ok ()
  | version => (validateSemver version location).map fun _ => ()

/-- The body of the loop of `validate_dependencies`: what identifies the dependency. -/
def validateDependency (location : String) (dependency : Json) : Except String Identity := do
  let fields ← objectWith dependencyKeys (location ++ " has unexpected fields") dependency
  let repository ← validateLogicalId (get fields "repository") (location ++ ".repository")
  let commit ← requireString fields "commit"
  ensure (isSha commit) (location ++ ".commit must be a full lowercase commit SHA")
  validateOptionalSemver (get fields "version") (location ++ ".version")
  let relation ← requireString fields "relation"
  ensure (relation ∈ relations) (location ++ ".relation is invalid")
  let _ ← requireString fields "evidence"
  return toLex (repository, toLex (relation, commit))

def validateDependencies (value : Json) : Except String Unit := do
  let items ← arrayOf "dependencies must be an array" value
  let identities ← items.zipIdx.mapM fun (dependency, index) =>
    validateDependency (itemAt "dependencies" index) dependency
  ensure (identities = sortedSet identities)
    "dependencies must be sorted and unique by repository, relation, commit"

/-! ## Images -/

def signatureKeys : List String := ["mechanism", "verification", "identity", "issuer", "evidence"]

def validateImageSignature (value : Json) (location : String) : Except String Unit := do
  let fields ← objectWith signatureKeys (location ++ " has unexpected fields") value
  ensure ((get fields "mechanism").isText "keyless-cosign")
    (location ++ ".mechanism must be keyless-cosign")
  ensure ((get fields "verification").isText "verified")
    (location ++ ".verification must be verified")
  let _ ← requireString fields "identity"
  let _ ← requireString fields "issuer"
  let _ ← requireSortedUniqueStrings (get fields "evidence") (location ++ ".evidence") false

def skippedRegistryKeys : List String := ["name", "status", "reason"]

def publishedRegistryKeys : List String :=
  ["name", "status", "repository", "digest", "aliases", "signature", "readback"]

def asObject (message : String) : Json → Except String Fields
  | .obj fields => .ok fields
  | _ => .error message

/-- `validate_registry` of a result that is published. -/
def validatePublished (fields : Fields) (location imageDigest releaseKind version commit : String) :
    Except String Unit := do
  ensure (releaseKind = "formal") (location ++ " candidates cannot publish registry images")
  let repository ← requireString fields "repository"
  ensure (isRepositoryName repository) (location ++ ".repository is invalid")
  let digest ← validateDigest (get fields "digest") (location ++ ".digest")
  ensure (digest = imageDigest) (location ++ ".digest differs from the canonical image digest")
  let aliases ← requireSortedUniqueStrings (get fields "aliases") (location ++ ".aliases") false
  ensure (version ∈ aliases ∧ "sha-" ++ commit ∈ aliases)
    (location ++ ".aliases must include the stable version and full source SHA")
  validateImageSignature (get fields "signature") (location ++ ".signature")
  ensure ((get fields "readback").isText "verified") (location ++ ".readback must be verified")

/-- `validate_registry`: the name and the status. -/
def validateRegistry (value : Json) (location imageDigest releaseKind version commit : String) :
    Except String (String × String) := do
  let fields ← asObject (location ++ " must be an object") value
  let name ← requireString fields "name"
  ensure (name ∈ ["dockerhub", "ghcr"]) (location ++ ".name is invalid")
  let status ← requireString fields "status"
  if status = "skipped" then
    ensure (hasKeys fields skippedRegistryKeys)
      (location ++ " skipped result has unexpected fields")
    let reason ← requireString fields "reason"
    let expectedReason := if releaseKind = "candidate" then "candidate-only" else "not-configured"
    ensure (reason = expectedReason)
      (location ++ " skipped " ++ releaseKind ++ " result must use " ++ expectedReason)
  else
    ensure (status = "published" ∧ hasKeys fields publishedRegistryKeys)
      (location ++ " has an invalid publication result")
    validatePublished fields location imageDigest releaseKind version commit
  return (name, status)

def imagePlatformKeys : List String := ["platform", "architecture", "digest"]

/-- One platform of an image: its architecture and its digest. -/
def validatePlatform (location : String) (platform : Json) : Except String (String × String) := do
  let fields ← objectWith imagePlatformKeys (location ++ " has unexpected fields") platform
  ensure ((get fields "platform").isText "linux") (location ++ ".platform must be linux")
  let architecture ← requireString fields "architecture"
  ensure (architecture ∈ ["amd64", "arm64"]) (location ++ ".architecture is invalid")
  let digest ← validateDigest (get fields "digest") (location ++ ".digest")
  return (architecture, digest)

/-- The platforms of an image. -/
def validatePlatforms (location : String) (value : Json) : Except String Unit := do
  let message := location ++ ".platforms must be a non-empty array"
  let platforms ← arrayOf message value
  ensure (platforms ≠ []) message
  let results ← platforms.zipIdx.mapM fun (platform, index) =>
    validatePlatform (itemAt (location ++ ".platforms") index) platform
  -- every platform is `linux`, so that the architectures are in the order of the pairs
  ensure (results.map Prod.fst = sortedSet (results.map Prod.fst))
    (location ++ ".platforms must be sorted and unique")
  ensure ((results.map Prod.snd).Nodup) (location ++ ".platform digests must be unique")

/-- The results of the registries of an image. -/
def validateRegistries (location : String) (value : Json)
    (imageDigest releaseKind version commit : String) : Except String Unit := do
  let message := location ++ ".registries must explicitly cover Docker Hub and GHCR"
  let registries ← arrayOf message value
  ensure (registries.length = 2) message
  let results ← registries.zipIdx.mapM fun (registry, index) =>
    validateRegistry registry (itemAt (location ++ ".registries") index) imageDigest releaseKind
      version commit
  ensure (results.map Prod.fst = ["dockerhub", "ghcr"])
    (location ++ ".registries must be sorted and unique by name")
  ensure (releaseKind = "formal" → "published" ∈ results.map Prod.snd)
    (location ++ " formal image has no configured registry")

def imageKeys : List String := ["name", "digest", "platforms", "sbom", "provenance", "registries"]

/-- The body of the loop of `validate_images`: the name of the image. -/
def validateImage (releaseKind version commit location : String) (image : Json) :
    Except String String := do
  let fields ← objectWith imageKeys (location ++ " has unexpected fields") image
  let name ← validateLogicalId (get fields "name") (location ++ ".name")
  let imageDigest ← validateDigest (get fields "digest") (location ++ ".digest")
  validatePlatforms location (get fields "platforms")
  validateEvidenceFile (get fields "sbom") (location ++ ".sbom")
  validateEvidenceFile (get fields "provenance") (location ++ ".provenance")
  validateRegistries location (get fields "registries") imageDigest releaseKind version commit
  return name

def validateImages (value : Json) (releaseKind version commit : String) : Except String Unit := do
  let items ← arrayOf "images must be an array" value
  let names ← items.zipIdx.mapM fun (image, index) =>
    validateImage releaseKind version commit (itemAt "images" index) image
  ensure (names = sortedSet names) "images must be sorted and unique by name"

/-! ## Documents -/

def rootKeys : List String :=
  ["schema_version", "repository", "version", "source", "release_kind", "generated_at", "policy",
    "dependencies", "files", "images"]

def sourceKeys : List String := ["commit", "ref", "validation_run_id"]

/-- The day on which the evidence was generated. -/
def generatedOn (py : Python) (fields : Fields) : Except String ℕ := do
  let generatedAt ← requireString fields "generated_at"
  ensure (generatedAt.toList.getLast? = some 'Z') "generated_at must use UTC"
  match py.datetime (String.ofList generatedAt.toList.dropLast ++ "+00:00") with
  | none => .error "generated_at must be RFC 3339"
  | some (day, utc) =>
    ensure (utc = true) "generated_at must use UTC"
    return day

/-- Whether an array has an item. -/
def hasItem : Json → Bool
  | .arr items => !items.isEmpty
  | _ => true

/-- `validate_release_evidence`. -/
def validateReleaseEvidence (py : Python) (value : Fields) : Except String Unit := do
  ensure (hasKeys value rootKeys) "release evidence has unexpected fields"
  ensure (get value "schema_version").isOne "schema_version must be 1"
  let _ ← validateLogicalId (get value "repository") "repository"
  let version ← validateSemver (get value "version") "version"
  let source ← objectWith sourceKeys "source has unexpected fields" (get value "source")
  let commit ← requireString source "commit"
  ensure (isSha commit) "source.commit must be a full lowercase commit SHA"
  let sourceRef ← requireString source "ref"
  ensure (get source "validation_run_id").isPositive
    "source.validation_run_id must be a positive integer"
  let releaseKind ← matchText (["candidate", "formal"].contains ·)
    "release_kind must be candidate or formal" (get value "release_kind")
  ensure (releaseKind = "formal" → sourceRef = "refs/tags/v" ++ version)
    "formal source.ref must be the exact stable version tag"
  let day ← generatedOn py value
  validatePolicy py (get value "policy") day
  validateDependencies (get value "dependencies")
  validateFiles (get value "files")
  validateImages (get value "images") releaseKind version commit
  ensure (hasItem (get value "files") ∨ hasItem (get value "images"))
    "release evidence requires at least one file or image"

end RemoteServer.Releases.Validator
