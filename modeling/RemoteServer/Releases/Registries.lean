import RemoteServer.Releases.EvidenceBuilder
import RemoteServer.RustStd.Text

/-!
# The registries of an image

`resolve-container-registries.sh` makes the names of the repositories from the reviewed map, and
`publish-container-release.sh` pushes the frozen image to them and writes a result for each.

* `resolveRegistries` gives the name at Docker Hub and the one at GHCR.  A registry without a name
  is not used.
* `matchesFrozen` is the test of the frozen document before the image is pushed.
* `publishRegistry` is the result of a registry, and `registryResults` is the file that `finalize`
  reads.
-/

namespace RemoteServer.Releases.Builder

open Fallible PyStd Validator

/-! ## Names -/

/-- The repositories of an image.  An empty name is none. -/
structure Images where
  dockerhub : String
  ghcr : String
  primary : String

/-- The repository at Docker Hub, an owner and a name. -/
def isDockerhubName (s : Text) : Bool :=
  match s.dropWhile (· != '/') with
  | [] => false
  | _ :: name => isImageName (s.takeWhile (· != '/')) && isImageName name

/-- `resolve-container-registries.sh`, of the names in the entry of the map. -/
def resolveRegistries (logicalRepositoryId repositoryOwner ghcrName dockerhubName : String) :
    Except String Images := do
  ensure (isLogicalId logicalRepositoryId) "Invalid logical repository ID"
  let owner := RustStd.Str.toAsciiLowercase repositoryOwner
  ensure (isLogicalId owner) "Repository owner cannot form a canonical GHCR namespace"
  ensure (ghcrName = "" ∨ isImageName ghcrName.toList) "Reviewed GHCR image name is invalid"
  ensure (dockerhubName = "" ∨ isDockerhubName dockerhubName.toList)
    "Reviewed Docker Hub repository is invalid"
  ensure (ghcrName ≠ "" ∨ dockerhubName ≠ "")
    "A formal image release requires at least one configured registry"
  let ghcr := if ghcrName = "" then "" else "ghcr.io/" ++ owner ++ "/" ++ ghcrName
  let dockerhub := if dockerhubName = "" then "" else "docker.io/" ++ dockerhubName
  return ⟨dockerhub, ghcr, if ghcr = "" then dockerhub else ghcr⟩

/-! ## Results -/

/-- What the script publishes, from its environment. -/
structure Publication where
  githubRepository : String
  logicalRepositoryId : String
  logicalImageId : String
  version : String
  sha : String
  digest : String

/-- The workflow run that signed an image. -/
inductive Signer where
  | tag
  | main

/-- `tag_identity` and `main_identity`. -/
def Signer.identity (p : Publication) : Signer → String
  | .tag => "https://github.com/" ++ p.githubRepository ++
      "/.github/workflows/publish-release.yml@refs/tags/v" ++ p.version
  | .main => "https://github.com/" ++ p.githubRepository ++
      "/.github/workflows/publish-release.yml@refs/heads/main"

/-- The fields of a value, none when it has none. -/
def fieldsOf : Json → Fields
  | .obj fields => fields
  | _ => []

/-- The test of the frozen document with `jq`. -/
def matchesFrozen (p : Publication) (frozen : Json) : Bool :=
  let fields := fieldsOf frozen
  let source := fieldsOf (get fields "source")
  (get fields "repository").isText p.logicalRepositoryId &&
    (get fields "image").isText p.logicalImageId && (get fields "version").isText p.version &&
    (get source "commit").isText p.sha && (get source "ref").isText ("refs/tags/v" ++ p.version) &&
    (get fields "digest").isText p.digest

/-- The result for a registry that is not used. -/
def skippedFields (name : String) : Fields :=
  [("name", .str name), ("status", .str "skipped"), ("reason", .str "not-configured")]

/-- A signature that was verified, with the workflow run and the file that has the answer. -/
def signatureFields (identity evidence : String) : Fields :=
  [("mechanism", .str "keyless-cosign"), ("verification", .str "verified"),
    ("identity", .str identity), ("issuer", .str "https://token.actions.githubusercontent.com"),
    ("evidence", .arr [.str evidence])]

/-- The result for an image that `signer` signed. -/
def publishedFields (p : Publication) (name image : String) (signer : Signer) : Fields :=
  [("name", .str name), ("status", .str "published"), ("repository", .str image),
    ("digest", .str p.digest), ("aliases", .arr [.str p.version, .str ("sha-" ++ p.sha)]),
    ("signature", .obj (signatureFields (signer.identity p) (name ++ "-cosign-verification.json"))),
    ("readback", .str "verified")]

/-- `publish_registry`. -/
def publishRegistry (p : Publication) (name image : String) (signer : Signer) : Json :=
  if image = "" then .obj (skippedFields name) else .obj (publishedFields p name image signer)

/-- The results in the order of their names. -/
def registryResults (p : Publication) (images : Images) (dockerhub ghcr : Signer) : Json :=
  .arr [publishRegistry p "dockerhub" images.dockerhub dockerhub,
    publishRegistry p "ghcr" images.ghcr ghcr]

/-- The results that the script can write for a frozen document. -/
inductive Produced (frozen : Json) : Json → Prop
  | results (p : Publication) (repositoryOwner ghcrName dockerhubName : String) (images : Images)
      (dockerhub ghcr : Signer) (hmatches : matchesFrozen p frozen = true)
      (himages : resolveRegistries p.logicalRepositoryId repositoryOwner ghcrName dockerhubName =
        .ok images) : Produced frozen (registryResults p images dockerhub ghcr)

/-! ## Names that the validator accepts -/

section Names

/-- The separators in the name of an image are separators in a path. -/
theorem separator_of_image (c : Char) (h : (c == '.' || c == '_' || c == '-') = true) :
    (c == '.' || c == '_' || c == '/' || c == '-') = true := by
  simp only [Bool.or_eq_true] at h ⊢
  tauto

/-- The owner and the name at Docker Hub. -/
theorem isWords_of_isDockerhubName {s : Text} (h : isDockerhubName s = true) :
    isWords (fun c => c == '.' || c == '_' || c == '/' || c == '-') s = true := by
  unfold isDockerhubName at h
  split at h
  · cases h
  next slash name hrest =>
    rw [Bool.and_eq_true] at h
    have hslash : slash = '/' := by
      have hne : s.dropWhile (· != '/') ≠ [] := by
        rw [hrest]
        exact List.cons_ne_nil _ _
      have hhead := List.head_dropWhile_not (· != '/') hne
      simpa [hrest] using hhead
    rw [← List.takeWhile_append_dropWhile (p := (· != '/')) (l := s), hrest, hslash]
    exact isWords_append (by decide) (by decide) (isWords_mono separator_of_image h.1)
      (isWords_mono separator_of_image h.2)

/-- Both names are accepted, and there is one. -/
theorem resolveRegistries_ok {logicalRepositoryId repositoryOwner ghcrName dockerhubName : String}
    {images : Images} (h : resolveRegistries logicalRepositoryId repositoryOwner ghcrName
      dockerhubName = .ok images) :
    (images.dockerhub = "" ∨ isRepositoryName images.dockerhub = true) ∧
      (images.ghcr = "" ∨ isRepositoryName images.ghcr = true) ∧
      (images.dockerhub ≠ "" ∨ images.ghcr ≠ "") := by
  simp only [resolveRegistries, bind_eq_ok_iff, ensure_eq_ok] at h
  obtain ⟨_, -, _, howner, _, hghcr, _, hdockerhub, _, hone, h⟩ := h
  obtain rfl := Except.ok.inj h
  set owner := RustStd.Str.toAsciiLowercase repositoryOwner
  have hpath : isWords (fun c => c == '.' || c == '_' || c == '/' || c == '-') owner.toList =
      true := by
    refine isWords_mono (fun c hc => ?_) howner
    rw [hc, Bool.or_true]
  refine ⟨?_, ?_, ?_⟩
  · rcases hdockerhub with hnone | hname
    · exact Or.inl (if_pos hnone)
    · by_cases hnone : dockerhubName = ""
      · exact Or.inl (if_pos hnone)
      · rw [if_neg hnone]
        have heq : "docker.io/" ++ dockerhubName =
            String.ofList ("docker.io".toList ++ '/' :: dockerhubName.toList) := by
          rw [← String.toList_inj]
          simp
        rw [heq]
        exact Or.inr (isRepositoryName_append (by decide) (by decide)
          (isWords_of_isDockerhubName hname))
  · rcases hghcr with hnone | hname
    · exact Or.inl (if_pos hnone)
    · by_cases hnone : ghcrName = ""
      · exact Or.inl (if_pos hnone)
      · rw [if_neg hnone]
        have heq : "ghcr.io/" ++ owner ++ "/" ++ ghcrName = String.ofList
            ("ghcr.io".toList ++ '/' :: (owner.toList ++ '/' :: ghcrName.toList)) := by
          rw [← String.toList_inj]
          simp
        rw [heq]
        exact Or.inr (isRepositoryName_append (by decide) (by decide)
          (isWords_append (by decide) (by decide) hpath (isWords_mono separator_of_image hname)))
  · rcases hone with hname | hname
    · rw [if_neg hname]
      exact Or.inr (append_ne_empty (Or.inr hname))
    · rw [if_neg hname]
      exact Or.inl (append_ne_empty (Or.inr hname))

end Names

end RemoteServer.Releases.Builder
