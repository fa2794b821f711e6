import RemoteServer.Releases.Bodies

/-!
# The hosted state that the release manager reads

GitHub keeps the Releases, the tags and the pull requests, and the registries keep the images.

* `authorize` is the check that a publication makes before it changes anything.
* `prepareMergedRelease` makes the draft and the tag for a release commit.
* `Evidence` answers what the manager asks of CI, of the reviews and of the repository.  The
  answers are about fixed commits.
-/

namespace RemoteServer.Releases

open Fallible PyStd

def pendingLabel : String := "release:pending"

structure PullRequest where
  number : Nat
  title : String
  /-- The state is `open`. -/
  isOpen : Bool
  draft : Bool
  /-- From the release branch of this repository to `main`. -/
  releaseBranch : Bool
  merged : Bool
  mergeCommitSha : Option String
  baseSha : String
  headSha : String
  user : String
  mergedBy : String
  body : Text
  labels : List String
deriving DecidableEq

structure Evidence where
  /-- `validation_run` of a run for a push to `main`. -/
  validationRun : Nat → String → Except String Unit
  /-- `exact_pr_ci_run`. -/
  focusedRun : String → Option Nat
  /-- `exact_push_ci_run`. -/
  pushRun : String → Except String Nat
  /-- `authorized_review_state`: approved and blocked. -/
  reviewState : Nat → String → Bool × Bool
  /-- The version that `current_metadata` reads in a commit. -/
  metadataVersion : String → String
  /-- The sorted paths that differ between two commits. -/
  changedFiles : String → String → List String
  /-- `validate_generated_tree` for a version, a base and a commit. -/
  generatedTree : String → String → String → Except String Unit
  /-- `CHANGELOG.md` of a commit. -/
  changelog : String → Text
  onMain : String → Bool
  /-- The readback and the attestations of an image with a digest. -/
  verifyImage : String → String → Except String Unit
  /-- `verify_asset_directory` for downloaded assets and a digest. -/
  verifyAssets : List (String × String) → String → Except String Unit

structure Hosted where
  releases : List Release
  pulls : List PullRequest
  /-- The commits of the tags. -/
  tags : List (String × String)
  /-- The Release that GitHub shows as the latest. -/
  latest : Option String
  /-- The digest of an image under an alias. -/
  aliases : String → String → Option String
  /-- The digests that an image repository has. -/
  manifests : List (String × String)
  signatures : List (String × String)

namespace Hosted

/-- An edit of one Release. -/
def editRelease (h : Hosted) (id : Nat) (f : Release → Release) : Hosted :=
  { h with
    releases := h.releases.map fun release =>
      if release.id == id then f release else release }

/-- A label is taken from a pull request. -/
def removeLabel (h : Hosted) (number : Nat) : Hosted :=
  { h with
    pulls := h.pulls.map fun pr =>
      if pr.number == number then { pr with labels := pr.labels.filter (· != pendingLabel) }
      else pr }

end Hosted

/-! ## Pull requests -/

/-- `canonical_sha`.  The check that the number is written the same way again always passes. -/
def canonicalSha (value label : String) : Except String String :=
  if isSha value then .ok value else .error (label ++ " must be a full lowercase commit SHA")

/-- `chore\(release\): v(.+)` -/
def titleVersion (title : String) : Option String :=
  let start := "chore(release): v".toList
  let rest := title.toList.drop start.length
  if start.isPrefixOf title.toList && !rest.isEmpty && !rest.contains '\n' then
    some (String.ofList rest)
  else none

def baseStart : Text := "<!-- release-base:".toList
def runStart : Text := "<!-- release-validation-run:".toList

def baseMatches (body : Text) : List String :=
  markerValues baseStart (fun s => isSha (String.ofList s)) body
def runMatches (body : Text) : List String := markerValues runStart isPositive body

/-- `parse_provenance`. -/
def parseProvenance (body : Text) : Except String (String × Nat) :=
  match baseMatches body, runMatches body with
  | [base], [run] =>
    if count baseStart body != 1 || count runStart body != 1 then
      .error "Release PR contains malformed release provenance"
    else .ok (base, Nat.ofDigitChars 10 run.toList 0)
  | _, _ => .error "Release PR must contain one exact base and validation-run marker"

/-- `merged_release_pr`. -/
def mergedReleasePr (h : Hosted) (sha : String) : Except String PullRequest :=
  match h.pulls.filter fun pr =>
      !pr.isOpen && pr.releaseBranch && pr.merged && pr.mergeCommitSha == some sha with
  | [found] =>
    match h.pulls.find? fun pr => pr.number == found.number with
    | some pr => .ok pr
    | none => .error "Not Found"
  | _ => .error "release commit must resolve to exactly one managed merged PR"

/-- `validate_merged_pr`: the number, the version and the validation run. -/
def validateMergedPr (config : ReleaseConfig) (ev : Evidence) (pr : PullRequest) (sha : String)
    (requirePending : Bool) : Except String (Nat × String × Nat) :=
  match titleVersion pr.title with
  | none => .error "merged Release PR envelope is invalid"
  | some version =>
    if pr.isOpen || !pr.merged || pr.mergeCommitSha != some sha ||
        pr.mergedBy != config.appLogin || pr.user != config.appLogin || !isSha pr.baseSha ||
        !isSha pr.headSha then
      .error "merged Release PR envelope is invalid"
    else do
      let parts ← parseVersion version
      if version != versionText parts then .error "merged Release PR version is not canonical"
      else do
        let (base, validationId) ← parseProvenance pr.body
        if base != pr.baseSha then .error "merged Release PR provenance is invalid"
        else if requirePending && !pr.labels.contains pendingLabel then
          .error "incomplete publication lost its managed pending label"
        else do
          ev.validationRun validationId pr.baseSha
          if (ev.focusedRun pr.headSha).isNone || !(ev.reviewState pr.number pr.headSha).1 ||
              (ev.reviewState pr.number pr.headSha).2 then
            .error "merged Release PR lacks exact-head CI and human authorization"
          else if ev.metadataVersion sha != version then
            .error "merged Release commit does not contain its declared version"
          else if ev.changedFiles pr.baseSha sha != config.allowedFiles then
            .error "merged Release commit changed files outside the version contract"
          else do
            ev.generatedTree version pr.baseSha sha
            return (pr.number, version, validationId)

/-! ## Authorization -/

/-- `release_by_tag`. -/
def releaseByTag (releases : List Release) (tag : String) : Except String (Option Release) :=
  match releases.filter fun release => release.tagName == tag with
  | [] => .ok none
  | [release] => .ok (some release)
  | _ => .error ("multiple Releases use " ++ tag)

/-- The arguments of a publication, and the commit that is checked out. -/
structure Job where
  version : String
  sha : String
  tag : String
  head : String
deriving DecidableEq

/-- What `authorize` passes on to the workflow. -/
structure Authorization where
  releaseId : Nat
  draft : Bool
  digest : Option String
  number : Nat
  validationId : Nat
  complete : Bool

/-- The first part of `authorize`: the pull request of the source. -/
def authorizeSource (ev : Evidence) (h : Hosted) (job : Job) : Except String PullRequest := do
  let parts ← parseVersion job.version
  let sha ← canonicalSha job.sha "publication SHA"
  let version := versionText parts
  let tag := "v" ++ version
  if job.version != version || job.tag != tag then
    .error "publication version, tag, and SHA are inconsistent"
  else if h.tags.lookup tag != some sha || job.head != sha then
    .error "publication checkout and tag do not identify the exact source"
  else if !ev.onMain job.head then .error "publication commit is not on main"
  else if ev.metadataVersion job.head != version then
    .error "publication source version differs from its tag"
  else do
    let pr ← mergedReleasePr h sha
    if pr.number == 0 then .error "merged Release PR has no canonical number" else return pr

/-- `authorize`. -/
def authorize (config : ReleaseConfig) (ev : Evidence) (h : Hosted) (job : Job) :
    Except String Authorization := do
  let pr ← authorizeSource ev h job
  match ← releaseByTag h.releases job.tag with
  | none => .error "Release Manager did not prepare the managed draft"
  | some release => do
    let (draft, digest, complete) ←
      validateReleaseRecord config release job.version job.sha pr.number
    let (number, version, _) ← validateMergedPr config ev pr job.sha (!complete)
    if number != pr.number || version != job.version then
      .error "merged Release PR identity differs from the publication tag"
    else do
      let validationId ← ev.pushRun job.sha
      return ⟨release.id, draft, digest, number, validationId, complete⟩

/-! ## The draft of a release commit -/

def draftRelease (config : ReleaseConfig) (id : Nat) (body : Text) (version sha : String) :
    Release where
  id := id
  tagName := "v" ++ version
  targetCommitish := sha
  name := config.title ++ " " ++ version
  author := config.appLogin
  draft := true
  prerelease := false
  immutable := false
  body := some body
  assets := []

/-- The end of `prepare_merged_release`: the tag. -/
def prepareTag (config : ReleaseConfig) (h : Hosted) (id : Nat) (version sha : String)
    (number : Nat) : Except String Unit × Hosted :=
  let tag := "v" ++ version
  let h' := match h.tags.lookup tag with
    | none => { h with tags := h.tags ++ [(tag, sha)] }
    | some _ => h
  let result : Except String Unit :=
    if h'.tags.lookup tag != some sha then
      .error ("managed tag " ++ tag ++ " did not converge to the release commit")
    else
      match h'.releases.find? fun release => release.id == id with
      | none => .error "managed Release identifier did not resolve exactly"
      | some release =>
        (validateReleaseRecord config release version sha number).map fun _ => ()
  (result, h')

/-- The checks of `prepare_merged_release`, with the Release that is there already. -/
def prepareChecks (config : ReleaseConfig) (ev : Evidence) (h : Hosted) (sha : String) :
    Except String (Nat × String × Option Release) := do
  let pr ← mergedReleasePr h sha
  let (number, version, _) ← validateMergedPr config ev pr sha true
  let release ← releaseByTag h.releases ("v" ++ version)
  if (h.tags.lookup ("v" ++ version)).any (· != sha) then
    .error ("managed tag v" ++ version ++ " points to another commit")
  else
    match release with
    | none => return (number, version, none)
    | some release => do
      let _ ← validateReleaseRecord config release version sha number
      return (number, version, some release)

/-- `prepare_merged_release`.  A new Release has the number `id`.  What was made before an error
stays. -/
def prepareMergedRelease (config : ReleaseConfig) (ev : Evidence) (h : Hosted) (sha : String)
    (id : Nat) : Except String Unit × Hosted :=
  match prepareChecks config ev h sha with
  | .error e => (.error e, h)
  | .ok (number, version, some release) => prepareTag config h release.id version sha number
  | .ok (number, version, none) =>
    match managedReleaseBody (ev.changelog sha) version sha number with
    | .error e => (.error e, h)
    | .ok body =>
      let release := draftRelease config id body version sha
      let h' := { h with releases := h.releases ++ [release] }
      match validateReleaseRecord config release version sha number with
      | .error e => (.error e, h')
      | .ok _ => prepareTag config h' id version sha number

/-! ## What the checks ask for -/

variable {config : ReleaseConfig} {ev : Evidence} {h : Hosted} {sha : String} {id : Nat}

/-- What `validate_merged_pr` asks of a pull request. -/
structure MergedPr (config : ReleaseConfig) (ev : Evidence) (pr : PullRequest) (sha : String)
    (pending : Bool) (version : String) (run : Nat) : Prop where
  title : titleVersion pr.title = some version
  closed : pr.isOpen = false
  merged : pr.merged = true
  commit : pr.mergeCommitSha = some sha
  mergedBy : pr.mergedBy = config.appLogin
  user : pr.user = config.appLogin
  base : isSha pr.baseSha = true
  head : isSha pr.headSha = true
  canonical : ∃ parts, parseVersion version = .ok parts ∧ version = versionText parts
  provenance : parseProvenance pr.body = .ok (pr.baseSha, run)
  label : pending = true → pr.labels.contains pendingLabel = true
  validated : ev.validationRun run pr.baseSha = .ok ()
  focused : (ev.focusedRun pr.headSha).isNone = false
  approved : (ev.reviewState pr.number pr.headSha).1 = true
  unblocked : (ev.reviewState pr.number pr.headSha).2 = false
  metadata : ev.metadataVersion sha = version
  changed : ev.changedFiles pr.baseSha sha = config.allowedFiles
  generated : ev.generatedTree version pr.baseSha sha = .ok ()

theorem validateMergedPr_ok_iff {pr : PullRequest} {pending : Bool} {number run : Nat}
    {version : String} :
    validateMergedPr config ev pr sha pending = .ok (number, version, run) ↔
      number = pr.number ∧ MergedPr config ev pr sha pending version run := by
  rw [validateMergedPr]
  cases htitle : titleVersion pr.title with
  | none => exact ⟨fun hv => (nomatch hv), fun hv => (nomatch htitle.symm.trans hv.2.title)⟩
  | some text =>
    simp only [ite_error_eq_ok, bind_eq_ok_iff, Bool.or_eq_true, not_or, Bool.not_eq_true,
      Bool.not_eq_false', bne_eq_false_iff_eq, Bool.and_eq_false_iff]
    constructor
    · rintro ⟨⟨⟨⟨⟨⟨⟨hopen, hmerged⟩, hcommit⟩, hby⟩, huser⟩, hbase⟩, hhead⟩, parts, hparts,
        hcanonical, ⟨base, validationId⟩, hprovenance, rfl, hlabel, ⟨⟩, hvalidated,
        ⟨⟨hfocused, happroved⟩, hunblocked⟩, hmetadata, hchanged, ⟨⟩, hgenerated, hv⟩
      cases hv
      refine ⟨rfl, htitle, hopen, hmerged, hcommit, hby, huser, hbase, hhead, ⟨parts, hparts,
        hcanonical⟩, hprovenance, ?_, hvalidated, hfocused, happroved, hunblocked, hmetadata,
        hchanged, hgenerated⟩
      intro hpending
      rcases hlabel with hlabel | hlabel
      · exact absurd (hpending.symm.trans hlabel) (by decide)
      · exact hlabel
    · rintro ⟨rfl, hv⟩
      cases htitle.symm.trans hv.title
      obtain ⟨parts, hparts, hcanonical⟩ := hv.canonical
      refine ⟨⟨⟨⟨⟨⟨⟨hv.closed, hv.merged⟩, hv.commit⟩, hv.mergedBy⟩, hv.user⟩, hv.base⟩, hv.head⟩,
        parts, hparts, hcanonical, (pr.baseSha, run), hv.provenance, rfl, ?_, (), hv.validated,
        ⟨⟨hv.focused, hv.approved⟩, hv.unblocked⟩, hv.metadata, hv.changed, (), hv.generated, rfl⟩
      cases hpending : pending with
      | true => exact Or.inr (hv.label hpending)
      | false => exact Or.inl rfl

theorem MergedPr.not_pending {pr : PullRequest} {pending : Bool} {version : String} {run : Nat}
    (h : MergedPr config ev pr sha pending version run) :
    MergedPr config ev pr sha false version run :=
  { h with label := fun hpending => (nomatch hpending) }

/-- What `authorize` asks of the source of a job. -/
structure Sourced (ev : Evidence) (h : Hosted) (job : Job) (pr : PullRequest) : Prop where
  version : ∃ parts, parseVersion job.version = .ok parts ∧ job.version = versionText parts
  sha : isSha job.sha = true
  tag : job.tag = "v" ++ job.version
  commit : h.tags.lookup job.tag = some job.sha
  head : job.head = job.sha
  onMain : ev.onMain job.head = true
  metadata : ev.metadataVersion job.head = job.version
  pull : mergedReleasePr h job.sha = .ok pr
  number : 0 < pr.number

theorem authorizeSource_ok_iff {job : Job} {pr : PullRequest} :
    authorizeSource ev h job = .ok pr ↔ Sourced ev h job pr := by
  simp only [authorizeSource, canonicalSha, bind_eq_ok_iff, ite_error_eq_ok, Bool.or_eq_true,
    not_or, Bool.not_eq_true, bne_eq_false_iff_eq, Bool.not_eq_false']
  constructor
  · rintro ⟨parts, hparts, sha, hsha, ⟨hversion, htag⟩, ⟨hcommit, hhead⟩, hmain, hmetadata, pr',
      hpull, hnumber, hpr⟩
    cases hpr
    have hcanonical : isSha job.sha = true ∧ job.sha = sha := by
      split at hsha
      · exact ⟨‹_›, Except.ok.inj hsha⟩
      · cases hsha
    obtain ⟨hvalid, rfl⟩ := hcanonical
    rw [← hversion] at htag hcommit hmetadata
    rw [← htag] at hcommit
    exact ⟨⟨parts, hparts, hversion⟩, hvalid, htag, hcommit, hhead, hmain, hmetadata, hpull,
      Nat.pos_of_ne_zero (beq_eq_false_iff_ne.1 hnumber)⟩
  · rintro ⟨⟨parts, hparts, hversion⟩, hsha, htag, hcommit, hhead, hmain, hmetadata, hpull, hnumber⟩
    refine ⟨parts, hparts, job.sha, if_pos hsha, ⟨hversion, ?_⟩, ⟨?_, hhead⟩, hmain, ?_, pr, hpull,
      beq_eq_false_iff_ne.2 (Nat.pos_iff_ne_zero.1 hnumber), rfl⟩
    · rw [← hversion, htag]
    · rw [← hversion, ← htag, hcommit]
    · rw [← hversion, hmetadata]

theorem authorize_ok_iff {job : Job} {auth : Authorization} :
    authorize config ev h job = .ok auth ↔
      ∃ pr release run, Sourced ev h job pr ∧
        releaseByTag h.releases job.tag = .ok (some release) ∧
        validateReleaseRecord config release job.version job.sha pr.number =
          .ok (auth.draft, auth.digest, auth.complete) ∧
        MergedPr config ev pr job.sha (!auth.complete) job.version run ∧
        ev.pushRun job.sha = .ok auth.validationId ∧ auth.releaseId = release.id ∧
        auth.number = pr.number := by
  constructor
  · intro hauth
    obtain ⟨pr, hsource, hauth⟩ := bind_eq_ok hauth
    obtain ⟨release, hrelease, hauth⟩ := bind_eq_ok hauth
    cases release with
    | none => cases hauth
    | some release =>
      obtain ⟨⟨draft, digest, complete⟩, hrecord, hauth⟩ := bind_eq_ok hauth
      obtain ⟨⟨number, version, run⟩, hmerged, hauth⟩ := bind_eq_ok hauth
      obtain ⟨hsame, hauth⟩ := ite_error_eq_ok.1 hauth
      obtain ⟨validationId, hpush, hauth⟩ := bind_eq_ok hauth
      cases hauth
      obtain ⟨rfl, hpr⟩ := validateMergedPr_ok_iff.1 hmerged
      simp only [Bool.or_eq_true, not_or, Bool.not_eq_true, bne_eq_false_iff_eq] at hsame
      obtain ⟨-, rfl⟩ := hsame
      exact ⟨pr, release, run, authorizeSource_ok_iff.1 hsource, hrelease, hrecord, hpr, hpush,
        rfl, rfl⟩
  · rintro ⟨pr, release, run, hsource, hrelease, hrecord, hmerged, hpush, hid, hnumber⟩
    obtain ⟨releaseId, draft, digest, number, validationId, complete⟩ := auth
    obtain rfl : releaseId = release.id := hid
    obtain rfl : number = pr.number := hnumber
    refine bind_eq_ok_iff.2 ⟨pr, authorizeSource_ok_iff.2 hsource, ?_⟩
    refine bind_eq_ok_iff.2 ⟨some release, hrelease, ?_⟩
    refine bind_eq_ok_iff.2 ⟨(draft, digest, complete), hrecord, ?_⟩
    refine bind_eq_ok_iff.2 ⟨(pr.number, job.version, run),
      validateMergedPr_ok_iff.2 ⟨rfl, hmerged⟩, ?_⟩
    refine ite_error_eq_ok.2 ⟨?_, bind_eq_ok_iff.2 ⟨validationId, hpush, rfl⟩⟩
    simp

/-- What the preparation leaves behind. -/
inductive Prepared (config : ReleaseConfig) (ev : Evidence) (h : Hosted) (sha : String)
    (id : Nat) : Hosted → Prop where
  | same : Prepared config ev h sha id h
  | tag {tag : String} (hnone : h.tags.lookup tag = none) :
      Prepared config ev h sha id { h with tags := h.tags ++ [(tag, sha)] }
  | draft {pr : PullRequest} {body : Text} {version : String}
      {tags : List (String × String)} (hpr : mergedReleasePr h sha = .ok pr)
      (hbody : managedReleaseBody (ev.changelog sha) version sha pr.number = .ok body)
      (hnone : releaseByTag h.releases ("v" ++ version) = .ok none)
      (htags : tags = h.tags ∨
        ∃ tag, h.tags.lookup tag = none ∧ tags = h.tags ++ [(tag, sha)]) :
      Prepared config ev h sha id
        { h with
          releases := h.releases ++ [draftRelease config id body version sha]
          tags := tags }

theorem prepareTag_cases (config : ReleaseConfig) (h : Hosted) (id : Nat) (version sha : String)
    (number : Nat) :
    (prepareTag config h id version sha number).2 = h ∨
      h.tags.lookup ("v" ++ version) = none ∧
        (prepareTag config h id version sha number).2 =
          { h with tags := h.tags ++ [("v" ++ version, sha)] } := by
  rw [prepareTag]
  cases htag : h.tags.lookup ("v" ++ version) with
  | none => exact Or.inr ⟨rfl, rfl⟩
  | some commit => exact Or.inl rfl

theorem prepared (config : ReleaseConfig) (ev : Evidence) (h : Hosted) (sha : String) (id : Nat) :
    Prepared config ev h sha id (prepareMergedRelease config ev h sha id).2 := by
  rw [prepareMergedRelease]
  cases hchecks : prepareChecks config ev h sha with
  | error e => exact .same
  | ok checked =>
    obtain ⟨number, version, release⟩ := checked
    cases release with
    | some release =>
      show Prepared config ev h sha id (prepareTag config h release.id version sha number).2
      rcases prepareTag_cases config h release.id version sha number with hsame | ⟨hnone, htag⟩
      · rw [hsame]
        exact .same
      · rw [htag]
        exact .tag hnone
    | none =>
      obtain ⟨pr, hpr, hchecks⟩ := bind_eq_ok hchecks
      obtain ⟨⟨number', version', run⟩, hmerged, hchecks⟩ := bind_eq_ok hchecks
      obtain ⟨release, hrelease, hchecks⟩ := bind_eq_ok hchecks
      obtain ⟨-, hchecks⟩ := ite_error_eq_ok.1 hchecks
      obtain ⟨rfl, -⟩ := validateMergedPr_ok_iff.1 hmerged
      cases release with
      | some release =>
        obtain ⟨_, -, hchecks⟩ := bind_eq_ok hchecks
        cases hchecks
      | none =>
        cases hchecks
        dsimp only
        cases hbody : managedReleaseBody (ev.changelog sha) version sha pr.number with
        | error e => exact .same
        | ok body =>
          dsimp only
          cases validateReleaseRecord config (draftRelease config id body version sha)
              version sha pr.number with
          | error e => exact .draft hpr hbody hrelease (Or.inl rfl)
          | ok result =>
            dsimp only
            rcases prepareTag_cases config
                { h with releases := h.releases ++ [draftRelease config id body version sha] }
                id version sha pr.number with hsame | ⟨hnone, htag⟩
            · rw [hsame]
              exact .draft hpr hbody hrelease (Or.inl rfl)
            · rw [htag]
              exact .draft hpr hbody hrelease (Or.inr ⟨_, hnone, rfl⟩)

end RemoteServer.Releases
