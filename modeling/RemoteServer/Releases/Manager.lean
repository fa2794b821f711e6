import RemoteServer.Lts.Run
import RemoteServer.Releases.Edits

/-!
# The release manager and `main`

The manager runs after CI for one commit of `main`.  It prepares the Release of a release commit,
or it proposes the next version with a pull request, and another workflow merges an approved
proposal.  Commits of developers arrive at any time.

* `Repository` is what git says of a commit, and `Repository.evidence` answers the questions about
  files from it.
* `propose` is one run of the manager and `mergeRelease` the merge of a proposal.
* `step` is the machine.  A publication shows only in its effects on the Release and on the label,
  and both ask for `authorize` first.

Runs of the manager are serialized by the concurrency group of the workflow, so that a run is one
step.
-/

namespace RemoteServer.Releases.Manager

open Fallible PyStd

/-! ## The files of a commit -/

/-- `Cargo.toml` or `Cargo.lock`: the version of the package, and everything else. -/
structure CargoFile where
  version : String
  rest : String
deriving DecidableEq

structure Tree where
  manifest : CargoFile
  lock : CargoFile
  changelog : Option Text
  /-- The paths and contents of the other files. -/
  others : List (String × String)
deriving DecidableEq

/-- The sorted paths that differ. -/
def Tree.changed (a b : Tree) : List String :=
  let own := (if a.changelog = b.changelog then [] else ["CHANGELOG.md"]) ++
    (if a.lock = b.lock then [] else ["Cargo.lock"]) ++
    if a.manifest = b.manifest then [] else ["Cargo.toml"]
  let paths := ((a.others ++ b.others).map Prod.fst).dedup.filter fun path =>
    a.others.lookup path != b.others.lookup path
  (own ++ paths).insertionSort (· ≤ ·)

structure Repository where
  /-- CI, the reviews and the registries. -/
  services : Evidence
  title : String → String
  tree : String → Tree
  /-- The date of a commit. -/
  date : String → Date
  /-- `release_commits`. -/
  log : String → ReleaseLog
  /-- The pull request has one commit, with its head, base and title, by the App. -/
  generatedCommit : PullRequest → Bool

namespace Repository

variable (repo : Repository)

/-- `generate_release_tree`. -/
def generateReleaseTree (version base : String) : Except String Tree := do
  let tree := repo.tree base
  let changelog ← renderChangelog tree.changelog version (repo.date base) (repo.log base)
  return { tree with
    manifest := { tree.manifest with version := version }
    lock := { tree.lock with version := version }
    changelog := some changelog }

/-- `validate_generated_tree`. -/
def validateGeneratedTree (version base sha : String) : Except String Unit := do
  let expected ← repo.generateReleaseTree version base
  let candidate := repo.tree sha
  if candidate.changelog.isNone then
    .error "generated release file is unavailable: CHANGELOG.md"
  else if candidate.changelog != expected.changelog then
    .error "release proposal is not the exact generated CHANGELOG.md"
  else if candidate.lock != expected.lock then
    .error "release proposal is not the exact generated Cargo.lock"
  else if candidate.manifest != expected.manifest then
    .error "release proposal is not the exact generated Cargo.toml"
  else return ()

/-- The answers about files come from the trees. -/
def evidence : Evidence :=
  { repo.services with
    metadataVersion := fun sha => (repo.tree sha).manifest.version
    changedFiles := fun base sha => (repo.tree base).changed (repo.tree sha)
    generatedTree := repo.validateGeneratedTree
    changelog := fun sha => (repo.tree sha).changelog.getD [] }

end Repository

/-! ## A run of the manager -/

/-- `chore\(release\): v[0-9]+\.[0-9]+\.[0-9]+` -/
def isReleaseTitle (title : String) : Bool :=
  match titleVersion title with
  | none => false
  | some version =>
    let parts := version.toList.splitOn '.'
    parts.length == 3 && parts.all fun part => !part.isEmpty && part.all Char.isDigit

/-- The arguments of a run. -/
structure Request where
  validatedSha : String
  validationRun : Nat
  requestedVersion : Option String
deriving DecidableEq

/-- How a run ends. -/
inductive Outcome where
  | superseded
  | prepared
  /-- A Release is not complete. -/
  | pending
  /-- There are no new commits. -/
  | nothing
  /-- The open pull request is the proposal already. -/
  | current
  | proposed (version : String)
deriving DecidableEq

/-- A Release that is still to be published. -/
def isIncomplete (release : Release) : Bool :=
  (parseTag release.tagName).isSome && (release.draft || !completionMarker release)

/-- The version of the proposal, and whether it was asked for. -/
def proposalTarget (repo : Repository) (h : Hosted) (sha : String) (requested : Option String) :
    Except String (Option (String × Bool)) := do
  match ← automaticVersion h.releases (repo.log sha) with
  | none => return none
  | some automatic => do
    let target := (requested.filter (· != "")).getD automatic
    let parts ← parseVersion target
    let minimum ← parseVersion automatic
    if parts < minimum then
      .error ("requested v" ++ target ++ " is below automatic minimum v" ++ automatic)
    else do
      let completed ← completedReleases h.releases
      if completed.getLast?.any fun entry => decide (parts ≤ entry.1) then
        .error "next release version must exceed the latest completed version"
      else if completed.isEmpty && target != "1.0.0" then
        .error "the first formal release must be v1.0.0"
      else do
        let current ← parseVersion (repo.evidence.metadataVersion sha)
        if parts < current then .error "committed version is newer than the proposed release"
        else return some (target, requested.isSome && target != automatic)

def lockLabel : String := "release:version-locked"

/-- The body of the pull request. -/
def proposalBody (target sha : String) (run : Nat) : Text :=
  "Automated stable release proposal for **v".toList ++ target.toList ++ "**.\n\n".toList ++
    "Approve only the exact current head after `CI / Required` succeeds. ".toList ++
    "The Release App performs the SHA-guarded squash merge; the managed tag ".toList ++
    "workflow freezes evidence before protected publication.\n\n".toList ++
    marker baseStart sha ++ '\n' :: marker runStart (toString run) ++ ['\n']

/-- The end of `propose`: the tree, the branch with the commit `candidate`, and the pull request
`number`. -/
def openProposal (config : ReleaseConfig) (repo : Repository) (h : Hosted) (request : Request)
    (target : String) (locked : Bool) (candidate : String) (number : Nat) :
    Except String Outcome × Hosted :=
  match repo.generateReleaseTree target request.validatedSha with
  | .error e => (.error e, h)
  | .ok tree =>
    let changed := (repo.tree request.validatedSha).changed tree
    if changed != config.allowedFiles then
      (.error ("generated release changed an unexpected file set: " ++ ", ".intercalate changed), h)
    else
      (.ok (.proposed target),
        { h with
          pulls := h.pulls ++ [
            { number := number
              title := "chore(release): v" ++ target
              isOpen := true
              draft := false
              releaseBranch := true
              merged := false
              mergeCommitSha := none
              baseSha := request.validatedSha
              headSha := candidate
              user := config.appLogin
              mergedBy := ""
              body := proposalBody target request.validatedSha request.validationRun
              labels := pendingLabel :: if locked then [lockLabel] else [] }] })

/-- `release_prs` that are open. -/
def openReleasePrs (h : Hosted) : List PullRequest :=
  h.pulls.filter fun pr => pr.isOpen && pr.releaseBranch

/-- The open pull request is this proposal. -/
def isCurrent (request : Request) (target : String) (pr : PullRequest) : Except String Bool := do
  let (base, run) ← parseProvenance pr.body
  return base == request.validatedSha && run == request.validationRun &&
    pr.title == "chore(release): v" ++ target && !pr.draft && pr.labels.contains pendingLabel

/-- `close_stale_pr`. -/
def closePull (h : Hosted) (number : Nat) : Hosted :=
  { h with
    pulls := h.pulls.map fun pr => if pr.number == number then { pr with isOpen := false } else pr }

/-- The part of `propose` that follows the choice of the version. -/
def refreshProposal (config : ReleaseConfig) (repo : Repository) (h : Hosted) (request : Request)
    (target : String) (locked : Bool) (candidate : String) (number : Nat) :
    Except String Outcome × Hosted :=
  match openReleasePrs h with
  | [] => openProposal config repo h request target locked candidate number
  | [existing] =>
    match isCurrent request target existing with
    | .error e => (.error e, h)
    | .ok true => (.ok .current, h)
    | .ok false =>
      if existing.user != config.appLogin then
        (.error "release/next is occupied by a pull request outside the Release App", h)
      else
        openProposal config repo (closePull h existing.number) request target locked candidate number
  | _ => (.error "multiple open managed Release PRs exist", h)

/-- `propose`.  A new Release has the number `id`. -/
def propose (config : ReleaseConfig) (repo : Repository) (h : Hosted) (main : List String)
    (request : Request) (id : Nat) (candidate : String) (number : Nat) :
    Except String Outcome × Hosted :=
  match canonicalSha request.validatedSha "validated SHA" with
  | .error e => (.error e, h)
  | .ok sha =>
    match repo.services.validationRun request.validationRun sha with
    | .error e => (.error e, h)
    | .ok () =>
      if main.head? != some sha then (.ok .superseded, h)
      else if isReleaseTitle (repo.title sha) then
        let result := prepareMergedRelease config repo.evidence h sha id
        (result.1.map fun _ => .prepared, result.2)
      else if h.releases.any isIncomplete then (.ok .pending, h)
      else
        match proposalTarget repo h sha request.requestedVersion with
        | .error e => (.error e, h)
        | .ok none => (.ok .nothing, h)
        | .ok (some (target, locked)) =>
          refreshProposal config repo h request target locked candidate number

/-! ## The merge of a proposal -/

/-- `validate_open_pr`: the version. -/
def validateOpenPr (config : ReleaseConfig) (repo : Repository) (pr : PullRequest) :
    Except String String :=
  match titleVersion pr.title with
  | none => .error "managed Release PR envelope is invalid"
  | some version =>
    if !pr.isOpen || pr.draft || pr.user != config.appLogin || !pr.releaseBranch ||
        !isSha pr.headSha || !isSha pr.baseSha then
      .error "managed Release PR envelope is invalid"
    else do
      let parts ← parseVersion version
      if version != versionText parts then .error "Release PR version is not canonical"
      else do
        let (base, run) ← parseProvenance pr.body
        if base != pr.baseSha then
          .error "Release PR provenance does not match its exact base SHA"
        else if !pr.labels.contains pendingLabel then
          .error "Release PR lost its managed pending label"
        else do
          repo.services.validationRun run pr.baseSha
          if !repo.generatedCommit pr then
            .error "Release PR commit identity, topology, or message is invalid"
          else if repo.evidence.changedFiles pr.baseSha pr.headSha != config.allowedFiles then
            .error "Release PR changed files outside the generated version contract"
          else return version

/-- `merge_release` up to the merge: the pull request that is merged now. -/
def mergeRelease (config : ReleaseConfig) (repo : Repository) (h : Hosted) :
    Except String (Option PullRequest) :=
  match openReleasePrs h with
  | [] => .ok none
  | [found] => do
    let version ← validateOpenPr config repo found
    let (approved, blocked) := repo.services.reviewState found.number found.headSha
    if blocked || (repo.services.focusedRun found.headSha).isNone || !approved then return none
    else do
      repo.validateGeneratedTree version found.baseSha found.headSha
      return some found
  | _ => .error "multiple open managed Release PRs exist"

/-- The squash merge of a pull request as a commit. -/
def mergePull (config : ReleaseConfig) (h : Hosted) (number : Nat) (sha : String) : Hosted :=
  { h with
    pulls := h.pulls.map fun pr =>
      if pr.number == number then
        { pr with
          isOpen := false
          merged := true
          mergeCommitSha := some sha
          mergedBy := config.appLogin }
      else pr }

/-! ## Steps -/

structure State where
  /-- The commits of `main`, the last one first. -/
  main : List String
  hosted : Hosted

inductive Action where
  /-- A commit of a developer. -/
  | push (sha : String)
  /-- The merge of the open proposal as a commit. -/
  | merge (sha : String)
  | manage (request : Request) (id : Nat) (candidate : String) (number : Nat)
  /-- The publication turns the draft off and writes its body. -/
  | publish (job : Job) (body : Text)
  /-- The completion takes the label away. -/
  | complete (job : Job)

inductive Event where
  | managed (sha : String) (outcome : Except String Outcome)
deriving DecidableEq

/-- Git has not given this name to a commit of `main` or to a merge. -/
def isFreshCommit (s : State) (sha : String) : Bool :=
  isSha sha && !s.main.contains sha &&
    !s.hosted.pulls.any fun pr => pr.mergeCommitSha == some sha

/-- A squash onto the base of the pull request has the files of its head. -/
def squashes (repo : Repository) (s : State) (pr : PullRequest) (sha : String) : Bool :=
  repo.title sha == pr.title &&
    (s.main.head? != some pr.baseSha || repo.tree sha == repo.tree pr.headSha)

def step (config : ReleaseConfig) (repo : Repository) (s : State) :
    Action → Option (State × List Event)
  | .push sha =>
    if isFreshCommit s sha then some ({ s with main := sha :: s.main }, []) else none
  | .merge sha =>
    match mergeRelease config repo s.hosted with
    | .ok (some pr) =>
      if isFreshCommit s sha && squashes repo s pr sha then
        some ({ main := sha :: s.main, hosted := mergePull config s.hosted pr.number sha }, [])
      else none
    | _ => none
  | .manage request id candidate number =>
    if (s.hosted.releases.any fun release => release.id == id) || number == 0 ||
        s.hosted.pulls.any fun pr => pr.number == number then none
    else
      let result := propose config repo s.hosted s.main request id candidate number
      some ({ s with hosted := result.2 }, [.managed request.validatedSha result.1])
  | .publish job body =>
    match authorize config repo.evidence s.hosted job with
    | .ok auth =>
      some ({ s with
        hosted := s.hosted.editRelease auth.releaseId fun release =>
          { release with draft := false, immutable := true, body := some body } }, [])
    | .error _ => none
  | .complete job =>
    match authorize config repo.evidence s.hosted job with
    | .ok auth =>
      if auth.complete then some ({ s with hosted := s.hosted.removeLabel auth.number }, [])
      else none
    | .error _ => none

end RemoteServer.Releases.Manager
