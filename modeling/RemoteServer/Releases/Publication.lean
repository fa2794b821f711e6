import RemoteServer.Lts.Run
import RemoteServer.Releases.Hosted

/-!
# Publication runs

The workflow that publishes a prepared Release, as a machine.  A run authorizes its job, executes
`publish-container-release.sh`, completes the Release and moves the `latest` aliases.  Every task
of a run makes at most one change to the hosted state, and a run can stop between any two tasks.

* The concurrency group of the workflow lets one run be active at a time.
* The release manager is in another group, so that it prepares drafts while a run is active.
* A task that fails ends its run.
* `step_cases` says what an action does to the hosted state.

The script keeps its signatures, its checksums and its evidence in local files.  They are the
assets of the run and do not change what is hosted until they are uploaded.
-/

namespace RemoteServer.Releases

open Fallible PyStd

/-- The characters in the names that `resolve-container-registries.sh` lets through. -/
def isImageChar (c : Char) : Bool :=
  c.isDigit || decide ('a' ≤ c ∧ c ≤ 'z') || c == '.' || c == '_' || c == '-' || c == '/'

/-- The targets that are configured. -/
structure Registries where
  dockerhub : Option String
  ghcr : Option String
  valid : ∀ image ∈ dockerhub.toList ++ ghcr.toList, image.toList.all isImageChar = true

namespace Registries

def images (registries : Registries) : List String :=
  registries.dockerhub.toList ++ registries.ghcr.toList

def primary (registries : Registries) : String :=
  registries.ghcr.getD (registries.dockerhub.getD "")

end Registries

/-- What a run does next. -/
inductive Task where
  /-- The first look at the Release, where the script takes its way. -/
  | start
  /-- The checks of a Release that is out already. -/
  | verifyExisting
  /-- `reconcile_draft_alias`. -/
  | reconcileAlias (image name : String)
  /-- The signature of an image and its readback. -/
  | sign (image : String)
  /-- The readback and the attestations of the image. -/
  | verifyImage
  | checkAssets
  /-- One asset.  A different one of its name is deleted first. -/
  | upload (name content : String)
  /-- The readback of the assets, and `authorize` again. -/
  | verifyDraft
  /-- The digest goes into the notes of the draft. -/
  | recordDigest
  /-- The draft is turned off. -/
  | publish
  | verifyPublished
  /-- `complete_release` up to the completion marker. -/
  | complete
  /-- The end of `complete_release`. -/
  | removeLabel (number : Nat)
  /-- `reconcile_latest` up to the choice of the highest Release. -/
  | reconcileLatest
  /-- The digest of the highest Release. -/
  | resolveLatest (version : Version) (highest : Release)
  /-- `reconcile-container-latest.sh` for one image, with the version of the digest. -/
  | copyLatest (image : String) (version : Version) (digest : String)
deriving DecidableEq

structure Run where
  job : Job
  registries : Registries
  releaseId : Nat
  number : Nat
  verifyPublishedOnly : Bool
  recordedDigest : Option String
  /-- The digest of the frozen image, for a draft. -/
  digest : String
  /-- The names and contents of the local assets, for a draft. -/
  assets : List (String × String)
  /-- `release_json` of the first look. -/
  record : Option Release
  todo : List Task

structure State where
  hosted : Hosted
  active : Option Run

inductive Event where
  | started (job : Job)
  /-- The `latest` alias of an image was set to the digest of a version. -/
  | latest (image : String) (version : Version) (digest : String)
deriving DecidableEq

inductive Action where
  /-- The release manager prepares the Release of a release commit. -/
  | prepare (sha : String) (id : Nat)
  | start (job : Job) (registries : Registries) (digest : String) (assets : List (String × String))
  | perform
  /-- The run fails or is cancelled between two tasks. -/
  | stop

/-! ## The tasks -/

/-- `refresh_release`. -/
def refreshRelease (config : ReleaseConfig) (h : Hosted) (run : Run) : Except String Release :=
  match h.releases.filter fun release => release.tagName == "v" ++ run.job.version with
  | [] => .error "managed release not found"
  | [release] =>
    let body := release.body.getD []
    if release.id != run.releaseId then .error "managed release identity changed"
    else if release.targetCommitish != run.job.sha then .error "Release target changed"
    else if release.name != config.title ++ " " ++ run.job.version then
      .error "Release title changed"
    else if release.author != config.appLogin then .error "Release author changed"
    else if !release.draft && !release.immutable then .error "Release state metadata is invalid"
    else if (lines body).count (commitMarker run.job.sha) != 1 then
      .error "Managed commit marker changed"
    else if (lines body).count (prMarker run.number) != 1 then .error "Managed PR marker changed"
    else if ¬(release.assets.map Prod.fst).Nodup then
      .error "Release contains duplicate asset names"
    else .ok release
  | _ => .error "multiple releases use the same tag"

/-- The notes with the digest of the run. -/
def Run.publishedBody (run : Run) (body : Text) : Text :=
  Releases.publishedBody run.registries.images run.digest run.job.version run.job.sha body

/-- `verify_registry_aliases` and `verify_image_signature` of every target.  The last test of the
aliases has no message. -/
def verifyRegistries (h : Hosted) (run : Run) (digest : String) : Except String Unit :=
  run.registries.images.forM fun image =>
    if h.aliases image run.job.version != some digest then
      .error (image ++ ":" ++ run.job.version ++ " does not resolve to " ++ digest)
    else if h.aliases image ("sha-" ++ run.job.sha) != some digest then
      .error (image ++ ":sha-" ++ run.job.sha ++ " does not resolve to " ++ digest)
    else if !h.manifests.contains (image, digest) then .error ""
    else if !h.signatures.contains (image, digest) then
      .error ("Image signature is not bound to the managed publication workflow: " ++ image ++
        "@" ++ digest)
    else .ok ()

/-- The ways of the script at its first look. -/
def firstTasks (run : Run) (draft : Bool) : Except String (List Task) :=
  if run.verifyPublishedOnly || !draft then
    if draft then .error "Verification-only mode requires a published Release"
    else if !run.recordedDigest.any (fun digest => isDigest digest.toList) then
      .error "Published recovery requires its recorded digest"
    else .ok [.verifyExisting, .complete, .reconcileLatest]
  else if !isDigest run.digest.toList then .error "Frozen evidence contains no valid OCI digest"
  else if run.recordedDigest.isSome then .error "Draft Release cannot contain a recorded digest"
  else
    .ok <| (run.registries.images.flatMap fun image =>
        [.reconcileAlias image run.job.version, .reconcileAlias image ("sha-" ++ run.job.sha),
          .sign image]) ++
      [.verifyImage, .checkAssets] ++ run.assets.map (fun asset => .upload asset.1 asset.2) ++
      [.verifyDraft, .recordDigest, .verifyPublished, .complete, .reconcileLatest]

/-- `reconcile_draft_alias`.  The record is that of the first look. -/
def reconcileDraftAlias (h : Hosted) (run : Run) (image name : String) : Except String Hosted :=
  match run.record with
  | none => .error "managed release not found"
  | some release =>
    let committed := digestMatches (release.body.getD [])
    let current := (h.aliases image name).getD ""
    if !release.draft then
      .error "Registry alias reconciliation requires the managed draft Release"
    else if 1 < committed.length then
      .error "Draft Release contains duplicate container digest markers"
    else if committed.any (· != run.digest) then
      .error "Draft Release is already committed to a different container digest"
    else if current != "" && current != run.digest && !committed.isEmpty then
      .error ("Committed registry alias conflict: " ++ image ++ ":" ++ name ++ " resolves to " ++
        current)
    else .ok
      { h with
        aliases := fun i n => if i == image && n == name then some run.digest else h.aliases i n
        manifests := (image, run.digest) :: h.manifests }

/-- The pull request that the body of the own Release names, and whether the Release is complete
in `complete_release` and `reconcile_latest`. -/
def ownRecord (config : ReleaseConfig) (h : Hosted) (run : Run) (missing unnamed : String) :
    Except String (Release × Nat × Bool × Bool) := do
  match ← releaseByTag h.releases run.job.tag with
  | none => .error missing
  | some release =>
    match prMatches (release.body.getD []) with
    | [] => .error unnamed
    | text :: _ => do
      let number := Nat.ofDigitChars 10 text.toList 0
      let (draft, _, complete) ←
        validateReleaseRecord config release run.job.version run.job.sha number
      return (release, number, draft, complete)

/-- One task.  What it changes is the last thing it does.  GitHub refuses new assets of a Release
that is immutable. -/
def perform (config : ReleaseConfig) (ev : Evidence) (h : Hosted) (run : Run) :
    Task → Except String (Hosted × Run × List Event)
  | .start => do
    let release ← refreshRelease config h run
    let tasks ← firstTasks run release.draft
    return (h, { run with record := some release, todo := tasks }, [])
  | .verifyExisting => do
    let digest := run.recordedDigest.getD ""
    let release ← refreshRelease config h run
    verifyRegistries h run digest
    ev.verifyAssets release.assets digest
    ev.verifyImage run.registries.primary digest
    return (h, run, [])
  | .reconcileAlias image name => do
    let h' ← reconcileDraftAlias h run image name
    return (h', run, [])
  | .sign image =>
    .ok ({ h with signatures := (image, run.digest) :: h.signatures }, run, [])
  | .verifyImage => do
    ev.verifyImage run.registries.primary run.digest
    return (h, run, [])
  | .checkAssets => do
    let release ← refreshRelease config h run
    if !release.draft then do
      ev.verifyAssets release.assets run.digest
      return (h, { run with todo := [.complete, .reconcileLatest] }, [])
    else if release.assets.any fun asset => !(run.assets.map Prod.fst).contains asset.1 then
      .error "Draft Release contains unexpected assets"
    else return (h, run, [])
  | .upload name content =>
    match h.releases.find? fun release => release.id == run.releaseId with
    | none => .error "release not found"
    | some release =>
      if release.immutable then .error "Cannot upload assets to an immutable release."
      else
        match release.assets.lookup name with
        | none => .ok (h.editRelease run.releaseId fun release =>
            { release with assets := release.assets ++ [(name, content)] }, run, [])
        | some existing =>
          if existing == content then .ok (h, run, [])
          else .ok (h.editRelease run.releaseId fun release =>
            { release with assets := release.assets.filter fun asset => asset.1 != name },
              { run with todo := .upload name content :: run.todo }, [])
  | .verifyDraft => do
    let release ← refreshRelease config h run
    ev.verifyAssets release.assets run.digest
    let _ ← authorize config ev h run.job
    return (h, run, [])
  | .recordDigest => do
    let release ← refreshRelease config h run
    let existing := digestMatches (release.body.getD [])
    if !release.draft then return (h, run, [])
    else if existing == [] then
      return (h.editRelease run.releaseId fun release =>
          { release with body := some (run.publishedBody (release.body.getD [])) },
        { run with todo := .publish :: run.todo }, [])
    else if existing == [run.digest] then
      return (h, { run with todo := .publish :: run.todo }, [])
    else .error "Release notes contain a conflicting digest"
  | .publish =>
    .ok (h.editRelease run.releaseId fun release =>
      { release with draft := false, immutable := true }, run, [])
  | .verifyPublished => do
    let release ← refreshRelease config h run
    if release.draft || !release.immutable then .error "Release did not become immutable"
    else if (lines (release.body.getD [])).count (digestMarker run.digest) != 1 then .error ""
    else do
      ev.verifyAssets release.assets run.digest
      verifyRegistries h run run.digest
      return (h, run, [])
  | .complete => do
    let _ ← authorize config ev h run.job
    let (release, number, draft, complete) ←
      ownRecord config h run "managed Release disappeared before completion"
        "'NoneType' object has no attribute 'group'"
    if draft then .error "cannot complete a draft Release"
    else return (if complete then h else h.editRelease release.id fun release =>
        { release with body := some (completedBody run.job.sha (release.body.getD [])) },
      { run with todo := .removeLabel number :: run.todo }, [])
  | .removeLabel number => do
    match ← releaseByTag h.releases run.job.tag with
    | none => .error "managed Release disappeared after completion"
    | some release => do
      let (_, _, complete) ←
        validateReleaseRecord config release run.job.version run.job.sha number
      if !complete then .error "managed Release did not record completion"
      else return (h.removeLabel number, run, [])
  | .reconcileLatest => do
    let (_, _, _, complete) ← ownRecord config h run "current managed Release is unavailable"
      "current managed Release has no PR identity"
    if !complete then .error "only a completed Release can reconcile latest"
    else do
      let eligible ← completedReleases h.releases
      match eligible.getLast? with
      | none => .error "no completed stable Release is eligible for latest"
      | some (version, highest) =>
        return ({ h with latest := some ("v" ++ versionText version) },
          { run with todo := [.resolveLatest version highest] }, [])
  | .resolveLatest version highest =>
    let digests := digestMatches (highest.body.getD [])
    let digest := if digests.length = 1 then digests.head?.getD "" else ""
    if config.container && digest == "" then
      .error "latest container Release has no canonical digest"
    else .ok (h, { run with
      todo := if "v" ++ versionText version == run.job.tag then
          run.registries.images.map fun image => .copyLatest image version digest
        else [] }, [])
  | .copyLatest image version digest =>
    if !isDigest digest.toList then .error "LATEST_DIGEST must be a canonical OCI digest"
    else if !h.manifests.contains (image, digest) then
      .error (image ++ "@" ++ digest ++ ": not found")
    else .ok ({ h with
        aliases := fun i n =>
          if i == image && n == "latest" then some digest else h.aliases i n },
      run, [.latest image version digest])

/-! ## Steps -/

/-- The run that an authorization starts. -/
def startRun (job : Job) (registries : Registries) (digest : String)
    (assets : List (String × String)) (auth : Authorization) : Run where
  job := job
  registries := registries
  releaseId := auth.releaseId
  number := auth.number
  verifyPublishedOnly := !auth.draft
  recordedDigest := auth.digest
  digest := digest
  assets := assets
  record := none
  todo := [.start]

def step (config : ReleaseConfig) (ev : Evidence) (s : State) :
    Action → Option (State × List Event)
  | .prepare sha id =>
    if s.hosted.releases.any fun release => release.id == id then none
    else some ({ s with hosted := (prepareMergedRelease config ev s.hosted sha id).2 }, [])
  | .start job registries digest assets =>
    match s.active, authorize config ev s.hosted job with
    | none, .ok auth =>
      some ({ s with active := some (startRun job registries digest assets auth) },
        [.started job])
    | _, _ => none
  | .perform =>
    match s.active with
    | none => none
    | some run =>
      match run.todo with
      | [] => some ({ s with active := none }, [])
      | task :: rest =>
        match perform config ev s.hosted { run with todo := rest } task with
        | .error _ => some ({ s with active := none }, [])
        | .ok (hosted, run', events) => some ({ hosted := hosted, active := some run' }, events)
  | .stop =>
    match s.active with
    | none => none
    | some _ => some ({ s with active := none }, [])

/-! ## What a task does -/

/-- The new state of a task that succeeds. -/
inductive Performed (config : ReleaseConfig) (ev : Evidence) (h : Hosted) (run : Run) :
    Task → Hosted → Run → List Event → Prop where
  | check {task : Task} (htask : task ≠ .publish) : Performed config ev h run task h run []
  | start {release : Release} {tasks : List Task}
      (htasks : firstTasks run release.draft = .ok tasks) :
      Performed config ev h run .start h { run with record := some release, todo := tasks } []
  | reconcileAlias {image name : String} : Performed config ev h run (.reconcileAlias image name)
      { h with
        aliases := fun i n => if i == image && n == name then some run.digest else h.aliases i n
        manifests := (image, run.digest) :: h.manifests }
      run []
  | sign {image : String} : Performed config ev h run (.sign image)
      { h with signatures := (image, run.digest) :: h.signatures } run []
  | published : Performed config ev h run .checkAssets h
      { run with todo := [.complete, .reconcileLatest] } []
  | upload {name content : String} {release : Release}
      (hfind : h.releases.find? (fun release => release.id == run.releaseId) = some release)
      (hmutable : release.immutable = false)
      (assets : List (String × String) → List (String × String)) {todo : List Task}
      (htodo : todo = run.todo ∨ todo = .upload name content :: run.todo) :
      Performed config ev h run (.upload name content)
        (h.editRelease run.releaseId fun release =>
          { release with assets := assets release.assets }) { run with todo := todo } []
  | recordDigest {release : Release} (hrefresh : refreshRelease config h run = .ok release)
      (hdraft : release.draft = true) (hnone : digestMatches (release.body.getD []) = []) :
      Performed config ev h run .recordDigest
        (h.editRelease run.releaseId fun release =>
          { release with body := some (run.publishedBody (release.body.getD [])) })
        { run with todo := .publish :: run.todo } []
  | recorded {release : Release} (hrefresh : refreshRelease config h run = .ok release)
      (hdraft : release.draft = true)
      (hdigest : digestMatches (release.body.getD []) = [run.digest]) :
      Performed config ev h run .recordDigest h { run with todo := .publish :: run.todo } []
  | publish : Performed config ev h run .publish
      (h.editRelease run.releaseId fun release =>
        { release with draft := false, immutable := true }) run []
  | complete {auth : Authorization} {missing unnamed : String} {release : Release} {number : Nat}
      (hauth : authorize config ev h run.job = .ok auth)
      (hown : ownRecord config h run missing unnamed = .ok (release, number, false, false)) :
      Performed config ev h run .complete
        (h.editRelease release.id fun release =>
          { release with body := some (completedBody run.job.sha (release.body.getD [])) })
        { run with todo := .removeLabel number :: run.todo } []
  | completed {missing unnamed : String} {release : Release} {number : Nat}
      (hown : ownRecord config h run missing unnamed = .ok (release, number, false, true)) :
      Performed config ev h run .complete h { run with todo := .removeLabel number :: run.todo } []
  | removeLabel {release : Release} {number : Nat} {draft : Bool} {digest : Option String}
      (hrelease : releaseByTag h.releases run.job.tag = .ok (some release))
      (hrecord : validateReleaseRecord config release run.job.version run.job.sha number =
        .ok (draft, digest, true)) :
      Performed config ev h run (.removeLabel number) (h.removeLabel number) run []
  | reconcileLatest {eligible : List (Version × Release)} {version : Version} {highest : Release}
      (heligible : completedReleases h.releases = .ok eligible)
      (hlast : eligible.getLast? = some (version, highest)) :
      Performed config ev h run .reconcileLatest
        { h with latest := some ("v" ++ versionText version) }
        { run with todo := [.resolveLatest version highest] } []
  | resolveLatest {version : Version} {highest : Release} {todo : List Task}
      (htodo : ∀ task ∈ todo, ∃ image digest, task = .copyLatest image version digest ∧
        digestMatches (highest.body.getD []) = [digest]) :
      Performed config ev h run (.resolveLatest version highest) h { run with todo := todo } []
  | copyLatest {image : String} {version : Version} {digest : String} :
      Performed config ev h run (.copyLatest image version digest)
        { h with
          aliases := fun i n =>
            if i == image && n == "latest" then some digest else h.aliases i n }
        run [.latest image version digest]

variable {config : ReleaseConfig} {ev : Evidence} {h h' : Hosted} {run run' : Run} {task : Task}
  {evs : List Event}

theorem performed_of_perform (hconfig : config.container = true)
    (hp : perform config ev h run task = .ok (h', run', evs)) :
    Performed config ev h run task h' run' evs := by
  cases task with
  | start =>
    obtain ⟨release, hrefresh, hp⟩ := bind_eq_ok hp
    obtain ⟨tasks, htasks, hp⟩ := bind_eq_ok hp
    cases hp
    exact .start htasks
  | verifyExisting =>
    obtain ⟨release, -, hp⟩ := bind_eq_ok hp
    obtain ⟨-, -, hp⟩ := bind_eq_ok hp
    obtain ⟨-, -, hp⟩ := bind_eq_ok hp
    obtain ⟨-, -, hp⟩ := bind_eq_ok hp
    cases hp
    exact .check (by nofun)
  | reconcileAlias image name =>
    obtain ⟨h'', halias, hp⟩ := bind_eq_ok hp
    cases hp
    rw [reconcileDraftAlias] at halias
    cases hrecord : run.record with
    | none => rw [hrecord] at halias; cases halias
    | some release =>
      rw [hrecord] at halias
      simp only [ite_error_eq_ok] at halias
      obtain ⟨-, -, -, -, halias⟩ := halias
      cases halias
      exact .reconcileAlias
  | sign image =>
    cases hp
    exact .sign
  | verifyImage =>
    obtain ⟨-, -, hp⟩ := bind_eq_ok hp
    cases hp
    exact .check (by nofun)
  | checkAssets =>
    obtain ⟨release, -, hp⟩ := bind_eq_ok hp
    by_cases hdraft : (!release.draft) = true
    · rw [if_pos hdraft] at hp
      obtain ⟨-, -, hp⟩ := bind_eq_ok hp
      cases hp
      exact .published
    · rw [if_neg hdraft, ite_error_eq_ok] at hp
      cases hp.2
      exact .check (by nofun)
  | upload name content =>
    rw [perform] at hp
    cases hfind : h.releases.find? fun release => release.id == run.releaseId with
    | none => rw [hfind] at hp; cases hp
    | some release =>
      rw [hfind] at hp
      obtain ⟨hmutable, hp⟩ := ite_error_eq_ok.1 hp
      rw [Bool.not_eq_true] at hmutable
      cases hasset : release.assets.lookup name with
      | none =>
        rw [hasset] at hp
        cases hp
        exact .upload hfind hmutable (· ++ [(name, content)]) (Or.inl rfl)
      | some existing =>
        rw [hasset] at hp
        by_cases hsame : (existing == content) = true
        · simp only [hsame, if_true] at hp
          cases hp
          exact .check (by nofun)
        · simp only [hsame] at hp
          cases hp
          exact .upload hfind hmutable (List.filter fun asset => asset.1 != name) (Or.inr rfl)
  | verifyDraft =>
    obtain ⟨release, -, hp⟩ := bind_eq_ok hp
    obtain ⟨-, -, hp⟩ := bind_eq_ok hp
    obtain ⟨auth, -, hp⟩ := bind_eq_ok hp
    cases hp
    exact .check (by nofun)
  | recordDigest =>
    obtain ⟨release, hrefresh, hp⟩ := bind_eq_ok hp
    by_cases hdraft : (!release.draft) = true
    · rw [if_pos hdraft] at hp
      cases hp
      exact .check (by nofun)
    · rw [if_neg hdraft] at hp
      have hdraft : release.draft = true := by simpa using hdraft
      by_cases hnone : (digestMatches (release.body.getD []) == []) = true
      · rw [if_pos hnone] at hp
        cases hp
        exact .recordDigest hrefresh hdraft (beq_iff_eq.1 hnone)
      · rw [if_neg hnone] at hp
        by_cases hsame : (digestMatches (release.body.getD []) == [run.digest]) = true
        · rw [if_pos hsame] at hp
          cases hp
          exact .recorded hrefresh hdraft (beq_iff_eq.1 hsame)
        · rw [if_neg hsame] at hp
          cases hp
  | publish =>
    cases hp
    exact .publish
  | verifyPublished =>
    obtain ⟨release, -, hp⟩ := bind_eq_ok hp
    rw [ite_error_eq_ok, ite_error_eq_ok] at hp
    obtain ⟨-, -, hp⟩ := hp
    obtain ⟨-, -, hp⟩ := bind_eq_ok hp
    obtain ⟨-, -, hp⟩ := bind_eq_ok hp
    cases hp
    exact .check (by nofun)
  | complete =>
    obtain ⟨auth, hauth, hp⟩ := bind_eq_ok hp
    obtain ⟨⟨release, number, draft, complete⟩, hown, hp⟩ := bind_eq_ok hp
    obtain ⟨hdraft, hp⟩ := ite_error_eq_ok.1 hp
    rw [Bool.not_eq_true] at hdraft
    subst hdraft
    cases complete with
    | true =>
      cases hp
      exact .completed hown
    | false =>
      cases hp
      exact .complete hauth hown
  | removeLabel number =>
    obtain ⟨release, hrelease, hp⟩ := bind_eq_ok hp
    cases release with
    | none => cases hp
    | some release =>
      obtain ⟨⟨draft, digest, complete⟩, hrecord, hp⟩ := bind_eq_ok hp
      obtain ⟨hcomplete, hp⟩ := ite_error_eq_ok.1 hp
      obtain rfl : complete = true := by simpa using hcomplete
      cases hp
      exact .removeLabel hrelease hrecord
  | reconcileLatest =>
    obtain ⟨⟨release, number, draft, complete⟩, -, hp⟩ := bind_eq_ok hp
    obtain ⟨-, hp⟩ := ite_error_eq_ok.1 hp
    obtain ⟨eligible, heligible, hp⟩ := bind_eq_ok hp
    cases hlast : eligible.getLast? with
    | none => rw [hlast] at hp; cases hp
    | some last =>
      rw [hlast] at hp
      cases hp
      exact .reconcileLatest heligible hlast
  | resolveLatest version highest =>
    rw [perform] at hp
    obtain ⟨hdigest, hp⟩ := ite_error_eq_ok.1 hp
    cases hp
    refine .resolveLatest fun task htask => ?_
    split at htask
    · obtain ⟨image, -, rfl⟩ := List.mem_map.1 htask
      refine ⟨image, _, rfl, ?_⟩
      rw [hconfig, Bool.true_and, beq_iff_eq] at hdigest
      revert hdigest
      generalize digestMatches (highest.body.getD []) = digests
      intro hdigest
      rcases digests with _ | ⟨digest, _ | ⟨digest', rest⟩⟩
      · exact absurd rfl hdigest
      · rfl
      · exact absurd rfl hdigest
    · cases htask
  | copyLatest image version digest =>
    rw [perform, ite_error_eq_ok, ite_error_eq_ok] at hp
    cases hp.2.2
    exact .copyLatest

/-- What an action does. -/
inductive Stepped (config : ReleaseConfig) (ev : Evidence) (s : State) :
    Action → State → List Event → Prop where
  | prepared {sha : String} {id : Nat} {h' : Hosted}
      (hfresh : ∀ release ∈ s.hosted.releases, release.id ≠ id)
      (hprepared : Prepared config ev s.hosted sha id h') :
      Stepped config ev s (.prepare sha id) { s with hosted := h' } []
  | started {job : Job} {registries : Registries} {digest : String}
      {assets : List (String × String)} {auth : Authorization} (hidle : s.active = none)
      (hauth : authorize config ev s.hosted job = .ok auth) :
      Stepped config ev s (.start job registries digest assets)
        { s with active := some (startRun job registries digest assets auth) } [.started job]
  | ended {a : Action} {run : Run} (hactive : s.active = some run)
      (hend : a = .stop ∨ run.todo.head? ≠ some .publish) :
      Stepped config ev s a { s with active := none } []
  | performed {run : Run} {task : Task} {rest : List Task} {h' : Hosted} {run' : Run}
      {evs : List Event} (hactive : s.active = some run) (htodo : run.todo = task :: rest)
      (hperformed : Performed config ev s.hosted { run with todo := rest } task h' run' evs) :
      Stepped config ev s .perform { hosted := h', active := some run' } evs

theorem step_cases (hconfig : config.container = true) {s s' : State} {a : Action}
    (hs : step config ev s a = some (s', evs)) : Stepped config ev s a s' evs := by
  cases a with
  | prepare sha id =>
    rw [step] at hs
    split at hs
    · cases hs
    next hfresh =>
      cases hs
      refine .prepared (fun release hmem hid => hfresh ?_) (prepared config ev s.hosted sha id)
      exact List.any_eq_true.2 ⟨release, hmem, beq_iff_eq.2 hid⟩
  | start job registries digest assets =>
    rw [step] at hs
    cases hactive : s.active with
    | some run => rw [hactive] at hs; cases hs
    | none =>
      cases hauth : authorize config ev s.hosted job with
      | error e => rw [hactive, hauth] at hs; cases hs
      | ok auth =>
        rw [hactive, hauth] at hs
        cases hs
        exact .started hactive hauth
  | perform =>
    rw [step] at hs
    cases hactive : s.active with
    | none => rw [hactive] at hs; cases hs
    | some run =>
      rw [hactive] at hs
      dsimp only at hs
      cases htodo : run.todo with
      | nil =>
        rw [htodo] at hs
        cases hs
        refine .ended hactive (Or.inr ?_)
        rw [htodo]
        exact fun h => (nomatch h)
      | cons task rest =>
        rw [htodo] at hs
        dsimp only at hs
        cases hp : perform config ev s.hosted { run with todo := rest } task with
        | ok result =>
          obtain ⟨h', run', evs'⟩ := result
          rw [hp] at hs
          cases hs
          exact .performed hactive htodo (performed_of_perform hconfig hp)
        | error e =>
          rw [hp] at hs
          cases hs
          refine .ended hactive (Or.inr fun hpublish => ?_)
          rw [htodo] at hpublish
          cases hpublish
          cases hp
  | stop =>
    rw [step] at hs
    cases hactive : s.active with
    | none => rw [hactive] at hs; cases hs
    | some run =>
      rw [hactive] at hs
      cases hs
      exact .ended hactive (Or.inl rfl)

end RemoteServer.Releases
