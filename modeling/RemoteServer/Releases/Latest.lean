import RemoteServer.Releases.Completed
import RemoteServer.Releases.Edits

/-!
# The `latest` aliases

The `latest` alias of a registry names the highest completed Release, and it never goes back.

* `Recorded` is that a completed Release of a version records a digest, and `Highest` that no
  completed Release has a higher version.
* `completedReleases_highest` says what the choice of the last completed Release gives.
* `TodoOk` is what the tasks of a run rely on.  The tasks that move the aliases come last, so
  that no Release is completed between the choice and the copies.
* `latest_never_decreases` is the result.
-/

namespace RemoteServer.Releases

open Fallible PyStd

/-! ## The highest completed Release -/

/-- A completed Release of this version records this digest. -/
def Recorded (h : Hosted) (version : Version) (digest : String) : Prop :=
  ∃ release ∈ h.releases, isCompleted release = true ∧ parseTag release.tagName = some version ∧
    digestMatches (release.body.getD []) = [digest]

/-- No completed Release has a higher version. -/
def Highest (h : Hosted) (version : Version) : Prop :=
  ∀ release ∈ h.releases, isCompleted release = true →
    ∀ other, parseTag release.tagName = some other → other ≤ version

/-- The choice of the last completed Release. -/
theorem completedReleases_highest {h : Hosted} {eligible : List (Version × Release)}
    {version : Version} {highest : Release}
    (heligible : completedReleases h.releases = .ok eligible)
    (hlast : eligible.getLast? = some (version, highest)) :
    highest ∈ h.releases ∧ isCompleted highest = true ∧
      parseTag highest.tagName = some version ∧ Highest h version := by
  obtain ⟨hself, hle⟩ := completedReleases_last heligible hlast
  obtain ⟨hmem, hcompleted, htag⟩ := (mem_completedReleases heligible _).1 hself
  refine ⟨hmem, hcompleted, htag, fun release hrelease hdone other hother => ?_⟩
  exact hle (other, release) ((mem_completedReleases heligible _).2 ⟨hrelease, hdone, hother⟩)

theorem Recorded.kept {h h' : Hosted} {version : Version} {digest : String}
    (hkept : ∀ release ∈ h.releases, isCompleted release = true → release ∈ h'.releases)
    (hrecorded : Recorded h version digest) : Recorded h' version digest := by
  obtain ⟨release, hmem, hcompleted, hrest⟩ := hrecorded
  exact ⟨release, hkept release hmem hcompleted, hcompleted, hrest⟩

/-! ## The tasks of a run -/

/-- The tasks before the choice leave the `latest` aliases alone. -/
def EarlyOk : Task → Prop
  | .reconcileAlias _ name => name ≠ "latest"
  | .resolveLatest .. | .copyLatest .. => False
  | _ => True

/-- The tasks after the choice have the highest version. -/
def LateOk (h : Hosted) : Task → Prop
  | .resolveLatest version highest => highest ∈ h.releases ∧ isCompleted highest = true ∧
      parseTag highest.tagName = some version ∧ Highest h version
  | .copyLatest _ version digest => Recorded h version digest ∧ Highest h version
  | _ => False

def TodoOk (h : Hosted) (todo : List Task) : Prop :=
  (∀ task ∈ todo, EarlyOk task) ∨ ∀ task ∈ todo, LateOk h task

variable {config : ReleaseConfig} {ev : Evidence} {h h' : Hosted} {run run' : Run} {task : Task}
  {todo : List Task} {evs : List Event}

theorem TodoOk.tail (hok : TodoOk h (task :: todo)) : TodoOk h todo :=
  hok.imp (fun hearly t ht => hearly t (List.mem_cons_of_mem _ ht))
    fun hlate t ht => hlate t (List.mem_cons_of_mem _ ht)

/-- A task that is not late comes before the choice. -/
theorem TodoOk.early (hok : TodoOk h (task :: todo)) (hnot : ¬LateOk h task) :
    EarlyOk task ∧ ∀ t ∈ todo, EarlyOk t := by
  rcases hok with hearly | hlate
  · exact ⟨hearly task List.mem_cons_self, fun t ht => hearly t (List.mem_cons_of_mem _ ht)⟩
  · exact absurd (hlate task List.mem_cons_self) hnot

theorem LateOk.kept {h h' : Hosted}
    (hkept : ∀ release ∈ h.releases, isCompleted release = true → release ∈ h'.releases)
    (hnew : ∀ release ∈ h'.releases, release ∈ h.releases ∨ release.draft = true)
    (hok : LateOk h task) : LateOk h' task := by
  have hhighest : ∀ {version : Version}, Highest h version → Highest h' version := by
    intro version hhigh release hmem hcompleted
    rcases hnew release hmem with hmem | hdraft
    · exact hhigh release hmem hcompleted
    · rw [isCompleted_iff, hdraft] at hcompleted
      exact (nomatch hcompleted.1)
  cases task with
  | resolveLatest version highest =>
    obtain ⟨hmem, hcompleted, htag, hhigh⟩ := hok
    exact ⟨hkept highest hmem hcompleted, hcompleted, htag, hhighest hhigh⟩
  | copyLatest image version digest => exact ⟨hok.1.kept hkept, hhighest hok.2⟩
  | _ => exact hok.elim

theorem TodoOk.kept {h h' : Hosted}
    (hkept : ∀ release ∈ h.releases, isCompleted release = true → release ∈ h'.releases)
    (hnew : ∀ release ∈ h'.releases, release ∈ h.releases ∨ release.draft = true)
    (hok : TodoOk h todo) : TodoOk h' todo :=
  hok.imp id fun hlate t ht => (hlate t ht).kept hkept hnew

theorem sha_ne_latest (sha : String) : "sha-" ++ sha ≠ "latest" := by
  intro heq
  have hhead := congrArg (fun name => name.toList.head?) heq
  simp only [String.toList_append] at hhead
  exact absurd (Option.some.inj hhead : 's' = 'l') (by decide)

/-- The first look queues no task that sets a `latest` alias. -/
theorem firstTasks_early {draft : Bool} {tasks : List Task} (hversion : run.job.version ≠ "latest")
    (htasks : firstTasks run draft = .ok tasks) : ∀ t ∈ tasks, EarlyOk t := by
  rw [firstTasks] at htasks
  split at htasks
  · rw [ite_error_eq_ok, ite_error_eq_ok] at htasks
    cases htasks.2.2
    intro t ht
    simp only [List.mem_cons, List.not_mem_nil, or_false] at ht
    rcases ht with rfl | rfl | rfl <;> trivial
  · rw [ite_error_eq_ok, ite_error_eq_ok] at htasks
    cases htasks.2.2
    intro t ht
    simp only [List.mem_append, List.mem_flatMap, List.mem_map, List.mem_cons, List.not_mem_nil,
      or_false] at ht
    rcases ht with ((⟨image, -, rfl | rfl | rfl⟩ | rfl | rfl) | ⟨asset, -, rfl⟩) |
      rfl | rfl | rfl | rfl | rfl
    · exact hversion
    · exact sha_ne_latest _
    all_goals trivial

theorem Performed.todoOk (hp : Performed config ev h run task h' run' evs)
    (hversion : run.job.version ≠ "latest") (hok : TodoOk h (task :: run.todo)) :
    TodoOk h' run'.todo := by
  cases hp with
  | start htasks => exact Or.inl (firstTasks_early hversion htasks)
  | published => exact Or.inl (by simp [EarlyOk])
  | upload hfind hmutable assets htodo =>
    obtain ⟨-, hrest⟩ := hok.early id
    rcases htodo with rfl | rfl
    · exact Or.inl hrest
    · exact Or.inl (List.forall_mem_cons.2 ⟨trivial, hrest⟩)
  | recordDigest => exact Or.inl (List.forall_mem_cons.2 ⟨trivial, (hok.early id).2⟩)
  | recorded => exact Or.inl (List.forall_mem_cons.2 ⟨trivial, (hok.early id).2⟩)
  | publish => exact Or.inl (hok.early id).2
  | complete => exact Or.inl (List.forall_mem_cons.2 ⟨trivial, (hok.early id).2⟩)
  | completed => exact Or.inl (List.forall_mem_cons.2 ⟨trivial, (hok.early id).2⟩)
  | reconcileLatest heligible hlast =>
    refine Or.inr fun t ht => ?_
    rw [List.mem_singleton.1 ht]
    exact completedReleases_highest heligible hlast
  | @resolveLatest version highest todo htodo =>
    refine Or.inr fun t ht => ?_
    obtain ⟨image, digest, rfl, hdigest⟩ := htodo t ht
    rcases hok with hearly | hlate
    · exact (hearly _ List.mem_cons_self).elim
    · obtain ⟨hmem, hcompleted, htag, hhigh⟩ := hlate _ List.mem_cons_self
      exact ⟨⟨highest, hmem, hcompleted, htag, hdigest⟩, hhigh⟩
  | _ => exact hok.tail

/-- A task sets a `latest` alias to the digest of the highest version, or leaves them alone. -/
theorem Performed.latest (hp : Performed config ev h run task h' run' evs)
    (hok : TodoOk h (task :: todo)) :
    evs = [] ∧ (∀ image, h'.aliases image "latest" = h.aliases image "latest") ∨
      ∃ image version digest, evs = [.latest image version digest] ∧
        Recorded h version digest ∧ Highest h version ∧
        ∀ other, h'.aliases other "latest" =
          if other = image then some digest else h.aliases other "latest" := by
  cases hp with
  | @reconcileAlias image name =>
    refine Or.inl ⟨rfl, fun other => if_neg fun hname => ?_⟩
    rw [Bool.and_eq_true, beq_iff_eq, beq_iff_eq] at hname
    exact (hok.early id).1 hname.2.symm
  | @copyLatest image version digest =>
    rcases hok with hearly | hlate
    · exact (hearly _ List.mem_cons_self).elim
    · obtain ⟨hrecorded, hhigh⟩ := hlate _ List.mem_cons_self
      refine Or.inr ⟨image, version, digest, rfl, hrecorded, hhigh, fun other => ?_⟩
      by_cases heq : other = image
      · rw [if_pos heq]
        exact if_pos (by rw [heq, beq_self_eq_true]; rfl)
      · rw [if_neg heq]
        exact if_neg (by rw [beq_eq_false_iff_ne.2 heq, Bool.false_and]; exact Bool.false_ne_true)
  | _ => exact Or.inl ⟨rfl, fun _ => rfl⟩

/-! ## The invariant -/

/-- The version and the digest of an event that sets the alias of an image. -/
def latestOf (image : String) : Event → Option (Version × String)
  | .latest image' version digest => if image' = image then some (version, digest) else none
  | .started _ => none

structure LatestInv (tr : List Event) (s : State) : Prop where
  distinct : Distinct s.hosted
  recorded : ∀ image, ∀ entry ∈ tr.filterMap (latestOf image), Recorded s.hosted entry.1 entry.2
  ordered : ∀ image, (tr.filterMap (latestOf image)).Pairwise fun a b => a.1 ≤ b.1
  carried : ∀ image version digest,
    (tr.filterMap (latestOf image)).getLast? = some (version, digest) →
      s.hosted.aliases image "latest" = some digest
  tasks : ∀ run, s.active = some run →
    run.job.version ≠ "latest" ∧ TodoOk s.hosted run.todo

theorem Performed.job_eq (hp : Performed config ev h run task h' run' evs) : run'.job = run.job := by
  cases hp <;> rfl

theorem Prepared.aliases_eq {sha : String} {id : Nat} (hp : Prepared config ev h sha id h') :
    h'.aliases = h.aliases := by
  cases hp <;> rfl

/-- An action without an event that leaves the aliases and the completed Releases alone. -/
theorem LatestInv.quiet {tr : List Event} {s s' : State} (hinv : LatestInv tr s)
    (hevs : ∀ image, evs.filterMap (latestOf image) = [])
    (hdistinct : Distinct s'.hosted)
    (hkept : ∀ release ∈ s.hosted.releases, isCompleted release = true →
      release ∈ s'.hosted.releases)
    (haliases : ∀ image, s'.hosted.aliases image "latest" = s.hosted.aliases image "latest")
    (htasks : ∀ run, s'.active = some run →
      run.job.version ≠ "latest" ∧ TodoOk s'.hosted run.todo) : LatestInv (tr ++ evs) s' := by
  have htrace : ∀ image, (tr ++ evs).filterMap (latestOf image) = tr.filterMap (latestOf image) := by
    intro image
    rw [List.filterMap_append, hevs image, List.append_nil]
  refine ⟨hdistinct, fun image entry hmem => ?_, fun image => ?_, fun image version digest hlast => ?_,
    htasks⟩
  · rw [htrace] at hmem
    exact (hinv.recorded image entry hmem).kept hkept
  · rw [htrace]
    exact hinv.ordered image
  · rw [htrace] at hlast
    rw [haliases]
    exact hinv.carried image version digest hlast

/-- A copy of the highest version. -/
theorem LatestInv.copied {tr : List Event} {s s' : State} {image : String} {version : Version}
    {digest : String} (hinv : LatestInv tr s) (hdistinct : Distinct s'.hosted)
    (hkept : ∀ release ∈ s.hosted.releases, isCompleted release = true →
      release ∈ s'.hosted.releases)
    (hrecorded : Recorded s.hosted version digest) (hhighest : Highest s.hosted version)
    (haliases : ∀ other, s'.hosted.aliases other "latest" =
      if other = image then some digest else s.hosted.aliases other "latest")
    (htasks : ∀ run, s'.active = some run →
      run.job.version ≠ "latest" ∧ TodoOk s'.hosted run.todo) :
    LatestInv (tr ++ [Event.latest image version digest]) s' := by
  have hother : ∀ {other : String}, other ≠ image →
      (tr ++ [Event.latest image version digest]).filterMap (latestOf other) =
        tr.filterMap (latestOf other) := by
    intro other hne
    have hnone : latestOf other (.latest image version digest) = none := if_neg (Ne.symm hne)
    rw [List.filterMap_append, List.filterMap_cons_none hnone, List.filterMap_nil,
      List.append_nil]
  have hself : (tr ++ [Event.latest image version digest]).filterMap (latestOf image) =
      tr.filterMap (latestOf image) ++ [(version, digest)] := by
    have hsome : latestOf image (.latest image version digest) = some (version, digest) :=
      if_pos rfl
    rw [List.filterMap_append, List.filterMap_cons_some hsome, List.filterMap_nil]
  refine ⟨hdistinct, fun other entry hmem => ?_, fun other => ?_,
    fun other version' digest' hlast => ?_, htasks⟩
  · by_cases heq : other = image
    · subst heq
      rw [hself] at hmem
      rcases List.mem_append.1 hmem with hmem | hmem
      · exact (hinv.recorded other entry hmem).kept hkept
      · rw [List.mem_singleton.1 hmem]
        exact hrecorded.kept hkept
    · rw [hother heq] at hmem
      exact (hinv.recorded other entry hmem).kept hkept
  · by_cases heq : other = image
    · subst heq
      rw [hself]
      refine List.pairwise_append.2 ⟨hinv.ordered other, List.pairwise_singleton _ _, ?_⟩
      intro earlier hearlier last hlast
      rw [List.mem_singleton.1 hlast]
      -- the earlier version is that of a completed Release
      obtain ⟨release, hmem, hcompleted, htag, -⟩ := hinv.recorded other earlier hearlier
      exact hhighest release hmem hcompleted earlier.1 htag
    · rw [hother heq]
      exact hinv.ordered other
  · rw [haliases]
    by_cases heq : other = image
    · subst heq
      rw [hself, List.getLast?_append_cons] at hlast
      cases hlast
      exact if_pos rfl
    · rw [hother heq] at hlast
      rw [if_neg heq]
      exact hinv.carried other version' digest' hlast

theorem version_ne_latest {job : Job} {auth : Authorization}
    (hauth : authorize config ev h job = .ok auth) : job.version ≠ "latest" := by
  obtain ⟨pr, release, number, hsource, -⟩ := authorize_ok_iff.1 hauth
  obtain ⟨parts, hparts, -⟩ := hsource.version
  intro heq
  rw [heq, show parseVersion "latest" = .error "invalid stable SemVer: latest" by rfl] at hparts
  cases hparts

theorem LatestInv.step (hconfig : config.container = true) {tr : List Event} {s s' : State}
    {a : Action} (hinv : LatestInv tr s) (hs : Stepped config ev s a s' evs) :
    LatestInv (tr ++ evs) s' := by
  have hdistinct := hs.distinct hinv.distinct
  cases hs with
  | prepared hfresh hprepared =>
    refine hinv.quiet (fun _ => rfl) hdistinct (fun release hmem _ => hprepared.mem_kept hmem)
      (fun image => by rw [hprepared.aliases_eq]) fun run hactive => ?_
    obtain ⟨hversion, hok⟩ := hinv.tasks run hactive
    exact ⟨hversion, hok.kept (fun release hmem _ => hprepared.mem_kept hmem) fun release hmem =>
      hprepared.draft_of_new hmem⟩
  | started hidle hauth =>
    refine hinv.quiet (fun _ => rfl) hdistinct (fun _ hmem _ => hmem) (fun _ => rfl) ?_
    rintro run ⟨⟩
    exact ⟨version_ne_latest hauth, Or.inl (List.forall_mem_singleton.2 trivial)⟩
  | ended hactive hend =>
    refine hinv.quiet (fun _ => rfl) hdistinct (fun _ hmem _ => hmem) (fun _ => rfl) ?_
    rintro run ⟨⟩
  | @performed run task rest h' run' evs hactive htodo hperformed =>
    obtain ⟨hversion, hok⟩ := hinv.tasks run hactive
    rw [htodo] at hok
    have hkept : ∀ release ∈ s.hosted.releases, isCompleted release = true →
        release ∈ h'.releases := fun release hmem =>
      hperformed.completed_kept hconfig hinv.distinct hmem
    have htasks : ∀ r, some run' = some r → r.job.version ≠ "latest" ∧ TodoOk h' r.todo := by
      rintro r ⟨⟩
      refine ⟨?_, hperformed.todoOk hversion hok⟩
      rw [hperformed.job_eq]
      exact hversion
    rcases hperformed.latest hok with ⟨rfl, haliases⟩ |
      ⟨image, version, digest, rfl, hrecorded, hhighest, haliases⟩
    · exact hinv.quiet (fun _ => rfl) hdistinct hkept haliases htasks
    · exact hinv.copied hdistinct hkept hrecorded hhighest haliases htasks

/-- In every run of the publications, each `latest` alias that a run has set carries the digest
that a completed Release records, and the versions of these Releases never decrease. -/
theorem latest_never_decreases {login : String} {s₀ s : State} {tr : List Event}
    (hrun : Lts.Run (step (releaseConfig login) ev) Lts.anything s₀ tr s)
    (hdistinct : Distinct s₀.hosted) (hidle : s₀.active = none) (image : String) :
    (tr.filterMap (latestOf image)).Pairwise (fun a b => a.1 ≤ b.1) ∧
      ∀ version digest, (tr.filterMap (latestOf image)).getLast? = some (version, digest) →
        s.hosted.aliases image "latest" = some digest ∧
          ∃ release ∈ s.hosted.releases, isCompleted release = true ∧
            parseTag release.tagName = some version ∧
            digestMatches (release.body.getD []) = [digest] := by
  have hinv : LatestInv tr s := by
    refine hrun.inv ?_ fun _ hinv _ hs => hinv.step rfl (step_cases rfl hs)
    refine ⟨hdistinct, fun _ _ hmem => (nomatch hmem), fun _ => List.Pairwise.nil,
      fun _ _ _ hlast => (nomatch hlast), fun run hactive => ?_⟩
    rw [hidle] at hactive
    cases hactive
  refine ⟨hinv.ordered image, fun version digest hlast => ⟨hinv.carried image _ _ hlast, ?_⟩⟩
  exact hinv.recorded image (version, digest) (List.mem_of_getLast? hlast)

/-! ## A recovery after a higher version -/

def firstSha : String := "1111111111111111111111111111111111111111"
def secondSha : String := "2222222222222222222222222222222222222222"
def firstDigest : String :=
  "sha256:3333333333333333333333333333333333333333333333333333333333333333"
def secondDigest : String :=
  "sha256:4444444444444444444444444444444444444444444444444444444444444444"

def mergedPull (number : Nat) (version sha : String) : PullRequest where
  number := number
  title := "chore(release): v" ++ version
  isOpen := false
  draft := false
  releaseBranch := true
  merged := true
  mergeCommitSha := some sha
  baseSha := sha
  headSha := sha
  user := "app"
  mergedBy := "app"
  body := marker baseStart sha ++ '\n' :: marker runStart "5"
  labels := [pendingLabel]

def publishedRelease (id number : Nat) (version sha digest : String) (marks : List Text) :
    Release where
  id := id
  tagName := "v" ++ version
  targetCommitish := sha
  name := "Camellia Remote Server " ++ version
  author := "app"
  draft := false
  prerelease := false
  immutable := true
  body := some (prMarker number ++ ([commitMarker sha, digestMarker digest] ++ marks).flatMap
    fun line => '\n' :: line)
  assets := []

def acceptingEvidence : Evidence where
  validationRun _ _ := .ok ()
  focusedRun _ := some 1
  pushRun _ := .ok 5
  reviewState _ _ := (true, false)
  metadataVersion sha := if sha == firstSha then "1.0.0" else "1.1.0"
  changedFiles _ _ := ["CHANGELOG.md", "Cargo.lock", "Cargo.toml"]
  generatedTree _ _ _ := .ok ()
  changelog _ := []
  onMain _ := true
  verifyImage _ _ := .ok ()
  verifyAssets _ _ := .ok ()

def serverImage : String := "ghcr.io/owner/server"

def serverRegistries : Registries where
  dockerhub := none
  ghcr := some serverImage
  valid := by decide

/-- Version 1.0.0 is complete, and the run of version 1.1.0 stopped before its completion. -/
def interruptedState : State where
  hosted :=
    { releases :=
        [publishedRelease 1 7 "1.0.0" firstSha firstDigest [completeMarker firstSha],
          publishedRelease 2 8 "1.1.0" secondSha secondDigest []]
      pulls := [mergedPull 7 "1.0.0" firstSha, mergedPull 8 "1.1.0" secondSha]
      tags := [("v1.0.0", firstSha), ("v1.1.0", secondSha)]
      latest := none
      aliases := fun _ name =>
        if name == "1.0.0" || name == "sha-" ++ firstSha then some firstDigest
        else some secondDigest
      manifests := [(serverImage, firstDigest), (serverImage, secondDigest)]
      signatures := [(serverImage, firstDigest), (serverImage, secondDigest)] }
  active := none

def firstJob : Job := ⟨"1.0.0", firstSha, "v1.0.0", firstSha⟩
def secondJob : Job := ⟨"1.1.0", secondSha, "v1.1.0", secondSha⟩

/-- The version 1.1.0 recovers and takes the alias, and a later run of version 1.0.0 leaves it. -/
theorem latest_never_decreases_recovery : ∃ s tr,
    Lts.Run (step (releaseConfig "app") acceptingEvidence) Lts.anything interruptedState tr s ∧
      tr = [.started secondJob, .latest serverImage (Version.mk 1 1 0) secondDigest,
        .started firstJob] ∧
      s.hosted.aliases serverImage "latest" = some secondDigest := by
  obtain ⟨s, tr, hrun, rfl⟩ := Lts.exists_run_of_exec
    (step (releaseConfig "app") acceptingEvidence) interruptedState
    (.start secondJob serverRegistries "" [] :: List.replicate 8 .perform ++
      .start firstJob serverRegistries "" [] :: List.replicate 7 .perform)
    (fun (y : State × List Event) => y.2)
    (b := [.started secondJob, .latest serverImage (Version.mk 1 1 0) secondDigest,
      .started firstJob]) (by decide +kernel)
  have hdistinct : Distinct interruptedState.hosted := by
    unfold Distinct
    decide
  have hlatest := latest_never_decreases hrun hdistinct rfl serverImage
  exact ⟨s, _, hrun, rfl, (hlatest.2 (Version.mk 1 1 0) secondDigest rfl).1⟩

end RemoteServer.Releases
