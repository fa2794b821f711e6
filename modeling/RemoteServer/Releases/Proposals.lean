import RemoteServer.Releases.Books
import RemoteServer.Releases.Latest
import RemoteServer.Releases.Manager

/-!
# Merged release commits

A proposal that is merged becomes the head of `main`, and the next run of the manager for it makes
the draft Release and the tag.  The manager knows a release commit only while it is the head.

* `Held` is that a version has its Release and its tag.  Nothing takes it away again.
* `Ready` is what `prepare_merged_release` asks of a merged pull request.
* `ManagerInv` is that every merged release commit is held, or it is the head and ready.
* `merged_release_kept` is the result for runs in which `main` does not move past a release commit
  that is not held, and `release_passed_over` is a run in which it does.
-/

namespace RemoteServer.Releases.Manager

open Fallible PyStd

/-! ## Held versions -/

/-- The version has a Release and a tag. -/
structure Held (h : Hosted) (version : String) : Prop where
  release : ∃ release ∈ h.releases, release.tagName = "v" ++ version
  tag : (h.tags.lookup ("v" ++ version)).isSome = true

variable {config : ReleaseConfig} {repo : Repository} {ev : Evidence} {h h' : Hosted} {s s' : State}
  {pr pr' : PullRequest} {version sha : String} {id : Nat}

theorem Held.prepared (hheld : Held h version) (hp : Prepared config ev h sha id h') :
    Held h' version := by
  obtain ⟨release, hmem, htag⟩ := hheld.release
  have hlookup : ∀ tag, ((h.tags ++ [(tag, sha)]).lookup ("v" ++ version)).isSome = true := by
    intro tag
    obtain ⟨commit, hcommit⟩ := Option.isSome_iff_exists.1 hheld.tag
    rw [List.lookup_append, hcommit]
    rfl
  refine ⟨⟨release, hp.mem_kept hmem, htag⟩, ?_⟩
  cases hp with
  | same => exact hheld.tag
  | tag => exact hlookup _
  | draft hpr hbody hnone htags =>
    rcases htags with rfl | ⟨tag, -, rfl⟩
    · exact hheld.tag
    · exact hlookup tag

theorem Held.congr (hheld : Held h version) (hreleases : h'.releases = h.releases)
    (htags : h'.tags = h.tags) : Held h' version := by
  refine ⟨?_, ?_⟩
  · rw [hreleases]
    exact hheld.release
  · rw [htags]
    exact hheld.tag

theorem Held.edit {f : Release → Release} (hheld : Held h version)
    (hf : ∀ release, (f release).tagName = release.tagName) : Held (h.editRelease id f) version := by
  obtain ⟨release, hmem, htag⟩ := hheld.release
  refine ⟨?_, hheld.tag⟩
  by_cases hid : release.id = id
  · exact ⟨f release, mem_editRelease.2 (Or.inl ⟨release, hmem, hid, rfl⟩), (hf release).trans htag⟩
  · exact ⟨release, mem_editRelease.2 (Or.inr ⟨hmem, hid⟩), htag⟩

/-- A job that is authorized has its Release and its tag. -/
theorem held_of_authorize {job : Job} {auth : Authorization}
    (hauth : authorize config ev h job = .ok auth) : Held h job.version := by
  obtain ⟨pr, release, run, hsource, hrelease, -⟩ := authorize_ok_iff.1 hauth
  obtain ⟨hmem, htag⟩ := mem_of_filter_eq (releaseByTag_some hrelease)
  refine ⟨⟨release, hmem, ?_⟩, ?_⟩
  · rw [beq_iff_eq.1 htag, hsource.tag]
  · rw [← hsource.tag, hsource.commit]
    rfl

/-! ## Merged pull requests -/

/-- What `prepare_merged_release` asks of a merged pull request. -/
structure Ready (config : ReleaseConfig) (repo : Repository) (pr : PullRequest)
    (version sha : String) : Prop where
  merged : ∃ run, MergedPr config repo.evidence pr sha true version run
  number : 0 < pr.number
  title : repo.title sha = pr.title

/-- A merged pull request, its version and its commit. -/
structure Landed (config : ReleaseConfig) (repo : Repository) (s : State) (pr : PullRequest)
    (version sha : String) : Prop where
  commit : pr.mergeCommitSha = some sha
  isSha : isSha sha = true
  onMain : sha ∈ s.main
  title : titleVersion pr.title = some version
  canonical : ∃ parts, parseVersion version = .ok parts ∧ version = versionText parts
  closed : pr.isOpen = false
  releaseBranch : pr.releaseBranch = true
  held : Held s.hosted version ∨ s.main.head? = some sha ∧ Ready config repo pr version sha

structure ManagerInv (config : ReleaseConfig) (repo : Repository) (s : State) : Prop where
  numbers : (s.hosted.pulls.map PullRequest.number).Nodup
  landed : ∀ pr ∈ s.hosted.pulls, pr.merged = true → ∃ version sha,
    Landed config repo s pr version sha
  distinct : ∀ pr ∈ s.hosted.pulls, ∀ pr' ∈ s.hosted.pulls, pr.merged = true → pr'.merged = true →
    pr.mergeCommitSha = pr'.mergeCommitSha → pr = pr'
  positive : ∀ pr ∈ s.hosted.pulls, 0 < pr.number
  releases : ∀ release ∈ s.hosted.releases,
    release.prerelease = false ∧ (release.draft = false → release.immutable = true)

theorem ManagerInv.eq_of_number (hinv : ManagerInv config repo s) (hmem : pr ∈ s.hosted.pulls)
    (hmem' : pr' ∈ s.hosted.pulls) (hnumber : pr.number = pr'.number) : pr = pr' :=
  List.inj_on_of_nodup_map hinv.numbers hmem hmem' hnumber

theorem find_number (hnumbers : (h.pulls.map PullRequest.number).Nodup) (hmem : pr ∈ h.pulls) :
    h.pulls.find? (fun other => other.number == pr.number) = some pr := by
  cases hfind : h.pulls.find? fun other => other.number == pr.number with
  | none => exact absurd (beq_self_eq_true _) (List.find?_eq_none.1 hfind pr hmem)
  | some found =>
    have hnumber := List.find?_some hfind
    rw [List.inj_on_of_nodup_map hnumbers (List.mem_of_find?_eq_some hfind) hmem
      (beq_iff_eq.1 hnumber)]

/-- The manager finds the pull request of a release commit. -/
theorem ManagerInv.mergedReleasePr (hinv : ManagerInv config repo s) (hmem : pr ∈ s.hosted.pulls)
    (hmerged : pr.merged = true) (hlanded : Landed config repo s pr version sha) :
    Releases.mergedReleasePr s.hosted sha = .ok pr := by
  have hfilter : s.hosted.pulls.filter (fun pr =>
      !pr.isOpen && pr.releaseBranch && pr.merged && pr.mergeCommitSha == some sha) = [pr] := by
    refine filter_eq_singleton (List.Nodup.of_map _ hinv.numbers) hmem ?_ fun other hother hp => ?_
    · rw [hlanded.closed, hlanded.releaseBranch, hmerged, hlanded.commit, beq_self_eq_true]
      rfl
    · rw [Bool.and_eq_true, Bool.and_eq_true, beq_iff_eq] at hp
      refine hinv.distinct other hother pr hmem hp.1.2 hmerged ?_
      rw [hp.2, hlanded.commit]
  rw [Releases.mergedReleasePr, hfilter]
  dsimp only
  rw [find_number hinv.numbers hmem]

/-! ## The preparation -/

/-- No subject and no text above the first section of a changelog looks like a marker. -/
structure PlainHistory (repo : Repository) : Prop where
  commits : ∀ base baseline commits, repo.log base baseline = .ok commits →
    ∀ commit ∈ commits, commit.Listed ∧ commit.Uncounted
  preamble : ∀ sha, ∀ line ∈ preamble (repo.tree sha).changelog, Unmarked line

theorem isPlain_of_canonical (h : ∃ parts, parseVersion version = .ok parts ∧
    version = versionText parts) : IsPlain version.toList := by
  obtain ⟨parts, hparts, -⟩ := h
  refine isPlain_of_parseSemver ?_
  rw [parseVersion] at hparts
  split at hparts
  · cases hparts
  next hsemver => rw [hsemver]; rfl

theorem isReleaseTitle_of_canonical {title : String} (htitle : titleVersion title = some version)
    (hversion : ∃ parts, parseVersion version = .ok parts ∧ version = versionText parts) :
    isReleaseTitle title = true := by
  obtain ⟨parts, hparts, -⟩ := hversion
  have hdigits : ∀ {s : Text} {n : Nat}, parseNumber s = some n →
      (!s.isEmpty && s.all Char.isDigit) = true := by
    intro s n hs
    rw [parseNumber] at hs
    split at hs
    · cases hs
    next hgate =>
      simp only [Bool.or_eq_true, not_or, Bool.not_eq_true, Bool.not_eq_false'] at hgate
      rw [hgate.1.1, hgate.1.2]
      rfl
  rw [parseVersion] at hparts
  split at hparts
  · cases hparts
  next hsemver =>
    rw [parseSemver] at hsemver
    split at hsemver
    next major minor patch hsplit =>
      simp only [Option.bind_eq_bind, Option.bind_eq_some_iff] at hsemver
      obtain ⟨a, ha, b, hb, c, hc, -⟩ := hsemver
      rw [isReleaseTitle, htitle]
      show ((version.toList.splitOn '.').length == 3 && _) = true
      rw [hsplit]
      simp only [List.all_cons, List.all_nil, hdigits ha, hdigits hb, hdigits hc]
      rfl
    · cases hsemver

theorem validateGeneratedTree_ok {base : String}
    (hgenerated : repo.validateGeneratedTree version base sha = .ok ()) :
    ∃ changelog, renderChangelog (repo.tree base).changelog version (repo.date base)
        (repo.log base) = .ok changelog ∧ (repo.tree sha).changelog = some changelog ∧
      (repo.tree sha).manifest.version = version := by
  obtain ⟨expected, hexpected, hgenerated⟩ := bind_eq_ok hgenerated
  obtain ⟨changelog, hrender, hexpected⟩ := bind_eq_ok hexpected
  cases hexpected
  simp only [ite_error_eq_ok, bne_iff_ne, ne_eq, Decidable.not_not] at hgenerated
  obtain ⟨-, hchangelog, -, hmanifest, -⟩ := hgenerated
  exact ⟨changelog, hrender, hchangelog, by rw [hmanifest]⟩

/-- The draft and the tag of a release commit that has neither. -/
theorem prepareMergedRelease_ok (hconfig : config.container = true) (hplain : PlainHistory repo)
    (hpull : mergedReleasePr h sha = .ok pr) (hready : Ready config repo pr version sha)
    (hsha : isSha sha = true) (hrelease : ∀ release ∈ h.releases, release.tagName ≠ "v" ++ version)
    (htag : h.tags.lookup ("v" ++ version) = none) (hid : ∀ release ∈ h.releases, release.id ≠ id) :
    ∃ body, prepareMergedRelease config repo.evidence h sha id = (.ok (),
      { h with
        releases := h.releases ++ [draftRelease config id body version sha]
        tags := h.tags ++ [("v" ++ version, sha)] }) := by
  obtain ⟨run, hmerged⟩ := hready.merged
  obtain ⟨changelog, hrender, hchangelog, -⟩ := validateGeneratedTree_ok hmerged.generated
  have hfile : repo.evidence.changelog sha = changelog := by
    show ((repo.tree sha).changelog).getD [] = changelog
    rw [hchangelog, Option.getD_some]
  obtain ⟨notes, body, -, -, hbody, hmarks⟩ := managedReleaseBody_of_render
    (isPlain_of_canonical hmerged.canonical) hsha hready.number
    (fun commits hlog => by
      obtain ⟨baseline, -, hlog⟩ := bind_eq_ok hlog
      exact hplain.commits _ _ _ hlog) (hplain.preamble _) hrender
  have hchecks : prepareChecks config repo.evidence h sha = .ok (pr.number, version, none) := by
    have hnone : releaseByTag h.releases ("v" ++ version) = .ok none := by
      have hfilter : h.releases.filter (fun r => r.tagName == "v" ++ version) = [] :=
        List.filter_eq_nil_iff.2 fun release hmem heq => hrelease release hmem (beq_iff_eq.1 heq)
      rw [releaseByTag, hfilter]
    refine bind_eq_ok_iff.2 ⟨pr, hpull, bind_eq_ok_iff.2 ⟨(pr.number, version, run),
      validateMergedPr_ok_iff.2 ⟨rfl, hmerged⟩, bind_eq_ok_iff.2 ⟨none, hnone, ?_⟩⟩⟩
    dsimp only
    rw [htag]
    rfl
  have hvalid : validateReleaseRecord config (draftRelease config id body version sha) version sha
      pr.number = .ok (true, none, false) := validate_draft hconfig id hmarks
  have hlookup : (h.tags ++ [("v" ++ version, sha)]).lookup ("v" ++ version) = some sha := by
    rw [List.lookup_append, htag, List.lookup_cons_self]
    rfl
  have hfind : (h.releases ++ [draftRelease config id body version sha]).find?
      (fun release => release.id == id) = some (draftRelease config id body version sha) := by
    have hnone : h.releases.find? (fun release => release.id == id) = none :=
      List.find?_eq_none.2 fun release hmem heq => hid release hmem (beq_iff_eq.1 heq)
    rw [List.find?_append, hnone, Option.none_or]
    simp [draftRelease]
  refine ⟨body, ?_⟩
  rw [prepareMergedRelease, hchecks]
  dsimp only
  rw [hfile, hbody]
  dsimp only
  rw [hvalid]
  dsimp only
  rw [prepareTag]
  dsimp only
  rw [htag]
  dsimp only
  rw [hlookup, hfind]
  dsimp only
  rw [hvalid]
  simp [Except.map]

/-! ## The merge -/

/-- What `merge_release` asks of the pull request. -/
structure Mergeable (config : ReleaseConfig) (repo : Repository) (pr : PullRequest)
    (version : String) (run : Nat) : Prop where
  title : titleVersion pr.title = some version
  isOpen : pr.isOpen = true
  user : pr.user = config.appLogin
  releaseBranch : pr.releaseBranch = true
  head : isSha pr.headSha = true
  base : isSha pr.baseSha = true
  canonical : ∃ parts, parseVersion version = .ok parts ∧ version = versionText parts
  provenance : parseProvenance pr.body = .ok (pr.baseSha, run)
  label : pr.labels.contains pendingLabel = true
  validated : repo.services.validationRun run pr.baseSha = .ok ()
  changed : repo.evidence.changedFiles pr.baseSha pr.headSha = config.allowedFiles
  focused : (repo.services.focusedRun pr.headSha).isNone = false
  approved : (repo.services.reviewState pr.number pr.headSha).1 = true
  unblocked : (repo.services.reviewState pr.number pr.headSha).2 = false
  generated : repo.validateGeneratedTree version pr.baseSha pr.headSha = .ok ()

theorem mergeRelease_ok (hmerge : mergeRelease config repo h = .ok (some pr)) :
    pr ∈ h.pulls ∧ ∃ version run, Mergeable config repo pr version run := by
  rw [mergeRelease] at hmerge
  split at hmerge
  · cases hmerge
  next found hopen =>
    obtain ⟨version, hvalid, hmerge⟩ := bind_eq_ok hmerge
    dsimp only at hmerge
    split at hmerge
    · cases hmerge
    next hgate =>
    simp only [Bool.or_eq_true, not_or, Bool.not_eq_true, Bool.not_eq_false'] at hgate
    obtain ⟨⟨hunblocked, hfocused⟩, happroved⟩ := hgate
    obtain ⟨⟨⟩, hgenerated, hmerge⟩ := bind_eq_ok hmerge
    cases hmerge
    have hmem : pr ∈ openReleasePrs h := by
      rw [hopen]
      exact List.mem_singleton_self pr
    refine ⟨(List.mem_filter.1 hmem).1, version, ?_⟩
    rw [validateOpenPr] at hvalid
    cases htitle : titleVersion pr.title with
    | none =>
      rw [htitle] at hvalid
      cases hvalid
    | some text =>
      rw [htitle] at hvalid
      simp only [ite_error_eq_ok, bind_eq_ok_iff, Bool.or_eq_true, not_or, Bool.not_eq_true,
        Bool.not_eq_false', bne_eq_false_iff_eq] at hvalid
      obtain ⟨⟨⟨⟨⟨⟨hisOpen, -⟩, huser⟩, hbranch⟩, hhead⟩, hbase⟩, parts, hparts, hcanonical,
        ⟨base, run⟩, hprovenance, hsame, hlabel, ⟨⟩, hvalidated, -, hchanged, hversion⟩ := hvalid
      cases hversion
      obtain rfl : base = pr.baseSha := hsame
      exact ⟨run, htitle, hisOpen, huser, hbranch, hhead, hbase, ⟨parts, hparts, hcanonical⟩,
        hprovenance, hlabel, hvalidated, hchanged, hfocused, happroved, hunblocked, hgenerated⟩
  · cases hmerge

/-- The record of a pull request that is merged. -/
def PullRequest.land (config : ReleaseConfig) (sha : String) (pr : PullRequest) : PullRequest :=
  { pr with
    isOpen := false
    merged := true
    mergeCommitSha := some sha
    mergedBy := config.appLogin }

/-- A squash onto the base of the proposal is ready. -/
theorem Mergeable.ready {run : Nat} (hm : Mergeable config repo pr version run)
    (hnumber : 0 < pr.number) (htitle : repo.title sha = pr.title)
    (htree : repo.tree sha = repo.tree pr.headSha) :
    Ready config repo (PullRequest.land config sha pr) version sha := by
  obtain ⟨changelog, -, -, hversion⟩ := validateGeneratedTree_ok hm.generated
  refine ⟨⟨run, hm.title, rfl, rfl, rfl, rfl, hm.user, hm.base, hm.head, hm.canonical,
    hm.provenance, fun _ => hm.label, hm.validated, hm.focused, hm.approved, hm.unblocked, ?_, ?_,
    ?_⟩, hnumber, htitle⟩
  · show (repo.tree sha).manifest.version = version
    rw [htree]
    exact hversion
  · show (repo.tree pr.baseSha).changed (repo.tree sha) = config.allowedFiles
    rw [htree]
    exact hm.changed
  · show repo.validateGeneratedTree version pr.baseSha sha = .ok ()
    rw [Repository.validateGeneratedTree, htree]
    exact hm.generated

/-! ## The condition -/

/-- The head of `main` is no release commit that is not held. -/
def HeadHeld (s : State) : Prop :=
  ∀ pr ∈ s.hosted.pulls, pr.merged = true → pr.mergeCommitSha = s.main.head? →
    ∀ version ∈ titleVersion pr.title,
      (∃ release ∈ s.hosted.releases, release.tagName = "v" ++ version) ∧
        (s.hosted.tags.lookup ("v" ++ version)).isSome = true

/-- `main` does not move past a release commit that is not held, and a proposal is merged onto the
commit that it was made from. -/
def InOrder (_ : List Event) (s : State) : Action → Prop
  | .push _ => HeadHeld s
  | .merge _ => HeadHeld s ∧ ∀ pr ∈ openReleasePrs s.hosted, s.main.head? = some pr.baseSha
  | _ => True

instance (s : State) : Decidable (HeadHeld s) :=
  inferInstanceAs (Decidable (∀ pr ∈ s.hosted.pulls, pr.merged = true →
    pr.mergeCommitSha = s.main.head? → ∀ version ∈ titleVersion pr.title,
      (∃ release ∈ s.hosted.releases, release.tagName = "v" ++ version) ∧
        (s.hosted.tags.lookup ("v" ++ version)).isSome = true))

instance (tr : List Event) (s : State) (a : Action) : Decidable (InOrder tr s a) :=
  match a with
  | .push _ => inferInstanceAs (Decidable (HeadHeld s))
  | .merge _ => inferInstanceAs (Decidable (HeadHeld s ∧
      ∀ pr ∈ openReleasePrs s.hosted, s.main.head? = some pr.baseSha))
  | .manage .. | .publish .. | .complete .. => isTrue trivial

theorem Landed.held_of_head (hlanded : Landed config repo s pr version sha)
    (hmem : pr ∈ s.hosted.pulls) (hmerged : pr.merged = true) (hhead : HeadHeld s) :
    Held s.hosted version := by
  rcases hlanded.held with hheld | ⟨hmain, -⟩
  · exact hheld
  · obtain ⟨hrelease, htag⟩ := hhead pr hmem hmerged (hlanded.commit.trans hmain.symm) version
      hlanded.title
    exact ⟨hrelease, htag⟩

/-! ## Steps -/

theorem map_number {f : PullRequest → PullRequest} (hf : ∀ pr, (f pr).number = pr.number)
    (pulls : List PullRequest) :
    (pulls.map f).map PullRequest.number = pulls.map PullRequest.number := by
  rw [List.map_map]
  exact List.map_congr_left fun pr _ => hf pr

theorem ManagerInv.push (hinv : ManagerInv config repo s) (hhead : HeadHeld s) (sha : String) :
    ManagerInv config repo { s with main := sha :: s.main } := by
  refine { hinv with landed := fun pr hmem hmerged => ?_ }
  obtain ⟨version, commit, hlanded⟩ := hinv.landed pr hmem hmerged
  exact ⟨version, commit, { hlanded with
    onMain := List.mem_cons_of_mem _ hlanded.onMain
    held := Or.inl (hlanded.held_of_head hmem hmerged hhead) }⟩

theorem mem_mergePull {number : Nat} (hmem : pr' ∈ (mergePull config h number sha).pulls) :
    (∃ pr ∈ h.pulls, pr.number = number ∧ pr' = PullRequest.land config sha pr) ∨
      pr' ∈ h.pulls ∧ pr'.number ≠ number := by
  obtain ⟨pr, hold, heq⟩ := List.mem_map.1 hmem
  split at heq
  next hnumber => exact Or.inl ⟨pr, hold, beq_iff_eq.1 hnumber, heq.symm⟩
  next hnumber => exact heq ▸ Or.inr ⟨hold, fun h => hnumber (beq_iff_eq.2 h)⟩

theorem ManagerInv.merge (hinv : ManagerInv config repo s) (hhead : HeadHeld s)
    (hbase : ∀ pr ∈ openReleasePrs s.hosted, s.main.head? = some pr.baseSha)
    (hmerge : mergeRelease config repo s.hosted = .ok (some pr))
    (hfresh : isFreshCommit s sha = true) (hsquash : squashes repo s pr sha = true) :
    ManagerInv config repo
      { main := sha :: s.main, hosted := mergePull config s.hosted pr.number sha } := by
  obtain ⟨hmem, version, run, hm⟩ := mergeRelease_ok hmerge
  simp only [isFreshCommit, Bool.and_eq_true, Bool.not_eq_true', List.any_eq_false] at hfresh
  obtain ⟨⟨hsha, -⟩, hcommits⟩ := hfresh
  rw [squashes, Bool.and_eq_true, Bool.or_eq_true, beq_iff_eq] at hsquash
  obtain ⟨htitle, htree⟩ := hsquash
  have hopen : pr ∈ openReleasePrs s.hosted :=
    List.mem_filter.2 ⟨hmem, by rw [hm.isOpen, hm.releaseBranch]; rfl⟩
  have htree : repo.tree sha = repo.tree pr.headSha := by
    rcases htree with hne | htree
    · exact absurd (hbase pr hopen) (bne_iff_ne.1 hne)
    · exact beq_iff_eq.1 htree
  have hother : ∀ other ∈ s.hosted.pulls, other.mergeCommitSha ≠ some sha := fun other hmem' heq =>
    hcommits other hmem' (beq_iff_eq.2 heq)
  have hself : ∀ {other}, other ∈ s.hosted.pulls → other.number = pr.number → other = pr :=
    fun hmem' hnumber => hinv.eq_of_number hmem' hmem hnumber
  refine ⟨?_, fun pr' hmem' hmerged => ?_, ?_, fun pr' hmem' => ?_, hinv.releases⟩
  · refine (map_number (fun pr => ?_) _).symm ▸ hinv.numbers
    split <;> rfl
  · rcases mem_mergePull hmem' with ⟨old, hold, hnumber, rfl⟩ | ⟨hold, -⟩
    · obtain rfl := hself hold hnumber
      exact ⟨version, sha, rfl, hsha, List.mem_cons_self, hm.title, hm.canonical, rfl,
        hm.releaseBranch, Or.inr ⟨rfl, hm.ready (hinv.positive old hold) htitle htree⟩⟩
    · obtain ⟨version', sha', hlanded⟩ := hinv.landed pr' hold hmerged
      exact ⟨version', sha', { hlanded with
        onMain := List.mem_cons_of_mem _ hlanded.onMain
        held := Or.inl ((hlanded.held_of_head hold hmerged hhead).congr rfl rfl) }⟩
  · intro a ha b hb hmergedA hmergedB heq
    rcases mem_mergePull ha with ⟨oldA, holdA, hna, rfl⟩ | ⟨holdA, -⟩ <;>
      rcases mem_mergePull hb with ⟨oldB, holdB, hnb, rfl⟩ | ⟨holdB, -⟩
    · rw [hself holdA hna, hself holdB hnb]
    · exact absurd heq.symm (hother b holdB)
    · exact absurd heq (hother a holdA)
    · exact hinv.distinct a holdA b holdB hmergedA hmergedB heq
  · rcases mem_mergePull hmem' with ⟨old, hold, hnumber, rfl⟩ | ⟨hold, -⟩
    · exact hinv.positive old hold
    · exact hinv.positive pr' hold

/-- A change of the pull requests that leaves the merged ones alone. -/
theorem ManagerInv.pulls (hinv : ManagerInv config repo s)
    (hreleases : h'.releases = s.hosted.releases) (htags : h'.tags = s.hosted.tags)
    (hmerged : ∀ pr ∈ h'.pulls, pr.merged = true → pr ∈ s.hosted.pulls)
    (hnumbers : (h'.pulls.map PullRequest.number).Nodup)
    (hpositive : ∀ pr ∈ h'.pulls, 0 < pr.number) :
    ManagerInv config repo { s with hosted := h' } := by
  refine ⟨hnumbers, fun pr hmem hm => ?_, fun a ha b hb hma hmb => ?_, hpositive, ?_⟩
  · obtain ⟨version, sha, hlanded⟩ := hinv.landed pr (hmerged pr hmem hm) hm
    exact ⟨version, sha, { hlanded with
      held := hlanded.held.imp_left fun hheld => hheld.congr hreleases htags }⟩
  · exact hinv.distinct a (hmerged a ha hma) b (hmerged b hb hmb) hma hmb
  · show ∀ release ∈ h'.releases, _
    rw [hreleases]
    exact hinv.releases

theorem ManagerInv.closePull {existing : PullRequest} (hinv : ManagerInv config repo s)
    (hopen : existing ∈ openReleasePrs s.hosted) :
    ManagerInv config repo { s with hosted := closePull s.hosted existing.number } := by
  obtain ⟨hexisting, hisOpen⟩ := List.mem_filter.1 hopen
  rw [Bool.and_eq_true] at hisOpen
  refine hinv.pulls rfl rfl (fun pr hmem hmerged => ?_) ?_ fun pr hmem => ?_
  · obtain ⟨old, hold, heq⟩ := List.mem_map.1 hmem
    split at heq
    next hnumber =>
      -- the pull request that is closed is not merged
      obtain rfl := hinv.eq_of_number hold hexisting (beq_iff_eq.1 hnumber)
      rw [← heq] at hmerged
      obtain ⟨version, sha, hlanded⟩ := hinv.landed old hold hmerged
      exact absurd (hlanded.closed.symm.trans hisOpen.1) (by decide)
    next => exact heq ▸ hold
  · refine (map_number (fun pr => ?_) _).symm ▸ hinv.numbers
    split <;> rfl
  · obtain ⟨old, hold, heq⟩ := List.mem_map.1 hmem
    have hpositive := hinv.positive old hold
    split at heq
    · rw [← heq]
      exact hpositive
    · rw [← heq]
      exact hpositive

theorem ManagerInv.openProposal (hinv : ManagerInv config repo s) {request : Request}
    {target candidate : String} {locked : Bool} {number : Nat} (hnumber : 0 < number)
    (hfresh : ∀ pr ∈ s.hosted.pulls, pr.number ≠ number) :
    ManagerInv config repo { s with
      hosted := (openProposal config repo s.hosted request target locked candidate number).2 } := by
  rw [Manager.openProposal]
  split
  · exact hinv
  dsimp only
  split
  · exact hinv
  refine hinv.pulls rfl rfl (fun pr hmem hmerged => ?_) ?_ fun pr hmem => ?_
  · rcases List.mem_append.1 hmem with hmem | hmem
    · exact hmem
    · rw [List.mem_singleton.1 hmem] at hmerged
      cases hmerged
  · rw [List.map_append, List.nodup_append']
    refine ⟨hinv.numbers, List.nodup_singleton _, fun n hn hn' => ?_⟩
    obtain ⟨pr, hpr, rfl⟩ := List.mem_map.1 hn
    exact hfresh pr hpr (List.mem_singleton.1 hn')
  · rcases List.mem_append.1 hmem with hmem | hmem
    · exact hinv.positive pr hmem
    · rw [List.mem_singleton.1 hmem]
      exact hnumber

theorem ManagerInv.prepared (hinv : ManagerInv config repo s)
    (hp : Prepared config repo.evidence s.hosted sha id h') :
    ManagerInv config repo { s with hosted := h' } := by
  have hpulls : h'.pulls = s.hosted.pulls := by cases hp <;> rfl
  refine ⟨?_, fun pr hmem hmerged => ?_, ?_, ?_, fun release hmem => ?_⟩
  · rw [hpulls]
    exact hinv.numbers
  · rw [hpulls] at hmem
    obtain ⟨version, commit, hlanded⟩ := hinv.landed pr hmem hmerged
    exact ⟨version, commit, { hlanded with
      held := hlanded.held.imp_left fun hheld => hheld.prepared hp }⟩
  · show ∀ pr ∈ h'.pulls, ∀ pr' ∈ h'.pulls, _
    rw [hpulls]
    exact hinv.distinct
  · show ∀ pr ∈ h'.pulls, _
    rw [hpulls]
    exact hinv.positive
  · cases hp with
    | same => exact hinv.releases release hmem
    | tag => exact hinv.releases release hmem
    | draft =>
      rcases List.mem_append.1 hmem with hmem | hmem
      · exact hinv.releases release hmem
      · rw [List.mem_singleton.1 hmem]
        exact ⟨rfl, fun h => nomatch h⟩

theorem ManagerInv.propose (hinv : ManagerInv config repo s) {request : Request}
    {candidate : String} {number : Nat} (hnumber : 0 < number)
    (hfresh : ∀ pr ∈ s.hosted.pulls, pr.number ≠ number) :
    ManagerInv config repo { s with
      hosted := (propose config repo s.hosted s.main request id candidate number).2 } := by
  rw [Manager.propose]
  split
  · exact hinv
  split
  · exact hinv
  split
  · exact hinv
  split
  · exact hinv.prepared (Releases.prepared config repo.evidence s.hosted _ id)
  split
  · exact hinv
  split
  · exact hinv
  · exact hinv
  rw [refreshProposal]
  split
  · exact hinv.openProposal hnumber hfresh
  next existing hopen =>
    split
    · exact hinv
    · exact hinv
    split
    · exact hinv
    have hmem : existing ∈ openReleasePrs s.hosted := by
      rw [hopen]
      exact List.mem_cons_self
    have hclosed := hinv.closePull hmem
    refine hclosed.openProposal hnumber fun pr hmem => ?_
    obtain ⟨old, hold, heq⟩ := List.mem_map.1 hmem
    have hne := hfresh old hold
    split at heq
    · rw [← heq]
      exact hne
    · rw [← heq]
      exact hne
  · exact hinv

theorem ManagerInv.publish (hinv : ManagerInv config repo s) (body : Text) :
    ManagerInv config repo { s with
      hosted := s.hosted.editRelease id fun release =>
        { release with draft := false, immutable := true, body := some body } } := by
  refine { hinv with
    landed := fun pr hmem hmerged => ?_
    releases := fun release hmem => ?_ }
  · obtain ⟨version, commit, hlanded⟩ := hinv.landed pr hmem hmerged
    exact ⟨version, commit, { hlanded with
      held := hlanded.held.imp_left fun hheld => hheld.edit fun _ => rfl }⟩
  · rcases mem_editRelease.1 hmem with ⟨old, hold, -, rfl⟩ | ⟨hmem, -⟩
    · exact ⟨(hinv.releases old hold).1, fun _ => rfl⟩
    · exact hinv.releases release hmem

theorem ManagerInv.complete (hinv : ManagerInv config repo s) {job : Job} {auth : Authorization}
    (hauth : authorize config repo.evidence s.hosted job = .ok auth) :
    ManagerInv config repo { s with hosted := s.hosted.removeLabel auth.number } := by
  have hpull : ∀ pr' ∈ (s.hosted.removeLabel auth.number).pulls,
      ∃ pr ∈ s.hosted.pulls, pr' = pr.unlabel auth.number := by
    intro pr' hmem
    obtain ⟨pr, hpr, rfl⟩ := List.mem_map.1 hmem
    exact ⟨pr, hpr, rfl⟩
  refine ⟨?_, fun pr' hmem hmerged => ?_, fun a ha b hb hma hmb heq => ?_, fun pr' hmem => ?_,
    hinv.releases⟩
  · refine (map_number (fun pr => ?_) _).symm ▸ hinv.numbers
    split <;> rfl
  · obtain ⟨pr, hpr, rfl⟩ := hpull pr' hmem
    obtain ⟨labels, hlabels⟩ := pr.unlabel_eq auth.number
    have hmerged' : pr.merged = true := by
      rw [hlabels] at hmerged
      exact hmerged
    obtain ⟨version, commit, hlanded⟩ := hinv.landed pr hpr hmerged'
    have hheld : Held s.hosted version ∨ s.main.head? = some commit ∧
        Ready config repo (pr.unlabel auth.number) version commit := by
      by_cases hnumber : pr.number = auth.number
      · -- the label of the pull request of an authorized job, whose version is held
        obtain ⟨found, release, run, hsource, -, -, hfound, -, -, hauthNumber⟩ :=
          authorize_ok_iff.1 hauth
        have hfind := find_of_mergedReleasePr hsource.pull
        rw [← hauthNumber, ← hnumber, find_number hinv.numbers hpr] at hfind
        cases hfind
        have hversion : version = job.version :=
          Option.some.inj (hlanded.title.symm.trans hfound.title)
        rw [hversion]
        exact Or.inl (held_of_authorize hauth)
      · rw [PullRequest.unlabel, if_neg fun h => hnumber (beq_iff_eq.1 h)]
        exact hlanded.held
    rw [hlabels] at hheld ⊢
    exact ⟨version, commit, { hlanded with
      held := hheld.imp_left fun hheld => hheld.congr rfl rfl }⟩
  · obtain ⟨oldA, holdA, rfl⟩ := hpull a ha
    obtain ⟨oldB, holdB, rfl⟩ := hpull b hb
    obtain ⟨la, hla⟩ := oldA.unlabel_eq auth.number
    obtain ⟨lb, hlb⟩ := oldB.unlabel_eq auth.number
    rw [hla] at hma heq
    rw [hlb] at hmb heq
    rw [hinv.distinct oldA holdA oldB holdB hma hmb heq]
  · obtain ⟨pr, hpr, rfl⟩ := hpull pr' hmem
    obtain ⟨labels, hlabels⟩ := pr.unlabel_eq auth.number
    rw [hlabels]
    exact hinv.positive pr hpr

theorem ManagerInv.step {a : Action} {evs : List Event} {tr : List Event}
    (hinv : ManagerInv config repo s) (horder : InOrder tr s a)
    (hs : step config repo s a = some (s', evs)) : ManagerInv config repo s' := by
  cases a with
  | push sha =>
    rw [Manager.step] at hs
    split at hs
    · cases hs
      exact hinv.push horder sha
    · cases hs
  | merge sha =>
    rw [Manager.step] at hs
    split at hs
    next pr hmerge =>
      split at hs
      next hsha =>
        cases hs
        rw [Bool.and_eq_true] at hsha
        exact hinv.merge horder.1 horder.2 hmerge hsha.1 hsha.2
      · cases hs
    · cases hs
  | manage request id candidate number =>
    rw [Manager.step] at hs
    split at hs
    · cases hs
    next hfresh =>
      cases hs
      simp only [Bool.or_eq_true, not_or, Bool.not_eq_true, List.any_eq_false, beq_eq_false_iff_ne]
        at hfresh
      exact hinv.propose (Nat.pos_of_ne_zero hfresh.1.2) hfresh.2
  | publish job body =>
    rw [Manager.step] at hs
    split at hs
    · cases hs
      exact hinv.publish body
    · cases hs
  | complete job =>
    rw [Manager.step] at hs
    split at hs
    next auth hauth =>
      split at hs
      · cases hs
        exact hinv.complete hauth
      · cases hs
    · cases hs

/-! ## The result -/

/-- A run of the manager for a release commit at the head that is not held. -/
theorem ManagerInv.prepare (hconfig : config.container = true) (hplain : PlainHistory repo)
    (hinv : ManagerInv config repo s) (hmem : pr ∈ s.hosted.pulls) (hmerged : pr.merged = true)
    (hlanded : Landed config repo s pr version sha) (hready : Ready config repo pr version sha)
    (hhead : s.main.head? = some sha)
    (hrelease : ∀ release ∈ s.hosted.releases, release.tagName ≠ "v" ++ version)
    (htag : s.hosted.tags.lookup ("v" ++ version) = none)
    (hid : ∀ release ∈ s.hosted.releases, release.id ≠ id) {run : Nat}
    (hrun : repo.services.validationRun run sha = .ok ()) (requested : Option String)
    (candidate : String) (number : Nat) :
    ∃ body, Manager.propose config repo s.hosted s.main ⟨sha, run, requested⟩ id candidate number =
      (.ok .prepared, { s.hosted with
        releases := s.hosted.releases ++ [draftRelease config id body version sha]
        tags := s.hosted.tags ++ [("v" ++ version, sha)] }) := by
  obtain ⟨body, hprepare⟩ := prepareMergedRelease_ok hconfig hplain
    (hinv.mergedReleasePr hmem hmerged hlanded) hready hlanded.isSha hrelease htag hid
  have htitle : isReleaseTitle (repo.title sha) = true := by
    rw [hready.title]
    exact isReleaseTitle_of_canonical hlanded.title hlanded.canonical
  refine ⟨body, ?_⟩
  rw [Manager.propose, canonicalSha, if_pos hlanded.isSha]
  dsimp only
  rw [hrun]
  dsimp only
  rw [hhead, htitle, hprepare]
  simp [Except.map]

theorem parseTag_of_canonical {parts : Version} (hparts : parseVersion version = .ok parts) :
    parseTag ("v" ++ version) = some parts := by
  have hlist : ("v" ++ version).toList = 'v' :: version.toList := by
    rw [String.toList_append]
    rfl
  rw [parseTag, hlist]
  rw [parseVersion] at hparts
  split at hparts
  · cases hparts
  next v hsemver =>
    split at hparts
    · cases hparts
    · cases hparts
      exact hsemver

/-- A proposal is above every version that is held. -/
theorem proposalTarget_ne (hinv : ManagerInv config repo s) (hheld : Held s.hosted version)
    (hversion : ∃ parts, parseVersion version = .ok parts ∧ version = versionText parts)
    (hcomplete : s.hosted.releases.any isIncomplete = false) {head target : String}
    {requested : Option String} {locked : Bool}
    (htarget : proposalTarget repo s.hosted head requested = .ok (some (target, locked))) :
    target ≠ version := by
  rintro rfl
  obtain ⟨parts, hparts, -⟩ := hversion
  obtain ⟨release, hmem, htag⟩ := hheld.release
  have hparse : parseTag release.tagName = some parts := by
    rw [htag]
    exact parseTag_of_canonical hparts
  have hdone : isCompleted release = true := by
    have hopen := List.any_eq_false.1 hcomplete release hmem
    simp only [isIncomplete, hparse, Option.isSome_some, Bool.true_and, Bool.not_eq_true,
      Bool.or_eq_false_iff, Bool.not_eq_false'] at hopen
    obtain ⟨hpre, himmutable⟩ := hinv.releases release hmem
    exact isCompleted_iff.2 ⟨hopen.1, hpre, himmutable hopen.1, hopen.2⟩
  obtain ⟨automatic, -, htarget⟩ := bind_eq_ok htarget
  cases automatic with
  | none => cases htarget
  | some automatic =>
    obtain ⟨parts', hparts', htarget⟩ := bind_eq_ok htarget
    obtain ⟨minimum, -, htarget⟩ := bind_eq_ok htarget
    obtain ⟨-, htarget⟩ := ite_error_eq_ok.1 htarget
    obtain ⟨completed, hcompleted, htarget⟩ := bind_eq_ok htarget
    rw [ite_error_eq_ok, ite_error_eq_ok] at htarget
    obtain ⟨hbelow, -, htarget⟩ := htarget
    obtain ⟨current, -, htarget⟩ := bind_eq_ok htarget
    obtain ⟨-, htarget⟩ := ite_error_eq_ok.1 htarget
    cases htarget
    cases hparts'.symm.trans hparts
    have hentry := (mem_completedReleases hcompleted (parts, release)).2 ⟨hmem, hdone, hparse⟩
    cases hlast : completed.getLast? with
    | none => exact absurd hentry (by rw [List.getLast?_eq_none_iff.1 hlast]; exact List.not_mem_nil)
    | some last =>
      have hle := (completedReleases_last hcompleted hlast).2 (parts, release) hentry
      rw [hlast] at hbelow
      exact hbelow (decide_eq_true hle)

def startSha : String := "aaaaaaaaaaaaaaaaaaaaaaaaaaaaaaaaaaaaaaaa"
def candidateSha : String := "bbbbbbbbbbbbbbbbbbbbbbbbbbbbbbbbbbbbbbbb"
def releaseSha : String := "cccccccccccccccccccccccccccccccccccccccc"
def laterSha : String := "dddddddddddddddddddddddddddddddddddddddd"

def startTree : Tree := ⟨⟨"0.9.0", ""⟩, ⟨"0.9.0", ""⟩, none, []⟩

/-- The files with the section of version 1.0.0. -/
def releaseTree : Tree :=
  ⟨⟨"1.0.0", ""⟩, ⟨"1.0.0", ""⟩,
    some (updatedChangelog changelogStart "1.0.0" notesDate [plainCommit]), []⟩

def sampleRepository : Repository where
  services := acceptingEvidence
  title sha := if sha == releaseSha then "chore(release): v1.0.0" else "feat: limits"
  tree sha := if sha == startSha then startTree else releaseTree
  date _ := notesDate
  log _ := plainLog
  generatedCommit _ := true

def startState : State where
  main := [startSha]
  hosted :=
    { releases := []
      pulls := []
      tags := []
      latest := none
      aliases := fun _ _ => none
      manifests := []
      signatures := [] }

theorem plainHistory_sample : PlainHistory sampleRepository := by
  refine ⟨?_, fun sha => ?_⟩
  · rintro base baseline commits ⟨⟩
    rw [List.forall_mem_singleton]
    exact ⟨⟨by decide +kernel, List.all_iff_forall_prop.1 (by decide +kernel)⟩,
      ⟨by decide +kernel, by decide +kernel⟩⟩
  · by_cases hstart : (sha == startSha) = true
    · have htree : (sampleRepository.tree sha).changelog = none := by
        show (if sha == startSha then startTree else releaseTree).changelog = none
        rw [if_pos hstart]
        rfl
      rw [htree, show preamble none = [[]] by decide +kernel, List.forall_mem_singleton]
      exact IsPlain.unmarked (by decide)
    · have htree : sampleRepository.tree sha = releaseTree := if_neg hstart
      rw [htree, show preamble releaseTree.changelog = [] by decide +kernel]
      exact fun line hline => nomatch hline

end RemoteServer.Releases.Manager
