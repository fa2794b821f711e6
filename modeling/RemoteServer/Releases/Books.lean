import RemoteServer.Releases.Edits
import RemoteServer.Releases.Notes

/-!
# The Releases and their pull requests

Every Release that the manager makes has the tag of its version to itself, and its body names the
pull request of its commit.  The edits of the publication keep both.

* `Named` is what a body says, and `Books` is that every Release has such a body.
* `Prepared.books`, `Books.edit` and `Books.removeLabel` are the steps that change what is hosted.
* `mergedReleasePr_removeLabel` says that a label does not change which pull request is found.
-/

namespace RemoteServer.Releases

open Fallible PyStd

/-- The body names the pull request of the commit, and the body of a Release that is out ends with
a line feed. -/
structure Named (h : Hosted) (release : Release) (pr : PullRequest) (text : Text) : Prop where
  pull : mergedReleasePr h release.targetCommitish = .ok pr
  body : release.body = some text
  number : 0 < pr.number → prMatches text = [toString pr.number]
  ends : release.draft = false → EndsWithLine text

structure Books (h : Hosted) : Prop where
  ids : Distinct h
  tags : (h.releases.map Release.tagName).Nodup
  named : ∀ release ∈ h.releases, isSha release.targetCommitish = true →
    ∃ pr text, Named h release pr text

variable {config : ReleaseConfig} {ev : Evidence} {h h' : Hosted} {release release' : Release}
  {id : Nat} {f : Release → Release} {sha : String}

theorem Named.congr {pr : PullRequest} {text : Text} (hnamed : Named h release pr text)
    (hpulls : h'.pulls = h.pulls) : Named h' release pr text := by
  refine { hnamed with pull := ?_ }
  rw [mergedReleasePr, hpulls]
  exact hnamed.pull

theorem Books.congr (hbooks : Books h) (hreleases : h'.releases = h.releases)
    (hpulls : h'.pulls = h.pulls) : Books h' := by
  refine ⟨?_, ?_, fun release hmem hsha => ?_⟩
  · rw [Distinct, hreleases]
    exact hbooks.ids
  · rw [hreleases]
    exact hbooks.tags
  · rw [hreleases] at hmem
    obtain ⟨pr, text, hnamed⟩ := hbooks.named release hmem hsha
    exact ⟨pr, text, hnamed.congr hpulls⟩

/-! ## Tags -/

theorem Books.eq_of_tag (hbooks : Books h) (hmem : release ∈ h.releases)
    (hmem' : release' ∈ h.releases) (htag : release.tagName = release'.tagName) :
    release = release' :=
  List.inj_on_of_nodup_map hbooks.tags hmem hmem' htag

theorem Books.releaseByTag (hbooks : Books h) (hmem : release ∈ h.releases) :
    releaseByTag h.releases release.tagName = .ok (some release) := by
  have hfilter : h.releases.filter (fun r => r.tagName == release.tagName) = [release] := by
    refine filter_eq_singleton (List.Nodup.of_map _ hbooks.tags) hmem (beq_self_eq_true _) ?_
    exact fun other hother htag => hbooks.eq_of_tag hother hmem (beq_iff_eq.1 htag)
  rw [Releases.releaseByTag, hfilter]

theorem releaseByTag_none {releases : List Release} {tag : String}
    (hfind : Releases.releaseByTag releases tag = .ok none) :
    ∀ release ∈ releases, release.tagName ≠ tag := by
  intro release hmem htag
  have hself : release ∈ releases.filter fun r => r.tagName == tag :=
    List.mem_filter.2 ⟨hmem, beq_iff_eq.2 htag⟩
  rw [Releases.releaseByTag] at hfind
  split at hfind
  next hnil =>
    rw [hnil] at hself
    cases hself
  · cases hfind
  · cases hfind

/-! ## New drafts -/

theorem prMatches_managedReleaseBody {changelog body : Text} {version : String} {number : Nat}
    (hsha : isSha sha = true) (hnumber : 0 < number)
    (hnotes : ∀ notes, extractNotes version changelog = some notes → prMatches notes = [])
    (hbody : managedReleaseBody changelog version sha number = .ok body) :
    prMatches body = [toString number] := by
  obtain ⟨notes, hextract, hmarks⟩ := marks_managedReleaseBody hsha hnumber hbody
  have hnumbers : prMatches body = prMatches notes ++ [toString number] :=
    congrArg Marks.numbers hmarks
  rw [hnumbers, hnotes notes hextract, List.nil_append]

/-- The release commits whose notes name no pull request. -/
def PlainNotes (ev : Evidence) : Prop :=
  ∀ sha version notes, extractNotes version (ev.changelog sha) = some notes → prMatches notes = []

theorem Prepared.books (hnotes : PlainNotes ev) (hbooks : Books h)
    (hfresh : ∀ release ∈ h.releases, release.id ≠ id) (hp : Prepared config ev h sha id h') :
    Books h' := by
  have hids := hp.distinct hbooks.ids hfresh
  cases hp with
  | same => exact hbooks
  | tag => exact hbooks.congr rfl rfl
  | @draft pr body version tags hpr hbody hnone htags =>
    refine ⟨hids, ?_, ?_⟩
    · rw [List.map_append, List.nodup_append']
      refine ⟨hbooks.tags, List.nodup_singleton _, fun tag hmem hmem' => ?_⟩
      obtain ⟨release, hrelease, rfl⟩ := List.mem_map.1 hmem
      exact releaseByTag_none hnone release hrelease (List.mem_singleton.1 hmem')
    · intro release hmem hsha
      rcases List.mem_append.1 hmem with hmem | hmem
      · obtain ⟨pr, text, hnamed⟩ := hbooks.named release hmem hsha
        exact ⟨pr, text, hnamed.congr rfl⟩
      · obtain rfl := List.mem_singleton.1 hmem
        refine ⟨pr, body, hpr, rfl, fun hnumber => ?_, fun hdraft => nomatch hdraft⟩
        exact prMatches_managedReleaseBody hsha hnumber (hnotes sha version) hbody

/-! ## Edits -/

/-- An edit that leaves the fields of the commit alone and keeps what the body names. -/
theorem Books.edit (hbooks : Books h) (hid : ∀ release, (f release).id = release.id)
    (htag : ∀ release, (f release).tagName = release.tagName)
    (hcommit : ∀ release, (f release).targetCommitish = release.targetCommitish)
    (hnamed : ∀ release ∈ h.releases, release.id = id → isSha release.targetCommitish = true →
      ∀ pr text, Named h release pr text → ∃ text', Named h (f release) pr text') :
    Books (h.editRelease id f) := by
  refine ⟨hbooks.ids.editRelease hid, ?_, ?_⟩
  · have hmap : (h.editRelease id f).releases.map Release.tagName =
        h.releases.map Release.tagName := by
      rw [Hosted.editRelease, List.map_map]
      refine List.map_congr_left fun release _ => ?_
      show (if release.id == id then f release else release).tagName = release.tagName
      split
      · exact htag release
      · rfl
    rw [hmap]
    exact hbooks.tags
  · intro release' hmem hsha
    rcases mem_editRelease.1 hmem with ⟨release, hold, heq, rfl⟩ | ⟨hmem, -⟩
    · rw [hcommit] at hsha
      obtain ⟨pr, text, hrelease⟩ := hbooks.named release hold hsha
      obtain ⟨text', hnew⟩ := hnamed release hold heq hsha pr text hrelease
      exact ⟨pr, text', hnew.congr rfl⟩
    · obtain ⟨pr, text, hrelease⟩ := hbooks.named release' hmem hsha
      exact ⟨pr, text, hrelease.congr rfl⟩

/-! ## Labels -/

/-- The pull request without the label, if it has the number. -/
def PullRequest.unlabel (number : Nat) (pr : PullRequest) : PullRequest :=
  if pr.number == number then { pr with labels := pr.labels.filter (· != pendingLabel) } else pr

theorem PullRequest.unlabel_eq (number : Nat) (pr : PullRequest) :
    ∃ labels, pr.unlabel number = { pr with labels := labels } := by
  rw [PullRequest.unlabel]
  split
  · exact ⟨_, rfl⟩
  · exact ⟨pr.labels, rfl⟩

theorem mergedReleasePr_removeLabel (h : Hosted) (number : Nat) (sha : String) :
    mergedReleasePr (h.removeLabel number) sha =
      (mergedReleasePr h sha).map (PullRequest.unlabel number) := by
  have hpulls : (h.removeLabel number).pulls = h.pulls.map (PullRequest.unlabel number) := rfl
  have hfilter : (h.removeLabel number).pulls.filter (fun pr =>
      !pr.isOpen && pr.releaseBranch && pr.merged && pr.mergeCommitSha == some sha) =
      (h.pulls.filter fun pr => !pr.isOpen && pr.releaseBranch && pr.merged &&
        pr.mergeCommitSha == some sha).map (PullRequest.unlabel number) := by
    rw [hpulls, List.filter_map]
    refine congrArg _ (List.filter_congr fun pr _ => ?_)
    obtain ⟨labels, hlabels⟩ := pr.unlabel_eq number
    rw [Function.comp_apply, hlabels]
  have hfind : ∀ n, (h.removeLabel number).pulls.find? (fun pr => pr.number == n) =
      (h.pulls.find? fun pr => pr.number == n).map (PullRequest.unlabel number) := by
    intro n
    rw [hpulls, List.find?_map]
    congr 2
    funext pr
    obtain ⟨labels, hlabels⟩ := pr.unlabel_eq number
    rw [Function.comp_apply, hlabels]
  rw [mergedReleasePr, mergedReleasePr, hfilter]
  generalize h.pulls.filter (fun pr => !pr.isOpen && pr.releaseBranch && pr.merged &&
    pr.mergeCommitSha == some sha) = found
  rcases found with _ | ⟨a, _ | ⟨b, rest⟩⟩
  · rfl
  · obtain ⟨labels, hlabels⟩ := a.unlabel_eq number
    simp only [List.map_cons, List.map_nil, hfind, hlabels]
    cases h.pulls.find? fun pr => pr.number == a.number with
    | none => rfl
    | some pr => rfl
  · rfl

theorem Books.removeLabel (hbooks : Books h) (number : Nat) : Books (h.removeLabel number) := by
  refine ⟨hbooks.ids, hbooks.tags, fun release hmem hsha => ?_⟩
  obtain ⟨pr, text, hnamed⟩ := hbooks.named release hmem hsha
  obtain ⟨labels, hlabels⟩ := pr.unlabel_eq number
  refine ⟨pr.unlabel number, text, ?_, hnamed.body, ?_, hnamed.ends⟩
  · rw [mergedReleasePr_removeLabel, hnamed.pull]
    rfl
  · rw [hlabels]
    exact hnamed.number

/-- The pull request of a commit is the first one with its number. -/
theorem find_of_mergedReleasePr {pr : PullRequest} (hpr : mergedReleasePr h sha = .ok pr) :
    h.pulls.find? (fun other => other.number == pr.number) = some pr := by
  rw [mergedReleasePr] at hpr
  split at hpr
  next found heq =>
    cases hfind : h.pulls.find? fun other => other.number == found.number with
    | none =>
      rw [hfind] at hpr
      cases hpr
    | some first =>
      rw [hfind] at hpr
      cases hpr
      have hnumber := List.find?_some hfind
      rw [beq_iff_eq.1 hnumber]
      exact hfind
  · cases hpr

end RemoteServer.Releases
