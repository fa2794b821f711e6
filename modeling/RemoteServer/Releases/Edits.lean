import RemoteServer.Releases.Publication

/-!
# What the tasks of a run keep

GitHub gives every Release an identity of its own, so that an edit changes one record.

* `Distinct` is that the identities differ.  `Stepped.distinct` says that every action keeps it.
* `Performed.completed_kept` and `Prepared.mem_kept` say that a completed Release is never
  changed.
-/

namespace RemoteServer.Releases

open Fallible PyStd

/-- The identities of the Releases differ. -/
def Distinct (h : Hosted) : Prop := (h.releases.map Release.id).Nodup

variable {config : ReleaseConfig} {ev : Evidence} {h h' : Hosted} {run run' : Run} {task : Task}
  {evs : List Event} {release release' : Release} {id : Nat} {f : Release → Release}

theorem Distinct.eq (hids : Distinct h) (hmem : release ∈ h.releases)
    (hmem' : release' ∈ h.releases) (hid : release.id = release'.id) : release = release' :=
  List.inj_on_of_nodup_map hids hmem hmem' hid

theorem mem_editRelease :
    release' ∈ (h.editRelease id f).releases ↔
      (∃ release ∈ h.releases, release.id = id ∧ f release = release') ∨
        release' ∈ h.releases ∧ release'.id ≠ id := by
  rw [Hosted.editRelease, List.mem_map]
  constructor
  · rintro ⟨release, hmem, heq⟩
    split at heq
    next hid => exact Or.inl ⟨release, hmem, beq_iff_eq.1 hid, heq⟩
    next hid => exact heq ▸ Or.inr ⟨hmem, fun hid' => hid (beq_iff_eq.2 hid')⟩
  · rintro (⟨release, hmem, hid, heq⟩ | ⟨hmem, hid⟩)
    · exact ⟨release, hmem, by rw [if_pos (beq_iff_eq.2 hid), heq]⟩
    · exact ⟨release', hmem, if_neg fun hid' => hid (beq_iff_eq.1 hid')⟩

theorem Distinct.editRelease (hids : Distinct h) (hf : ∀ release, (f release).id = release.id) :
    Distinct (h.editRelease id f) := by
  have hmap : (h.editRelease id f).releases.map Release.id = h.releases.map Release.id := by
    rw [Hosted.editRelease, List.map_map]
    refine List.map_congr_left fun release _ => ?_
    show (if release.id == id then f release else release).id = release.id
    split
    · exact hf release
    · rfl
  rwa [Distinct, hmap]

theorem releaseByTag_some {releases : List Release} {tag : String}
    (hfind : releaseByTag releases tag = .ok (some release)) :
    releases.filter (fun release => release.tagName == tag) = [release] := by
  rw [releaseByTag] at hfind
  split at hfind
  · cases hfind
  next heq =>
    cases hfind
    exact heq
  · cases hfind

/-- The only item that passes a test. -/
theorem filter_eq_singleton {α : Type} {items : List α} {p : α → Bool} {item : α}
    (hnodup : items.Nodup) (hmem : item ∈ items) (hself : p item = true)
    (hunique : ∀ other ∈ items, p other = true → other = item) : items.filter p = [item] := by
  have hall : ∀ other ∈ items.filter p, other = item := fun other hother =>
    hunique other (List.mem_filter.1 hother).1 (List.mem_filter.1 hother).2
  have hitem : item ∈ items.filter p := List.mem_filter.2 ⟨hmem, hself⟩
  have hfiltered : (items.filter p).Nodup := hnodup.filter p
  revert hall hitem hfiltered
  generalize items.filter p = found
  intro hall hitem hfiltered
  rcases found with _ | ⟨a, _ | ⟨b, rest⟩⟩
  · cases hitem
  · rw [hall a List.mem_cons_self]
  · have hab : a = b := (hall a List.mem_cons_self).trans
      (hall b (List.mem_cons_of_mem _ List.mem_cons_self)).symm
    exact absurd List.mem_cons_self (hab ▸ (List.nodup_cons.1 hfiltered).1)

theorem mem_of_filter_eq {p : Release → Bool} {releases : List Release}
    (hfilter : releases.filter p = [release]) : release ∈ releases ∧ p release = true := by
  refine List.mem_filter.1 ?_
  rw [hfilter]
  exact List.mem_singleton_self release

theorem refreshRelease_some (hrefresh : refreshRelease config h run = .ok release) :
    h.releases.filter (fun release => release.tagName == "v" ++ run.job.version) = [release] ∧
      release.id = run.releaseId := by
  rw [refreshRelease] at hrefresh
  split at hrefresh
  · cases hrefresh
  next heq =>
    simp only [ite_error_eq_ok] at hrefresh
    obtain ⟨hid, -, -, -, -, -, -, -, hrelease⟩ := hrefresh
    cases hrelease
    exact ⟨heq, by simpa using hid⟩
  · cases hrefresh

theorem ownRecord_ok {missing unnamed : String} {number : Nat} {draft complete : Bool}
    (hown : ownRecord config h run missing unnamed = .ok (release, number, draft, complete)) :
    releaseByTag h.releases run.job.tag = .ok (some release) ∧
      (∃ text rest, prMatches (release.body.getD []) = text :: rest ∧
        number = Nat.ofDigitChars 10 text.toList 0) ∧
      ∃ digest, validateReleaseRecord config release run.job.version run.job.sha number =
        .ok (draft, digest, complete) := by
  obtain ⟨found, hfound, hown⟩ := bind_eq_ok hown
  cases found with
  | none => cases hown
  | some found =>
    dsimp only at hown
    cases hnumbers : prMatches (found.body.getD []) with
    | nil => rw [hnumbers] at hown; cases hown
    | cons text rest =>
      rw [hnumbers] at hown
      obtain ⟨⟨draft', digest, complete'⟩, hrecord, hown⟩ := bind_eq_ok hown
      cases hown
      exact ⟨hfound, ⟨text, rest, hnumbers, rfl⟩, digest, hrecord⟩

/-! ## Identities -/

theorem Performed.distinct (hids : Distinct h) (hp : Performed config ev h run task h' run' evs) :
    Distinct h' := by
  cases hp with
  | upload => exact hids.editRelease fun _ => rfl
  | recordDigest => exact hids.editRelease fun _ => rfl
  | publish => exact hids.editRelease fun _ => rfl
  | complete => exact hids.editRelease fun _ => rfl
  | _ => exact hids

theorem Prepared.distinct {sha : String} (hids : Distinct h)
    (hfresh : ∀ release ∈ h.releases, release.id ≠ id)
    (hp : Prepared config ev h sha id h') : Distinct h' := by
  cases hp with
  | same => exact hids
  | tag => exact hids
  | draft =>
    rw [Distinct, List.map_append, List.nodup_append']
    refine ⟨hids, List.nodup_singleton _, fun id' hmem hmem' => ?_⟩
    obtain ⟨release, hrelease, rfl⟩ := List.mem_map.1 hmem
    exact hfresh release hrelease (List.mem_singleton.1 hmem')

theorem Stepped.distinct {s s' : State} {a : Action} (hids : Distinct s.hosted)
    (hs : Stepped config ev s a s' evs) : Distinct s'.hosted := by
  cases hs with
  | prepared hfresh hprepared => exact hprepared.distinct hids hfresh
  | started => exact hids
  | ended => exact hids
  | performed _ _ hperformed => exact hperformed.distinct hids

/-! ## Completed Releases -/

theorem isCompleted_iff : isCompleted release = true ↔
    release.draft = false ∧ release.prerelease = false ∧ release.immutable = true ∧
      completionMarker release = true := by
  rw [isCompleted, Bool.and_eq_true, Bool.and_eq_true, Bool.and_eq_true, Bool.not_eq_true',
    Bool.not_eq_true', and_assoc, and_assoc]

/-- A record that the check finds incomplete has no completion marker. -/
theorem completionMarker_of_incomplete (hconfig : config.container = true) {version sha : String}
    {number : Nat} {draft : Bool} {digest : Option String}
    (hrecord : validateReleaseRecord config release version sha number =
      .ok (draft, digest, false)) : completionMarker release = false := by
  obtain ⟨hmanaged, -, -, -, -, body, numbers, hbody, hmarks⟩ :=
    (validateReleaseRecord_ok_iff hconfig).1 hrecord
  have hcount : (splitlines body).count (completeMarker sha) = 0 := congrArg Marks.complete hmarks
  rw [completionMarker, hbody, hmanaged.targetCommitish]
  show (isSha sha && (splitlines body).count (completeMarker sha) == 1) = false
  rw [hcount]
  exact Bool.and_false _

/-- No task changes a completed Release. -/
theorem Performed.completed_kept (hconfig : config.container = true) (hids : Distinct h)
    (hp : Performed config ev h run task h' run' evs) (hmem : release ∈ h.releases)
    (hcompleted : isCompleted release = true) : release ∈ h'.releases := by
  obtain ⟨hdraft, -, himmutable, hmarker⟩ := isCompleted_iff.1 hcompleted
  cases hp with
  | @upload name content found hfind hmutable assets todo htodo =>
    refine mem_editRelease.2 (Or.inr ⟨hmem, fun hid => ?_⟩)
    have hfound := List.find?_some hfind
    have heq := hids.eq hmem (List.mem_of_find?_eq_some hfind) (hid.trans (beq_iff_eq.1 hfound).symm)
    rw [heq, hmutable] at himmutable
    cases himmutable
  | @recordDigest found hrefresh hdraft' hnone =>
    refine mem_editRelease.2 (Or.inr ⟨hmem, fun hid => ?_⟩)
    obtain ⟨hfilter, hid'⟩ := refreshRelease_some hrefresh
    have heq := hids.eq hmem (mem_of_filter_eq hfilter).1 (hid.trans hid'.symm)
    rw [heq, hdraft'] at hdraft
    cases hdraft
  | publish =>
    by_cases hid : release.id = run.releaseId
    · refine mem_editRelease.2 (Or.inl ⟨release, hmem, hid, ?_⟩)
      rw [← hdraft, ← himmutable]
    · exact mem_editRelease.2 (Or.inr ⟨hmem, hid⟩)
  | @complete auth missing unnamed found number hauth hown =>
    refine mem_editRelease.2 (Or.inr ⟨hmem, fun hid => ?_⟩)
    obtain ⟨hfound, -, digest, hrecord⟩ := ownRecord_ok hown
    have heq := hids.eq hmem (mem_of_filter_eq (releaseByTag_some hfound)).1 hid
    rw [heq, completionMarker_of_incomplete hconfig hrecord] at hmarker
    cases hmarker
  | _ => exact hmem

theorem Prepared.mem_kept {sha : String} (hp : Prepared config ev h sha id h')
    (hmem : release ∈ h.releases) : release ∈ h'.releases := by
  cases hp with
  | same => exact hmem
  | tag => exact hmem
  | draft => exact List.mem_append_left _ hmem

theorem Prepared.draft_of_new {sha : String} (hp : Prepared config ev h sha id h')
    (hmem : release ∈ h'.releases) : release ∈ h.releases ∨ release.draft = true := by
  cases hp with
  | same => exact Or.inl hmem
  | tag => exact Or.inl hmem
  | draft =>
    rcases List.mem_append.1 hmem with hmem | hmem
    · exact Or.inl hmem
    · rw [List.mem_singleton.1 hmem]
      exact Or.inr rfl

end RemoteServer.Releases
