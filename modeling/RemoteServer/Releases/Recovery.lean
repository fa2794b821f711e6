import RemoteServer.Releases.Books
import RemoteServer.Releases.Latest

/-!
# Recovery of a stopped publication

A run of the publication can stop after every task, and a later run for the same job starts with
`authorize` again.

* `Own` is what `authorize` needs of a job, with the digest and the completion that the body of the
  Release records.  Each task keeps it or takes it to the next stage.
* The digest goes into the body of the draft before the draft is turned off.  Between these two
  edits the check refuses the record, and `RecoveryInv` says that no other state has this form.
* `interrupted_recovers` is the result for runs that do not stop between the two edits, and
  `stopped_before_publish` is a run that does.
-/

namespace RemoteServer.Releases

open Fallible PyStd

/-! ## What a job needs -/

/-- The pull request and the Release of a job, with what the body records. -/
structure Own (config : ReleaseConfig) (ev : Evidence) (h : Hosted) (job : Job) (pr : PullRequest)
    (release : Release) (text : Text) (digest : Option String) (complete : Bool) : Prop where
  source : Sourced ev h job pr
  merged : ∃ run, MergedPr config ev pr job.sha (!complete) job.version run
  push : ∃ run, ev.pushRun job.sha = .ok run
  mem : release ∈ h.releases
  managed : Managed config release job.version job.sha
  body : release.body = some text
  marks : ∃ numbers, marks job.sha pr.number text = stageMarks digest complete numbers
  out : release.draft = false → release.immutable = true ∧ digest.isSome = true
  done : complete = true → release.draft = false
  ends : digest.isSome = true → EndsWithLine text

variable {config : ReleaseConfig} {ev : Evidence} {h h' : Hosted} {job job' : Job}
  {pr pr' : PullRequest} {release release' : Release} {text text' : Text} {digest digest' : Option String}
  {complete complete' : Bool} {id : Nat} {f : Release → Release}

namespace Own

theorem tagName (hown : Own config ev h job pr release text digest complete) :
    release.tagName = job.tag := by
  rw [hown.managed.tagName, hown.source.tag]

/-- The Release of a job is accepted unless it is a draft with a digest. -/
theorem authorize (hconfig : config.container = true) (hbooks : Books h)
    (hown : Own config ev h job pr release text digest complete)
    (hdraft : release.draft = digest.isNone) :
    ∃ auth, Releases.authorize config ev h job = .ok auth := by
  obtain ⟨run, hmerged⟩ := hown.merged
  obtain ⟨validationId, hpush⟩ := hown.push
  obtain ⟨numbers, hmarks⟩ := hown.marks
  refine ⟨⟨release.id, release.draft, digest, pr.number, validationId, complete⟩,
    authorize_ok_iff.2 ⟨pr, release, run, hown.source, ?_, ?_, hmerged, hpush, rfl, rfl⟩⟩
  · rw [← hown.tagName]
    exact hbooks.releaseByTag hown.mem
  · exact (validateReleaseRecord_ok_iff hconfig).2 ⟨hown.managed, rfl, fun h => (hown.out h).1,
      hdraft.symm, hown.done, text, numbers, hown.body, hmarks⟩

/-- A job that is authorized. -/
theorem of_authorize (hconfig : config.container = true) (hbooks : Books h) {auth : Authorization}
    (hauth : Releases.authorize config ev h job = .ok auth) :
    ∃ pr release text digest complete, Own config ev h job pr release text digest complete ∧
      release.draft = digest.isNone ∧ release.id = auth.releaseId ∧ pr.number = auth.number := by
  obtain ⟨pr, release, run, hsource, hrelease, hrecord, hmerged, hpush, hid, hnumber⟩ :=
    authorize_ok_iff.1 hauth
  obtain ⟨hmanaged, hdraft, himmutable, hdigest, hdone, text, numbers, hbody, hmarks⟩ :=
    (validateReleaseRecord_ok_iff hconfig).1 hrecord
  have hmem := (mem_of_filter_eq (releaseByTag_some hrelease)).1
  have hsha : isSha release.targetCommitish = true := by
    rw [hmanaged.targetCommitish]
    exact hsource.sha
  obtain ⟨pr', text', hnamed⟩ := hbooks.named release hmem hsha
  obtain rfl : text' = text := Option.some.inj (hnamed.body.symm.trans hbody)
  refine ⟨pr, release, text', auth.digest, auth.complete, ⟨hsource, ⟨run, hmerged⟩, ⟨_, hpush⟩, hmem,
    hmanaged, hbody, ⟨numbers, hmarks⟩, fun hout => ⟨?_, ?_⟩, fun hcomplete => ?_,
    fun hsome => hnamed.ends ?_⟩, ?_, hid.symm, hnumber.symm⟩
  · exact himmutable (hdraft.symm.trans hout)
  · rw [hdraft, ← hdigest] at hout
    exact Option.isSome_iff_ne_none.2 fun hnone => by rw [hnone] at hout; cases hout
  · rw [hdraft]
    exact hdone hcomplete
  · rw [hdraft, ← hdigest]
    cases hvalue : auth.digest with
    | none => rw [hvalue] at hsome; cases hsome
    | some _ => rfl
  · rw [hdraft, hdigest]

/-- The Release determines the job. -/
theorem job_eq (hown : Own config ev h job pr release text digest complete)
    (hown' : Own config ev h job' pr' release text' digest' complete') : job = job' := by
  obtain ⟨version, sha, tag, head⟩ := job
  obtain ⟨version', sha', tag', head'⟩ := job'
  obtain rfl : sha = sha' :=
    hown.managed.targetCommitish.symm.trans hown'.managed.targetCommitish
  obtain rfl : version = version' := by
    have htag : "v" ++ version = "v" ++ version' :=
      hown.managed.tagName.symm.trans hown'.managed.tagName
    exact (String.append_right_inj _).1 htag
  obtain rfl : tag = tag' := hown.source.tag.trans hown'.source.tag.symm
  obtain rfl : head = head' := hown.source.head.trans hown'.source.head.symm
  rfl

/-- The number of the pull request determines the job. -/
theorem job_eq_of_number (hbooks : Books h)
    (hown : Own config ev h job pr release text digest complete)
    (hown' : Own config ev h job' pr' release' text' digest' complete')
    (hnumber : pr.number = pr'.number) : job = job' ∧ release = release' := by
  obtain rfl : pr = pr' := by
    have hfind := find_of_mergedReleasePr hown.source.pull
    rw [hnumber, find_of_mergedReleasePr hown'.source.pull] at hfind
    exact (Option.some.inj hfind).symm
  obtain ⟨run, hmerged⟩ := hown.merged
  obtain ⟨run', hmerged'⟩ := hown'.merged
  have hversion : job.version = job'.version :=
    Option.some.inj (hmerged.title.symm.trans hmerged'.title)
  have hrelease : release = release' := by
    refine hbooks.eq_of_tag hown.mem hown'.mem ?_
    rw [hown.managed.tagName, hown'.managed.tagName, hversion]
  subst hrelease
  exact ⟨hown.job_eq hown', rfl⟩

/-- The Release of the tag of a job. -/
theorem eq_of_tag (hbooks : Books h) (hown : Own config ev h job pr release text digest complete)
    (hfind : h.releases.filter (fun r => r.tagName == job.tag) = [release']) : release' = release := by
  obtain ⟨hmem, htag⟩ := mem_of_filter_eq hfind
  exact hbooks.eq_of_tag hmem hown.mem ((beq_iff_eq.1 htag).trans hown.tagName.symm)

/-! ## The steps that change what is hosted -/

/-- The registries are no part of it. -/
theorem congr (hown : Own config ev h job pr release text digest complete)
    (hreleases : h'.releases = h.releases) (hpulls : h'.pulls = h.pulls) (htags : h'.tags = h.tags) :
    Own config ev h' job pr release text digest complete := by
  refine { hown with source := { hown.source with commit := ?_, pull := ?_ }, mem := ?_ }
  · rw [htags]
    exact hown.source.commit
  · have hpull : mergedReleasePr h' job.sha = mergedReleasePr h job.sha := by
      rw [mergedReleasePr, mergedReleasePr, hpulls]
    rw [hpull]
    exact hown.source.pull
  · rw [hreleases]
    exact hown.mem

theorem prepared {sha : String} (hown : Own config ev h job pr release text digest complete)
    (hp : Prepared config ev h sha id h') : Own config ev h' job pr release text digest complete := by
  have hlookup : ∀ tag, (h.tags ++ [(tag, sha)]).lookup job.tag = some job.sha := by
    intro tag
    rw [List.lookup_append, hown.source.commit]
    rfl
  cases hp with
  | same => exact hown
  | tag => exact { hown with source := { hown.source with commit := hlookup _ } }
  | draft hpr hbody hnone htags =>
    refine { hown with
      source := { hown.source with commit := ?_ }, mem := List.mem_append_left _ hown.mem }
    rcases htags with rfl | ⟨tag, -, rfl⟩
    · exact hown.source.commit
    · exact hlookup tag

/-- An edit of another Release. -/
theorem edit_other (hown : Own config ev h job pr release text digest complete)
    (hid : release.id ≠ id) :
    Own config ev (h.editRelease id f) job pr release text digest complete :=
  { hown with
    source := { hown.source with }
    mem := mem_editRelease.2 (Or.inr ⟨hown.mem, hid⟩) }

theorem removeLabel (number : Nat) (hown : Own config ev h job pr release text digest complete)
    (hlabel : pr.number = number → complete = true) :
    Own config ev (h.removeLabel number) job (pr.unlabel number) release text digest complete := by
  obtain ⟨labels, hlabels⟩ := pr.unlabel_eq number
  obtain ⟨run, hmerged⟩ := hown.merged
  refine { hown with
    source := { hown.source with pull := ?_, number := ?_ }
    merged := ⟨run, ?_⟩
    marks := ?_ }
  · rw [mergedReleasePr_removeLabel, hown.source.pull]
    rfl
  · rw [hlabels]
    exact hown.source.number
  · by_cases hnumber : pr.number = number
    · rw [hlabels]
      rw [hlabel hnumber] at hmerged ⊢
      exact { hmerged with label := fun h => nomatch h }
    · rw [PullRequest.unlabel, if_neg fun h => hnumber (beq_iff_eq.1 h)]
      exact hmerged
  · rw [hlabels]
    exact hown.marks

end Own

/-! ## The tasks of a run -/

/-- What the tasks that are left rely on. -/
def TaskOk (run : Run) : Task → Prop
  | .publish => False
  | .recordDigest => isDigest run.digest.toList = true
  | .removeLabel number => number = run.number
  | _ => True

/-- The draft is turned off right after its digest is recorded. -/
def TasksOk (run : Run) (todo : List Task) : Prop :=
  ∀ task ∈ if todo.head? = some .publish then todo.tail else todo, TaskOk run task

variable {run run' : Run} {task : Task} {todo rest : List Task} {evs : List Event}

theorem TasksOk.of_forall (hok : ∀ task ∈ todo, TaskOk run task) : TasksOk run todo := by
  intro task htask
  split at htask
  · exact hok task (List.mem_of_mem_tail htask)
  · exact hok task htask

theorem TasksOk.head_ne (hok : ∀ task ∈ todo, TaskOk run task) : todo.head? ≠ some .publish :=
  fun hhead => hok _ (List.mem_of_mem_head? hhead)

theorem TasksOk.others (hok : TasksOk run (task :: rest)) : ∀ t ∈ rest, TaskOk run t := by
  intro t ht
  by_cases htask : (task :: rest).head? = some .publish
  · exact hok t (by rw [if_pos htask]; exact ht)
  · exact hok t (by rw [if_neg htask]; exact List.mem_cons_of_mem _ ht)

theorem TasksOk.first (hok : TasksOk run (task :: rest)) (htask : task ≠ .publish) :
    TaskOk run task := by
  have hhead : (task :: rest).head? ≠ some .publish := fun h => htask (Option.some.inj h)
  exact hok task (by rw [if_neg hhead]; exact List.mem_cons_self)

theorem firstTasks_ok {draft : Bool} {tasks : List Task}
    (htasks : firstTasks run draft = .ok tasks) : ∀ t ∈ tasks, TaskOk run t := by
  rw [firstTasks] at htasks
  split at htasks
  · rw [ite_error_eq_ok, ite_error_eq_ok] at htasks
    cases htasks.2.2
    intro t ht
    simp only [List.mem_cons, List.not_mem_nil, or_false] at ht
    rcases ht with rfl | rfl | rfl <;> trivial
  · rw [ite_error_eq_ok, ite_error_eq_ok] at htasks
    obtain ⟨hdigest, -, htasks⟩ := htasks
    cases htasks
    intro t ht
    simp only [List.mem_append, List.mem_flatMap, List.mem_map, List.mem_cons, List.not_mem_nil,
      or_false] at ht
    rcases ht with ((⟨image, -, rfl | rfl | rfl⟩ | rfl | rfl) | ⟨asset, -, rfl⟩) |
      rfl | rfl | rfl | rfl | rfl
    case inr.inr.inl => simpa [TaskOk] using hdigest
    all_goals trivial

/-! ## What a task does to the Release of its run -/

theorem Own.isPlain (hown : Own config ev h job pr release text digest complete) :
    IsPlain job.version.toList := by
  obtain ⟨parts, hparts, -⟩ := hown.source.version
  refine isPlain_of_parseSemver ?_
  rw [parseVersion] at hparts
  split at hparts
  · cases hparts
  next hsemver => rw [hsemver]; rfl

theorem Own.digests (hown : Own config ev h job pr release text digest complete) :
    digestMatches text = digest.toList := by
  obtain ⟨numbers, hmarks⟩ := hown.marks
  exact congrArg Marks.digests hmarks

/-- The digest of the run in the body. -/
theorem Own.marks_published (hown : Own config ev h run.job pr release text none complete)
    (hdigest : isDigest run.digest.toList = true) :
    ∃ numbers, Releases.marks run.job.sha pr.number (run.publishedBody text) =
      stageMarks (some run.digest) complete numbers := by
  obtain ⟨numbers, hmarks⟩ := hown.marks
  have hnames : PlainNames run.registries.images run.job.version run.job.sha :=
    ⟨run.registries.isPlain, hown.isPlain, isPlain_of_isSha hown.source.sha⟩
  refine ⟨numbers ++ [], ?_⟩
  rw [Run.publishedBody, marks_publishedBody hnames hdigest, hmarks]
  cases complete <;> rfl

/-- The Release that the script looks at is the one of the job. -/
theorem Own.refreshed (hbooks : Books h)
    (hown : Own config ev h run.job pr release text digest complete)
    (hrefresh : refreshRelease config h run = .ok release') : release' = release := by
  obtain ⟨hfilter, -⟩ := refreshRelease_some hrefresh
  rw [← hown.source.tag] at hfilter
  exact hown.eq_of_tag hbooks hfilter

theorem Own.recorded (hbooks : Books h)
    (hown : Own config ev h run.job pr release text digest complete)
    {missing unnamed : String} {number : Nat} {draft : Bool}
    (hrecord : ownRecord config h run missing unnamed = .ok (release', number, draft, complete')) :
    release' = release ∧ number = pr.number ∧
      ∃ digest', validateReleaseRecord config release run.job.version run.job.sha number =
        .ok (draft, digest', complete') := by
  obtain ⟨hfound, ⟨numbers, others, hnumbers, rfl⟩, digest', hvalid⟩ := ownRecord_ok hrecord
  obtain rfl := hown.eq_of_tag hbooks (releaseByTag_some hfound)
  have hsha : isSha release'.targetCommitish = true := by
    rw [hown.managed.targetCommitish]
    exact hown.source.sha
  obtain ⟨pr', text', hnamed⟩ := hbooks.named release' hown.mem hsha
  obtain rfl : pr' = pr := by
    have hpull := hnamed.pull
    rw [hown.managed.targetCommitish, hown.source.pull] at hpull
    exact (Except.ok.inj hpull).symm
  rw [hnamed.body, Option.getD_some, hnamed.number hown.source.number] at hnumbers
  obtain ⟨rfl, -⟩ := List.cons.inj hnumbers
  refine ⟨rfl, ?_, digest', hvalid⟩
  rw [toList_toString]
  exact Nat.ofDigitChars_toDigits (by decide) (by decide)

theorem Own.prMatches_published
    (hown : Own config ev h run.job pr release text digest complete)
    (hdigest : isDigest run.digest.toList = true) :
    prMatches (run.publishedBody text) = prMatches text := by
  have hnames : PlainNames run.registries.images run.job.version run.job.sha :=
    ⟨run.registries.isPlain, hown.isPlain, isPlain_of_isSha hown.source.sha⟩
  have hmarks : Releases.marks run.job.sha 0 (run.publishedBody text) =
      Releases.marks run.job.sha 0 text + ⟨0, 0, 0, [], [run.digest], 1, 0⟩ :=
    marks_publishedBody hnames hdigest _ _
  exact (congrArg Marks.numbers hmarks).trans (List.append_nil _)

theorem prMatches_completed {sha : String} (hsha : isSha sha = true) (hend : EndsWithLine text) :
    prMatches (completedBody sha text) = prMatches text := by
  have hmarks : marks sha 0 (completedBody sha text) = marks sha 0 text + ⟨0, 0, 1, [], [], 0, 1⟩ :=
    marks_completedBody hsha hend
  exact (congrArg Marks.numbers hmarks).trans (List.append_nil _)

theorem Performed.books (hconfig : config.container = true) (hbooks : Books h)
    (hp : Performed config ev h run task h' run' evs)
    (hown : Own config ev h run.job pr release text digest complete)
    (hid : release.id = run.releaseId)
    (hdigest : task = .recordDigest → isDigest run.digest.toList = true)
    (hpublish : task = .publish → digest.isSome = true) : Books h' := by
  have hself : ∀ {release'}, release' ∈ h.releases → release'.id = run.releaseId →
      release' = release := fun hmem heq => hbooks.ids.eq hmem hown.mem (heq.trans hid.symm)
  cases hp with
  | upload =>
    exact hbooks.edit (fun _ => rfl) (fun _ => rfl) (fun _ => rfl) fun release' _ _ _ pr' text' h =>
      ⟨text', h.pull, h.body, h.number, h.ends⟩
  | recordDigest =>
    refine hbooks.edit (fun _ => rfl) (fun _ => rfl) (fun _ => rfl) ?_
    intro release' hmem heq _ pr' text' hnamed
    obtain rfl := hself hmem heq
    obtain rfl : text' = text := Option.some.inj (hnamed.body.symm.trans hown.body)
    refine ⟨run.publishedBody text', hnamed.pull, ?_, fun hnumber => ?_, fun _ => ?_⟩
    · rw [hnamed.body]
      rfl
    · rw [hown.prMatches_published (hdigest rfl)]
      exact hnamed.number hnumber
    · exact endsWithLine_publishedBody text'
  | publish =>
    refine hbooks.edit (fun _ => rfl) (fun _ => rfl) (fun _ => rfl) ?_
    intro release' hmem heq _ pr' text' hnamed
    obtain rfl := hself hmem heq
    obtain rfl : text' = text := Option.some.inj (hnamed.body.symm.trans hown.body)
    exact ⟨text', hnamed.pull, hnamed.body, hnamed.number, fun _ => hown.ends (hpublish rfl)⟩
  | complete hauth hrecord =>
    obtain ⟨rfl, rfl, digest', hvalid⟩ := hown.recorded hbooks hrecord
    refine hbooks.edit (fun _ => rfl) (fun _ => rfl) (fun _ => rfl) ?_
    intro release' hmem heq _ pr' text' hnamed
    obtain rfl := hbooks.ids.eq hmem hown.mem heq
    obtain rfl : text' = text := Option.some.inj (hnamed.body.symm.trans hown.body)
    have hdraft := ((validateReleaseRecord_ok_iff hconfig).1 hvalid).2.1
    refine ⟨completedBody run.job.sha text', hnamed.pull, ?_, fun hnumber => ?_, fun _ => ?_⟩
    · rw [hnamed.body]
      rfl
    · rw [prMatches_completed hown.source.sha (hnamed.ends hdraft)]
      exact hnamed.number hnumber
    · exact endsWithLine_completedBody text'
  | removeLabel => exact hbooks.removeLabel _
  | _ => exact hbooks.congr rfl rfl

/-- The next stage of the job of the run.  Only a draft whose digest was recorded just now is not
accepted. -/
theorem Performed.own (hconfig : config.container = true) (hbooks : Books h)
    (hp : Performed config ev h run task h' run' evs)
    (hown : Own config ev h run.job pr release text digest complete)
    (hid : release.id = run.releaseId)
    (hdigest : task = .recordDigest → isDigest run.digest.toList = true)
    (hnumber : ∀ number, task = .removeLabel number → number = pr.number)
    (hpublish : task = .publish → digest.isSome = true)
    (hdraft : task ≠ .publish → release.draft = digest.isNone) :
    ∃ pr' release text digest complete, Own config ev h' run.job pr' release text digest complete ∧
      release.id = run.releaseId ∧ pr'.number = pr.number ∧
      (release.draft = digest.isNone ∨ run'.todo.head? = some .publish) := by
  cases hp with
  | @upload name content found hfind hmutable assets todo htodo =>
    refine ⟨pr, { release with assets := assets release.assets }, text, digest, complete,
      { hown with source := { hown.source with }, mem := ?_, managed := { hown.managed with } },
      hid, rfl, Or.inl (hdraft (by nofun))⟩
    exact mem_editRelease.2 (Or.inl ⟨release, hown.mem, hid, rfl⟩)
  | @recordDigest found hrefresh hstill hnone =>
    obtain rfl := hown.refreshed hbooks hrefresh
    rw [hown.body, Option.getD_some, hown.digests] at hnone
    obtain rfl : digest = none := by
      cases digest with
      | none => rfl
      | some _ => cases hnone
    refine ⟨pr, { found with body := some (run.publishedBody text) }, run.publishedBody text,
      some run.digest, complete,
      { hown with
        source := { hown.source with }
        mem := ?_
        managed := { hown.managed with }
        body := rfl
        marks := hown.marks_published (hdigest rfl)
        out := fun hout => absurd (hstill.symm.trans hout) (by decide)
        ends := fun _ => endsWithLine_publishedBody text }, hid, rfl, Or.inr rfl⟩
    refine mem_editRelease.2 (Or.inl ⟨found, hown.mem, hid, ?_⟩)
    rw [hown.body, Option.getD_some]
  | publish =>
    refine ⟨pr, { release with draft := false, immutable := true }, text, digest, complete,
      { hown with
        source := { hown.source with }
        mem := mem_editRelease.2 (Or.inl ⟨release, hown.mem, hid, rfl⟩)
        managed := { hown.managed with }
        out := fun _ => ⟨rfl, hpublish rfl⟩
        done := fun _ => rfl }, hid, rfl, Or.inl ?_⟩
    cases digest with
    | none => exact absurd (hpublish rfl) (by decide)
    | some _ => rfl
  | @complete auth missing unnamed found number hauth hrecord =>
    obtain ⟨rfl, rfl, digest', hvalid⟩ := hown.recorded hbooks hrecord
    obtain ⟨-, hout, -, -, -, text', numbers, hbody, hmarks⟩ :=
      (validateReleaseRecord_ok_iff hconfig).1 hvalid
    obtain rfl : text' = text := Option.some.inj (hbody.symm.trans hown.body)
    obtain ⟨himmutable, hsome⟩ := hown.out hout
    obtain ⟨numbers', hmarks'⟩ := hown.marks
    obtain ⟨merged, hmerged⟩ := hown.merged
    refine ⟨pr, { found with body := some (completedBody run.job.sha text') },
      completedBody run.job.sha text', digest, true,
      { hown with
        source := { hown.source with }
        merged := ⟨merged, hmerged.not_pending⟩
        mem := ?_
        managed := { hown.managed with }
        body := rfl
        marks := ⟨numbers ++ [], ?_⟩
        done := fun _ => hout
        ends := fun _ => endsWithLine_completedBody text' }, hid, rfl, Or.inl (hdraft (by nofun))⟩
    · refine mem_editRelease.2 (Or.inl ⟨found, hown.mem, rfl, ?_⟩)
      rw [hown.body, Option.getD_some]
    · have hdigests : digest.toList = digest'.toList :=
        congrArg Marks.digests (hmarks'.symm.trans hmarks)
      rw [marks_completedBody hown.source.sha (hown.ends hsome), hmarks, stageMarks, ← hdigests]
      cases digest <;> rfl
  | @removeLabel found number draft digest' hfound hrecord =>
    have hsame := hown.eq_of_tag hbooks (releaseByTag_some hfound)
    obtain ⟨numbers, hmarks⟩ := hown.marks
    have hcomplete : complete = true := by
      obtain ⟨-, -, -, -, -, text', numbers', hbody, hmarks'⟩ :=
        (validateReleaseRecord_ok_iff hconfig).1 hrecord
      rw [hsame] at hbody
      obtain rfl : text' = text := Option.some.inj (hbody.symm.trans hown.body)
      rw [hnumber number rfl, hmarks] at hmarks'
      have hcount : complete.toNat = true.toNat := congrArg Marks.complete hmarks'
      cases complete with
      | true => rfl
      | false => cases hcount
    refine ⟨_, release, text, digest, complete, hown.removeLabel number fun _ => hcomplete, hid, ?_,
      Or.inl (hdraft (by nofun))⟩
    obtain ⟨labels, hlabels⟩ := pr.unlabel_eq number
    rw [hlabels]
  | check htask =>
    exact ⟨pr, release, text, digest, complete, hown, hid, rfl, Or.inl (hdraft htask)⟩
  | _ =>
    exact ⟨pr, release, text, digest, complete, hown.congr rfl rfl rfl, hid, rfl,
      Or.inl (hdraft (by nofun))⟩

/-- The other jobs. -/
theorem Performed.others (hbooks : Books h) (hp : Performed config ev h run task h' run' evs)
    (hown : Own config ev h run.job pr release text digest complete)
    (hid : release.id = run.releaseId)
    (hnumber : ∀ number, task = .removeLabel number → number = pr.number)
    (hother : Own config ev h job pr' release' text' digest' complete') (hne : job ≠ run.job) :
    ∃ pr'', Own config ev h' job pr'' release' text' digest' complete' := by
  have hid' : release'.id ≠ run.releaseId := by
    intro heq
    obtain rfl := hbooks.ids.eq hother.mem hown.mem (heq.trans hid.symm)
    exact hne (hother.job_eq hown)
  cases hp with
  | upload => exact ⟨pr', hother.edit_other hid'⟩
  | recordDigest => exact ⟨pr', hother.edit_other hid'⟩
  | publish => exact ⟨pr', hother.edit_other hid'⟩
  | complete hauth hrecord =>
    obtain ⟨rfl, -⟩ := hown.recorded hbooks hrecord
    rw [hid]
    exact ⟨pr', hother.edit_other hid'⟩
  | @removeLabel found number draft digest hfound hrecord =>
    refine ⟨_, hother.removeLabel number fun hlabel => ?_⟩
    rw [hnumber number rfl] at hlabel
    exact absurd (hother.job_eq_of_number hbooks hown hlabel).1 hne
  | _ => exact ⟨pr', hother.congr rfl rfl rfl⟩

/-- What a task leaves to do. -/
theorem Performed.tasksOk (hbooks : Books h) (hp : Performed config ev h run task h' run' evs)
    (hown : Own config ev h run.job pr release text digest complete)
    (hid : release.id = run.releaseId) (hnumber : pr.number = run.number)
    (hdigest : task = .recordDigest → isDigest run.digest.toList = true)
    (hok : ∀ t ∈ run.todo, TaskOk run t) :
    (∀ t ∈ run'.todo, TaskOk run' t) ∨ run'.todo = .publish :: run.todo ∧
      (∀ t ∈ run.todo, TaskOk run' t) ∧
      ∀ release ∈ h'.releases, release.id = run.releaseId →
        digestMatches (release.body.getD []) ≠ [] := by
  have hlabel : ∀ {missing unnamed : String} {release' : Release} {number : Nat} {b : Bool},
      ownRecord config h run missing unnamed = .ok (release', number, false, b) →
        number = run.number := fun hrecord =>
    (hown.recorded hbooks hrecord).2.1.trans hnumber
  cases hp with
  | start htasks => exact Or.inl (firstTasks_ok htasks)
  | published => exact Or.inl (by simp [TaskOk])
  | upload hfind hmutable assets htodo =>
    rcases htodo with rfl | rfl
    · exact Or.inl hok
    · exact Or.inl (List.forall_mem_cons.2 ⟨trivial, hok⟩)
  | @recordDigest found hrefresh hdraft hnone =>
    refine Or.inr ⟨rfl, hok, fun release' hmem heq => ?_⟩
    rcases mem_editRelease.1 hmem with ⟨old, hold, heq', rfl⟩ | ⟨-, hne⟩
    · obtain rfl := hbooks.ids.eq hold hown.mem (heq'.trans hid.symm)
      obtain rfl := hown.refreshed hbooks hrefresh
      rw [hown.body, Option.getD_some, hown.digests] at hnone
      obtain rfl : digest = none := by
        cases digest with
        | none => rfl
        | some _ => cases hnone
      obtain ⟨numbers, hmarks⟩ := hown.marks_published (hdigest rfl)
      have hdigests : digestMatches (run.publishedBody text) = [run.digest] :=
        congrArg Marks.digests hmarks
      show digestMatches (run.publishedBody (found.body.getD [])) ≠ []
      rw [hown.body, Option.getD_some, hdigests]
      exact List.cons_ne_nil _ _
    · exact absurd heq hne
  | @recorded found hrefresh hdraft hsame =>
    refine Or.inr ⟨rfl, hok, fun release' hmem heq => ?_⟩
    obtain rfl := hbooks.ids.eq hmem hown.mem (heq.trans hid.symm)
    rw [← hown.refreshed hbooks hrefresh, hsame]
    exact List.cons_ne_nil _ _
  | complete hauth hrecord => exact Or.inl (List.forall_mem_cons.2 ⟨hlabel hrecord, hok⟩)
  | completed hrecord => exact Or.inl (List.forall_mem_cons.2 ⟨hlabel hrecord, hok⟩)
  | reconcileLatest => exact Or.inl (by simp [TaskOk])
  | resolveLatest htodo =>
    refine Or.inl fun t ht => ?_
    obtain ⟨image, digest, rfl, -⟩ := htodo t ht
    trivial
  | _ => exact Or.inl hok

/-! ## The invariant -/

/-- The active run and its Release, which is accepted unless the run stands between the two edits
of the draft. -/
structure Active (config : ReleaseConfig) (ev : Evidence) (h : Hosted) (run : Run)
    (pr : PullRequest) (release : Release) (text : Text) (digest : Option String)
    (complete : Bool) : Prop where
  own : Own config ev h run.job pr release text digest complete
  id : release.id = run.releaseId
  number : pr.number = run.number
  tasks : TasksOk run run.todo
  publish : run.todo.head? = some .publish → digest.isSome = true
  draft : release.draft = digest.isNone ∨ run.todo.head? = some .publish

structure RecoveryInv (config : ReleaseConfig) (ev : Evidence) (tr : List Event) (s : State) :
    Prop where
  books : Books s.hosted
  /-- The jobs of earlier runs. -/
  jobs : ∀ job, Event.started job ∈ tr → (∀ run, s.active = some run → run.job ≠ job) →
    ∃ pr release text digest complete, Own config ev s.hosted job pr release text digest complete ∧
      release.draft = digest.isNone
  run : ∀ run, s.active = some run → ∃ pr release text digest complete,
    Active config ev s.hosted run pr release text digest complete

/-- No run stops between the two edits of the draft. -/
def StopsApart (_ : List Event) (s : State) : Action → Prop
  | .stop => ∀ run ∈ s.active, run.todo.head? ≠ some .publish
  | _ => True

instance (tr : List Event) (s : State) (a : Action) : Decidable (StopsApart tr s a) :=
  match a with
  | .stop => inferInstanceAs (Decidable (∀ run ∈ s.active, run.todo.head? ≠ some .publish))
  | .prepare .. | .start .. | .perform => isTrue trivial

theorem Performed.not_started (hp : Performed config ev h run task h' run' evs) (job : Job) :
    Event.started job ∉ evs := by
  cases hp with
  | copyLatest => simp
  | _ => exact List.not_mem_nil

theorem Performed.run_eq (hp : Performed config ev h run task h' run' evs) :
    run'.job = run.job ∧ run'.releaseId = run.releaseId ∧ run'.number = run.number := by
  cases hp <;> exact ⟨rfl, rfl, rfl⟩

theorem Active.label (hactive : Active config ev h run pr release text digest complete)
    (htodo : run.todo = task :: rest) (number : Nat) (htask : task = .removeLabel number) :
    number = pr.number := by
  have htasks := hactive.tasks
  rw [htodo, htask] at htasks
  have hnumber : number = run.number := htasks.first (by nofun)
  exact hnumber.trans hactive.number.symm

/-- A task of the active run. -/
theorem Active.performed (hconfig : config.container = true) (hbooks : Books h)
    (hactive : Active config ev h run pr release text digest complete)
    (htodo : run.todo = task :: rest)
    (hp : Performed config ev h { run with todo := rest } task h' run' evs) :
    Books h' ∧ ∃ pr release text digest complete,
      Active config ev h' run' pr release text digest complete := by
  have htasks := hactive.tasks
  rw [htodo] at htasks
  have hdigest : task = .recordDigest → isDigest run.digest.toList = true := by
    rintro rfl
    exact htasks.first (by nofun)
  have hpublish : task = .publish → digest.isSome = true := by
    rintro rfl
    exact hactive.publish (by rw [htodo]; rfl)
  have hdraft : task ≠ .publish → release.draft = digest.isNone := fun htask =>
    hactive.draft.resolve_right fun hhead => htask (Option.some.inj (by rw [← hhead, htodo]; rfl))
  have hbooks' := hp.books hconfig hbooks hactive.own hactive.id hdigest hpublish
  refine ⟨hbooks', ?_⟩
  obtain ⟨pr', release', text', digest', complete', hown, hid, hnumber, hstage⟩ :=
    hp.own hconfig hbooks hactive.own hactive.id hdigest (hactive.label htodo) hpublish
      hdraft
  obtain ⟨hjob, hreleaseId, hsame⟩ := hp.run_eq
  have hleft := hp.tasksOk hbooks hactive.own hactive.id hactive.number hdigest htasks.others
  refine ⟨pr', release', text', digest', complete', ?_, hid.trans hreleaseId.symm,
    (hnumber.trans hactive.number).trans hsame.symm, ?_, fun hhead => ?_, hstage⟩
  · rw [hjob]
    exact hown
  · rcases hleft with hok | ⟨hhead, hok, -⟩
    · exact .of_forall hok
    · rw [hhead]
      exact hok
  · rcases hleft with hok | ⟨-, -, hmatches⟩
    · exact absurd hhead (TasksOk.head_ne hok)
    · have hne := hmatches release' hown.mem hid
      rw [hown.body, Option.getD_some, hown.digests] at hne
      cases digest' with
      | none => exact absurd rfl hne
      | some _ => rfl

theorem RecoveryInv.step (hconfig : config.container = true) (hnotes : PlainNotes ev)
    {tr : List Event} {s s' : State} {a : Action} (hinv : RecoveryInv config ev tr s)
    (hapart : StopsApart tr s a) (hs : Stepped config ev s a s' evs) :
    RecoveryInv config ev (tr ++ evs) s' := by
  cases hs with
  | prepared hfresh hprepared =>
    refine ⟨hprepared.books hnotes hinv.books hfresh, fun job hjob hidle => ?_, fun run hrun => ?_⟩
    · rw [List.append_nil] at hjob
      obtain ⟨pr, release, text, digest, complete, hown, hdraft⟩ := hinv.jobs job hjob hidle
      exact ⟨pr, release, text, digest, complete, hown.prepared hprepared, hdraft⟩
    · obtain ⟨pr, release, text, digest, complete, hactive⟩ := hinv.run run hrun
      exact ⟨pr, release, text, digest, complete,
        { hactive with own := hactive.own.prepared hprepared }⟩
  | @started job registries digest assets auth hidle hauth =>
    obtain ⟨pr, release, text, recorded, complete, hown, hdraft, hid, hnumber⟩ :=
      Own.of_authorize hconfig hinv.books hauth
    refine ⟨hinv.books, fun job' hjob hother => ?_, ?_⟩
    · rcases List.mem_append.1 hjob with hjob | hjob
      · refine hinv.jobs job' hjob fun run hrun => ?_
        rw [hidle] at hrun
        cases hrun
      · cases List.mem_singleton.1 hjob
        exact absurd rfl (hother _ rfl)
    · rintro run ⟨⟩
      refine ⟨pr, release, text, recorded, complete, hown, hid, hnumber, ?_, by nofun,
        Or.inl hdraft⟩
      exact .of_forall (List.forall_mem_singleton.2 trivial)
  | @ended a run hactive hend =>
    refine ⟨hinv.books, fun job hjob _ => ?_, by nofun⟩
    rw [List.append_nil] at hjob
    by_cases hsame : run.job = job
    · subst hsame
      obtain ⟨pr, release, text, digest, complete, hrun⟩ := hinv.run run hactive
      refine ⟨pr, release, text, digest, complete, hrun.own, hrun.draft.resolve_right ?_⟩
      rcases hend with rfl | hhead
      · exact hapart run hactive
      · exact hhead
    · refine hinv.jobs job hjob fun run' hrun' => ?_
      cases hactive.symm.trans hrun'
      exact hsame
  | @performed run task rest h' run' evs hactive htodo hperformed =>
    obtain ⟨pr, release, text, digest, complete, hrun⟩ := hinv.run run hactive
    obtain ⟨hbooks, hrun'⟩ := hrun.performed hconfig hinv.books htodo hperformed
    refine ⟨hbooks, fun job hjob hother => ?_, ?_⟩
    · have hne : job ≠ run.job := by
        have hne' := hother run' rfl
        rw [hperformed.run_eq.1] at hne'
        exact hne'.symm
      have hjob := (List.mem_append.1 hjob).resolve_right (hperformed.not_started job)
      obtain ⟨pr', release', text', digest', complete', hown, hdraft⟩ :=
        hinv.jobs job hjob fun run'' hrun'' => by
          cases hactive.symm.trans hrun''
          exact hne.symm
      obtain ⟨pr'', hown'⟩ :=
        hperformed.others hinv.books hrun.own hrun.id (hrun.label htodo) hown hne
      exact ⟨pr'', release', text', digest', complete', hown', hdraft⟩
    · rintro run'' ⟨⟩
      exact hrun'

/-- A publication that stops is accepted again.  From a state without Releases, in every run in
which no publication stops between the two edits of its draft, and in every state in which none
stands there, `authorize` accepts every job that has been started. -/
theorem interrupted_recovers {login : String} {s₀ s : State} {tr : List Event}
    (hnotes : PlainNotes ev)
    (hrun : Lts.Run (step (releaseConfig login) ev) StopsApart s₀ tr s)
    (hreleases : s₀.hosted.releases = []) (hidle : s₀.active = none) (job : Job)
    (hstarted : Event.started job ∈ tr)
    (hapart : ∀ run, s.active = some run → run.todo.head? ≠ some .publish) :
    ∃ auth, authorize (releaseConfig login) ev s.hosted job = .ok auth := by
  have hinv : RecoveryInv (releaseConfig login) ev tr s := by
    refine hrun.inv ?_ fun _ hinv hok hs => hinv.step rfl hnotes hok (step_cases rfl hs)
    refine ⟨⟨?_, ?_, ?_⟩, fun _ hmem => absurd hmem List.not_mem_nil, fun run hactive => ?_⟩
    · rw [Distinct, hreleases]
      exact List.nodup_nil
    · rw [hreleases]
      exact List.nodup_nil
    · rw [hreleases]
      exact fun release hmem => absurd hmem List.not_mem_nil
    · rw [hidle] at hactive
      cases hactive
  by_cases hactive : ∃ run, s.active = some run ∧ run.job = job
  · obtain ⟨run, hactive, rfl⟩ := hactive
    obtain ⟨pr, release, text, digest, complete, hrun⟩ := hinv.run run hactive
    exact hrun.own.authorize rfl hinv.books (hrun.draft.resolve_right (hapart run hactive))
  · obtain ⟨pr, release, text, digest, complete, hown, hdraft⟩ :=
      hinv.jobs job hstarted fun run hrun hjob => hactive ⟨run, hrun, hjob⟩
    exact hown.authorize rfl hinv.books hdraft

/-! ## A first publication -/

def firstEvidence : Evidence :=
  { acceptingEvidence with changelog := fun _ => "## [1.0.0] - 2026-07-01\n- first".toList }

/-- The pull request of version 1.0.0 is merged. -/
def mergedState : State where
  hosted :=
    { releases := []
      pulls := [mergedPull 7 "1.0.0" firstSha]
      tags := []
      latest := none
      aliases := fun _ _ => none
      manifests := []
      signatures := [] }
  active := none

theorem plainNotes_first : PlainNotes firstEvidence := by
  intro sha version notes hnotes
  have hlines : lines (firstEvidence.changelog sha) =
      ["## [1.0.0] - 2026-07-01".toList, "- first".toList] := by
    show lines "## [1.0.0] - 2026-07-01\n- first".toList = _
    decide +kernel
  rw [extractNotes, hlines, findSection, findSection, findSection] at hnotes
  split at hnotes
  · cases hnotes
    decide +kernel
  split at hnotes
  next hlast => simp at hlast
  · cases hnotes

/-- The run stops after the first alias, and the job is accepted again. -/
theorem interrupted_recovers_first : ∃ s tr,
    Lts.Run (step (releaseConfig "app") firstEvidence) StopsApart mergedState tr s ∧
      tr = [.started firstJob] ∧ s.active.isNone = true ∧
      s.hosted.aliases serverImage "1.0.0" = some firstDigest ∧
      ∃ auth, authorize (releaseConfig "app") firstEvidence s.hosted firstJob = .ok auth := by
  obtain ⟨s, tr, hrun, hparts⟩ := Lts.exists_run_of_exec_guarded
    (step (releaseConfig "app") firstEvidence) StopsApart mergedState
    [.prepare firstSha 1, .start firstJob serverRegistries firstDigest [], .perform, .perform, .stop]
    (fun (y : State × List Event) =>
      (y.2, y.1.active.isNone, y.1.hosted.aliases serverImage "1.0.0"))
    (b := ([.started firstJob], true, some firstDigest)) (by decide +kernel)
  simp only [Prod.mk.injEq] at hparts
  obtain ⟨rfl, hidle, halias⟩ := hparts
  refine ⟨s, _, hrun, rfl, hidle, halias, ?_⟩
  refine interrupted_recovers plainNotes_first hrun rfl rfl firstJob List.mem_cons_self ?_
  intro run hactive
  rw [hactive] at hidle
  cases hidle

/-- The run stops between the two edits of its draft, and the job is not accepted again. -/
theorem stopped_before_publish : ∃ s tr,
    Lts.Run (step (releaseConfig "app") firstEvidence) Lts.anything mergedState tr s ∧
      tr = [.started firstJob] ∧ s.active.isNone = true ∧
      authorize (releaseConfig "app") firstEvidence s.hosted firstJob =
        .error "draft Release v1.0.0 cannot claim a published digest" := by
  obtain ⟨s, tr, hrun, hparts⟩ := Lts.exists_run_of_exec
    (step (releaseConfig "app") firstEvidence) mergedState
    (.prepare firstSha 1 :: .start firstJob serverRegistries firstDigest [] ::
      List.replicate 8 .perform ++ [.stop])
    (fun (y : State × List Event) => (y.2, y.1.active.isNone,
      (authorize (releaseConfig "app") firstEvidence y.1.hosted firstJob).map fun _ => ()))
    (b := ([.started firstJob], true, .error "draft Release v1.0.0 cannot claim a published digest"))
    (by decide +kernel)
  simp only [Prod.mk.injEq] at hparts
  obtain ⟨rfl, hidle, hauth⟩ := hparts
  refine ⟨s, _, hrun, rfl, hidle, ?_⟩
  cases hresult : authorize (releaseConfig "app") firstEvidence s.hosted firstJob with
  | ok auth =>
    rw [hresult] at hauth
    cases hauth
  | error e =>
    rw [hresult] at hauth
    cases hauth
    rfl

end RemoteServer.Releases
