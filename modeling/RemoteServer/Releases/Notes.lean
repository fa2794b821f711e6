import RemoteServer.Releases.Publication

/-!
# Generated release notes

The notes of a version are the section that `render_changelog` wrote, and the body of the Release
has them above its markers.  The subjects of the commits stand in the notes as they are.

* `extractNotes_updatedChangelog` says which lines come back out of the file.
* `marks_managedReleaseBody` says what the checks read of the body of a draft.
* `generated_notes_validate` follows the body through the draft, the publication and the
  completion.

The two counts over the whole body also see text inside a line, so that a subject with the start
of such a marker is read as one.
-/

namespace RemoteServer.Releases

open Fallible PyStd

/-! ## Plain parts -/

theorem Registries.isPlain (registries : Registries) :
    ∀ image ∈ registries.images, IsPlain image.toList := by
  intro image himage c hc
  have hchar := List.all_eq_true.1 (registries.valid image himage) c hc
  simp only [isImageChar, Bool.or_eq_true, decide_eq_true_eq, beq_iff_eq, Char.le_def,
    UInt32.le_iff_toNat_le] at hchar
  rcases hchar with ((((hdigit | hletter) | rfl) | rfl) | rfl) | rfl
  · have hbounds := isDigit_bounds hdigit
    exact plain_of_bounds (by omega)
  · exact plain_of_bounds (Or.inr hletter)
  · decide
  · decide
  · decide
  · decide

theorem isPlain_of_parseSemver {version : Text} (h : (parseSemver version).isSome = true) :
    IsPlain version := by
  intro c hc
  rcases char_of_parseSemver h c hc with hdigit | rfl
  · have hbounds := isDigit_bounds hdigit
    exact plain_of_bounds (by omega)
  · decide

theorem Date.isPlain (date : Date) : IsPlain date.text := by
  have hvalid := date.valid
  unfold isDate at hvalid
  split at hvalid
  next a b c d e f g h heq =>
    rw [heq]
    have hdigit : ∀ x ∈ [a, b, c, d, e, f, g, h], x ≠ '<' ∧ isLineBreak x = false := fun x hx => by
      have hbounds := isDigit_bounds (List.all_eq_true.1 hvalid x hx)
      exact plain_of_bounds (by omega)
    intro x hx
    by_cases hdash : x = '-'
    · subst hdash
      decide
    · refine hdigit x ?_
      simpa [hdash] using hx
  next => cases hvalid

/-! ## The lines of a section -/

/-- A commit as git lists it: a hash, and a subject of one line. -/
structure Commit.Listed (commit : Commit) : Prop where
  sha : isSha commit.sha = true
  line : ∀ c ∈ commit.subject, isLineBreak c = false

/-- The subject has none of the texts that the checks count. -/
structure Commit.Uncounted (commit : Commit) : Prop where
  digest : ¬digestStart <:+: commit.subject
  complete : ¬completeStart <:+: commit.subject

theorem strip_within (s : Text) : strip s <:+: s :=
  (List.rdropWhile_prefix _ _).isInfix.trans (List.dropWhile_suffix _).isInfix

theorem Commit.entry_eq (commit : Commit) :
    commit.entry = '-' :: ' ' :: (strip commit.subject ++ [' ']) ++
      '(' :: '`' :: (commit.sha.toList.take 12 ++ "`)".toList) := by
  simp [Commit.entry]

theorem Commit.Listed.isPlain_take {commit : Commit} (h : commit.Listed) :
    IsPlain (commit.sha.toList.take 12) := fun c hc =>
  isPlain_of_isSha h.sha c (List.mem_of_mem_take hc)

/-- What stands around the subject in an entry is no part of a marker. -/
theorem Commit.Listed.infix_entry {commit : Commit} (h : commit.Listed) {start rest : Text}
    (hstart : start = '<' :: rest) (hparen : '(' ∉ start) (hlast : start.getLast? = some ':')
    (hwithin : start <:+: commit.entry) : start <:+: commit.subject := by
  rw [Commit.entry_eq] at hwithin
  have hhead : ∀ {c : Char} {s : Text}, c ≠ '<' → ¬start <+: c :: s := by
    intro c s hc hprefix
    rw [hstart, List.cons_prefix_cons] at hprefix
    exact hc hprefix.1.symm
  rcases infix_append hparen hwithin with hbefore | hafter
  · have hsubject : start <:+: strip commit.subject ++ [' '] := by
      rcases List.infix_cons_iff.1 hbefore with hprefix | hbefore
      · exact absurd hprefix (hhead (by decide))
      rcases List.infix_cons_iff.1 hbefore with hprefix | hbefore
      · exact absurd hprefix (hhead (by decide))
      exact hbefore
    rcases List.infix_concat_iff.1 hsubject with hsuffix | hstrip
    · rcases List.suffix_concat_iff.1 hsuffix with hnil | ⟨t, ht, -⟩
      · rw [hnil] at hlast
        cases hlast
      · rw [ht, List.getLast?_concat] at hlast
        exact absurd (Option.some.inj hlast) (by decide)
    · exact hstrip.trans (strip_within _)
  · have hmem : '<' ∈ '`' :: (commit.sha.toList.take 12 ++ "`)".toList) :=
      hafter.mem (by rw [hstart]; exact List.mem_cons_self)
    have hplain : IsPlain ('`' :: (commit.sha.toList.take 12 ++ "`)".toList)) :=
      isPlain_append_iff (a := ['`']).2 ⟨by decide, h.isPlain_take.append (by decide)⟩
    exact absurd hmem hplain.not_mem

theorem Commit.Listed.entry_line {commit : Commit} (h : commit.Listed) :
    ∀ c ∈ commit.entry, isLineBreak c = false := by
  intro c hc
  simp only [Commit.entry, List.mem_append] at hc
  have hfixed : ∀ {text : Text}, (text.all fun c => decide (isLineBreak c = false)) = true →
      c ∈ text → isLineBreak c = false := fun htext hc => List.all_iff_forall_prop.1 htext c hc
  rcases hc with (((hc | hc) | hc) | hc) | hc
  · exact hfixed (by decide) hc
  · exact h.line c ((strip_within _).mem hc)
  · exact hfixed (by decide) hc
  · exact (h.isPlain_take c hc).2
  · exact hfixed (by decide) hc

theorem Commit.Listed.unmarked_entry {commit : Commit} (h : commit.Listed) (hu : commit.Uncounted) :
    Unmarked commit.entry := by
  refine unmarked_line ?_ h.entry_line (fun hwithin => hu.digest ?_) fun hwithin => hu.complete ?_
  · rw [Commit.entry_eq]
    exact fun hhead => absurd (Option.some.inj hhead) (by decide)
  · exact h.infix_entry rfl (by decide) (by decide) hwithin
  · exact h.infix_entry rfl (by decide) (by decide) hwithin

theorem isPlain_heading {version : String} (h : IsPlain version.toList) (date : Date) :
    IsPlain (heading version date) := by
  have hdate : IsPlain (' ' :: date.text) :=
    isPlain_append_iff (a := [' ']).2 ⟨by decide, date.isPlain⟩
  exact (((show IsPlain sectionStart by decide).append h).append (by decide)).append hdate

/-- The lines below the heading of a section. -/
theorem mem_categoryLines {commits : List Commit} {line : Text}
    (h : line ∈ Category.all.flatMap (categoryLines commits)) :
    line = [] ∨ (∃ category : Category, line = "### ".toList ++ category.heading.toList) ∨
      ∃ commit ∈ commits, line = commit.entry := by
  obtain ⟨category, -, hline⟩ := List.mem_flatMap.1 h
  rw [categoryLines] at hline
  split at hline
  · cases hline
  simp only [List.mem_append, List.mem_cons, List.not_mem_nil, or_false, List.mem_map] at hline
  rcases hline with (rfl | rfl | rfl) | ⟨commit, hcommit, rfl⟩
  · exact Or.inl rfl
  · exact Or.inr (Or.inl ⟨category, rfl⟩)
  · exact Or.inl rfl
  · exact Or.inr (Or.inr ⟨commit, (List.mem_filter.1 hcommit).1, rfl⟩)

theorem isPlain_categoryHeading (category : Category) :
    IsPlain ("### ".toList ++ category.heading.toList) := by
  cases category <;> decide

section

variable {version : String} {date : Date} {commits : List Commit}

/-- A line below the heading is no heading of a section. -/
theorem categoryLines_not_section {line : Text}
    (h : line ∈ Category.all.flatMap (categoryLines commits)) :
    (!sectionStart.isPrefixOf line) = true := by
  rcases mem_categoryLines h with rfl | ⟨category, rfl⟩ | ⟨commit, -, rfl⟩
  · decide
  · cases category <;> decide
  · rw [Commit.entry_eq]
    rfl

theorem sectionLines_line (hversion : IsPlain version.toList)
    (hcommits : ∀ commit ∈ commits, commit.Listed) :
    ∀ line ∈ sectionLines version date commits, ∀ c ∈ line, isLineBreak c = false := by
  intro line hline
  rcases List.mem_cons.1 hline with rfl | hline
  · exact fun c hc => (isPlain_heading hversion date c hc).2
  rcases mem_categoryLines hline with rfl | ⟨category, rfl⟩ | ⟨commit, hcommit, rfl⟩
  · exact fun c hc => nomatch hc
  · exact fun c hc => (isPlain_categoryHeading category c hc).2
  · exact (hcommits commit hcommit).entry_line

theorem unmarked_sectionLines (hversion : IsPlain version.toList)
    (hcommits : ∀ commit ∈ commits, commit.Listed)
    (hsubjects : ∀ commit ∈ commits, commit.Uncounted) :
    ∀ line ∈ sectionLines version date commits, Unmarked line := by
  intro line hline
  rcases List.mem_cons.1 hline with rfl | hline
  · exact (isPlain_heading hversion date).unmarked
  rcases mem_categoryLines hline with rfl | ⟨category, rfl⟩ | ⟨commit, hcommit, rfl⟩
  · exact IsPlain.unmarked (by decide)
  · exact (isPlain_categoryHeading category).unmarked
  · exact (hcommits commit hcommit).unmarked_entry (hsubjects commit hcommit)

/-! ## The notes -/

/-- What stands above the first section of the file, below its heading. -/
def preamble (file : Option Text) : List Text :=
  (lines (remainder (file.getD changelogStart))).takeWhile fun line => !sectionStart.isPrefixOf line

theorem lines_updatedChangelog (hversion : IsPlain version.toList)
    (hcommits : ∀ commit ∈ commits, commit.Listed) (existing : Text) :
    lines (updatedChangelog existing version date commits) =
      "# Changelog".toList :: [] :: (sectionLines version date commits ++
        lines (if (remainder existing).isEmpty then [] else '\n' :: remainder existing)) := by
  have hupdated : updatedChangelog existing version date commits =
      "# Changelog".toList ++ '\n' :: ([] ++ '\n' :: (joinLines (sectionLines version date commits) ++
        '\n' :: if (remainder existing).isEmpty then [] else '\n' :: remainder existing)) := by
    rw [updatedChangelog]
    rfl
  have hsection : lines (joinLines (sectionLines version date commits)) =
      sectionLines version date commits := by
    refine lines_joinLines (List.cons_ne_nil _ _) fun line hline hmem => ?_
    exact absurd (sectionLines_line hversion hcommits line hline _ hmem) (by decide)
  rw [hupdated, lines_append, lines_append, lines_append, hsection]
  rfl

theorem findSection_heading (rest : List Text) (hrest : rest ≠ []) :
    findSection version (heading version date :: rest) =
      some (strip (joinLines (heading version date ::
        rest.takeWhile fun line => !sectionStart.isPrefixOf line))) := by
  have hstart : (headingStart version ++ [' ']).isPrefixOf (heading version date) = true := by
    rw [List.isPrefixOf_iff_prefix, heading]
    exact (List.prefix_append_right_inj _).2 (List.prefix_append [' '] _)
  have hdate : 0 < date.text.length := by
    refine List.length_pos_of_ne_nil fun hnil => ?_
    have hvalid := date.valid
    rw [hnil] at hvalid
    cases hvalid
  have hlength : (headingStart version).length + 1 < (heading version date).length := by
    rw [heading, List.length_append, List.length_cons]
    omega
  rw [findSection, if_pos]
  rw [hstart, decide_eq_true hlength, List.isEmpty_eq_false_iff.2 hrest]
  rfl

/-- The notes are the section, and what the file had above its first section. -/
theorem extractNotes_updatedChangelog (hversion : IsPlain version.toList)
    (hcommits : ∀ commit ∈ commits, commit.Listed) (date : Date) (file : Option Text) :
    ∃ below, (∀ line ∈ below, line ∈ preamble file) ∧
      extractNotes version (updatedChangelog (file.getD changelogStart) version date commits) =
        some (strip (joinLines (sectionLines version date commits ++ [] :: below))) := by
  have hskip : ∀ rest : List Text, findSection version ("# Changelog".toList :: [] :: rest) =
      findSection version rest := by
    intro rest
    rfl
  have hkeep : ∀ rest : List Text, (Category.all.flatMap (categoryLines commits) ++ rest).takeWhile
      (fun line => !sectionStart.isPrefixOf line) = Category.all.flatMap (categoryLines commits) ++
        rest.takeWhile fun line => !sectionStart.isPrefixOf line := fun rest =>
    List.takeWhile_append_of_pos fun line hline => categoryLines_not_section hline
  rw [extractNotes, lines_updatedChangelog hversion hcommits, hskip, sectionLines, List.cons_append,
    findSection_heading _ (List.append_ne_nil_of_right_ne_nil _ (lines_ne_nil _)), hkeep]
  split
  · exact ⟨[], fun line hline => (nomatch hline), rfl⟩
  · refine ⟨preamble file, fun line hline => hline, ?_⟩
    have hlines : lines ('\n' :: remainder (file.getD changelogStart)) =
        [] :: lines (remainder (file.getD changelogStart)) := lines_append [] _
    rw [hlines]
    rfl

theorem joinLines_heading (rest : List Text) :
    ∃ s, joinLines (heading version date :: rest) = '#' :: s := by
  by_cases hnil : rest = []
  · rw [hnil, joinLines, List.intercalate_singleton]
    exact ⟨_, rfl⟩
  · rw [joinLines_cons _ hnil]
    exact ⟨_, rfl⟩

theorem strip_keeps_heading (rest : List Text) :
    strip (joinLines (heading version date :: rest)) <+: joinLines (heading version date :: rest) := by
  have hhead : ∃ s, joinLines (heading version date :: rest) = '#' :: s := joinLines_heading rest
  obtain ⟨s, hs⟩ := hhead
  rw [hs, strip, List.dropWhile_cons_of_neg (by decide)]
  exact List.rdropWhile_prefix _ _

theorem unmarked_notes (hversion : IsPlain version.toList)
    (hcommits : ∀ commit ∈ commits, commit.Listed)
    (hsubjects : ∀ commit ∈ commits, commit.Uncounted) {file : Option Text}
    (hfile : ∀ line ∈ preamble file, Unmarked line) :
    ∃ notes, extractNotes version (updatedChangelog (file.getD changelogStart) version date
      commits) = some notes ∧ Unmarked notes := by
  obtain ⟨below, hbelow, hnotes⟩ := extractNotes_updatedChangelog hversion hcommits date file
  refine ⟨_, hnotes, ?_⟩
  refine Unmarked.of_prefix (unmarked_joinLines ?_) (strip_keeps_heading _)
  intro line hline
  have hline : line ∈ sectionLines version date commits ++ [] :: below := hline
  rcases List.mem_append.1 hline with hline | hline
  · exact unmarked_sectionLines hversion hcommits hsubjects line hline
  rcases List.mem_cons.1 hline with rfl | hline
  · exact IsPlain.unmarked (by decide)
  · exact hfile line (hbelow line hline)

end

/-! ## The body and its record -/

section

variable {changelog body : Text} {version sha : String} {number : Nat}

theorem marks_managedReleaseBody (hsha : isSha sha = true) (hnumber : 0 < number)
    (h : managedReleaseBody changelog version sha number = .ok body) :
    ∃ notes, extractNotes version changelog = some notes ∧
      marks sha number body = marks sha number notes + stageMarks none false [toString number] := by
  rw [managedReleaseBody] at h
  split at h
  · cases h
  next notes hextract =>
  cases h
  refine ⟨notes, hextract, ?_⟩
  have hplain : marks sha number ("Publication remains incomplete until all immutable assets " ++
      "and registry references pass public readback.").toList = 0 := marks_plain (by decide +kernel)
  rw [marks_newline, marks_append, marks_append, marks_cons_newline, marks_append,
    marks_cons_newline, hplain, Marks.add_zero, marks_prMarker hnumber, marks_commitMarker hsha,
    Marks.add_assoc]
  rfl

variable {config : ReleaseConfig} {release : Release} {registries : Registries} {digest : String}

theorem validate_draft (hconfig : config.container = true) (id : Nat)
    (hmarks : marks sha number body = stageMarks none false [toString number]) :
    validateReleaseRecord config (draftRelease config id body version sha) version sha number =
      .ok (true, none, false) := by
  refine (validateReleaseRecord_ok_iff hconfig).2 ⟨⟨rfl, rfl, rfl, rfl⟩, rfl, ?_, rfl, ?_, body, _,
    rfl, hmarks⟩
  · exact fun h => nomatch h
  · exact fun h => nomatch h

theorem marks_published (hversion : IsPlain version.toList) (hsha : isSha sha = true)
    (hdigest : isDigest digest.toList = true)
    (hmarks : marks sha number body = stageMarks none false [toString number]) :
    marks sha number (publishedBody registries.images digest version sha body) =
      stageMarks (some digest) false [toString number] := by
  rw [marks_publishedBody ⟨registries.isPlain, hversion, isPlain_of_isSha hsha⟩ hdigest, hmarks]
  rfl

theorem marks_completed {published : Text} (hsha : isSha sha = true) (hend : EndsWithLine published)
    (hmarks : marks sha number published = stageMarks (some digest) false [toString number]) :
    marks sha number (completedBody sha published) =
      stageMarks (some digest) true [toString number] := by
  rw [marks_completedBody hsha hend, hmarks]
  rfl

theorem validate_out (hconfig : config.container = true)
    (hmanaged : Managed config release version sha) (hdraft : release.draft = false)
    (himmutable : release.immutable = true) (hbody : release.body = some body) {complete : Bool}
    (hmarks : marks sha number body = stageMarks (some digest) complete [toString number]) :
    validateReleaseRecord config release version sha number = .ok (false, some digest, complete) :=
  (validateReleaseRecord_ok_iff hconfig).2 ⟨hmanaged, hdraft, fun _ => himmutable, rfl, fun _ => rfl,
    body, _, hbody, hmarks⟩

end

theorem renderChangelog_ok {file : Option Text} {version : String} {date : Date} {log : ReleaseLog}
    {changelog : Text} (h : renderChangelog file version date log = .ok changelog) :
    ∃ commits, (changelogBaseline (file.getD changelogStart)).bind log = .ok commits ∧
      changelog = updatedChangelog (file.getD changelogStart) version date commits := by
  rw [renderChangelog] at h
  split at h
  · cases h
  split at h
  · cases h
  obtain ⟨baseline, hbaseline, h⟩ := bind_eq_ok h
  obtain ⟨commits, hcommits, h⟩ := bind_eq_ok h
  split at h
  · cases h
  cases h
  refine ⟨commits, ?_, rfl⟩
  rw [hbaseline]
  exact hcommits

/-- The body of the draft of a version whose section `render_changelog` wrote. -/
theorem managedReleaseBody_of_render {file : Option Text} {version : String} {date : Date}
    {log : ReleaseLog} {changelog : Text} {sha : String} {number : Nat}
    (hversion : IsPlain version.toList) (hsha : isSha sha = true) (hnumber : 0 < number)
    (hcommits : ∀ commits, (changelogBaseline (file.getD changelogStart)).bind log = .ok commits →
      ∀ commit ∈ commits, commit.Listed ∧ commit.Uncounted)
    (hfile : ∀ line ∈ preamble file, Unmarked line)
    (hrender : renderChangelog file version date log = .ok changelog) :
    ∃ notes body, extractNotes version changelog = some notes ∧ Unmarked notes ∧
      managedReleaseBody changelog version sha number = .ok body ∧
      marks sha number body = stageMarks none false [toString number] := by
  obtain ⟨commits, hlog, rfl⟩ := renderChangelog_ok hrender
  obtain ⟨notes, hextract, hunmarked⟩ := unmarked_notes hversion
    (fun commit hcommit => (hcommits commits hlog commit hcommit).1)
    (fun commit hcommit => (hcommits commits hlog commit hcommit).2) hfile
  obtain ⟨body, hbody⟩ : ∃ body, managedReleaseBody
      (updatedChangelog (file.getD changelogStart) version date commits) version sha number =
        .ok body := by
    rw [managedReleaseBody, hextract]
    exact ⟨_, rfl⟩
  refine ⟨notes, body, hextract, hunmarked, hbody, ?_⟩
  obtain ⟨notes', hnotes', hmarks⟩ := marks_managedReleaseBody hsha hnumber hbody
  obtain rfl : notes' = notes := Option.some.inj (hnotes'.symm.trans hextract)
  rw [hmarks, marks_unmarked hunmarked, Marks.zero_add]

def notesSha : String := "3f786850e387550fdab836ed7e6dc881de23001b"

def notesDate : Date := ⟨"2026-07-01".toList, rfl⟩

def plainCommit : Commit := ⟨notesSha, "fix: read a <limit> again".toList, []⟩

def plainLog : ReleaseLog := fun _ => .ok [plainCommit]

/-- The body of the draft, and what the check says of it. -/
def checkDraft (log : ReleaseLog) : Except String (Except String (Bool × Option String × Bool)) := do
  let changelog ← renderChangelog none "1.0.0" notesDate log
  let body ← managedReleaseBody changelog "1.0.0" notesSha 7
  return validateReleaseRecord (releaseConfig "release-app[bot]")
    (draftRelease (releaseConfig "release-app[bot]") 1 body "1.0.0" notesSha) "1.0.0" notesSha 7

/-- A commit that changes how the digest is written. -/
def countedCommit : Commit :=
  ⟨notesSha, "docs: explain the <!-- container-digest: line".toList, []⟩

end RemoteServer.Releases
