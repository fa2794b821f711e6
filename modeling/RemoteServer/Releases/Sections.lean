import RemoteServer.Releases.Notes

/-!
# The sections of `CHANGELOG.md`

`render_changelog` puts a section above the earlier ones, `changelog_baseline` reads the version of
the first section, and `managed_release_body` takes one section out of the file again.

* `render` is one rendering, from the file as it was to the file as it is written.  A file is read
  with universal newlines.
* `changelogText` is the whole file after some renderings: the heading and the sections, the newest
  one first, with an empty line between them.  `render_fileAfter` is the step from one such file to
  the next, and `foldlM_render` the run.
* `fileLines` are its lines.  Below the heading of a section no line starts as such a heading does,
  since an entry starts with a dash.
* `changelog_sections_round_trip`: what is read back after each rendering.
-/

namespace RemoteServer.Releases

open Fallible PyStd

/-- A release as `render_changelog` gets it. -/
structure Rendering where
  version : String
  date : Date
  commits : List Commit

namespace Rendering

def lines (r : Rendering) : List Text := sectionLines r.version r.date r.commits

/-- `section_text`. -/
def text (r : Rendering) : Text := joinLines r.lines ++ ['\n']

/-- A canonical version, and commits as `release_commits` returns them with subjects of one line. -/
structure Valid (r : Rendering) : Prop where
  version : ∃ v, parseVersion r.version = .ok v
  nonempty : r.commits ≠ []
  sha : ∀ commit ∈ r.commits, isSha commit.sha = true
  subject : ∀ commit ∈ r.commits, '\n' ∉ commit.subject ∧ '\r' ∉ commit.subject

end Rendering

/-- One rendering: the file that it leaves. -/
def render (file : Option Text) (r : Rendering) : Except String (Option Text) :=
  (renderChangelog (file.map universalNewlines) r.version r.date fun _ => .ok r.commits).map some

/-- The renderings in order, starting without a file. -/
def renderAll (rs : List Rendering) : Except String (Option Text) := rs.foldlM render none

/-- The file with the sections `done`, the newest one first. -/
def changelogText (done : List Rendering) : Text :=
  changelogStart ++ '\n' :: ['\n'].intercalate (done.map Rendering.text)

/-! ## Lines -/

/-- The lines of the sections.  The last one of each is empty. -/
def belowHeading (done : List Rendering) : List Text := done.flatMap fun r => r.lines ++ [[]]

def fileLines (done : List Rendering) : List Text :=
  "# Changelog".toList :: [] :: belowHeading done

section Valid

variable {r : Rendering} {done : List Rendering}

theorem Rendering.Valid.semver (h : r.Valid) : (parseSemver r.version.toList).isSome = true := by
  obtain ⟨v, hv⟩ := h.version
  rw [parseVersion] at hv
  split at hv
  · cases hv
  · rename_i hsemver
    rw [hsemver]
    rfl

theorem not_newline {c : Char} (h : isLineBreak c = false) : c ≠ '\n' ∧ c ≠ '\r' := by
  constructor
  · rintro rfl
    exact absurd h (by decide)
  · rintro rfl
    exact absurd h (by decide)

theorem Rendering.Valid.entry (h : r.Valid) {commit : Commit} (hcommit : commit ∈ r.commits)
    {c : Char} (hc : c ∈ commit.entry) : c ≠ '\n' ∧ c ≠ '\r' := by
  have hfixed : ∀ {text : Text}, (text.all fun c => decide (c ≠ '\n' ∧ c ≠ '\r')) = true →
      c ∈ text → c ≠ '\n' ∧ c ≠ '\r' := fun htext hc => List.all_iff_forall_prop.1 htext c hc
  obtain ⟨hn, hr⟩ := h.subject commit hcommit
  simp only [Commit.entry, List.mem_append] at hc
  rcases hc with (((hc | hc) | hc) | hc) | hc
  · exact hfixed (by decide) hc
  · have hmem : c ∈ commit.subject := (strip_within _).mem hc
    exact ⟨fun hcn => hn (hcn ▸ hmem), fun hcr => hr (hcr ▸ hmem)⟩
  · exact hfixed (by decide) hc
  · exact not_newline (isPlain_of_isSha (h.sha commit hcommit) c (List.mem_of_mem_take hc)).2
  · exact hfixed (by decide) hc

/-- No line of a section has a line break. -/
theorem Rendering.Valid.line (h : r.Valid) {line : Text} (hline : line ∈ r.lines) {c : Char}
    (hc : c ∈ line) : c ≠ '\n' ∧ c ≠ '\r' := by
  rcases List.mem_cons.1 hline with rfl | hline
  · exact not_newline (isPlain_heading (isPlain_of_parseSemver h.semver) r.date c hc).2
  rcases mem_categoryLines hline with rfl | ⟨category, rfl⟩ | ⟨commit, hcommit, rfl⟩
  · cases hc
  · exact not_newline (isPlain_categoryHeading category c hc).2
  · exact h.entry hcommit hc

theorem fileLines_line (h : ∀ r ∈ done, r.Valid) {line : Text} (hline : line ∈ fileLines done)
    {c : Char} (hc : c ∈ line) : c ≠ '\n' ∧ c ≠ '\r' := by
  rcases List.mem_cons.1 hline with rfl | hline
  · exact List.all_iff_forall_prop (p := fun c => c ≠ '\n' ∧ c ≠ '\r').1 (by decide) c hc
  rcases List.mem_cons.1 hline with rfl | hline
  · cases hc
  obtain ⟨r, hr, hline⟩ := List.mem_flatMap.1 hline
  rcases List.mem_append.1 hline with hline | hline
  · exact (h r hr).line hline hc
  · rw [List.mem_singleton.1 hline] at hc
    cases hc

theorem belowHeading_cons (r : Rendering) (rest : List Rendering) :
    belowHeading (r :: rest) = (r.lines ++ [[]]) ++ belowHeading rest :=
  List.flatMap_cons

theorem belowHeading_ne_nil (h : done ≠ []) : belowHeading done ≠ [] := by
  obtain ⟨r, rest, rfl⟩ := List.exists_cons_of_ne_nil h
  exact List.cons_ne_nil _ _

theorem Rendering.joinLines_lines (r : Rendering) : joinLines (r.lines ++ [[]]) = r.text :=
  joinLines_append (List.cons_ne_nil _ _) (List.cons_ne_nil _ _)

theorem joinLines_belowHeading (h : done ≠ []) :
    joinLines (belowHeading done) = ['\n'].intercalate (done.map Rendering.text) := by
  induction done with
  | nil => exact absurd rfl h
  | cons r rest ih =>
    by_cases hrest : rest = []
    · subst hrest
      rw [List.map_singleton, List.intercalate_singleton, ← r.joinLines_lines, belowHeading,
        List.flatMap_singleton]
    · have hmap : rest.map Rendering.text ≠ [] := by simpa using hrest
      have hlines : r.lines ++ [[]] ≠ [] := List.cons_ne_nil _ _
      rw [List.map_cons, List.intercalate_cons_of_ne_nil hmap, ← ih hrest, ← r.joinLines_lines,
        belowHeading_cons, joinLines_append hlines (belowHeading_ne_nil hrest),
        List.append_assoc]
      rfl

theorem joinLines_fileLines (h : done ≠ []) : joinLines (fileLines done) = changelogText done := by
  rw [fileLines, joinLines_cons _ (List.cons_ne_nil _ _), joinLines_cons _ (belowHeading_ne_nil h),
    joinLines_belowHeading h]
  rfl

theorem lines_changelogText (h : ∀ r ∈ done, r.Valid) (hne : done ≠ []) :
    lines (changelogText done) = fileLines done := by
  rw [← joinLines_fileLines hne]
  exact lines_joinLines (List.cons_ne_nil _ _) fun line hline hc =>
    (fileLines_line h hline hc).1 rfl

/-- The file is read as it was written. -/
theorem universalNewlines_changelogText (h : ∀ r ∈ done, r.Valid) (hne : done ≠ []) :
    universalNewlines (changelogText done) = changelogText done := by
  refine universalNewlines_eq fun hcr => ?_
  rw [← joinLines_fileLines hne] at hcr
  rcases mem_joinLines hcr with hcr | ⟨line, hline, hc⟩
  · exact absurd hcr (by decide)
  · exact (fileLines_line h hline hc).2 rfl

end Valid

/-! ## Headings -/

section Headings

variable {version version' : String} {date : Date}

theorem bracket_not_mem (h : (parseSemver version.toList).isSome = true) :
    ']' ∉ version.toList := by
  intro hmem
  rcases char_of_parseSemver h _ hmem with hc | hc
  · exact absurd hc (by decide)
  · exact absurd hc (by decide)

/-- A version ends at the bracket. -/
theorem takeWhile_bracket (h : (parseSemver version.toList).isSome = true) (rest : Text) :
    (version.toList ++ ']' :: rest).takeWhile (· != ']') = version.toList := by
  rw [List.takeWhile_append_of_pos fun c hc => by
    rw [bne_iff_ne]
    rintro rfl
    exact bracket_not_mem h hc]
  simp

theorem headingStart_eq (version : String) :
    headingStart version = sectionStart ++ (version.toList ++ ']' :: " -".toList) :=
  List.append_assoc _ _ _

/-- The heading of a section is that of one version. -/
theorem eq_of_headingStart_prefix (h : (parseSemver version.toList).isSome = true)
    (h' : (parseSemver version'.toList).isSome = true)
    (hstart : headingStart version <+: heading version' date) : version = version' := by
  rw [heading, headingStart_eq, headingStart_eq, List.append_assoc, List.prefix_append_right_inj,
    List.append_assoc] at hstart
  obtain ⟨rest, hrest⟩ := hstart
  have htexts := congrArg (List.takeWhile (· != ']')) hrest
  rw [List.append_assoc, List.cons_append, takeWhile_bracket h, List.cons_append,
    takeWhile_bracket h'] at htexts
  exact String.toList_inj.1 htexts

theorem headingVersion_heading (h : (parseSemver version.toList).isSome = true) :
    headingVersion (heading version date) = some version := by
  have hstart : heading version date =
      sectionStart ++ (version.toList ++ ']' :: (" -".toList ++ ' ' :: date.text)) := by
    rw [heading, headingStart_eq, List.append_assoc, List.append_assoc]
    rfl
  have hversion : ((heading version date).drop sectionStart.length).takeWhile (· != ']') =
      version.toList := by
    rw [hstart, List.drop_left, takeWhile_bracket h]
  have hdate : (heading version date).drop (headingStart version).length = ' ' :: date.text := by
    rw [heading, List.drop_left]
  have hsection : sectionStart.isPrefixOf (heading version date) = true := by
    rw [hstart, List.isPrefixOf_iff_prefix]
    exact List.prefix_append _ _
  rw [headingVersion, hversion, String.ofList_toList, hdate, hsection, h]
  show (if (true && true && isDate date.text &&
    (heading version date == headingStart version ++ ' ' :: date.text)) = true then _ else _) = _
  rw [date.valid, heading, beq_self_eq_true]
  rfl

theorem headingVersion_of_not_section {line : Text} (h : (!sectionStart.isPrefixOf line) = true) :
    headingVersion line = none := by
  rw [Bool.not_eq_true'] at h
  rw [headingVersion, h]
  rfl

theorem headingStart_of_not_section {line : Text} (h : (!sectionStart.isPrefixOf line) = true)
    {rest : Text} : (headingStart version ++ rest).isPrefixOf line = false := by
  rw [Bool.not_eq_true'] at h
  rw [← Bool.not_eq_true, List.isPrefixOf_iff_prefix]
  intro hstart
  have hsection : sectionStart <+: line := by
    refine List.IsPrefix.trans ?_ hstart
    rw [headingStart_eq, List.append_assoc]
    exact List.prefix_append _ _
  rw [List.isPrefixOf_iff_prefix.2 hsection] at h
  cases h

end Headings

/-! ## What is read back -/

section Read

variable {r : Rendering} {done : List Rendering} {version : String}

/-- The lines of a section below its heading, and the empty line. -/
theorem not_section_of_mem_tail {line : Text} (hline : line ∈ r.lines.tail ++ [[]]) :
    (!sectionStart.isPrefixOf line) = true := by
  rcases List.mem_append.1 hline with hline | hline
  · exact categoryLines_not_section hline
  · rw [List.mem_singleton.1 hline]
    rfl

theorem Rendering.lines_eq (r : Rendering) :
    r.lines = heading r.version r.date :: r.lines.tail := rfl

/-- The versions of the headings in the file. -/
theorem filterMap_headingVersion (h : ∀ r ∈ done, r.Valid) :
    (fileLines done).filterMap headingVersion = done.map Rendering.version := by
  have hbelow : (belowHeading done).filterMap headingVersion = done.map Rendering.version := by
    induction done with
    | nil => rfl
    | cons r rest ih =>
      have hr := h r List.mem_cons_self
      have htail : (r.lines.tail ++ [[]]).filterMap headingVersion = [] :=
        List.filterMap_eq_nil_iff.2 fun line hline =>
          headingVersion_of_not_section (not_section_of_mem_tail hline)
      rw [belowHeading_cons, List.filterMap_append, ih fun x hx => h x (List.mem_cons_of_mem _ hx),
        r.lines_eq, List.cons_append, List.filterMap_cons_some (headingVersion_heading hr.semver),
        htail]
      rfl
  exact hbelow

/-- No other heading than that of the version starts like it. -/
theorem headingStart_of_mem (hversion : (parseSemver version.toList).isSome = true)
    (h : ∀ r ∈ done, r.Valid) (hnew : version ∉ done.map Rendering.version) {line : Text}
    (hline : line ∈ fileLines done) (rest : Text) :
    (headingStart version ++ rest).isPrefixOf line = false := by
  rcases List.mem_cons.1 hline with rfl | hline
  · exact headingStart_of_not_section rfl
  rcases List.mem_cons.1 hline with rfl | hline
  · exact headingStart_of_not_section rfl
  obtain ⟨r, hr, hline⟩ := List.mem_flatMap.1 hline
  rw [r.lines_eq, List.cons_append] at hline
  rcases List.mem_cons.1 hline with rfl | hline
  · rw [← Bool.not_eq_true, List.isPrefixOf_iff_prefix]
    intro hstart
    have heq := eq_of_headingStart_prefix hversion (h r hr).semver
      ((List.prefix_append _ _).trans hstart)
    exact hnew (heq ▸ List.mem_map_of_mem hr)
  · exact headingStart_of_not_section (not_section_of_mem_tail hline)

theorem findSection_append {before rest : List Text}
    (h : ∀ line ∈ before, (headingStart version ++ [' ']).isPrefixOf line = false) :
    findSection version (before ++ rest) = findSection version rest := by
  induction before with
  | nil => rfl
  | cons line before ih =>
    rw [List.cons_append, findSection, h line List.mem_cons_self, Bool.false_and, Bool.false_and,
      if_neg Bool.false_ne_true]
    exact ih fun line hline => h line (List.mem_cons_of_mem _ hline)

/-- The last line of some categories is that of a commit. -/
theorem getLast_categoryLines (commits : List Commit) (categories : List Category) :
    categories.flatMap (categoryLines commits) = [] ∨
      ∃ commit,
        (categories.flatMap (categoryLines commits)).getLast? = some (Commit.entry commit) := by
  induction categories with
  | nil => exact Or.inl rfl
  | cons category rest ih =>
    rw [List.flatMap_cons]
    rcases ih with hnil | ⟨commit, hlast⟩
    · rw [hnil, List.append_nil, categoryLines]
      split
      · exact Or.inl rfl
      · rename_i hne
        rw [List.isEmpty_iff] at hne
        obtain ⟨before, commit, hcommits⟩ := (List.eq_nil_or_concat' _).resolve_left hne
        refine Or.inr ⟨commit, ?_⟩
        rw [hcommits, List.map_append, ← List.append_assoc]
        exact List.getLast?_concat
    · exact Or.inr ⟨commit, by rw [List.getLast?_append, hlast]; rfl⟩

theorem getLast_lines (h : r.commits ≠ []) :
    ∃ commit, r.lines.getLast? = some (Commit.entry commit) := by
  obtain ⟨commit, rest, hcommits⟩ := List.exists_cons_of_ne_nil h
  have hmem : commit ∈ inCategory commit.category r.commits := by
    rw [inCategory, List.mem_filter, hcommits]
    exact ⟨List.mem_cons_self, beq_self_eq_true _⟩
  rcases getLast_categoryLines r.commits Category.all with hnil | ⟨commit', hlast⟩
  · have hall : commit.category ∈ Category.all := by cases commit.category <;> decide
    have hempty := List.flatMap_eq_nil_iff.1 hnil _ hall
    rw [categoryLines, if_neg fun hempty => by rw [List.isEmpty_iff.1 hempty] at hmem; cases hmem]
      at hempty
    cases hempty
  · refine ⟨commit', ?_⟩
    show (heading r.version r.date :: _).getLast? = _
    rw [List.getLast?_cons, hlast]
    rfl

theorem getLast_joinLines {pieces : List Text} {line : Text} {c : Char}
    (hline : pieces.getLast? = some line) (hc : line.getLast? = some c) :
    (joinLines pieces).getLast? = some c := by
  obtain ⟨before, rfl⟩ := List.getLast?_eq_some_iff.1 hline
  by_cases hnil : before = []
  · rw [hnil, List.nil_append, joinLines, List.intercalate_singleton, hc]
  · rw [joinLines_append hnil (List.cons_ne_nil _ _), joinLines, joinLines,
      List.intercalate_singleton, List.getLast?_append, List.getLast?_cons, hc]
    rfl

/-- The section without the line feed at its end. -/
theorem strip_text (h : r.commits ≠ []) : strip r.text = joinLines r.lines := by
  obtain ⟨commit, hlast⟩ := getLast_lines h
  have hentry : commit.entry.getLast? = some ')' := by
    rw [Commit.entry, List.getLast?_append]
    rfl
  have hhead : (joinLines r.lines).head? = some '#' := by
    obtain ⟨s, hs⟩ : ∃ s, joinLines r.lines = '#' :: s := joinLines_heading r.lines.tail
    rw [hs]
    rfl
  exact strip_append_newline hhead (getLast_joinLines hlast hentry) (by decide) (by decide)

/-- The section of a version comes back out of the file. -/
theorem extractNotes_changelogText (h : ∀ r ∈ done, r.Valid)
    (hdistinct : (done.map Rendering.version).Nodup) (hr : r ∈ done) :
    extractNotes r.version (changelogText done) = some (joinLines r.lines) := by
  have hne : done ≠ [] := List.ne_nil_of_mem hr
  obtain ⟨newer, older, rfl⟩ := List.append_of_mem hr
  have hnew : r.version ∉ newer.map Rendering.version := by
    rw [List.map_append, List.map_cons, List.nodup_append] at hdistinct
    exact fun hmem => hdistinct.2.2 _ hmem _ List.mem_cons_self rfl
  have hnewer : ∀ x ∈ newer, x.Valid := fun x hx => h x (List.mem_append_left _ hx)
  have hvalid : r.Valid := h r hr
  -- the lines above the section
  have hskip : findSection r.version (fileLines (newer ++ r :: older)) =
      findSection r.version (belowHeading (r :: older)) := by
    have hlines : fileLines (newer ++ r :: older) =
        fileLines newer ++ belowHeading (r :: older) := by
      rw [fileLines, belowHeading, List.flatMap_append]
      rfl
    have habove : ∀ line ∈ fileLines newer,
        (headingStart r.version ++ [' ']).isPrefixOf line = false := fun line hline =>
      headingStart_of_mem hvalid.semver hnewer hnew hline [' ']
    rw [hlines, findSection_append habove]
  -- the section ends at the next heading
  have hend : (belowHeading older).takeWhile (fun line => !sectionStart.isPrefixOf line) = [] := by
    cases older with
    | nil => rfl
    | cons next rest =>
      rw [belowHeading_cons, next.lines_eq, List.cons_append, List.cons_append,
        List.takeWhile_cons_of_neg]
      rw [Bool.not_eq_true', Bool.not_eq_false, List.isPrefixOf_iff_prefix, heading,
        headingStart_eq, List.append_assoc]
      exact List.prefix_append _ _
  have htake : (r.lines.tail ++ [[]] ++ belowHeading older).takeWhile
      (fun line => !sectionStart.isPrefixOf line) = r.lines.tail ++ [[]] := by
    rw [List.takeWhile_append_of_pos fun line hline => not_section_of_mem_tail hline, hend,
      List.append_nil]
  rw [extractNotes, lines_changelogText h hne, hskip, belowHeading_cons, r.lines_eq,
    List.cons_append, List.cons_append, findSection_heading _ (by simp), htake, ← List.cons_append,
    ← r.lines_eq, r.joinLines_lines, strip_text hvalid.nonempty]

end Read

/-! ## Renderings -/

/-- The file after some renderings. -/
def fileAfter : List Rendering → Option Text
  | [] => none
  | r :: done => some (changelogText (r :: done))

section Render

variable {r : Rendering} {done : List Rendering}

/-- The text that a rendering starts from. -/
theorem lines_fileAfter (h : ∀ x ∈ done, x.Valid) :
    lines ((fileAfter done).getD changelogStart) = fileLines done := by
  cases done with
  | nil => decide
  | cons x rest => exact lines_changelogText h (List.cons_ne_nil _ _)

/-- The sections start with the heading of the newest one. -/
theorem intercalate_text (r : Rendering) (done : List Rendering) :
    ∃ s, ['\n'].intercalate ((r :: done).map Rendering.text) = '#' :: s := by
  rw [← joinLines_belowHeading (List.cons_ne_nil _ _), belowHeading_cons, r.lines_eq]
  exact joinLines_heading _

/-- What `removeprefix` and `lstrip` leave of it. -/
theorem remainder_fileAfter (done : List Rendering) :
    remainder ((fileAfter done).getD changelogStart) =
      ['\n'].intercalate (done.map Rendering.text) := by
  cases done with
  | nil => rfl
  | cons x rest =>
    obtain ⟨s, hs⟩ := intercalate_text x rest
    show remainder (changelogStart ++ '\n' :: ['\n'].intercalate _) = _
    rw [remainder, List.drop_left, hs]
    rfl

theorem changelogBaseline_fileAfter (h : ∀ x ∈ done, x.Valid)
    (hdistinct : (done.map Rendering.version).Nodup) :
    changelogBaseline ((fileAfter done).getD changelogStart) =
      .ok (done.map Rendering.version).head? := by
  rw [changelogBaseline, lines_fileAfter h, filterMap_headingVersion h]
  exact if_neg (not_not.2 hdistinct)

/-- The new section stands above the others. -/
theorem updatedChangelog_fileAfter (r : Rendering) (done : List Rendering) :
    updatedChangelog ((fileAfter done).getD changelogStart) r.version r.date r.commits =
      changelogText (r :: done) := by
  rw [updatedChangelog, remainder_fileAfter, changelogText]
  cases done with
  | nil =>
    rw [List.map_singleton, List.intercalate_singleton, List.map_nil]
    exact List.append_assoc _ _ _
  | cons x rest =>
    have hne : (x :: rest).map Rendering.text ≠ [] := List.cons_ne_nil _ _
    obtain ⟨s, hs⟩ := intercalate_text x rest
    rw [List.map_cons (l := x :: rest), List.intercalate_cons_of_ne_nil hne, hs, Rendering.text]
    simp only [List.isEmpty_cons, Bool.false_eq_true, if_false, List.append_assoc,
      List.cons_append, List.nil_append]
    rfl

/-- A rendering puts its section above the others. -/
theorem render_fileAfter (hr : r.Valid) (h : ∀ x ∈ done, x.Valid)
    (hdistinct : ((r :: done).map Rendering.version).Nodup) :
    render (fileAfter done) r = .ok (fileAfter (r :: done)) := by
  rw [List.map_cons, List.nodup_cons] at hdistinct
  have hread : (fileAfter done).map universalNewlines = fileAfter done := by
    cases done with
    | nil => rfl
    | cons x rest => exact congrArg some (universalNewlines_changelogText h (List.cons_ne_nil _ _))
  have hstart : changelogStart.isPrefixOf ((fileAfter done).getD changelogStart) = true := by
    rw [List.isPrefixOf_iff_prefix]
    cases done with
    | nil => exact List.prefix_rfl
    | cons x rest => exact List.prefix_append _ _
  have hnew : ((lines ((fileAfter done).getD changelogStart)).any fun line =>
      (headingStart r.version).isPrefixOf line) = false := by
    rw [lines_fileAfter h, List.any_eq_false]
    intro line hline
    have hother := headingStart_of_mem hr.semver h hdistinct.1 hline []
    rwa [List.append_nil, ← Bool.not_eq_true] at hother
  have hcommits : r.commits.isEmpty = false := List.isEmpty_eq_false_iff.2 hr.nonempty
  rw [render, hread, renderChangelog, hstart, if_neg (by decide), hnew, if_neg Bool.false_ne_true,
    changelogBaseline_fileAfter h hdistinct.2]
  show Except.map some (if r.commits.isEmpty then _ else pure _) = _
  rw [hcommits, if_neg Bool.false_ne_true, updatedChangelog_fileAfter]
  rfl

/-- The file after all renderings. -/
theorem foldlM_render {rs : List Rendering} (done : List Rendering)
    (h : ∀ x ∈ rs.reverse ++ done, x.Valid)
    (hdistinct : ((rs.reverse ++ done).map Rendering.version).Nodup) :
    rs.foldlM render (fileAfter done) = .ok (fileAfter (rs.reverse ++ done)) := by
  induction rs generalizing done with
  | nil => rfl
  | cons r rs ih =>
    have hreverse : (r :: rs).reverse ++ done = rs.reverse ++ (r :: done) := by
      rw [List.reverse_cons, List.append_assoc]
      rfl
    rw [hreverse] at h hdistinct
    have hbelow : ∀ x ∈ r :: done, x.Valid := fun x hx => h x (List.mem_append_right _ hx)
    have hnodup : ((r :: done).map Rendering.version).Nodup := by
      rw [List.map_append] at hdistinct
      exact hdistinct.of_append_right
    rw [List.foldlM_cons, render_fileAfter (hbelow r List.mem_cons_self)
      (fun x hx => hbelow x (List.mem_cons_of_mem _ hx)) hnodup, hreverse]
    exact ih (r :: done) h hdistinct

end Render

/-- After each rendering of a sequence the file has the sections of the releases so far as they were
rendered, the newest one first.  The newest version is the baseline, and the notes of every version
are its section up to the line feed at the end. -/
theorem changelog_sections_round_trip (rs : List Rendering) (hvalid : ∀ r ∈ rs, r.Valid)
    (hdistinct : (rs.map Rendering.version).Nodup) {done : List Rendering} {r : Rendering}
    (hdone : done ++ [r] <+: rs) :
    ∃ contents, renderAll (done ++ [r]) = .ok (some contents) ∧
      contents = changelogStart ++ '\n' ::
        ['\n'].intercalate (r.text :: done.reverse.map Rendering.text) ∧
      changelogBaseline (universalNewlines contents) = .ok (some r.version) ∧
      ∀ x ∈ done ++ [r], ∃ notes,
        extractNotes x.version (universalNewlines contents) = some notes ∧
          notes ++ ['\n'] = x.text := by
  have hreverse : (done ++ [r]).reverse = r :: done.reverse := by
    rw [List.reverse_append]
    rfl
  have hvalid : ∀ x ∈ (done ++ [r]).reverse, x.Valid := fun x hx =>
    hvalid x (hdone.subset (List.mem_reverse.1 hx))
  have hdistinct : ((done ++ [r]).reverse.map Rendering.version).Nodup := by
    rw [List.map_reverse, List.nodup_reverse]
    exact hdistinct.sublist (hdone.sublist.map _)
  have hrun : renderAll (done ++ [r]) = .ok (fileAfter ((done ++ [r]).reverse ++ [])) :=
    foldlM_render [] (by rwa [List.append_nil]) (by rwa [List.append_nil])
  rw [List.append_nil] at hrun
  have hread := universalNewlines_changelogText hvalid (by simp)
  have hbaseline := changelogBaseline_fileAfter hvalid hdistinct
  rw [hreverse] at hrun hread hbaseline
  refine ⟨changelogText (r :: done.reverse), hrun, rfl, ?_, ?_⟩
  · rw [hread]
    exact hbaseline
  · intro x hx
    refine ⟨joinLines x.lines, ?_, rfl⟩
    rw [hread, ← hreverse]
    exact extractNotes_changelogText hvalid hdistinct (List.mem_reverse.2 hx)

/-- A subject that reads like the heading of a section. -/
def headingCommit : Commit := ⟨notesSha, "## [1.0.0] - 2026-07-01".toList, []⟩

def firstRendering : Rendering := ⟨"1.0.0", notesDate, [plainCommit]⟩

def secondRendering : Rendering := ⟨"1.0.1", notesDate, [headingCommit, plainCommit]⟩

theorem changelog_sections_round_trip_two :
    ([firstRendering, secondRendering].map Rendering.version).Nodup ∧
    firstRendering.Valid ∧ secondRendering.Valid ∧
    ∃ contents, renderAll [firstRendering, secondRendering] = .ok (some contents) ∧
      changelogBaseline (universalNewlines contents) = .ok (some "1.0.1") ∧
      ∃ notes, extractNotes "1.0.0" (universalNewlines contents) = some notes ∧
        notes ++ ['\n'] = firstRendering.text := by
  have hdistinct : ([firstRendering, secondRendering].map Rendering.version).Nodup := by decide
  have hfirst : firstRendering.Valid :=
    ⟨⟨_, rfl⟩, by decide, by decide +kernel, by decide +kernel⟩
  have hsecond : secondRendering.Valid :=
    ⟨⟨_, rfl⟩, by decide, by decide +kernel, by decide +kernel⟩
  obtain ⟨contents, hrun, -, hbaseline, hnotes⟩ :=
    changelog_sections_round_trip [firstRendering, secondRendering]
      (List.forall_mem_cons.2 ⟨hfirst, List.forall_mem_singleton.2 hsecond⟩) hdistinct
      (show [firstRendering] ++ [secondRendering] <+: _ from List.prefix_rfl)
  exact ⟨hdistinct, hfirst, hsecond, contents, hrun, hbaseline,
    hnotes firstRendering List.mem_cons_self⟩

end RemoteServer.Releases
