import RemoteServer.Releases.Changelog
import RemoteServer.Releases.Marks

/-!
# The bodies of a Release

The body of a Release changes twice after the draft: the publication puts the digest of the image
below the notes, and the completion puts its marker below that.

* `publishedBody` and `completedBody` are the two new bodies.
* `marks_publishedBody` and `marks_completedBody` say what the checks read of them.
* `Unmarked` is text without any marker.  `marks_unmarked` says that the checks read nothing of
  it, and `Unmarked.of_prefix` and `Unmarked.append` put such texts together.
-/

namespace RemoteServer.Releases

open PyStd

/-- `$(...)` takes the line feeds at the end away. -/
def chomp (text : Text) : Text := text.rdropWhile (· == '\n')

/-- The lines that the script puts below the notes. -/
def imageLines (images : List String) (digest version sha : String) : List Text :=
  [[], "## Container image".toList, []] ++
    images.map (fun image => ("- `" ++ image ++ "@" ++ digest ++ "`").toList) ++
    [[], ("Immutable aliases: `" ++ version ++ "`, `sha-" ++ sha ++ "`.").toList, [],
      digestMarker digest, []]

/-- The notes with the digest. -/
def publishedBody (images : List String) (digest version sha : String) (body : Text) : Text :=
  chomp body ++ (imageLines images digest version sha).flatMap fun line => '\n' :: line

/-- The notes with the completion marker. -/
def completedBody (sha : String) (body : Text) : Text :=
  rstrip body ++ '\n' :: '\n' :: completeMarker sha ++ ['\n']

/-! ## The marks of the new bodies -/

variable {sha : String} {number : Nat}

theorem Marks.zero_add (m : Marks) : 0 + m = m := by
  ext1
  · exact Nat.zero_add _
  · exact Nat.zero_add _
  · exact Nat.zero_add _
  · rfl
  · rfl
  · exact Nat.zero_add _
  · exact Nat.zero_add _

theorem Marks.add_assoc (a b c : Marks) : a + b + c = a + (b + c) := by
  ext1
  · exact Nat.add_assoc _ _ _
  · exact Nat.add_assoc _ _ _
  · exact Nat.add_assoc _ _ _
  · exact List.append_assoc _ _ _
  · exact List.append_assoc _ _ _
  · exact Nat.add_assoc _ _ _
  · exact Nat.add_assoc _ _ _

theorem marks_nil : marks sha number [] = 0 := marks_plain (by decide)

/-- A line feed at the end. -/
theorem marks_newline (text : Text) : marks sha number (text ++ ['\n']) = marks sha number text := by
  rw [marks_append, marks_nil, Marks.add_zero]

/-- A line feed at the start. -/
theorem marks_cons_newline (text : Text) : marks sha number ('\n' :: text) = marks sha number text := by
  have happend : marks sha number ('\n' :: text) = marks sha number [] + marks sha number text :=
    marks_append [] text
  rw [happend, marks_nil, Marks.zero_add]

theorem marks_newlines {text : Text} (h : ∀ c ∈ text, c = '\n') : marks sha number text = 0 := by
  induction text with
  | nil => exact marks_nil
  | cons c rest ih =>
    obtain rfl : c = '\n' := h c List.mem_cons_self
    rw [marks_cons_newline]
    exact ih fun c hc => h c (List.mem_cons_of_mem _ hc)

theorem marks_chomp (body : Text) : marks sha number (chomp body) = marks sha number body := by
  have hall : ∀ c ∈ body.rtakeWhile (· == '\n'), c = '\n' := by
    intro c hc
    have hfeed := List.mem_rtakeWhile_imp hc
    exact beq_iff_eq.1 hfeed
  have hbody : chomp body ++ body.rtakeWhile (· == '\n') = body :=
    List.rdropWhile_append_rtakeWhile
  conv_rhs => rw [← hbody]
  revert hall
  generalize body.rtakeWhile (· == '\n') = feeds
  intro hall
  cases feeds with
  | nil => rw [List.append_nil]
  | cons c rest =>
    obtain rfl : c = '\n' := hall c List.mem_cons_self
    rw [marks_append, marks_newlines fun c hc => hall c (List.mem_cons_of_mem _ hc), Marks.add_zero]

theorem isPlain_append_iff {a b : Text} : IsPlain (a ++ b) ↔ IsPlain a ∧ IsPlain b := by
  refine ⟨fun h => ⟨fun c hc => h c (List.mem_append_left _ hc),
    fun c hc => h c (List.mem_append_right _ hc)⟩, fun h => h.1.append h.2⟩

/-- Plain lines below a text. -/
theorem marks_lines {extra : List Text} (h : ∀ line ∈ extra, IsPlain line) (text : Text) :
    marks sha number (text ++ extra.flatMap fun line => '\n' :: line) = marks sha number text := by
  induction extra generalizing text with
  | nil => rw [List.flatMap_nil, List.append_nil]
  | cons line extra ih =>
    rw [List.forall_mem_cons] at h
    rw [List.flatMap_cons, ← List.append_assoc, ih h.2, marks_append, marks_plain h.1,
      Marks.add_zero]

/-- The texts that the script puts into the notes. -/
structure PlainNames (images : List String) (version sha : String) : Prop where
  images : ∀ image ∈ images, IsPlain image.toList
  version : IsPlain version.toList
  sha : IsPlain sha.toList

theorem imageLines_eq (images : List String) (digest version sha : String) :
    ∃ extra, imageLines images digest version sha = extra ++ [digestMarker digest, []] ∧
      (PlainNames images version sha → IsPlain digest.toList → ∀ line ∈ extra, IsPlain line) := by
  refine ⟨[[], "## Container image".toList, []] ++
    images.map (fun image => ("- `" ++ image ++ "@" ++ digest ++ "`").toList) ++
    [[], ("Immutable aliases: `" ++ version ++ "`, `sha-" ++ sha ++ "`.").toList, []], ?_, ?_⟩
  · rw [imageLines, List.append_assoc, List.append_assoc, List.append_assoc]
    rfl
  · intro hplain hdigest line hline
    simp only [List.mem_append, List.mem_map, List.mem_cons, List.not_mem_nil, or_false] at hline
    rcases hline with ((rfl | rfl | rfl) | ⟨image, himage, rfl⟩) | rfl | rfl | rfl
    · decide
    · decide
    · decide
    · simp only [String.toList_append, isPlain_append_iff]
      have hname := hplain.images image himage
      exact ⟨⟨⟨⟨by decide, hname⟩, by decide⟩, hdigest⟩, by decide⟩
    · decide
    · simp only [String.toList_append, isPlain_append_iff]
      exact ⟨⟨⟨⟨by decide, hplain.version⟩, by decide⟩, hplain.sha⟩, by decide⟩
    · decide

variable {images : List String} {digest version : String}

/-- The text of the published notes up to the marker. -/
theorem publishedBody_eq (body : Text) : ∃ notes,
    publishedBody images digest version sha body = notes ++ '\n' :: digestMarker digest ++ ['\n'] ∧
      (PlainNames images version sha → IsPlain digest.toList →
        ∀ sha' number, marks sha' number notes = marks sha' number body) := by
  obtain ⟨extra, hlines, hplain⟩ := imageLines_eq images digest version sha
  refine ⟨chomp body ++ extra.flatMap fun line => '\n' :: line, ?_, fun hnames hdigest sha' n => ?_⟩
  · rw [publishedBody, hlines, List.flatMap_append]
    simp
  · rw [marks_lines (hplain hnames hdigest), marks_chomp]

theorem marks_publishedBody (hnames : PlainNames images version sha)
    (hdigest : isDigest digest.toList = true) (sha' : String) (body : Text) :
    marks sha' number (publishedBody images digest version sha body) =
      marks sha' number body + ⟨0, 0, 0, [], [digest], 1, 0⟩ := by
  obtain ⟨notes, hbody, hnotes⟩ := publishedBody_eq body
  rw [hbody, marks_newline, marks_append, marks_digestMarker hdigest,
    hnotes hnames (isPlain_of_isDigest hdigest)]

/-- A body that ends with one line feed. -/
def EndsWithLine (body : Text) : Prop := body = rstrip body ++ ['\n']

theorem endsWithLine_marker (notes start : Text) (value : String) :
    EndsWithLine (notes ++ '\n' :: marker start value ++ ['\n']) := by
  have hmarker : notes ++ '\n' :: marker start value =
      notes ++ '\n' :: (start ++ value.toList ++ " --".toList) ++ ['>'] := by
    rw [marker]
    simp
  have hstrip : rstrip (notes ++ '\n' :: marker start value ++ ['\n']) =
      notes ++ '\n' :: marker start value := by
    rw [rstrip, List.rdropWhile_concat_pos _ _ _ (by decide), hmarker,
      List.rdropWhile_concat_neg _ _ _ (by decide)]
  rw [EndsWithLine, hstrip]

theorem endsWithLine_publishedBody (body : Text) :
    EndsWithLine (publishedBody images digest version sha body) := by
  obtain ⟨notes, hbody, -⟩ := publishedBody_eq body
  rw [hbody]
  exact endsWithLine_marker notes digestStart digest

theorem endsWithLine_completedBody (body : Text) : EndsWithLine (completedBody sha body) := by
  have hbody : completedBody sha body =
      (rstrip body ++ ['\n']) ++ '\n' :: marker completeStart sha ++ ['\n'] := by
    simp [completedBody, completeMarker]
  rw [hbody]
  exact endsWithLine_marker _ completeStart sha

theorem marks_completedBody {body : Text} (hsha : isSha sha = true) (hend : EndsWithLine body) :
    marks sha number (completedBody sha body) = marks sha number body + ⟨0, 0, 1, [], [], 0, 1⟩ := by
  have hbody : marks sha number body = marks sha number (rstrip body) := by
    conv_lhs => rw [hend]
    exact marks_newline _
  rw [completedBody, marks_newline, marks_append, marks_cons_newline, marks_completeMarker hsha,
    hbody]

/-! ## Text without markers -/

/-- Text in which no line starts like a marker and no start of the two markers that are counted
occurs. -/
structure Unmarked (text : Text) : Prop where
  head : text.head? ≠ some '<'
  lines : ∀ c, isLineBreak c = true → ¬[c, '<'] <:+: text
  digest : ¬digestStart <:+: text
  complete : ¬completeStart <:+: text

theorem Unmarked.of_prefix {a b : Text} (h : Unmarked b) (hab : a <+: b) : Unmarked a where
  head hhead := by
    refine h.head ?_
    cases a with
    | nil => cases hhead
    | cons c a =>
      obtain ⟨rest, rfl⟩ := hab
      exact hhead
  lines c hc hwithin := h.lines c hc (hwithin.trans hab.isInfix)
  digest hwithin := h.digest (hwithin.trans hab.isInfix)
  complete hwithin := h.complete (hwithin.trans hab.isInfix)

theorem Unmarked.append {a b : Text} (ha : Unmarked a) (hb : Unmarked b) :
    Unmarked (a ++ '\n' :: b) where
  head := by
    cases a with
    | nil => exact fun h => absurd (Option.some.inj h) (by decide)
    | cons c a => exact ha.head
  lines c hc hwithin := by
    rcases pair_infix_append (by decide) hwithin with h | h | h
    · exact ha.lines c hc h
    · exact hb.lines c hc h
    · exact hb.head h
  digest hwithin := (infix_append (by decide) hwithin).elim ha.digest hb.digest
  complete hwithin := (infix_append (by decide) hwithin).elim ha.complete hb.complete

/-- A line that does not start like a marker. -/
theorem unmarked_line {line : Text} (hhead : line.head? ≠ some '<')
    (hbreak : ∀ c ∈ line, isLineBreak c = false) (hdigest : ¬digestStart <:+: line)
    (hcomplete : ¬completeStart <:+: line) : Unmarked line where
  head := hhead
  lines c hc hwithin := by
    have hmem := hbreak c (hwithin.mem List.mem_cons_self)
    rw [hc] at hmem
    cases hmem
  digest := hdigest
  complete := hcomplete

theorem IsPlain.unmarked {line : Text} (h : IsPlain line) : Unmarked line := by
  refine unmarked_line (fun hhead => ?_) (fun c hc => (h c hc).2) (fun hwithin => ?_) fun hwithin => ?_
  · exact h.not_mem (List.mem_of_mem_head? hhead)
  · exact h.not_mem (hwithin.mem List.mem_cons_self)
  · exact h.not_mem (hwithin.mem List.mem_cons_self)

theorem unmarked_joinLines {pieces : List Text} (h : ∀ line ∈ pieces, Unmarked line) :
    Unmarked (joinLines pieces) := by
  induction pieces with
  | nil => exact IsPlain.unmarked (by decide)
  | cons line pieces ih =>
    rw [List.forall_mem_cons] at h
    by_cases hnil : pieces = []
    · rw [hnil, joinLines, List.intercalate_singleton]
      exact h.1
    · rw [joinLines_cons line hnil]
      exact h.1.append (ih h.2)

/-- The checks read nothing of a text without markers. -/
theorem marks_unmarked {text : Text} (h : Unmarked text) : marks sha number text = 0 := by
  have hcount : ∀ {start : Text} {value : String},
      (splitlines text).count (marker ('<' :: start) value) = 0 := by
    intro start value
    rw [splitlines, count_splitlinesFrom (marker_ne_nil (List.cons_ne_nil _ _) _),
      modifyHead_nil_append, List.count_eq_zero]
    exact fun hmem => head_of_mem_splitOnP h.head h.lines _ hmem rfl
  have hvalues : ∀ {start : Text} {valid : Text → Bool},
      markerValues ('<' :: start) valid text = [] := by
    intro start valid
    rw [markerValues, List.filterMap_eq_nil_iff]
    intro line hline
    have hhead : line.head? ≠ some '<' := by
      refine head_of_mem_splitOnP h.head (fun c hc => h.lines c ?_) line hline
      rw [beq_iff_eq.1 hc]
      decide
    refine markerValue_of_not_start fun hstart => hhead ?_
    obtain ⟨rest, rfl⟩ := hstart
    rfl
  ext1
  · exact hcount
  · exact hcount
  · exact hcount
  · exact hvalues
  · exact hvalues
  · exact count_eq_zero h.digest
  · exact count_eq_zero h.complete

end RemoteServer.Releases
