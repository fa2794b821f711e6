import Mathlib.Data.Bool.AllAny
import RemoteServer.Fallible
import RemoteServer.Releases.Record

/-!
# What is read of the body of a Release

`marks` gives everything that the checks of a record read of its body.

* `marks_append`, `marks_plain` and `marks_prMarker` and the lemmas after it give the marks of a
  body that is made of lines.
* `validateReleaseRecord_eq` says the check in terms of the marks.
* `IsPlain` is a line in which no marker and no line break can be.
-/

namespace RemoteServer.Releases

open Fallible PyStd

/-! ## Plain text -/

/-- Text that is no part of a marker: no `<` and no line break. -/
def IsPlain (text : Text) : Prop := ∀ c ∈ text, c ≠ '<' ∧ isLineBreak c = false

instance (text : Text) : Decidable (IsPlain text) :=
  List.decidableBAll (fun c => c ≠ '<' ∧ isLineBreak c = false) text

theorem IsPlain.not_mem {text : Text} (h : IsPlain text) : '<' ∉ text := fun hmem =>
  (h _ hmem).1 rfl

theorem IsPlain.append {a b : Text} (ha : IsPlain a) (hb : IsPlain b) : IsPlain (a ++ b) := by
  intro c hc
  rcases List.mem_append.1 hc with hc | hc
  · exact ha c hc
  · exact hb c hc

theorem isDigit_bounds {c : Char} (h : c.isDigit = true) : 48 ≤ c.toNat ∧ c.toNat ≤ 57 := by
  simp only [Char.isDigit, Bool.and_eq_true, decide_eq_true_eq, ge_iff_le,
    UInt32.le_iff_toNat_le] at h
  exact h

theorem isHex_bounds {c : Char} (h : isHex c = true) :
    48 ≤ c.toNat ∧ c.toNat ≤ 57 ∨ 97 ≤ c.toNat ∧ c.toNat ≤ 102 := by
  rw [isHex, Bool.or_eq_true, decide_eq_true_eq, Char.le_def, Char.le_def,
    UInt32.le_iff_toNat_le, UInt32.le_iff_toNat_le] at h
  rcases h with h | h
  · exact Or.inl (isDigit_bounds h)
  · exact Or.inr h

/-- The characters from `-` to `:`, and the small letters. -/
theorem plain_of_bounds {c : Char}
    (h : 45 ≤ c.toNat ∧ c.toNat ≤ 58 ∨ 97 ≤ c.toNat ∧ c.toNat ≤ 122) :
    c ≠ '<' ∧ isLineBreak c = false := by
  refine ⟨?_, ?_⟩
  · rintro rfl
    revert h
    decide
  · simp only [isLineBreak, Bool.or_eq_false_iff, decide_eq_false_iff_not, beq_eq_false_iff_ne]
    omega

theorem plain_of_isHex {c : Char} (h : isHex c = true) : c ≠ '<' ∧ isLineBreak c = false := by
  refine plain_of_bounds ?_
  have hbounds := isHex_bounds h
  omega

theorem isPlain_of_isSha {sha : String} (h : isSha sha = true) : IsPlain sha.toList := by
  rw [isSha, Bool.and_eq_true, List.all_eq_true] at h
  exact fun c hc => plain_of_isHex (h.2 c hc)

theorem isPlain_of_isDigest {digest : Text} (h : isDigest digest = true) : IsPlain digest := by
  rw [isDigest, Bool.and_eq_true, List.all_eq_true, Bool.and_eq_true] at h
  obtain ⟨⟨hstart, -⟩, hhex⟩ := h
  obtain ⟨rest, rfl⟩ := List.isPrefixOf_iff_prefix.1 hstart
  exact IsPlain.append (by decide) fun c hc => plain_of_isHex (hhex c hc)

theorem toList_toString (n : Nat) : (toString n).toList = Nat.toDigits 10 n := by
  show (Nat.repr n).toList = _
  rw [Nat.repr]
  exact String.toList_ofList

theorem isDigit_of_mem_toString {n : Nat} {c : Char} (h : c ∈ (toString n).toList) :
    c.isDigit = true := by
  rw [toList_toString] at h
  exact Nat.isDigit_of_mem_toDigits (by decide) (by decide) h

theorem isPlain_toString (n : Nat) : IsPlain (toString n).toList := fun c hc => by
  have hbounds := isDigit_bounds (isDigit_of_mem_toString hc)
  exact plain_of_bounds (by omega)

/-- A number that is not zero is not written with a zero in front. -/
theorem head_toDigits {n : Nat} (h : 0 < n) : (Nat.toDigits 10 n).head? ≠ some '0' := by
  induction n using Nat.strongRecOn with
  | ind n ih =>
    rcases Nat.lt_or_ge n 10 with hlt | hge
    · rw [Nat.toDigits_of_lt_base hlt]
      intro hzero
      have hzero : n.digitChar = '0' := Option.some.inj hzero
      rw [Nat.digitChar_eq_zero] at hzero
      omega
    · rw [Nat.toDigits_of_base_le (by decide) hge, List.head?_append_of_ne_nil _ Nat.toDigits_ne_nil]
      exact ih (n / 10) (by omega) (by omega)

theorem isPositive_toString {n : Nat} (h : 0 < n) : isPositive (toString n).toList = true := by
  have hdigits : (toString n).toList.all Char.isDigit = true :=
    List.all_eq_true.2 fun c hc => isDigit_of_mem_toString hc
  have hsome : (toString n).toList.head?.isSome = true := by
    rw [toList_toString, List.isSome_head?]
    exact Nat.toDigits_ne_nil
  have hhead : ((toString n).toList.head? != some '0') = true := by
    rw [toList_toString, bne_iff_ne]
    exact head_toDigits h
  rw [isPositive, hdigits, hsome, hhead]
  rfl

/-! ## The values of markers -/

theorem markerValue_marker {start : Text} {valid : Text → Bool} {value : String}
    (h : valid value.toList = true) : markerValue start valid (marker start value) = some value := by
  have hvalue : ((marker start value).drop start.length).take
      ((marker start value).length - start.length - 4) = value.toList := by
    have hlength : (marker start value).length - start.length - 4 = value.toList.length := by
      rw [marker, List.length_append, List.length_append]
      show start.length + value.toList.length + 4 - start.length - 4 = _
      omega
    rw [hlength, marker, List.append_assoc, List.drop_left, List.take_left]
  rw [markerValue]
  simp only [hvalue, h, Bool.true_and]
  rw [if_pos, String.ofList_toList]
  exact beq_self_eq_true _

theorem markerValue_of_not_start {start line : Text} {valid : Text → Bool}
    (h : ¬start <+: line) : markerValue start valid line = none := by
  refine if_neg fun hline => h ?_
  rw [Bool.and_eq_true] at hline
  rw [beq_iff_eq.1 hline.2, List.append_assoc]
  exact List.prefix_append _ _

theorem start_marker (start : Text) (value : String) : start <+: marker start value := by
  rw [marker, List.append_assoc]
  exact List.prefix_append _ _

/-- Markers of two kinds differ. -/
theorem not_start_marker {a b : Text} (hab : ¬a <+: b) (hba : ¬b <+: a) (value : String) :
    ¬a <+: marker b value := fun h => by
  rcases List.prefix_or_prefix_of_prefix h (start_marker b value) with h | h
  · exact hab h
  · exact hba h

theorem marker_ne {a b : Text} (hab : ¬a <+: b) (hba : ¬b <+: a) (value value' : String) :
    marker b value ≠ marker a value' := fun h =>
  not_start_marker hab hba value (h ▸ start_marker a value')

/-! ## Marks -/

/-- The markers with a line of their own, and how often the starts of markers occur anywhere. -/
@[ext]
structure Marks where
  pr : Nat
  commit : Nat
  complete : Nat
  numbers : List String
  digests : List String
  digestStarts : Nat
  completeStarts : Nat

instance : Add Marks :=
  ⟨fun a b => ⟨a.pr + b.pr, a.commit + b.commit, a.complete + b.complete, a.numbers ++ b.numbers,
    a.digests ++ b.digests, a.digestStarts + b.digestStarts, a.completeStarts + b.completeStarts⟩⟩

instance : Zero Marks := ⟨⟨0, 0, 0, [], [], 0, 0⟩⟩

theorem Marks.add_zero (m : Marks) : m + 0 = m := by
  ext1
  · exact Nat.add_zero _
  · exact Nat.add_zero _
  · exact Nat.add_zero _
  · exact List.append_nil _
  · exact List.append_nil _
  · exact Nat.add_zero _
  · exact Nat.add_zero _

/-- The marks of a body for a commit and a pull request. -/
def marks (sha : String) (number : Nat) (body : Text) : Marks where
  pr := (splitlines body).count (prMarker number)
  commit := (splitlines body).count (commitMarker sha)
  complete := (splitlines body).count (completeMarker sha)
  numbers := prMatches body
  digests := digestMatches body
  digestStarts := count digestStart body
  completeStarts := count completeStart body

variable {sha : String} {number : Nat}

theorem marker_ne_nil {start : Text} (h : start ≠ []) (value : String) : marker start value ≠ [] :=
  List.append_ne_nil_of_left_ne_nil (List.append_ne_nil_of_left_ne_nil h _) _

theorem markerValues_append (start : Text) (valid : Text → Bool) (a b : Text) :
    markerValues start valid (a ++ '\n' :: b) =
      markerValues start valid a ++ markerValues start valid b := by
  rw [markerValues, lines_append, List.filterMap_append]
  rfl

theorem marks_append (a b : Text) :
    marks sha number (a ++ '\n' :: b) = marks sha number a + marks sha number b := by
  ext1
  · exact count_splitlines_append (marker_ne_nil (by decide) _) a b
  · exact count_splitlines_append (marker_ne_nil (by decide) _) a b
  · exact count_splitlines_append (marker_ne_nil (by decide) _) a b
  · exact markerValues_append _ _ a b
  · exact markerValues_append _ _ a b
  · exact count_append (by decide) (by decide) a b
  · exact count_append (by decide) (by decide) a b

/-- The marks of a line. -/
theorem marks_line {line : Text} (h : ∀ c ∈ line, isLineBreak c = false) :
    marks sha number line =
      { pr := if line = prMarker number then 1 else 0
        commit := if line = commitMarker sha then 1 else 0
        complete := if line = completeMarker sha then 1 else 0
        numbers := (markerValue prStart isPositive line).toList
        digests := (markerValue digestStart isDigest line).toList
        digestStarts := count digestStart line
        completeStarts := count completeStart line } := by
  have hvalues : ∀ {start : Text} {valid : Text → Bool},
      markerValues start valid line = (markerValue start valid line).toList := by
    intro start valid
    rw [markerValues, lines_line h]
    cases hline : markerValue start valid line with
    | none => rw [List.filterMap_cons_none hline]; rfl
    | some value => rw [List.filterMap_cons_some hline]; rfl
  ext1
  · exact count_splitlines_line (marker_ne_nil (by decide) _) h
  · exact count_splitlines_line (marker_ne_nil (by decide) _) h
  · exact count_splitlines_line (marker_ne_nil (by decide) _) h
  · exact hvalues
  · exact hvalues
  · rfl
  · rfl

theorem marks_plain {line : Text} (h : IsPlain line) : marks sha number line = 0 := by
  have hmarker : ∀ {rest : Text} {value : String}, line ≠ marker ('<' :: rest) value := by
    rintro rest value rfl
    exact h.not_mem List.mem_cons_self
  have hvalue : ∀ {rest : Text} {valid : Text → Bool},
      markerValue ('<' :: rest) valid line = none := by
    intro rest valid
    refine markerValue_of_not_start fun hstart => h.not_mem ?_
    exact hstart.mem List.mem_cons_self
  rw [marks_line fun c hc => (h c hc).2]
  ext1
  · exact if_neg hmarker
  · exact if_neg hmarker
  · exact if_neg hmarker
  · exact congrArg Option.toList hvalue
  · exact congrArg Option.toList hvalue
  · exact countFrom_eq_zero h.not_mem 0
  · exact countFrom_eq_zero h.not_mem 0

/-- The marks of a line with one marker. -/
theorem marks_marker {start : Text} {value : String} (hhead : start.head? = some '<')
    (htail : IsPlain start.tail) (hvalue : IsPlain value.toList) :
    marks sha number (marker start value) =
      { pr := if marker start value = prMarker number then 1 else 0
        commit := if marker start value = commitMarker sha then 1 else 0
        complete := if marker start value = completeMarker sha then 1 else 0
        numbers := (markerValue prStart isPositive (marker start value)).toList
        digests := (markerValue digestStart isDigest (marker start value)).toList
        digestStarts := if digestStart <+: marker start value then 1 else 0
        completeStarts := if completeStart <+: marker start value then 1 else 0 } := by
  obtain ⟨rest, rfl⟩ : ∃ rest, start = '<' :: rest := ⟨_, List.eq_cons_of_mem_head? hhead⟩
  have hplain : IsPlain (rest ++ value.toList ++ " -->".toList) :=
    (IsPlain.append htail hvalue).append (by decide)
  have hbreak : ∀ c ∈ marker ('<' :: rest) value, isLineBreak c = false := by
    intro c hc
    rcases List.mem_cons.1 hc with rfl | hc
    · decide
    · exact (hplain c hc).2
  rw [marks_line hbreak]
  ext1
  · rfl
  · rfl
  · rfl
  · rfl
  · rfl
  · exact count_head hplain.not_mem
  · exact count_head hplain.not_mem

theorem marks_prMarker (h : 0 < number) :
    marks sha number (prMarker number) = ⟨1, 0, 0, [toString number], [], 0, 0⟩ := by
  have hcommit : prMarker number ≠ commitMarker sha := marker_ne (by decide) (by decide) _ _
  have hcomplete : prMarker number ≠ completeMarker sha := marker_ne (by decide) (by decide) _ _
  have hvalue : markerValue prStart isPositive (prMarker number) = some (toString number) :=
    markerValue_marker (isPositive_toString h)
  have hdigest : ¬digestStart <+: prMarker number := not_start_marker (by decide) (by decide) _
  have hstart : ¬completeStart <+: prMarker number := not_start_marker (by decide) (by decide) _
  rw [prMarker] at *
  rw [marks_marker (by decide) (by decide) (isPlain_toString number), hvalue,
    markerValue_of_not_start hdigest, prMarker, if_pos rfl, if_neg hcommit, if_neg hcomplete,
    if_neg hdigest, if_neg hstart]
  rfl

theorem marks_commitMarker (h : isSha sha = true) :
    marks sha number (commitMarker sha) = ⟨0, 1, 0, [], [], 0, 0⟩ := by
  have hpr : commitMarker sha ≠ prMarker number := marker_ne (by decide) (by decide) _ _
  have hcomplete : commitMarker sha ≠ completeMarker sha := marker_ne (by decide) (by decide) _ _
  have hnumber : ¬prStart <+: commitMarker sha := not_start_marker (by decide) (by decide) _
  have hdigest : ¬digestStart <+: commitMarker sha := not_start_marker (by decide) (by decide) _
  have hstart : ¬completeStart <+: commitMarker sha := not_start_marker (by decide) (by decide) _
  rw [commitMarker] at *
  rw [marks_marker (by decide) (by decide) (isPlain_of_isSha h),
    markerValue_of_not_start hnumber, markerValue_of_not_start hdigest, if_neg hpr,
    commitMarker, if_pos rfl, if_neg hcomplete, if_neg hdigest, if_neg hstart]
  rfl

theorem marks_digestMarker {digest : String} (h : isDigest digest.toList = true) :
    marks sha number (digestMarker digest) = ⟨0, 0, 0, [], [digest], 1, 0⟩ := by
  have hpr : digestMarker digest ≠ prMarker number := marker_ne (by decide) (by decide) _ _
  have hcommit : digestMarker digest ≠ commitMarker sha := marker_ne (by decide) (by decide) _ _
  have hcomplete : digestMarker digest ≠ completeMarker sha :=
    marker_ne (by decide) (by decide) _ _
  have hvalue : markerValue digestStart isDigest (digestMarker digest) = some digest :=
    markerValue_marker h
  have hnumber : ¬prStart <+: digestMarker digest := not_start_marker (by decide) (by decide) _
  have hstart : ¬completeStart <+: digestMarker digest :=
    not_start_marker (by decide) (by decide) _
  rw [digestMarker] at *
  rw [marks_marker (by decide) (by decide) (isPlain_of_isDigest h), hvalue,
    markerValue_of_not_start hnumber, if_neg hpr, if_neg hcommit, if_neg hcomplete,
    if_pos (start_marker _ _), if_neg hstart]
  rfl

theorem marks_completeMarker (h : isSha sha = true) :
    marks sha number (completeMarker sha) = ⟨0, 0, 1, [], [], 0, 1⟩ := by
  have hpr : completeMarker sha ≠ prMarker number := marker_ne (by decide) (by decide) _ _
  have hcommit : completeMarker sha ≠ commitMarker sha := marker_ne (by decide) (by decide) _ _
  have hnumber : ¬prStart <+: completeMarker sha := not_start_marker (by decide) (by decide) _
  have hdigest : ¬digestStart <+: completeMarker sha := not_start_marker (by decide) (by decide) _
  rw [completeMarker] at *
  rw [marks_marker (by decide) (by decide) (isPlain_of_isSha h),
    markerValue_of_not_start hnumber, markerValue_of_not_start hdigest, if_neg hpr,
    if_neg hcommit, completeMarker, if_pos rfl, if_neg hdigest, if_pos (start_marker _ _)]
  rfl

/-! ## The check of a record -/

/-- The fields by which a record belongs to a version and a commit. -/
structure Managed (config : ReleaseConfig) (release : Release) (version sha : String) : Prop where
  tagName : release.tagName = "v" ++ version
  targetCommitish : release.targetCommitish = sha
  name : release.name = config.title ++ " " ++ version
  author : release.author = config.appLogin

/-- The marks of a record with this digest that is complete or not. -/
def stageMarks (digest : Option String) (complete : Bool) (numbers : List String) : Marks :=
  ⟨1, 1, complete.toNat, numbers, digest.toList, digest.toList.length, complete.toNat⟩

theorem complete_le (sha : String) (number : Nat) (body : Text) :
    (marks sha number body).complete ≤ (marks sha number body).completeStarts :=
  count_splitlines_le (by decide) (start_marker _ _) (List.all_iff_forall_prop.1 (by decide)) body

/-- The check of a body, from its marks. -/
def validateMarks (config : ReleaseConfig) (draft : Bool) (tag : String) (m : Marks) :
    Except String (Bool × Option String × Bool) :=
  let digest := if m.digests.length = 1 then m.digests.head? else none
  let complete := m.complete == 1
  if m.pr != 1 then
    .error ("managed Release " ++ tag ++ " has invalid PR metadata")
  else if m.commit != 1 then
    .error ("managed Release " ++ tag ++ " has invalid commit metadata")
  else if m.digestStarts != m.digests.length then
    .error ("managed Release " ++ tag ++ " has malformed container metadata")
  else if 1 < m.digests.length then
    .error ("managed Release " ++ tag ++ " has duplicate container metadata")
  else if draft && digest.isSome then
    .error ("draft Release " ++ tag ++ " cannot claim a published digest")
  else if !draft && config.container && digest.isNone then
    .error ("published Release " ++ tag ++ " must record its container digest")
  else if !config.container && digest.isSome then
    .error ("non-container Release " ++ tag ++ " cannot record a container digest")
  else if m.completeStarts != complete.toNat then
    .error ("managed Release " ++ tag ++ " has malformed completion metadata")
  else if complete && draft then
    .error ("draft Release " ++ tag ++ " cannot be complete")
  else .ok (draft, digest, complete)

theorem validateReleaseRecord_eq (config : ReleaseConfig) (release : Release)
    (version sha : String) (number : Nat) :
    validateReleaseRecord config release version sha number =
      if release.tagName != "v" ++ version || release.targetCommitish != sha ||
          release.name != config.title ++ " " ++ version || release.author != config.appLogin then
        .error ("managed Release " ++ ("v" ++ version) ++ " metadata is invalid")
      else if !release.draft && !release.immutable then
        .error ("published Release " ++ ("v" ++ version) ++ " is not immutable")
      else
        match release.body with
        | none => .error ("managed Release " ++ ("v" ++ version) ++ " has no body")
        | some body =>
          validateMarks config release.draft ("v" ++ version) (marks sha number body) := rfl

theorem validateMarks_ok_iff {config : ReleaseConfig} (hconfig : config.container = true)
    {draft draft' complete : Bool} {tag : String} {digest : Option String} {m : Marks}
    (hle : m.complete ≤ m.completeStarts) :
    validateMarks config draft tag m = .ok (draft', digest, complete) ↔
      draft = draft' ∧ digest.isNone = draft ∧ (complete = true → draft = false) ∧
        ∃ numbers, m = stageMarks digest complete numbers := by
  obtain ⟨pr, commit, completes, numbers, digests, digestStarts, completeStarts⟩ := m
  simp only [validateMarks, ite_error_eq_ok, hconfig, Bool.not_true, Bool.false_and, bne_iff_ne,
    ne_eq, Decidable.not_not, Except.ok.injEq, Prod.mk.injEq, Bool.and_eq_true]
  constructor
  · rintro ⟨rfl, rfl, rfl, hlength, hdraft, hout, -, hstarts, hcomplete, rfl, hdigest, hdone⟩
    have hcount : completes = complete.toNat ∧ completeStarts = complete.toNat := by
      change completes ≤ completeStarts at hle
      rw [hdone] at hstarts
      cases complete with
      | true => exact ⟨beq_iff_eq.1 hdone, hstarts⟩
      | false =>
        have hzero : completeStarts = 0 := hstarts
        exact ⟨show completes = 0 by omega, hstarts⟩
    obtain ⟨rfl, rfl⟩ := hcount
    rw [hdigest] at hdraft hout
    have hlist : digests = digest.toList := by
      rcases digests with _ | ⟨d, _ | ⟨d', rest⟩⟩
      · rw [← hdigest]; rfl
      · rw [← hdigest]; rfl
      · exact absurd (Nat.succ_lt_succ (Nat.succ_pos _)) hlength
    refine ⟨rfl, ?_, ?_, numbers, ?_⟩
    · cases digest with
      | none =>
        cases draft with
        | true => rfl
        | false => exact absurd ⟨⟨rfl, trivial⟩, rfl⟩ hout
      | some d =>
        cases draft with
        | true => exact absurd ⟨rfl, rfl⟩ hdraft
        | false => rfl
    · intro htrue
      rw [hdone] at hcomplete
      cases draft
      · rfl
      · exact absurd ⟨htrue, rfl⟩ hcomplete
    · rw [hlist]; rfl
  · rintro ⟨rfl, hdigest, hcomplete, ns, h⟩
    obtain ⟨rfl, rfl, rfl, rfl, rfl, rfl, rfl⟩ := Marks.mk.inj h
    have hlength : (if digest.toList.length = 1 then digest.toList.head? else none) = digest := by
      cases digest <;> rfl
    have hdone : (complete.toNat == 1) = complete := by cases complete <;> rfl
    rw [hlength, hdone]
    subst hdigest
    refine ⟨rfl, rfl, rfl, ?_, ?_, ?_, Bool.false_ne_true, rfl, ?_, rfl, rfl, rfl⟩
    · cases digest <;> simp
    · cases digest <;> simp
    · cases digest <;> simp
    · exact fun h => absurd (hcomplete h.1) (by rw [h.2]; decide)

/-- A draft records no digest, and what is out records one. -/
theorem validateReleaseRecord_ok_iff {config : ReleaseConfig} (hconfig : config.container = true)
    {release : Release} {version sha : String} {number : Nat} {draft complete : Bool}
    {digest : Option String} :
    validateReleaseRecord config release version sha number = .ok (draft, digest, complete) ↔
      Managed config release version sha ∧ release.draft = draft ∧
        (draft = false → release.immutable = true) ∧ digest.isNone = draft ∧
        (complete = true → draft = false) ∧
        ∃ body numbers, release.body = some body ∧
          marks sha number body = stageMarks digest complete numbers := by
  have hmeta : (release.tagName != "v" ++ version || release.targetCommitish != sha ||
      release.name != config.title ++ " " ++ version || release.author != config.appLogin) = false ↔
      Managed config release version sha := by
    simp only [Bool.or_eq_false_iff, bne_eq_false_iff_eq]
    exact ⟨fun ⟨⟨⟨a, b⟩, c⟩, d⟩ => ⟨a, b, c, d⟩, fun ⟨a, b, c, d⟩ => ⟨⟨⟨a, b⟩, c⟩, d⟩⟩
  rw [validateReleaseRecord_eq]
  constructor
  · intro h
    split at h
    · cases h
    next hmanaged =>
    split at h
    · cases h
    next himmutable =>
    cases hbody : release.body with
    | none => rw [hbody] at h; cases h
    | some body =>
      rw [hbody] at h
      obtain ⟨hdraft, hdigest, hcomplete, numbers, hmarks⟩ :=
        (validateMarks_ok_iff hconfig (complete_le sha number body)).1 h
      refine ⟨hmeta.1 (Bool.eq_false_iff.2 hmanaged), hdraft, fun hout => ?_, ?_, ?_, body, numbers,
        rfl, hmarks⟩
      · rw [hdraft, hout] at himmutable
        simpa using himmutable
      · rw [hdigest, hdraft]
      · rwa [← hdraft]
  · rintro ⟨hmanaged, hdraft, himmutable, hdigest, hcomplete, body, numbers, hbody, hmarks⟩
    have himm : (!release.draft && !release.immutable) = false := by
      rw [hdraft]
      cases draft with
      | true => rfl
      | false => rw [himmutable rfl]; rfl
    rw [if_neg (Bool.eq_false_iff.1 (hmeta.2 hmanaged)), if_neg (Bool.eq_false_iff.1 himm), hbody]
    refine (validateMarks_ok_iff hconfig (complete_le sha number body)).2 ⟨hdraft, ?_, ?_, numbers,
      hmarks⟩
    · rw [hdigest, hdraft]
    · rwa [hdraft]

end RemoteServer.Releases
