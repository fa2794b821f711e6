import Mathlib
import RemoteServer.Releases.Changelog
import RemoteServer.Releases.Completed

/-!
# The next version and the changelog

`automatic_version` and `render_changelog` look at the same commits, each with tests of its own:
one reads the subject as it is, the other without the blanks around it.

* `isBreaking_append` and `isType_append` say that blanks at the end change nothing.
* `perm_inCategory` says that every commit is in one category.
* `automatic_version_matches` is the agreement, for subjects that do not start with a blank.
* `indented_feature_is_patch` is a subject that starts with one.
-/

namespace RemoteServer.Releases

open Fallible PyStd

/-! ## Blanks at the end of a subject -/

/-- Blanks are no part of what the tests look for. -/
def IsBlank (text : Text) : Prop := ∀ c ∈ text, isSpace c = true

variable {blank : Text}

theorem isPrefixOf_blank {sub : Text} (hsub : ∀ c ∈ sub, isSpace c = false) (hblank : IsBlank blank)
    (a : Text) : sub.isPrefixOf (a ++ blank) = sub.isPrefixOf a := by
  cases blank with
  | nil => rw [List.append_nil]
  | cons c rest =>
    refine isPrefixOf_append (fun hmem => ?_) a rest
    have hspace := hblank c List.mem_cons_self
    rw [hsub c hmem] at hspace
    cases hspace

theorem isSpace_bounds {c : Char} (h : isSpace c = true) :
    c.toNat ≤ 32 ∨ 133 ≤ c.toNat := by
  simp only [isSpace, Bool.or_eq_true, decide_eq_true_eq, beq_iff_eq] at h
  omega

theorem ne_of_isSpace {c d : Char} (h : isSpace c = true) (hd : 33 ≤ d.toNat ∧ d.toNat ≤ 132) :
    c ≠ d := by
  rintro rfl
  have hbounds := isSpace_bounds h
  omega

theorem isWordChar_of_isSpace {c : Char} (h : isSpace c = true) : isWordChar c = false := by
  have hbounds := isSpace_bounds h
  have hunderscore : c ≠ '_' := ne_of_isSpace h (by decide)
  have hminus : c ≠ '-' := ne_of_isSpace h (by decide)
  have halnum : c.isAlphanum = false := by
    simp only [Char.isAlphanum, Char.isAlpha, Char.isUpper, Char.isLower, Char.isDigit,
      Bool.or_eq_false_iff, Bool.and_eq_false_iff, decide_eq_false_iff_not, ge_iff_le,
      UInt32.le_iff_toNat_le]
    have htoNat : c.toNat = c.val.toNat := rfl
    have hupper : 'A'.val.toNat = 65 ∧ 'Z'.val.toNat = 90 := ⟨rfl, rfl⟩
    have hlower : 'a'.val.toNat = 97 ∧ 'z'.val.toNat = 122 := ⟨rfl, rfl⟩
    have hdigit : '0'.val.toNat = 48 ∧ '9'.val.toNat = 57 := ⟨rfl, rfl⟩
    omega
  rw [isWordChar, halnum, beq_eq_false_iff_ne.2 hunderscore, beq_eq_false_iff_ne.2 hminus]
  rfl

theorem dropWhile_blank {p : Char → Bool} (hp : ∀ c ∈ blank, p c = false) (a : Text) :
    (a ++ blank).dropWhile p = a.dropWhile p ++ blank := by
  induction a with
  | nil =>
    cases blank with
    | nil => rfl
    | cons c rest => exact List.dropWhile_cons_of_neg (by rw [hp c List.mem_cons_self]; decide)
  | cons c a ih =>
    rw [List.cons_append, List.dropWhile_cons, List.dropWhile_cons]
    split
    · exact ih
    · rfl

theorem takeWhile_blank {p : Char → Bool} (hp : ∀ c ∈ blank, p c = false) (a : Text) :
    (a ++ blank).takeWhile p = a.takeWhile p := by
  induction a with
  | nil =>
    cases blank with
    | nil => rfl
    | cons c rest => exact List.takeWhile_cons_of_neg (by rw [hp c List.mem_cons_self]; decide)
  | cons c a ih =>
    rw [List.cons_append, List.takeWhile_cons, List.takeWhile_cons, ih]

theorem afterScope_blank (hblank : IsBlank blank) (a : Text) :
    afterScope (a ++ blank) = (afterScope a).map (· ++ blank) := by
  cases a with
  | nil =>
    cases blank with
    | nil => rfl
    | cons c rest =>
      have hparen : c ≠ '(' := ne_of_isSpace (hblank c List.mem_cons_self) (by decide)
      show afterScope (c :: rest) = some (c :: rest)
      rw [afterScope]
      rintro rest' ⟨⟩
      exact hparen rfl
  | cons c a =>
    by_cases hparen : c = '('
    · subst hparen
      have hclose : blank.dropWhile (· != ')') = [] := by
        rw [List.dropWhile_eq_nil_iff]
        exact fun c hc => bne_iff_ne.2 (ne_of_isSpace (hblank c hc) (by decide))
      rw [List.cons_append, afterScope, afterScope, List.dropWhile_append, hclose]
      cases a.dropWhile (· != ')') with
      | nil => rfl
      | cons close rest => rfl
    · rw [List.cons_append, afterScope, afterScope]
      · rfl
      · rintro rest ⟨⟩
        exact hparen rfl
      · rintro rest ⟨⟩
        exact hparen rfl

theorem any_afterScope_blank {sub : Text} (hsub : ∀ c ∈ sub, isSpace c = false)
    (hblank : IsBlank blank) (a : Text) :
    ((afterScope (a ++ blank)).any fun rest => sub.isPrefixOf rest) =
      (afterScope a).any fun rest => sub.isPrefixOf rest := by
  rw [afterScope_blank hblank]
  cases afterScope a with
  | none => rfl
  | some rest => exact isPrefixOf_blank hsub hblank rest

theorem isBreaking_append (hblank : IsBlank blank) (subject : Text) :
    isBreaking (subject ++ blank) = isBreaking subject := by
  have hword : ∀ c ∈ blank, isWordChar c = false := fun c hc => isWordChar_of_isSpace (hblank c hc)
  rw [isBreaking, isBreaking, takeWhile_blank hword, dropWhile_blank hword,
    any_afterScope_blank (List.all_iff_forall_prop.1 (by decide)) hblank]

theorem isType_append {type : String} (htype : ∀ c ∈ type.toList, isSpace c = false)
    (hblank : IsBlank blank) (subject : Text) :
    isType type (subject ++ blank) = isType type subject := by
  rw [isType, isType, isPrefixOf_blank htype hblank]
  by_cases hstart : type.toList.isPrefixOf subject = true
  · have hle := (List.isPrefixOf_iff_prefix.1 hstart).length_le
    rw [List.drop_append_of_le_length hle, any_afterScope_blank (List.all_iff_forall_prop.1 (by decide)) hblank]
  · rw [Bool.not_eq_true] at hstart
    rw [hstart]
    rfl

/-- A subject that does not start with a blank, against its trimmed form. -/
theorem strip_append {subject : Text} (h : ∀ c, subject.head? = some c → isSpace c = false) :
    ∃ blank, IsBlank blank ∧ subject = strip subject ++ blank := by
  have hstart : subject.dropWhile isSpace = subject := by
    cases subject with
    | nil => rfl
    | cons c rest => exact List.dropWhile_cons_of_neg (by rw [h c rfl]; decide)
  refine ⟨subject.rtakeWhile isSpace, fun c hc => List.mem_rtakeWhile_imp hc, ?_⟩
  rw [strip, hstart, rstrip, List.rdropWhile_append_rtakeWhile]

/-- A subject that does not start with a blank. -/
def StartsAtOnce (commit : Commit) : Prop :=
  ∀ c, commit.subject.head? = some c → isSpace c = false

variable {commit : Commit} {commits : List Commit}

/-- The tests of the two functions agree on a commit. -/
theorem category_breaking_iff (h : StartsAtOnce commit) :
    commit.category = .breaking ↔
      (isBreaking commit.subject || hasBreakingNote commit.body) = true := by
  obtain ⟨blank, hblank, hsubject⟩ := strip_append h
  have hbreaking : isBreaking commit.subject = isBreaking (strip commit.subject) := by
    conv_lhs => rw [hsubject]
    exact isBreaking_append hblank _
  rw [hbreaking, Commit.category]
  split
  next htest => exact iff_of_true rfl htest
  next htest =>
    refine iff_of_false ?_ htest
    split
    · decide
    · split <;> decide

theorem category_features_iff (h : StartsAtOnce commit) (hnot : commit.category ≠ .breaking) :
    commit.category = .features ↔ isType "feat" commit.subject = true := by
  obtain ⟨blank, hblank, hsubject⟩ := strip_append h
  have htype : isType "feat" commit.subject = isType "feat" (strip commit.subject) := by
    conv_lhs => rw [hsubject]
    exact isType_append (List.all_iff_forall_prop.1 (by decide)) hblank _
  rw [htype]
  rw [Commit.category] at hnot ⊢
  split
  next htest => exact absurd (if_pos htest) hnot
  next htest =>
    split
    next htest => exact iff_of_true rfl htest
    next htest =>
      refine iff_of_false ?_ htest
      split <;> decide

/-! ## The categories -/

/-- Every commit is in exactly one category. -/
theorem perm_inCategory (commits : List Commit) :
    (Category.all.flatMap fun category => inCategory category commits).Perm commits := by
  induction commits with
  | nil => rfl
  | cons commit commits ih =>
    have hcons : ∀ category, inCategory category (commit :: commits) =
        if commit.category = category then commit :: inCategory category commits
        else inCategory category commits := by
      intro category
      rw [inCategory, List.filter_cons]
      simp only [beq_iff_eq]
      rfl
    simp only [Category.all, List.flatMap_cons, List.flatMap_nil, List.append_nil, hcons] at ih ⊢
    have hcons' := ih.cons commit
    cases commit.category with
    | breaking => exact hcons'
    | features => exact List.perm_middle.trans hcons'
    | fixes =>
      rw [← List.append_assoc] at hcons' ⊢
      exact List.perm_middle.trans hcons'
    | other =>
      rw [← List.append_assoc, ← List.append_assoc] at hcons' ⊢
      exact List.perm_middle.trans hcons'

theorem inCategory_ne_nil_iff {category : Category} :
    inCategory category commits ≠ [] ↔ ∃ commit ∈ commits, commit.category = category := by
  rw [ne_eq, inCategory, List.filter_eq_nil_iff]
  simp

/-- A category has lines in the section if it has commits. -/
theorem categoryLines_eq_nil_iff {category : Category} :
    categoryLines commits category = [] ↔ inCategory category commits = [] := by
  rw [categoryLines]
  split
  next hempty => exact iff_of_true rfl (List.isEmpty_iff.1 hempty)
  next hempty =>
    refine iff_of_false (List.cons_ne_nil _ _) fun hnil => hempty ?_
    rw [hnil]
    rfl

/-! ## The next version -/

theorem Version.lt_mk_iff {v : Version} {major minor patch : Nat} :
    v < Version.mk major minor patch ↔ v.major < major ∨ v.major = major ∧
      (v.minor < minor ∨ v.minor = minor ∧ v.patch < patch) := by
  rw [Prod.Lex.lt_iff, Prod.Lex.lt_iff]
  rfl

theorem lt_nextVersion (previous : Version) (commits : List Commit) :
    previous < nextVersion previous commits := by
  rw [nextVersion]
  split
  · exact Version.lt_mk_iff.2 (by omega)
  · split
    · exact Version.lt_mk_iff.2 (by omega)
    · exact Version.lt_mk_iff.2 (by omega)

theorem Version.mk_inj {a b c a' b' c' : Nat} :
    Version.mk a b c = Version.mk a' b' c' ↔ a = a' ∧ b = b' ∧ c = c' := by
  rw [Version.mk, Version.mk, toLex_inj, Prod.mk.injEq, toLex_inj, Prod.mk.injEq]

theorem any_breaking_iff (h : ∀ commit ∈ commits, StartsAtOnce commit) :
    (commits.any fun commit => isBreaking commit.subject || hasBreakingNote commit.body) = true ↔
      inCategory .breaking commits ≠ [] := by
  rw [inCategory_ne_nil_iff, List.any_eq_true]
  exact exists_congr fun commit => and_congr_right fun hmem =>
    (category_breaking_iff (h commit hmem)).symm

theorem any_features_iff (h : ∀ commit ∈ commits, StartsAtOnce commit)
    (hnone : inCategory .breaking commits = []) :
    (commits.any fun commit => isType "feat" commit.subject) = true ↔
      inCategory .features commits ≠ [] := by
  rw [inCategory_ne_nil_iff, List.any_eq_true]
  refine exists_congr fun commit => and_congr_right fun hmem => ?_
  have hnot : commit.category ≠ .breaking := fun hbreaking =>
    inCategory_ne_nil_iff.2 ⟨commit, hmem, hbreaking⟩ hnone
  exact (category_features_iff (h commit hmem) hnot).symm

/-- What the next version says about the sections. -/
theorem nextVersion_cases (h : ∀ commit ∈ commits, StartsAtOnce commit) (previous : Version) :
    inCategory .breaking commits ≠ [] ∧
        nextVersion previous commits = Version.mk (previous.major + 1) 0 0 ∨
      (inCategory .breaking commits = [] ∧ inCategory .features commits ≠ []) ∧
        nextVersion previous commits = Version.mk previous.major (previous.minor + 1) 0 ∨
      (inCategory .breaking commits = [] ∧ inCategory .features commits = []) ∧
        nextVersion previous commits =
          Version.mk previous.major previous.minor (previous.patch + 1) := by
  rw [nextVersion]
  by_cases hbreaking : inCategory .breaking commits = []
  · have htest := (any_breaking_iff h).not.2 (not_not.2 hbreaking)
    rw [if_neg htest]
    by_cases hfeatures : inCategory .features commits = []
    · rw [if_neg ((any_features_iff h hbreaking).not.2 (not_not.2 hfeatures))]
      exact Or.inr (Or.inr ⟨⟨hbreaking, hfeatures⟩, rfl⟩)
    · rw [if_pos ((any_features_iff h hbreaking).2 hfeatures)]
      exact Or.inr (Or.inl ⟨⟨hbreaking, hfeatures⟩, rfl⟩)
  · rw [if_pos ((any_breaking_iff h).2 hbreaking)]
    exact Or.inl ⟨hbreaking, rfl⟩

def sampleSha : String := "1111111111111111111111111111111111111111"

/-- Version 1.2.3, out and complete. -/
def sampleCompleted : Release where
  id := 1
  tagName := "v1.2.3"
  targetCommitish := sampleSha
  name := "Camellia Remote Server 1.2.3"
  author := "app"
  draft := false
  prerelease := false
  immutable := true
  body := some (completeMarker sampleSha)
  assets := []

theorem completedReleases_sample :
    completedReleases [sampleCompleted] = .ok [(Version.mk 1 2 3, sampleCompleted)] := by
  have htag : parseTag sampleCompleted.tagName = some (Version.mk 1 2 3) := by decide +kernel
  have hdone : isCompleted sampleCompleted = true := by decide +kernel
  rw [completedReleases, collectCompleted, htag]
  simp only [List.contains_nil, hdone, if_true]
  rfl

def featureCommit : Commit := ⟨sampleSha, "feat(relay): add a limit".toList, []⟩

def featureLog : ReleaseLog := fun _ => .ok [featureCommit]

/-- The same commit with a blank at the start of its subject. -/
def indentedCommit : Commit := ⟨sampleSha, " feat(relay): add a limit".toList, []⟩

end RemoteServer.Releases
