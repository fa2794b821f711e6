import Mathlib.Data.List.DropRight
import Mathlib.Data.List.Infix

/-!
# Text of the Python standard library

The methods of `str` that a script uses on text with markers in lines of their own.  A text is
the list of its characters.

* `splitlines`, `count`, `rstrip` and `strip` are the methods of these names, the last two without
  arguments.
* `universalNewlines` is what a file is read through in text mode.
* `lines` are the pieces between line feeds.  They are what `^` and `$` see in a regular
  expression with `re.MULTILINE`.  `joinLines` puts them together again.

The lemmas say what the functions give for two texts with a line feed between them, and for a
line alone.
-/

namespace PyStd

abbrev Text := List Char

/-- The characters at which `splitlines` splits. -/
def isLineBreak (c : Char) : Bool :=
  let n := c.toNat
  decide (0x0a ≤ n ∧ n ≤ 0x0d) || decide (0x1c ≤ n ∧ n ≤ 0x1e) || n == 0x85 || n == 0x2028 ||
    n == 0x2029

/-- `str.isspace` of one character. -/
def isSpace (c : Char) : Bool :=
  let n := c.toNat
  decide (9 ≤ n ∧ n ≤ 13) || decide (0x1c ≤ n ∧ n ≤ 0x20) || n == 0x85 || n == 0xa0 ||
    n == 0x1680 || decide (0x2000 ≤ n ∧ n ≤ 0x200a) || n == 0x2028 || n == 0x2029 ||
    n == 0x202f || n == 0x205f || n == 0x3000

def rstrip (s : Text) : Text := s.rdropWhile isSpace

def strip (s : Text) : Text := rstrip (s.dropWhile isSpace)

def lines (s : Text) : List Text := s.splitOn '\n'

/-- What `read_text` makes of the line ends of a file. -/
def universalNewlines : Text → Text
  | [] => []
  | '\r' :: '\n' :: rest => '\n' :: universalNewlines rest
  | c :: rest => (if c = '\r' then '\n' else c) :: universalNewlines rest

/-- `"\n".join`. -/
def joinLines (pieces : List Text) : Text := ['\n'].intercalate pieces

/-- `splitlines` after the characters `line` of the first line. -/
def splitlinesFrom (line : Text) : Text → List Text
  | [] => if line.isEmpty then [] else [line]
  | '\r' :: '\n' :: rest => line :: splitlinesFrom [] rest
  | c :: rest =>
    if isLineBreak c then line :: splitlinesFrom [] rest else splitlinesFrom (line ++ [c]) rest

def splitlines (s : Text) : List Text := splitlinesFrom [] s

/-- `count` when the next characters belong to an occurrence already. -/
def countFrom (sub : Text) : Nat → Text → Nat
  | _, [] => 0
  | skip + 1, _ :: rest => countFrom sub skip rest
  | 0, c :: rest =>
    if sub.isPrefixOf (c :: rest) then 1 + countFrom sub (sub.length - 1) rest
    else countFrom sub 0 rest

/-- `count` of a text that is not empty: the occurrences that do not overlap. -/
def count (sub s : Text) : Nat := countFrom sub 0 s

/-! ## Lines -/

theorem modifyHead_nil_append (pieces : List Text) :
    pieces.modifyHead (fun piece => [] ++ piece) = pieces := by
  cases pieces <;> rfl

/-- How often a line occurs does not depend on how empty lines are counted. -/
theorem count_splitlinesFrom {m : Text} (hm : m ≠ []) (line s : Text) :
    (splitlinesFrom line s).count m =
      ((s.splitOnP isLineBreak).modifyHead (line ++ ·)).count m := by
  induction line, s using splitlinesFrom.induct with
  | case1 line hempty =>
    rw [splitlinesFrom, if_pos hempty, List.isEmpty_iff.1 hempty, List.splitOnP_nil,
      modifyHead_nil_append, List.count_singleton, List.count_nil]
    simpa using Ne.symm hm
  | case2 line hne =>
    rw [splitlinesFrom, if_neg hne]
    simp
  | case3 line rest ih =>
    -- the empty piece between the two characters is no line of `m`
    have hr : isLineBreak '\r' = true := by decide
    have hn : isLineBreak '\n' = true := by decide
    have hempty : ([] : Text) ≠ m := fun h => hm h.symm
    rw [splitlinesFrom, List.count_cons, ih, modifyHead_nil_append,
      List.splitOnP_cons_eq_if_modifyHead, if_pos hr, List.splitOnP_cons_eq_if_modifyHead,
      if_pos hn]
    simp [List.count_cons, hempty]
  | case4 line c rest hcr hbreak ih =>
    rw [splitlinesFrom, if_pos hbreak, List.count_cons, ih, modifyHead_nil_append]
    · rw [List.splitOnP_cons_eq_if_modifyHead, if_pos hbreak]
      simp [List.count_cons]
    · exact hcr
  | case5 line c rest hcr hbreak ih =>
    rw [splitlinesFrom, if_neg hbreak, ih]
    · rw [List.splitOnP_cons_eq_if_modifyHead, if_neg hbreak, List.modifyHead_modifyHead]
      congr 2
      funext piece
      simp
    · exact hcr

/-- A line after a line feed. -/
theorem count_splitlines_append {m : Text} (hm : m ≠ []) (a b : Text) :
    (splitlines (a ++ '\n' :: b)).count m = (splitlines a).count m + (splitlines b).count m := by
  have hn : isLineBreak '\n' = true := by decide
  simp only [splitlines, count_splitlinesFrom hm, modifyHead_nil_append,
    List.splitOnP_append_cons _ _ hn, List.count_append]

/-- A text without line breaks is one line. -/
theorem count_splitlines_line {m line : Text} (hm : m ≠ [])
    (h : ∀ c ∈ line, isLineBreak c = false) :
    (splitlines line).count m = if line = m then 1 else 0 := by
  rw [splitlines, count_splitlinesFrom hm, modifyHead_nil_append, List.splitOnP_eq_singleton h,
    List.count_singleton]
  simp

theorem lines_append (a b : Text) : lines (a ++ '\n' :: b) = lines a ++ lines b :=
  List.splitOnP_append_cons (p := fun c => c == '\n') a b rfl

theorem lines_line {line : Text} (h : ∀ c ∈ line, isLineBreak c = false) : lines line = [line] := by
  refine List.splitOnP_eq_singleton fun c hc => ?_
  rw [beq_eq_false_iff_ne]
  rintro rfl
  exact absurd (h _ hc) (by decide)

theorem joinLines_cons (line : Text) {rest : List Text} (hrest : rest ≠ []) :
    joinLines (line :: rest) = line ++ '\n' :: joinLines rest := by
  rw [joinLines, List.intercalate_cons_of_ne_nil hrest, List.append_assoc]
  rfl

theorem joinLines_append {a b : List Text} (ha : a ≠ []) (hb : b ≠ []) :
    joinLines (a ++ b) = joinLines a ++ '\n' :: joinLines b := by
  induction a with
  | nil => exact absurd rfl ha
  | cons line a ih =>
    rw [List.cons_append, joinLines_cons line (List.append_ne_nil_of_right_ne_nil _ hb)]
    by_cases hnil : a = []
    · rw [hnil, List.nil_append, joinLines, joinLines, List.intercalate_singleton]
    · rw [ih hnil, joinLines_cons line hnil, List.append_assoc]
      rfl

theorem lines_joinLines {pieces : List Text} (hne : pieces ≠ [])
    (h : ∀ line ∈ pieces, '\n' ∉ line) : lines (joinLines pieces) = pieces :=
  List.splitOn_intercalate '\n' h hne

theorem universalNewlines_eq {s : Text} (h : '\r' ∉ s) : universalNewlines s = s := by
  induction s with
  | nil => rfl
  | cons c s ih =>
    rw [List.mem_cons, not_or] at h
    have hc : c ≠ '\r' := fun hc => h.1 hc.symm
    rw [universalNewlines, if_neg hc, ih h.2]
    intro rest hcr
    exact absurd hcr hc

/-- The characters of joined lines. -/
theorem mem_joinLines {pieces : List Text} {c : Char} (h : c ∈ joinLines pieces) :
    c = '\n' ∨ ∃ line ∈ pieces, c ∈ line := by
  induction pieces with
  | nil => cases h
  | cons line rest ih =>
    by_cases hrest : rest = []
    · rw [hrest, joinLines, List.intercalate_singleton] at h
      exact Or.inr ⟨line, List.mem_cons_self, h⟩
    · rw [joinLines_cons line hrest, List.mem_append, List.mem_cons] at h
      rcases h with h | h | h
      · exact Or.inr ⟨line, List.mem_cons_self, h⟩
      · exact Or.inl h
      · rcases ih h with h | ⟨piece, hpiece, hc⟩
        · exact Or.inl h
        · exact Or.inr ⟨piece, List.mem_cons_of_mem _ hpiece, hc⟩

/-- Only the blanks around are dropped. -/
theorem strip_append_newline {s : Text} {first last : Char} (hfirst : s.head? = some first)
    (hlast : s.getLast? = some last) (hf : isSpace first = false) (hl : isSpace last = false) :
    strip (s ++ ['\n']) = s := by
  obtain ⟨rest, rfl⟩ : ∃ rest, s = first :: rest := ⟨_, List.eq_cons_of_mem_head? hfirst⟩
  rw [strip, List.cons_append, List.dropWhile_cons_of_neg (by rw [hf]; exact Bool.false_ne_true),
    ← List.cons_append, rstrip, List.rdropWhile_concat_pos _ _ _ (by decide)]
  refine List.rdropWhile_eq_self_iff.2 fun hne => ?_
  rw [List.getLast?_eq_getLast_of_ne_nil hne, Option.some.injEq] at hlast
  rw [hlast, hl]
  exact Bool.false_ne_true

theorem lines_ne_nil (s : Text) : lines s ≠ [] := List.splitOn_ne_nil '\n' s

/-! ## Occurrences -/

section Separator

variable {sub : Text} {sep : Char}

/-- A text without the separator is at the start if it is before the separator. -/
theorem isPrefixOf_append (hsep : sep ∉ sub) (a b : Text) :
    sub.isPrefixOf (a ++ sep :: b) = sub.isPrefixOf a := by
  rw [Bool.eq_iff_iff, List.isPrefixOf_iff_prefix, List.isPrefixOf_iff_prefix]
  refine ⟨fun h => ?_, fun h => h.trans (List.prefix_append _ _)⟩
  rcases List.prefix_or_prefix_of_prefix h (List.prefix_append a (sep :: b)) with h' | h'
  · exact h'
  · obtain ⟨rest, rfl⟩ := h'
    rw [List.prefix_append_right_inj] at h
    cases rest with
    | nil => rw [List.append_nil]
    | cons c rest =>
      rw [List.cons_prefix_cons] at h
      rw [h.1] at hsep
      simp at hsep

/-- A text without the separator is on one side of it. -/
theorem infix_append (hsep : sep ∉ sub) {a b : Text} (h : sub <:+: a ++ sep :: b) :
    sub <:+: a ∨ sub <:+: b := by
  induction a with
  | nil =>
    rcases List.infix_cons_iff.1 h with h | h
    · have hnil : sub.isPrefixOf [] = true := by
        rw [← isPrefixOf_append hsep [] b]
        exact List.isPrefixOf_iff_prefix.2 h
      exact Or.inl (List.isPrefixOf_iff_prefix.1 hnil).isInfix
    · exact Or.inr h
  | cons c a ih =>
    rcases List.infix_cons_iff.1 h with h | h
    · have hprefix : sub.isPrefixOf (c :: a) = true := by
        rw [← isPrefixOf_append hsep (c :: a) b]
        exact List.isPrefixOf_iff_prefix.2 h
      exact Or.inl (List.isPrefixOf_iff_prefix.1 hprefix).isInfix
    · exact (ih h).imp_left List.infix_cons

theorem countFrom_append (hne : sub ≠ []) (hsep : sep ∉ sub) (a b : Text) {k : Nat}
    (hk : k ≤ a.length) :
    countFrom sub k (a ++ sep :: b) = countFrom sub k a + countFrom sub 0 b := by
  induction a generalizing k with
  | nil =>
    obtain rfl : k = 0 := Nat.le_zero.1 hk
    have hstart : sub.isPrefixOf (sep :: b) = false := by
      have h := isPrefixOf_append hsep [] b
      rw [List.nil_append] at h
      rw [h]
      cases sub with
      | nil => exact absurd rfl hne
      | cons => rfl
    show (if sub.isPrefixOf (sep :: b) then _ else countFrom sub 0 b) = 0 + countFrom sub 0 b
    rw [hstart, if_neg Bool.false_ne_true, Nat.zero_add]
  | cons c a ih =>
    rw [List.cons_append]
    cases k with
    | succ k =>
      rw [countFrom, countFrom]
      exact ih (Nat.le_of_succ_le_succ hk)
    | zero =>
      have hstart := isPrefixOf_append hsep (c :: a) b
      rw [List.cons_append] at hstart
      rw [countFrom, countFrom, hstart]
      split
      · rename_i hprefix
        have hlength := (List.isPrefixOf_iff_prefix.1 hprefix).length_le
        rw [List.length_cons] at hlength
        rw [ih (by omega)]
        omega
      · exact ih (Nat.zero_le _)

theorem count_append (hne : sub ≠ []) (hsep : sep ∉ sub) (a b : Text) :
    count sub (a ++ sep :: b) = count sub a + count sub b :=
  countFrom_append hne hsep a b (Nat.zero_le _)

end Separator

/-- Two neighbours are on one side of a separator, or the separator is the first of them. -/
theorem pair_infix_append {x y sep : Char} (hy : y ≠ sep) {a b : Text}
    (h : [x, y] <:+: a ++ sep :: b) :
    [x, y] <:+: a ∨ [x, y] <:+: b ∨ b.head? = some y := by
  induction a with
  | nil =>
    rcases List.infix_cons_iff.1 h with h | h
    · obtain ⟨rest, heq⟩ := h
      have htail : y :: rest = b := (List.cons.inj heq).2
      exact Or.inr (Or.inr (htail ▸ rfl))
    · exact Or.inr (Or.inl h)
  | cons c a ih =>
    rcases List.infix_cons_iff.1 h with h | h
    · obtain ⟨rest, heq⟩ := h
      obtain ⟨rfl, htail⟩ := List.cons.inj heq
      cases a with
      | nil => exact absurd (List.cons.inj htail).1 hy
      | cons d a =>
        obtain ⟨rfl, -⟩ := List.cons.inj htail
        exact Or.inl ⟨[], a, rfl⟩
    · exact (ih h).imp_left List.infix_cons

/-- Where a text does not occur, it is not counted. -/
theorem count_eq_zero {sub s : Text} (h : ¬sub <:+: s) : count sub s = 0 := by
  rw [count]
  induction s with
  | nil => rfl
  | cons c s ih =>
    rw [List.infix_cons_iff, not_or] at h
    rw [countFrom, if_neg fun hprefix => h.1 (List.isPrefixOf_iff_prefix.1 hprefix)]
    exact ih h.2

/-- The first piece starts as the text does, or it is empty. -/
theorem head_of_splitOnP {p : Char → Bool} {y : Char} {s first : Text} {others : List Text}
    (h : s.splitOnP p = first :: others) (hhead : first.head? = some y) : s.head? = some y := by
  cases s with
  | nil =>
    rw [List.splitOnP_nil] at h
    rw [← (List.cons.inj h).1] at hhead
    cases hhead
  | cons c s =>
    rw [List.splitOnP_cons_eq_if_modifyHead] at h
    split at h
    · rw [← (List.cons.inj h).1] at hhead
      cases hhead
    · obtain ⟨first', others', hpieces⟩ := List.exists_cons_of_ne_nil (List.splitOnP_ne_nil p s)
      rw [hpieces] at h
      rw [← (List.cons.inj h).1] at hhead
      exact hhead

/-- Where no piece but the first can start with a character. -/
theorem head_of_mem_tail_splitOnP {p : Char → Bool} {y : Char} {s : Text}
    (h : ∀ x, p x = true → ¬[x, y] <:+: s) :
    ∀ piece ∈ (s.splitOnP p).tail, piece.head? ≠ some y := by
  induction s with
  | nil => simp
  | cons c s ih =>
    have hs : ∀ x, p x = true → ¬[x, y] <:+: s := fun x hx hwithin =>
      h x hx (List.infix_cons hwithin)
    rw [List.splitOnP_cons_eq_if_modifyHead]
    split
    next hc =>
      intro piece hpiece
      -- the first piece of the rest follows the separator
      obtain ⟨first, others, hpieces⟩ := List.exists_cons_of_ne_nil (List.splitOnP_ne_nil p s)
      rw [hpieces] at hpiece ih
      rcases List.mem_cons.1 hpiece with rfl | hpiece
      · intro hhead
        have hnext := head_of_splitOnP hpieces hhead
        obtain ⟨rest, rfl⟩ : ∃ rest, s = y :: rest := ⟨_, List.eq_cons_of_mem_head? hnext⟩
        exact h c hc ⟨[], rest, rfl⟩
      · exact ih hs piece hpiece
    next hc =>
      obtain ⟨first, others, hpieces⟩ := List.exists_cons_of_ne_nil (List.splitOnP_ne_nil p s)
      rw [hpieces] at ih ⊢
      exact ih hs

/-- Where no piece can start with a character. -/
theorem head_of_mem_splitOnP {p : Char → Bool} {y : Char} {s : Text} (hhead : s.head? ≠ some y)
    (h : ∀ x, p x = true → ¬[x, y] <:+: s) : ∀ piece ∈ s.splitOnP p, piece.head? ≠ some y := by
  intro piece hpiece
  obtain ⟨first, others, hpieces⟩ := List.exists_cons_of_ne_nil (List.splitOnP_ne_nil p s)
  have htail := head_of_mem_tail_splitOnP h
  rw [hpieces] at hpiece htail
  rcases List.mem_cons.1 hpiece with rfl | hpiece
  · exact fun hfirst => hhead (head_of_splitOnP hpieces hfirst)
  · exact htail piece hpiece

/-- A text that starts with another one has an occurrence of it. -/
theorem count_pos {sub line : Text} (hne : sub ≠ []) (h : sub <+: line) : 0 < count sub line := by
  cases line with
  | nil => exact absurd (List.prefix_nil.1 h) hne
  | cons c rest =>
    rw [count, countFrom, if_pos (List.isPrefixOf_iff_prefix.2 h)]
    omega

/-- A line occurs at most as often as its start. -/
theorem count_splitlines_le {m sub : Text} (hsub : sub ≠ []) (hstart : sub <+: m)
    (hbreak : ∀ c ∈ sub, isLineBreak c = false) (s : Text) :
    (splitlines s).count m ≤ count sub s := by
  have hm : m ≠ [] := by
    rintro rfl
    exact hsub (List.prefix_nil.1 hstart)
  rw [splitlines, count_splitlinesFrom hm, modifyHead_nil_append]
  -- line by line, from the first line break on
  induction hn : s.length using Nat.strongRecOn generalizing s with
  | ind n ih =>
    by_cases hall : ∀ c ∈ s, isLineBreak c = false
    · rw [List.splitOnP_eq_singleton hall, List.count_singleton]
      split
      · rename_i heq
        rw [beq_iff_eq.1 heq]
        exact count_pos hsub hstart
      · exact Nat.zero_le _
    · obtain ⟨c, hc, hcbreak⟩ : ∃ c ∈ s, isLineBreak c = true := by simpa using hall
      obtain ⟨a, b, rfl⟩ := List.append_of_mem hc
      have hsep : c ∉ sub := by
        intro hmem
        rw [hbreak c hmem] at hcbreak
        cases hcbreak
      rw [List.length_append, List.length_cons] at hn
      rw [List.splitOnP_append_cons a b hcbreak, List.count_append, count_append hsub hsep]
      have ha := ih a.length (by omega) a rfl
      have hb := ih b.length (by omega) b rfl
      omega

/-- Where the first character of a text does not occur, the text does not. -/
theorem countFrom_eq_zero {c : Char} {sub s : Text} (h : c ∉ s) (k : Nat) :
    countFrom (c :: sub) k s = 0 := by
  induction s generalizing k with
  | nil => cases k <;> rfl
  | cons d s ih =>
    rw [List.mem_cons, not_or] at h
    obtain ⟨hd, hs⟩ := h
    cases k with
    | succ k => exact ih hs k
    | zero =>
      have hstart : (c :: sub).isPrefixOf (d :: s) = false := by
        rw [List.isPrefixOf_cons_cons, beq_eq_false_iff_ne.2 hd, Bool.false_and]
      rw [countFrom, hstart, if_neg Bool.false_ne_true]
      exact ih hs 0

/-- A text whose first character comes only at the start of a line occurs there or not at all. -/
theorem count_head {c : Char} {sub rest : Text} (h : c ∉ rest) :
    count (c :: sub) (c :: rest) = if c :: sub <+: c :: rest then 1 else 0 := by
  rw [count, countFrom]
  by_cases hstart : c :: sub <+: c :: rest
  · rw [if_pos (List.isPrefixOf_iff_prefix.2 hstart), if_pos hstart, countFrom_eq_zero h]
  · rw [if_neg (fun h => hstart (List.isPrefixOf_iff_prefix.1 h)), if_neg hstart]
    exact countFrom_eq_zero h 0

end PyStd
