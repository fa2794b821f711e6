import RemoteServer.Whatwg.Url

/-!
# A path after an origin

A program has the text of an origin, such as `https://example.com/`, takes the slashes at its
end away and writes a path after it.

* `parse_origin_append`: if the text of the origin has no character that the parser drops and
  no backslash, the result has the same scheme, host and port, and its path is that of the
  text that was written after it.
* `parse_authority_append` is the same for a text that is a scheme and an authority only.
-/

namespace Whatwg

/-- The characters that the parser reads as they are. -/
def isPlain (c : Char) : Bool := !isC0OrSpace c && c != '\\'

/-- The path of a text after an authority. -/
def pathOf (text : List Char) : List (List Char) :=
  parsePath [] (pathSegments (text.takeWhile fun c => !endsPath c))

section Lists

variable {p : Char → Bool} {xs ys : List Char}

theorem takeWhile_append_of_nil (h : ys.takeWhile p = []) :
    (xs ++ ys).takeWhile p = xs.takeWhile p := by
  induction xs with
  | nil => exact h
  | cons x xs ih =>
    rw [List.cons_append, List.takeWhile_cons, List.takeWhile_cons, ih]

theorem dropWhile_append_of_nil (h : ys.dropWhile p = ys) :
    (xs ++ ys).dropWhile p = xs.dropWhile p ++ ys := by
  induction xs with
  | nil => exact h
  | cons x xs ih =>
    rw [List.cons_append, List.dropWhile_cons, List.dropWhile_cons, ih]
    split <;> rfl

theorem dropWhile_append_of_ne_nil (h : xs.dropWhile p ≠ []) :
    (xs ++ ys).dropWhile p = xs.dropWhile p ++ ys := by
  rw [List.dropWhile_append, if_neg]
  rw [List.isEmpty_iff]
  exact h

/-- What is left of a text ends as the text does. -/
theorem getLast?_dropWhile {c : Char} (h : c ∈ (xs.dropWhile p).getLast?) : c ∈ xs.getLast? := by
  have hsplit := List.takeWhile_append_dropWhile (p := p) (l := xs)
  rw [← hsplit, List.getLast?_append, Option.mem_def.1 h]
  rfl

theorem head?_dropWhile {c : Char} (h : c ∈ (xs.dropWhile p).head?) : p c = false := by
  induction xs with
  | nil => cases h
  | cons x xs ih =>
    rw [List.dropWhile_cons] at h
    split at h
    · exact ih h
    · rename_i hx
      obtain rfl : x = c := Option.some.inj h
      exact Bool.eq_false_iff.2 hx

end Lists

/-! ## The input -/

section Input

variable {base path : List Char}

theorem not_tab_of_not_C0 {c : Char} (h : isC0OrSpace c = false) : isTabOrNewline c = false := by
  have hlt : 0x20 < c.toNat := by simpa [isC0OrSpace] using h
  simp only [isTabOrNewline, Bool.or_eq_false_iff, beq_eq_false_iff_ne]
  refine ⟨⟨?_, ?_⟩, ?_⟩
  · rintro rfl
    exact absurd hlt (by decide)
  · rintro rfl
    exact absurd hlt (by decide)
  · rintro rfl
    exact absurd hlt (by decide)

theorem dropWhile_plain (path : List Char) (h : ∀ c ∈ base, isC0OrSpace c = false)
    (hne : base ≠ []) : (base ++ path).dropWhile isC0OrSpace = base ++ path := by
  cases base with
  | nil => exact absurd rfl hne
  | cons c base =>
    rw [List.cons_append, List.dropWhile_cons, if_neg]
    rw [h c List.mem_cons_self]
    exact Bool.false_ne_true

theorem cleanInput_plain (h : ∀ c ∈ base, isC0OrSpace c = false) : cleanInput base = base := by
  by_cases hne : base = []
  · subst hne
    rfl
  · have hdrop := dropWhile_plain [] h hne
    rw [List.append_nil] at hdrop
    have hend : base.rdropWhile isC0OrSpace = base := by
      rw [List.rdropWhile_eq_self_iff]
      intro hl
      rw [h _ (List.getLast_mem hl)]
      exact Bool.false_ne_true
    rw [cleanInput, hdrop, hend, List.filter_eq_self]
    intro c hc
    rw [not_tab_of_not_C0 (h c hc)]
    rfl

/-- Of a path after a plain text only the end is dropped. -/
theorem cleanInput_append (h : ∀ c ∈ base, isC0OrSpace c = false) (hne : base ≠ [])
    (hhead : path.head? = some '/') (htab : ∀ c ∈ path, isTabOrNewline c = false) :
    cleanInput (base ++ path) = base ++ path.rdropWhile isC0OrSpace := by
  have hkept : path.rdropWhile isC0OrSpace ≠ [] := by
    intro hnil
    have hall := List.rdropWhile_eq_nil_iff.1 hnil '/' (List.mem_of_head? hhead)
    exact absurd hall (by decide)
  have hend : (base ++ path).rdropWhile isC0OrSpace = base ++ path.rdropWhile isC0OrSpace := by
    rw [List.rdropWhile, List.reverse_append, dropWhile_append_of_ne_nil, List.reverse_append,
      List.reverse_reverse, List.rdropWhile]
    intro hnil
    exact hkept (by rw [List.rdropWhile, hnil, List.reverse_nil])
  rw [cleanInput, dropWhile_plain path h hne, hend, List.filter_eq_self]
  intro c hc
  rcases List.mem_append.1 hc with hc | hc
  · rw [not_tab_of_not_C0 (h c hc)]
    rfl
  · rw [htab c ((List.rdropWhile_prefix _ _).subset hc)]
    rfl

end Input

/-! ## The scheme -/

theorem parseScheme_append {name : List Char} (hall : ∀ c ∈ name, isSchemeChar c = true)
    (hhead : (name.head?).any Char.isAlpha = true) (rest : List Char) :
    parseScheme (name ++ ':' :: rest) = some (toLower name, rest) := by
  have hcolon : isSchemeChar ':' = false := by decide
  have hdrop : (name ++ ':' :: rest).dropWhile isSchemeChar = ':' :: rest := by
    rw [List.dropWhile_append_of_pos hall, List.dropWhile_cons, if_neg]
    rw [hcolon]
    exact Bool.false_ne_true
  have htake : (name ++ ':' :: rest).takeWhile isSchemeChar = name := by
    rw [List.takeWhile_append_of_pos hall, List.takeWhile_cons, if_neg, List.append_nil]
    rw [hcolon]
    exact Bool.false_ne_true
  have hhead' : ((name ++ ':' :: rest).head?).any Char.isAlpha = true := by
    cases name with
    | nil => cases hhead
    | cons c name => exact hhead
  rw [parseScheme, if_pos hhead', hdrop, htake]
  rfl

theorem parseScheme_eq_some {input scheme rest : List Char}
    (h : parseScheme input = some (scheme, rest)) :
    ∃ name, input = name ++ ':' :: rest ∧ scheme = toLower name ∧
      (∀ c ∈ name, isSchemeChar c = true) ∧ (name.head?).any Char.isAlpha = true := by
  unfold parseScheme at h
  split at h
  · rename_i hhead
    split at h
    · rename_i after hafter
      cases h
      have hsplit := List.takeWhile_append_dropWhile (p := isSchemeChar) (l := input)
      rw [hafter] at hsplit
      refine ⟨input.takeWhile isSchemeChar, hsplit.symm, rfl, ?_, ?_⟩
      · intro c hc
        exact List.mem_takeWhile_imp hc
      · cases input with
        | nil => cases hhead
        | cons c input =>
          have hc : c.isAlpha = true := hhead
          have hscheme : isSchemeChar c = true := by
            simp [isSchemeChar, Char.isAlphanum, hc]
          rw [List.takeWhile_cons, if_pos hscheme]
          exact hhead
    · cases h
  · cases h

/-! ## The authority and the path -/

section Special

variable {rules : Rules} {scheme : List Char}

theorem parseAuthority_nil : parseAuthority rules scheme [] = none := rfl

theorem endsAuthority_slash : endsAuthority '/' = true := rfl

theorem takeWhile_slash (rest : List Char) : ('/' :: rest).takeWhile (fun c => !endsPath c) =
    '/' :: rest.takeWhile fun c => !endsPath c := by
  have hslash : (!endsPath '/') = true := rfl
  rw [List.takeWhile_cons, if_pos hslash]

/-- An origin leaves no `?` and no `#` behind. -/
theorem parseTail_root {authority : Authority} {tail : List Char}
    (hquery : (parseTail scheme authority tail).query = none)
    (hfragment : (parseTail scheme authority tail).fragment = none) :
    ∀ c ∈ tail, endsPath c = false := by
  have hrest : tail.dropWhile (fun c => !endsPath c) = [] := by
    cases hdrop : tail.dropWhile (fun c => !endsPath c) with
    | nil => rfl
    | cons c rest =>
      exfalso
      have hc : (!endsPath c) = false := head?_dropWhile (p := fun c => !endsPath c) (by rw [hdrop]; rfl)
      rw [Bool.not_eq_false', endsPath, Bool.or_eq_true, beq_iff_eq, beq_iff_eq] at hc
      simp only [parseTail, hdrop] at hquery hfragment
      rcases hc with rfl | rfl
      · simp at hquery
      · simp at hfragment
  intro c hc
  have hall := List.dropWhile_eq_nil_iff.1 hrest c hc
  simpa using hall

/-- A path after the text of an origin. -/
theorem parseSpecial_append {text : List Char} {k : Nat} {origin : Url}
    (hlast : ∀ c ∈ text.getLast?, isSlash c = false)
    (h : parseSpecial rules scheme (text ++ List.replicate k '/') = some origin)
    (hpath : origin.path = [[]]) (hquery : origin.query = none) (hfragment : origin.fragment = none)
    (rest : List Char) :
    ∃ url, parseSpecial rules scheme (text ++ '/' :: rest) = some url ∧
      url.scheme = origin.scheme ∧ url.host = origin.host ∧ url.port = origin.port ∧
      url.path = pathOf ('/' :: rest) := by
  have hslashes : ∀ {q : Char → Bool}, q '/' = true →
      (List.replicate k '/').takeWhile (fun c => !q c) = [] ∧
      (List.replicate k '/').dropWhile (fun c => !q c) = List.replicate k '/' := by
    intro q hq
    cases k with
    | zero => exact ⟨rfl, rfl⟩
    | succ k => simp [List.replicate_succ, hq]
  have hslash : ∀ {q : Char → Bool}, q '/' = true →
      ('/' :: rest).takeWhile (fun c => !q c) = [] ∧
      ('/' :: rest).dropWhile (fun c => !q c) = '/' :: rest := by
    intro q hq
    simp [hq]
  have hleft : text.dropWhile isSlash ≠ [] := by
    intro hnil
    have hall := List.dropWhile_eq_nil_iff.1 hnil
    have htext : text = [] := by
      cases hgetLast : text.getLast? with
      | none => exact List.getLast?_eq_none_iff.1 hgetLast
      | some c =>
        have hc := hlast c hgetLast
        rw [hall c (List.mem_of_getLast? hgetLast)] at hc
        cases hc
    subst htext
    have hdrop : (List.replicate k '/').dropWhile isSlash = [] := by
      rw [List.dropWhile_eq_nil_iff]
      intro c hc
      rw [List.eq_of_mem_replicate hc]
      rfl
    simp only [parseSpecial, List.nil_append, hdrop, List.takeWhile_nil, parseAuthority_nil,
      Option.map_none] at h
    cases h
  simp only [parseSpecial, dropWhile_append_of_ne_nil hleft] at h ⊢
  have hlast' : ∀ c ∈ (text.dropWhile isSlash).getLast?, isSlash c = false :=
    fun c hc => hlast c (getLast?_dropWhile hc)
  generalize text.dropWhile isSlash = left at h hlast' ⊢
  rw [takeWhile_append_of_nil (hslashes endsAuthority_slash).1,
    dropWhile_append_of_nil (hslashes endsAuthority_slash).2] at h
  rw [takeWhile_append_of_nil (hslash endsAuthority_slash).1,
    dropWhile_append_of_nil (hslash endsAuthority_slash).2]
  obtain ⟨authority, hauthority, rfl⟩ := Option.map_eq_some_iff.1 h
  rw [hauthority]
  refine ⟨_, rfl, rfl, rfl, rfl, ?_⟩
  -- the text of the path
  have hplain := parseTail_root hquery hfragment
  have hlast'' : ∀ c ∈ (left.dropWhile fun c => !endsAuthority c).getLast?, isSlash c = false :=
    fun c hc => hlast' c (getLast?_dropWhile hc)
  have hhead : ∀ c ∈ (left.dropWhile fun c => !endsAuthority c).head?, isSlash c = true := by
    intro c hc
    have hends := head?_dropWhile hc
    have hnot := hplain c (List.mem_append_left _ (List.mem_of_head? hc))
    rw [Bool.not_eq_false', endsAuthority, hnot, Bool.or_false] at hends
    exact hends
  generalize left.dropWhile (fun c => !endsAuthority c) = tail at hpath hplain hlast'' hhead ⊢
  have hwhole : (tail ++ List.replicate k '/').takeWhile (fun c => !endsPath c) =
      tail ++ List.replicate k '/' := by
    rw [List.takeWhile_eq_self_iff]
    intro c hc
    rw [hplain c hc]
    rfl
  have hgoes : (tail ++ '/' :: rest).takeWhile (fun c => !endsPath c) =
      tail ++ '/' :: rest.takeWhile fun c => !endsPath c := by
    rw [List.takeWhile_append_of_pos, takeWhile_slash]
    intro c hc
    rw [hplain c (List.mem_append_left _ hc)]
    rfl
  have hroot : parsePath [] (pathSegments (tail ++ List.replicate k '/')) = [[]] := by
    rw [← hwhole]
    exact hpath
  show parsePath [] (pathSegments ((tail ++ '/' :: rest).takeWhile fun c => !endsPath c)) = _
  rw [hgoes, parsePath_after_root hlast'' hhead hroot, pathOf, takeWhile_slash]

/-- A path after a plain authority. -/
theorem path_of_parseSpecial {authority rest : List Char} {url : Url}
    (hauthority : ∀ c ∈ authority, endsAuthority c = false) (hne : authority ≠ [])
    (h : parseSpecial rules scheme ('/' :: '/' :: authority ++ '/' :: rest) = some url) :
    url.path = pathOf ('/' :: rest) := by
  have hslashes : ('/' :: '/' :: authority ++ '/' :: rest).dropWhile isSlash =
      authority ++ '/' :: rest := by
    cases authority with
    | nil => exact absurd rfl hne
    | cons c authority =>
      have hc := hauthority c List.mem_cons_self
      rw [endsAuthority, Bool.or_eq_false_iff] at hc
      have hslash : isSlash '/' = true := rfl
      simp [hslash, hc.1]
  have hpos : ∀ c ∈ authority, (!endsAuthority c) = true := by
    intro c hc
    rw [hauthority c hc]
    rfl
  simp only [parseSpecial, hslashes] at h
  obtain ⟨parsed, -, rfl⟩ := Option.map_eq_some_iff.1 h
  show parsePath [] (pathSegments (((authority ++ '/' :: rest).dropWhile _).takeWhile _)) = _
  rw [List.dropWhile_append_of_pos hpos, List.dropWhile_cons, if_neg (by decide), pathOf]

end Special

/-! ## The parser -/

theorem eq_append_colon {base name rest : List Char} {k : Nat}
    (h : base ++ List.replicate k '/' = name ++ ':' :: rest) :
    ∃ text, base = name ++ ':' :: text ∧ rest = text ++ List.replicate k '/' := by
  have hcolon : ':' ∉ List.replicate k '/' := fun hmem =>
    absurd (List.eq_of_mem_replicate hmem) (by decide)
  rcases List.append_eq_append_iff.1 h with ⟨mid, -, hslashes⟩ | ⟨mid, hbase, hmid⟩
  · exact absurd (hslashes ▸ List.mem_append_right _ List.mem_cons_self) hcolon
  · cases mid with
    | nil =>
      have hmem : ':' ∈ List.replicate k '/' := by
        rw [← List.nil_append (List.replicate k '/'), ← hmid]
        exact List.mem_cons_self
      exact absurd hmem hcolon
    | cons c mid =>
      obtain ⟨rfl, rfl⟩ := List.cons.inj hmid
      exact ⟨mid, hbase, rfl⟩

/-- What is left of a text that starts with a slash starts with it. -/
theorem head_rdropWhile {path : List Char} (h : path.head? = some '/') :
    ∃ rest, path.rdropWhile isC0OrSpace = '/' :: rest := by
  obtain ⟨after, hafter⟩ := List.rdropWhile_prefix isC0OrSpace path
  cases hdrop : path.rdropWhile isC0OrSpace with
  | nil =>
    have hall := List.rdropWhile_eq_nil_iff.1 hdrop '/' (List.mem_of_head? h)
    exact absurd hall (by decide)
  | cons c rest =>
    rw [hdrop] at hafter
    rw [← hafter] at h
    obtain rfl : c = '/' := Option.some.inj h
    exact ⟨rest, rfl⟩

/-- A path after the text of an origin, whose slashes at the end were taken away: the scheme, the
host and the port are those of the origin, and the path is that of the text. -/
theorem parse_origin_append {rules : Rules} {base path : List Char} {k : Nat} {origin : Url}
    (hplain : ∀ c ∈ base, isPlain c = true) (hlast : ∀ c ∈ base.getLast?, c ≠ '/')
    (h : parse rules (base ++ List.replicate k '/') = some origin)
    (hhttp : isHttp origin.scheme = true) (hpath : origin.path = [[]])
    (hquery : origin.query = none) (hfragment : origin.fragment = none)
    (hhead : path.head? = some '/') (htab : ∀ c ∈ path, isTabOrNewline c = false) :
    ∃ url, parse rules (base ++ path) = some url ∧ url.scheme = origin.scheme ∧
      url.host = origin.host ∧ url.port = origin.port ∧
      url.path = pathOf (path.rdropWhile isC0OrSpace) := by
  have hC0 : ∀ c ∈ base, isC0OrSpace c = false := by
    intro c hc
    have hc := hplain c hc
    rw [isPlain, Bool.and_eq_true, Bool.not_eq_true'] at hc
    exact hc.1
  have hclean : cleanInput (base ++ List.replicate k '/') = base ++ List.replicate k '/' := by
    refine cleanInput_plain fun c hc => ?_
    rcases List.mem_append.1 hc with hc | hc
    · exact hC0 c hc
    · rw [List.eq_of_mem_replicate hc]
      rfl
  rw [parse, hclean] at h
  obtain ⟨⟨scheme, rest⟩, hscheme, h⟩ := Option.bind_eq_some_iff.1 h
  dsimp only at h
  split at h
  · rename_i hspecial
    obtain ⟨name, hname, rfl, hall, halpha⟩ := parseScheme_eq_some hscheme
    obtain ⟨text, rfl, rfl⟩ := eq_append_colon hname
    have hlast' : ∀ c ∈ text.getLast?, isSlash c = false := by
      intro c hc
      have hbase : c ∈ (name ++ ':' :: text).getLast? := by
        rw [List.getLast?_append, List.getLast?_cons, Option.mem_def.1 hc]
        rfl
      have hslash := hlast c hbase
      have hback := hplain c (List.mem_of_getLast? hbase)
      rw [isPlain, Bool.and_eq_true, bne_iff_ne] at hback
      simp [isSlash, hslash, hback.2]
    obtain ⟨tail, htail⟩ := head_rdropWhile hhead
    obtain ⟨url, hurl, hsame⟩ := parseSpecial_append hlast' h hpath hquery hfragment tail
    refine ⟨url, ?_, ?_⟩
    · rw [parse, cleanInput_append hC0 (by simp) hhead htab, htail, List.append_assoc,
        List.cons_append, parseScheme_append hall halpha]
      exact (if_pos hspecial).trans hurl
    · rw [htail]
      exact hsame
  · rename_i hother
    obtain ⟨host, -, rfl⟩ := Option.map_eq_some_iff.1 h
    exact absurd hhttp hother

/-- A path after a scheme and an authority. -/
theorem parse_authority_append {rules : Rules} {name authority path : List Char} {url : Url}
    (hC0 : ∀ c ∈ name ++ ':' :: '/' :: '/' :: authority, isC0OrSpace c = false)
    (hname : ∀ c ∈ name, isSchemeChar c = true) (halpha : (name.head?).any Char.isAlpha = true)
    (hhttp : isHttp (toLower name) = true) (hauthority : ∀ c ∈ authority, endsAuthority c = false)
    (hne : authority ≠ []) (hhead : path.head? = some '/')
    (htab : ∀ c ∈ path, isTabOrNewline c = false)
    (h : parse rules (name ++ ':' :: '/' :: '/' :: authority ++ path) = some url) :
    url.path = pathOf (path.rdropWhile isC0OrSpace) := by
  obtain ⟨tail, htail⟩ := head_rdropWhile hhead
  rw [parse, cleanInput_append hC0 (by simp) hhead htab, htail, List.append_assoc,
    List.cons_append, parseScheme_append hname halpha] at h
  have hspecial : parseSpecial rules (toLower name) ('/' :: '/' :: authority ++ '/' :: tail) =
      some url := (if_pos hhttp).symm.trans h
  rw [htail]
  exact path_of_parseSpecial hauthority hne hspecial

end Whatwg
