import Mathlib.Data.List.DropRight

/-!
# The URL parser for `http` and `https`

The basic URL parser of the URL standard without a base URL, for the two special schemes.  The
states of the parser are functions here, each on the part of the input that its state reads:
what comes before a colon, then the authority up to a slash, a backslash, `?` or `#`, then the
path up to `?` or `#`.

* `parse` takes the host parser and the other schemes as parameters (`Rules`).
* `parsePath` is the path state: dot segments are resolved, and `parsePath_append` says how the
  path of a longer text goes on from that of a shorter one.
* `not_dot_of_mem_parsePath`: what is left has no dot segment.
* `parsePath_after_root`: a text whose path is the root does not change the path of what is
  written after it.
-/

namespace Whatwg

/-! ## Characters -/

/-- A C0 control or a space. -/
def isC0OrSpace (c : Char) : Bool := decide (c.toNat ≤ 0x20)

def isTabOrNewline (c : Char) : Bool := c == '\t' || c == '\n' || c == '\r'

/-- The input without C0 controls and spaces at its ends and without tabs and newlines. -/
def cleanInput (input : List Char) : List Char :=
  ((input.dropWhile isC0OrSpace).rdropWhile isC0OrSpace).filter fun c => !isTabOrNewline c

def hexDigit (n : Nat) : Char := if n < 10 then Char.ofNat (48 + n) else Char.ofNat (55 + n)

def percentEncode (byte : UInt8) : List Char :=
  ['%', hexDigit (byte.toNat / 16), hexDigit (byte.toNat % 16)]

/-- The C0 control percent-encode set, and these characters. -/
def inSet (more : List Nat) (c : Char) : Bool :=
  decide (c.toNat ≤ 0x1f) || decide (0x7e < c.toNat) || more.contains c.toNat

/-- The path percent-encode set. -/
def inPathSet : Char → Bool :=
  inSet [0x20, 0x22, 0x23, 0x3c, 0x3e, 0x3f, 0x5e, 0x60, 0x7b, 0x7d]

/-- The userinfo percent-encode set. -/
def inUserinfoSet : Char → Bool :=
  inSet [0x20, 0x22, 0x23, 0x2f, 0x3a, 0x3b, 0x3c, 0x3d, 0x3e, 0x3f, 0x40, 0x5b, 0x5c, 0x5d, 0x5e,
    0x60, 0x7b, 0x7c, 0x7d]

/-- The special-query percent-encode set. -/
def inQuerySet : Char → Bool := inSet [0x20, 0x22, 0x23, 0x27, 0x3c, 0x3e]

/-- The fragment percent-encode set. -/
def inFragmentSet : Char → Bool := inSet [0x20, 0x22, 0x3c, 0x3e, 0x60]

/-- UTF-8 percent-encode a character if it is in the set. -/
def encodeChar (set : Char → Bool) (c : Char) : List Char :=
  if set c then (String.utf8EncodeChar c).flatMap percentEncode else [c]

def encode (set : Char → Bool) (text : List Char) : List Char := text.flatMap (encodeChar set)

def toLower (text : List Char) : List Char := text.map Char.toLower

/-! ## Paths -/

def isSlash (c : Char) : Bool := c == '/' || c == '\\'

def isSingleDot (segment : List Char) : Bool :=
  [".".toList, "%2e".toList].contains (toLower segment)

def isDoubleDot (segment : List Char) : Bool :=
  ["..".toList, ".%2e".toList, "%2e.".toList, "%2e%2e".toList].contains (toLower segment)

def isDot (segment : List Char) : Bool := isSingleDot segment || isDoubleDot segment

/-- The end of a segment in the path state; `last` when no slash follows. -/
def pushSegment (last : Bool) (path : List (List Char)) (segment : List Char) : List (List Char) :=
  if isDoubleDot segment then if last then path.dropLast ++ [[]] else path.dropLast
  else if isSingleDot segment then if last then path ++ [[]] else path
  else path ++ [segment]

def parsePath (path : List (List Char)) : List (List Char) → List (List Char)
  | [] => path
  | [segment] => pushSegment true path segment
  | segment :: rest => parsePath (pushSegment false path segment) rest

/-- The segments of the text of a path, which is empty or starts with a slash. -/
def pathSegments (text : List Char) : List (List Char) :=
  ((text.drop 1).splitOnP isSlash).map (encode inPathSet)

/-! ## The authority -/

structure Rules where
  parseHost : List Char → Option String
  /-- What follows another scheme. -/
  other : List Char → List Char → Option (Option String)

structure Authority where
  username : List Char
  password : List Char
  host : String
  port : Option Nat
deriving DecidableEq

/-- The host state up to a colon outside of brackets, and what follows it. -/
def splitPort : Bool → List Char → List Char × Option (List Char)
  | _, [] => ([], none)
  | inside, c :: rest =>
    if c == ':' && !inside then ([], some rest)
    else
      let inside := c == '[' || (inside && c != ']')
      (c :: (splitPort inside rest).1, (splitPort inside rest).2)

def defaultPort (scheme : List Char) : Nat := if scheme = "http".toList then 80 else 443

/-- The port state: `none` is a failure. -/
def parsePort (scheme digits : List Char) : Option (Option Nat) :=
  if digits.isEmpty then some none
  else if digits.all Char.isDigit then
    let port := digits.foldl (fun n c => 10 * n + (c.toNat - 48)) 0
    if 65535 < port then none else some (if port = defaultPort scheme then none else some port)
  else none

def parseAuthority (rules : Rules) (scheme authority : List Char) : Option Authority :=
  let credentials := (authority.rdropWhile fun c => c != '@').dropLast
  let hostPort := splitPort false (authority.rtakeWhile fun c => c != '@')
  if hostPort.1.isEmpty then none
  else
    (rules.parseHost hostPort.1).bind fun host =>
      (parsePort scheme (hostPort.2.getD [])).map fun port =>
        { username := encode inUserinfoSet (credentials.takeWhile fun c => c != ':')
          password := encode inUserinfoSet ((credentials.dropWhile fun c => c != ':').drop 1)
          host := host
          port := port }

/-! ## The parser -/

structure Url where
  scheme : List Char
  username : List Char
  password : List Char
  host : Option String
  port : Option Nat
  path : List (List Char)
  query : Option (List Char)
  fragment : Option (List Char)
deriving DecidableEq

/-- The text of the path. -/
def Url.pathText (url : Url) : List Char := url.path.flatMap fun segment => '/' :: segment

def isSchemeChar (c : Char) : Bool := c.isAlphanum || c == '+' || c == '-' || c == '.'

/-- The scheme, in lowercase, and what follows its colon. -/
def parseScheme (input : List Char) : Option (List Char × List Char) :=
  if (input.head?).any Char.isAlpha then
    match input.dropWhile isSchemeChar with
    | ':' :: rest => some (toLower (input.takeWhile isSchemeChar), rest)
    | _ => none
  else none

def endsPath (c : Char) : Bool := c == '?' || c == '#'

def endsAuthority (c : Char) : Bool := isSlash c || endsPath c

/-- What follows the authority. -/
def parseTail (scheme : List Char) (authority : Authority) (tail : List Char) : Url :=
  let text := tail.takeWhile fun c => !endsPath c
  let rest := tail.dropWhile fun c => !endsPath c
  { scheme := scheme
    username := authority.username
    password := authority.password
    host := some authority.host
    port := authority.port
    path := parsePath [] (pathSegments text)
    query :=
      if rest.head? = some '?' then
        some (encode inQuerySet ((rest.drop 1).takeWhile fun c => c != '#'))
      else none
    fragment :=
      if '#' ∈ rest then
        some (encode inFragmentSet ((rest.dropWhile fun c => c != '#').drop 1))
      else none }

/-- From the special authority slashes state on. -/
def parseSpecial (rules : Rules) (scheme rest : List Char) : Option Url :=
  let rest := rest.dropWhile isSlash
  (parseAuthority rules scheme (rest.takeWhile fun c => !endsAuthority c)).map fun authority =>
    parseTail scheme authority (rest.dropWhile fun c => !endsAuthority c)

def isHttp (scheme : List Char) : Bool := scheme == "http".toList || scheme == "https".toList

def parse (rules : Rules) (input : List Char) : Option Url :=
  (parseScheme (cleanInput input)).bind fun (scheme, rest) =>
    if isHttp scheme then parseSpecial rules scheme rest
    else (rules.other scheme rest).map fun host => ⟨scheme, [], [], host, none, [], none, none⟩

/-! ## The path state -/

section Paths

variable {path : List (List Char)} {segment : List Char}

theorem parsePath_cons_of_ne {rest : List (List Char)} (h : rest ≠ []) :
    parsePath path (segment :: rest) = parsePath (pushSegment false path segment) rest := by
  cases rest with
  | nil => exact absurd rfl h
  | cons => rfl

/-- The path of a longer text goes on from that of a shorter one. -/
theorem parsePath_append (path xs : List (List Char)) {ys : List (List Char)} (h : ys ≠ []) :
    parsePath path (xs ++ ys) = parsePath (xs.foldl (pushSegment false) path) ys := by
  induction xs generalizing path with
  | nil => rfl
  | cons x xs ih =>
    have hne : xs ++ ys ≠ [] := by
      intro hnil
      exact h (List.append_eq_nil_iff.1 hnil).2
    rw [List.cons_append, parsePath_cons_of_ne hne, ih]
    rfl

theorem mem_pushSegment {last : Bool} {s : List Char} (h : s ∈ pushSegment last path segment) :
    s ∈ path ∨ s = [] ∨ s = segment ∧ isDot segment = false := by
  unfold pushSegment at h
  split at h
  · split at h
    · rcases List.mem_append.1 h with h | h
      · exact Or.inl (List.dropLast_subset path h)
      · exact Or.inr (Or.inl (List.mem_singleton.1 h))
    · exact Or.inl (List.dropLast_subset path h)
  · rename_i hdouble
    split at h
    · split at h
      · rcases List.mem_append.1 h with h | h
        · exact Or.inl h
        · exact Or.inr (Or.inl (List.mem_singleton.1 h))
      · exact Or.inl h
    · rename_i hsingle
      rcases List.mem_append.1 h with h | h
      · exact Or.inl h
      · refine Or.inr (Or.inr ⟨List.mem_singleton.1 h, ?_⟩)
        simp [isDot, hdouble, hsingle]

theorem mem_parsePath {segments : List (List Char)} {s : List Char}
    (h : s ∈ parsePath path segments) :
    s ∈ path ∨ s = [] ∨ s ∈ segments ∧ isDot s = false := by
  induction segments generalizing path with
  | nil => exact Or.inl h
  | cons segment rest ih =>
    have hpush : ∀ {last : Bool}, s ∈ pushSegment last path segment →
        s ∈ path ∨ s = [] ∨ s ∈ segment :: rest ∧ isDot s = false := by
      intro last h
      rcases mem_pushSegment h with h | h | ⟨rfl, hdot⟩
      · exact Or.inl h
      · exact Or.inr (Or.inl h)
      · exact Or.inr (Or.inr ⟨List.mem_cons_self, hdot⟩)
    by_cases hrest : rest = []
    · subst hrest
      exact hpush h
    · rw [parsePath_cons_of_ne hrest] at h
      rcases ih h with h | h | ⟨hmem, hdot⟩
      · exact hpush h
      · exact Or.inr (Or.inl h)
      · exact Or.inr (Or.inr ⟨List.mem_cons_of_mem _ hmem, hdot⟩)

/-- What is left of a path has no dot segment. -/
theorem not_dot_of_mem_parsePath {segments : List (List Char)} {s : List Char}
    (h : s ∈ parsePath [] segments) : isDot s = false := by
  rcases mem_parsePath h with h | rfl | ⟨-, hdot⟩
  · cases h
  · decide
  · exact hdot

theorem encodeChar_ne_nil (set : Char → Bool) (c : Char) : encodeChar set c ≠ [] := by
  unfold encodeChar
  split
  · unfold String.utf8EncodeChar
    dsimp only
    split
    · simp [percentEncode]
    · split
      · simp [percentEncode]
      · split <;> simp [percentEncode]
  · simp

theorem encode_eq_nil {set : Char → Bool} {text : List Char} (h : encode set text = []) :
    text = [] := by
  cases text with
  | nil => rfl
  | cons c rest =>
    rw [encode, List.flatMap_cons] at h
    exact absurd (List.append_eq_nil_iff.1 h).1 (encodeChar_ne_nil set c)

/-- Empty segments are all kept. -/
theorem foldl_pushSegment_replicate (path : List (List Char)) (k : Nat) :
    (List.replicate k []).foldl (pushSegment false) path = path ++ List.replicate k [] := by
  induction k generalizing path with
  | zero => simp
  | succ k ih =>
    rw [List.replicate_succ, List.foldl_cons, ih]
    have hpush : pushSegment false path [] = path ++ [[]] := rfl
    rw [hpush, List.append_assoc]
    rfl

/-- A text whose path is the root leaves nothing behind for a text that goes on after it. -/
theorem foldl_eq_nil_of_root {segments : List (List Char)} {k : Nat}
    (hlast : ∀ s ∈ segments.getLast?, s ≠ [])
    (h : parsePath [] (segments ++ List.replicate k []) = [[]]) (hne : segments ≠ []) :
    segments.foldl (pushSegment false) [] = [] := by
  cases k with
  | zero =>
    rw [List.replicate_zero, List.append_nil] at h
    obtain ⟨init, last, rfl⟩ : ∃ init last, segments = init ++ [last] :=
      ⟨segments.dropLast, segments.getLast hne, (List.dropLast_append_getLast hne).symm⟩
    have hlast : last ≠ [] := hlast last (by simp)
    rw [parsePath_append [] init (List.cons_ne_nil last [])] at h
    rw [List.foldl_append]
    generalize init.foldl (pushSegment false) [] = before at h ⊢
    show pushSegment false before last = []
    have hpush : pushSegment true before last = [[]] := h
    unfold pushSegment at hpush ⊢
    split
    · rename_i hdouble
      simpa [hdouble] using hpush
    · rename_i hdouble
      split
      · rename_i hsingle
        simpa [hdouble, hsingle] using hpush
      · rename_i hsingle
        simp only [hdouble, hsingle, Bool.false_eq_true, if_false] at hpush
        have hmem : last ∈ [[]] := hpush ▸ List.mem_append_right before (List.mem_singleton_self last)
        exact absurd (List.mem_singleton.1 hmem) hlast
  | succ k =>
    have hsplit : segments ++ List.replicate (k + 1) [] =
        (segments ++ List.replicate k []) ++ [[]] := by
      rw [List.append_assoc, List.replicate_succ']
    rw [hsplit, parsePath_append [] _ (List.cons_ne_nil [] []), List.foldl_append,
      foldl_pushSegment_replicate] at h
    have hpush : ∀ before : List (List Char), parsePath before [[]] = before ++ [[]] := fun _ => rfl
    rw [hpush] at h
    have hnil : segments.foldl (pushSegment false) [] ++ List.replicate k [] = [] :=
      List.append_cancel_right (h.trans (List.nil_append [[]]).symm)
    exact (List.append_eq_nil_iff.1 hnil).1

/-! ## The segments of a text -/

/-- The last piece of a text that ends in no separator is not empty. -/
theorem getLast?_splitOnP_ne_nil {p : Char → Bool} {text : List Char} (hne : text ≠ [])
    (hlast : ∀ c ∈ text.getLast?, p c = false) : ∀ s ∈ (text.splitOnP p).getLast?, s ≠ [] := by
  induction text with
  | nil => exact absurd rfl hne
  | cons c rest ih =>
    have hpieces := List.splitOnP_ne_nil p rest
    by_cases hrest : rest = []
    · subst hrest
      have hc : p c = false := hlast c (by simp)
      rw [List.splitOnP_cons_eq_if_modifyHead, hc, List.splitOnP_nil]
      simp
    · have hlast' : ∀ d ∈ rest.getLast?, p d = false := by
        intro d hd
        refine hlast d ?_
        rw [List.getLast?_cons, Option.mem_def.1 hd]
        rfl
      intro s hs
      rw [List.splitOnP_cons_eq_if_modifyHead] at hs
      split at hs
      · refine ih hrest hlast' s ?_
        rwa [List.getLast?_cons_of_ne_nil hpieces] at hs
      · cases hsplit : rest.splitOnP p with
        | nil => exact absurd hsplit hpieces
        | cons first more =>
          rw [hsplit, List.modifyHead_cons] at hs
          cases more with
          | nil =>
            obtain rfl : c :: first = s := by simpa using hs
            exact List.cons_ne_nil c first
          | cons second more =>
            refine ih hrest hlast' s ?_
            rw [hsplit]
            simpa [List.getLast?_cons_cons] using hs

/-- A piece of a text stands in the text. -/
theorem infix_of_mem_splitOnP {p : Char → Bool} {text s : List Char}
    (h : s ∈ text.splitOnP p) : s <:+: text := by
  -- the first piece is where the text starts
  have hboth : ∀ text : List Char, (∀ s ∈ (text.splitOnP p).head?, s <+: text) ∧
      ∀ s ∈ text.splitOnP p, s <:+: text := by
    intro text
    induction text with
    | nil => simp
    | cons c rest ih =>
      rw [List.splitOnP_cons_eq_if_modifyHead]
      split
      · refine ⟨by simp, fun s hs => ?_⟩
        rcases List.mem_cons.1 hs with rfl | hs
        · exact List.nil_infix
        · exact List.infix_cons (ih.2 s hs)
      · cases hsplit : rest.splitOnP p with
        | nil => exact absurd hsplit (List.splitOnP_ne_nil p rest)
        | cons first more =>
          rw [hsplit] at ih
          have hfirst : first <+: rest := ih.1 first rfl
          have hhead : c :: first <+: c :: rest := List.prefix_cons_inj c |>.2 hfirst
          rw [List.modifyHead_cons]
          refine ⟨fun s hs => ?_, fun s hs => ?_⟩
          · obtain rfl : c :: first = s := by simpa using hs
            exact hhead
          · rcases List.mem_cons.1 hs with rfl | hs
            · exact hhead.isInfix
            · exact List.infix_cons (ih.2 s (List.mem_cons_of_mem _ hs))
  exact (hboth text).2 s h

/-- The path of a text after one whose path is the root. -/
theorem parsePath_after_root {text : List Char} {k : Nat}
    (hlast : ∀ c ∈ text.getLast?, isSlash c = false)
    (hhead : ∀ c ∈ text.head?, isSlash c = true)
    (h : parsePath [] (pathSegments (text ++ List.replicate k '/')) = [[]]) (rest : List Char) :
    parsePath [] (pathSegments (text ++ '/' :: rest)) = parsePath [] (pathSegments ('/' :: rest)) := by
  cases text with
  | nil => rfl
  | cons c text =>
    have htext : text ≠ [] := by
      rintro rfl
      have hc : isSlash c = false := hlast c rfl
      rw [hhead c rfl] at hc
      cases hc
    have hlast' : ∀ d ∈ text.getLast?, isSlash d = false := by
      intro d hd
      refine hlast d ?_
      rw [List.getLast?_cons, Option.mem_def.1 hd]
      rfl
    have hpieces := getLast?_splitOnP_ne_nil htext hlast'
    have hslashes : ∀ k : Nat, pathSegments (c :: text ++ List.replicate k '/') =
        (text.splitOnP isSlash).map (encode inPathSet) ++ List.replicate k [] := by
      intro k
      induction k with
      | zero => simp [pathSegments]
      | succ k ih =>
        have hsplit : (text ++ List.replicate (k + 1) '/').splitOnP isSlash =
            (text ++ List.replicate k '/').splitOnP isSlash ++ [[]] := by
          rw [List.replicate_succ', ← List.append_assoc,
            List.splitOnP_append_cons _ [] (by decide : isSlash '/' = true), List.splitOnP_nil]
        simp only [pathSegments, List.cons_append, List.drop_succ_cons, List.drop_zero] at ih ⊢
        rw [hsplit, List.map_append, ih, List.replicate_succ', List.append_assoc]
        rfl
    rw [hslashes] at h
    have hroot := foldl_eq_nil_of_root (fun s hs => ?_) h ?_
    · have hsplit : (text ++ '/' :: rest).splitOnP isSlash =
          text.splitOnP isSlash ++ rest.splitOnP isSlash :=
        List.splitOnP_append_cons _ _ (by decide : isSlash '/' = true)
      simp only [pathSegments, List.cons_append, List.drop_succ_cons, List.drop_zero]
      rw [hsplit, List.map_append, parsePath_append _ _ (by simp [List.splitOnP_ne_nil]), hroot]
    · -- a piece that is not empty is not empty when it is encoded
      rw [List.getLast?_map] at hs
      obtain ⟨piece, hpiece, rfl⟩ := Option.map_eq_some_iff.1 (Option.mem_def.1 hs)
      exact fun hnil => hpieces piece hpiece (encode_eq_nil hnil)
    · simp [List.splitOnP_ne_nil]

end Paths

end Whatwg
