import Mathlib
import RemoteServer.Whatwg.Url

/-!
# URLs of schemes that are not special

The URL parser for a URL such as `tcp://host:port`: what follows the two slashes.  The host of such
a URL is opaque, that is a name that is not looked at any further, or an IPv6 address in brackets.
A name can be an IPv4 address.  The path is not split at a backslash, and there is no default port.

* `parseOpaqueHost` reads a host and `OpaqueHost.text` writes it.  Reading and writing IPv6
  addresses are parameters (`Ipv6Rules`).
* `parseNonSpecial` is the parser.
* `parseNonSpecial_plain` is what it does with a text that has only a host and a port, and
  `plain_of_parseNonSpecial` says when it is such a text.
* `IsHost.written` and `Readable.parse`: a host that was written is read again.
-/

namespace Whatwg

/-! ## Hosts -/

structure Ipv6Rules where
  Address : Type
  parse : List Char → Option Address
  serialize : Address → List Char
  parse_serialize : ∀ address, parse (serialize address) = some address
  serialize_char : ∀ address, ∀ c ∈ serialize address, c.isAlphanum = true ∨ c = ':'

inductive OpaqueHost (Address : Type) where
  | name (text : List Char)
  | ipv6 (address : Address)

variable {rules : Ipv6Rules}

/-- The forbidden host code points. -/
def isForbiddenHost (c : Char) : Bool :=
  [0x00, 0x09, 0x0a, 0x0d, 0x20, 0x23, 0x2f, 0x3a, 0x3c, 0x3e, 0x3f, 0x40, 0x5b, 0x5c, 0x5d, 0x5e,
    0x7c].contains c.toNat

/-- The host parser for an opaque host. -/
def parseOpaqueHost (rules : Ipv6Rules) (text : List Char) : Option (OpaqueHost rules.Address) :=
  match text with
  | '[' :: rest =>
    if rest.getLast? = some ']' then (rules.parse rest.dropLast).map .ipv6 else none
  | _ => if text.any isForbiddenHost then none else some (.name (encode (inSet []) text))

/-- The host serializer. -/
def OpaqueHost.text : OpaqueHost rules.Address → List Char
  | name text => text
  | ipv6 address => '[' :: rules.serialize address ++ [']']

/-! ## The parser -/

def endsOpaqueAuthority (c : Char) : Bool := c == '/' || endsPath c

/-- The port state: `none` is a failure. -/
def parseOpaquePort (digits : List Char) : Option (Option Nat) :=
  if digits = [] then some none
  else if digits.all Char.isDigit ∧ Nat.ofDigitChars 10 digits 0 ≤ 65535 then
    some (some (Nat.ofDigitChars 10 digits 0))
  else none

/-- The query percent-encode set. -/
def inOpaqueQuerySet : Char → Bool := inSet [0x20, 0x22, 0x23, 0x3c, 0x3e]

/-- The host and the port after the credentials. -/
def parseOpaqueHostPort (rules : Ipv6Rules) (hasCredentials : Bool) (text : List Char) :
    Option (Option (OpaqueHost rules.Address) × Option Nat) :=
  let (host, port) := splitPort false text
  if host = [] then
    -- an empty host is no host, and it cannot follow credentials or come before a port
    if hasCredentials || port.isSome then none else some (none, none)
  else
    (parseOpaqueHost rules host).bind fun host =>
      (parseOpaquePort (port.getD [])).map fun port => (some host, port)

/-- What follows the authority. -/
def opaqueTail (url : Url) (tail : List Char) : Url :=
  let text := tail.takeWhile fun c => !endsPath c
  let rest := tail.dropWhile fun c => !endsPath c
  { url with
    path :=
      if text = [] then [] else parsePath [] (((text.drop 1).splitOn '/').map (encode inPathSet))
    query :=
      if rest.head? = some '?' then
        some (encode inOpaqueQuerySet ((rest.drop 1).takeWhile fun c => c != '#'))
      else none
    fragment :=
      if '#' ∈ rest then
        some (encode inFragmentSet ((rest.dropWhile fun c => c != '#').drop 1))
      else none }

/-- From the authority state on, for a scheme that is not special. -/
def parseNonSpecial (rules : Ipv6Rules) (scheme rest : List Char) : Option Url :=
  let authority := rest.takeWhile fun c => !endsOpaqueAuthority c
  let credentials := (authority.rdropWhile fun c => c != '@').dropLast
  (parseOpaqueHostPort rules (authority.contains '@')
      (authority.rtakeWhile fun c => c != '@')).map fun (host, port) =>
    opaqueTail
      { scheme := scheme
        username := encode inUserinfoSet (credentials.takeWhile fun c => c != ':')
        password := encode inUserinfoSet ((credentials.dropWhile fun c => c != ':').drop 1)
        host := host.map fun host => String.ofList host.text
        port := port
        path := []
        query := none
        fragment := none }
      (rest.dropWhile fun c => !endsOpaqueAuthority c)

/-! ## The host and the port of a text -/

/-- The text is what stands before the colon and what stands after it. -/
theorem splitPort_eq (inside : Bool) (text : List Char) :
    text = (splitPort inside text).1 ++
      ((splitPort inside text).2.map fun port => ':' :: port).getD [] := by
  induction text generalizing inside with
  | nil => rfl
  | cons c rest ih =>
    rw [splitPort]
    split
    · rename_i hc
      have hc : c = ':' := by
        simp only [Bool.and_eq_true, beq_iff_eq] at hc
        exact hc.1
      rw [hc]
      rfl
    · dsimp only
      rw [List.cons_append, ← ih]

theorem splitPort_name {host : List Char} (h : ∀ c ∈ host, c ≠ ':' ∧ c ≠ '[') (port : List Char) :
    splitPort false (host ++ ':' :: port) = (host, some port) := by
  induction host with
  | nil => rfl
  | cons c rest ih =>
    obtain ⟨hcolon, hbracket⟩ := h c List.mem_cons_self
    have hc : (c == ':') = false := beq_false_of_ne hcolon
    have hb : (c == '[') = false := beq_false_of_ne hbracket
    rw [List.cons_append, splitPort]
    simp only [hc, hb, Bool.false_and, Bool.or_self, Bool.false_eq_true, if_false,
      ih fun d hd => h d (List.mem_cons_of_mem c hd)]

/-- Up to the closing bracket. -/
theorem splitPort_bracket {inner : List Char} (h : ']' ∉ inner) (port : List Char) :
    splitPort true (inner ++ ']' :: ':' :: port) = (inner ++ [']'], some port) := by
  induction inner with
  | nil => rfl
  | cons c rest ih =>
    have hc : (c != ']') = true := by
      simp only [bne_iff_ne]
      rintro rfl
      exact h List.mem_cons_self
    have hrest : ']' ∉ rest := fun hmem => h (List.mem_cons_of_mem c hmem)
    rw [List.cons_append, splitPort]
    simp only [hc, Bool.not_true, Bool.and_false, Bool.false_eq_true, if_false, Bool.and_self,
      Bool.or_true, ih hrest, List.cons_append]

/-! ## Texts with only a host and a port -/

section Plain

variable {scheme text : List Char}

theorem parseNonSpecial_plain (h : ∀ c ∈ text, endsOpaqueAuthority c = false) (hat : '@' ∉ text) :
    parseNonSpecial rules scheme text =
      (parseOpaqueHostPort rules false text).map fun (host, port) =>
        ⟨scheme, [], [], host.map fun host => String.ofList host.text, port, [], none, none⟩ := by
  have hall : ∀ c ∈ text, (!endsOpaqueAuthority c) = true := fun c hc => by rw [h c hc]; rfl
  have htake := List.takeWhile_eq_self_iff.2 hall
  have hdrop := List.dropWhile_eq_nil_iff.2 hall
  have hne : ∀ c ∈ text, (c != '@') = true := by
    intro c hc
    simp only [bne_iff_ne]
    rintro rfl
    exact hat hc
  have hcontains : text.contains '@' = false := by simpa using hat
  have hr : text.rtakeWhile (fun c => c != '@') = text := List.rtakeWhile_eq_self_iff.2 hne
  have hd : text.rdropWhile (fun c => c != '@') = [] := List.rdropWhile_eq_nil_iff.2 hne
  simp only [parseNonSpecial, htake, hdrop, hcontains, hr, hd]
  rfl

/-- A text without a slash and without credentials whose URL has no query and no fragment. -/
theorem plain_of_parseNonSpecial {url : Url} (h : parseNonSpecial rules scheme text = some url)
    (hslash : '/' ∉ text) (hquery : url.query = none) (hfragment : url.fragment = none) :
    ∀ c ∈ text, endsOpaqueAuthority c = false := by
  obtain ⟨pair, -, hurl⟩ := Option.map_eq_some_iff.1 h
  by_contra hends
  have htail : text.dropWhile (fun c => !endsOpaqueAuthority c) ≠ [] := by
    intro hnil
    refine hends fun c hc => ?_
    simpa using List.dropWhile_eq_nil_iff.1 hnil c hc
  cases hdrop : text.dropWhile (fun c => !endsOpaqueAuthority c) with
  | nil => exact htail hdrop
  | cons c rest =>
    have hmem : c ∈ text := by
      have hsub : text.dropWhile (fun c => !endsOpaqueAuthority c) ⊆ text :=
        (List.dropWhile_suffix _).subset
      exact hsub (hdrop ▸ List.mem_cons_self)
    have hc : endsOpaqueAuthority c = true := by
      have hhead := List.dropWhile_get_zero_not (fun c => !endsOpaqueAuthority c) text
        (by rw [hdrop]; exact Nat.zero_lt_succ _)
      simpa [hdrop] using hhead
    have hpath : endsPath c = true := by
      have hne : c ≠ '/' := fun he => hslash (he ▸ hmem)
      simpa [endsOpaqueAuthority, hne] using hc
    have hrest : (c :: rest).dropWhile (fun c => !endsPath c) = c :: rest :=
      List.dropWhile_cons_of_neg (by simp [hpath])
    rw [hdrop] at hurl
    subst hurl
    simp only [opaqueTail, hrest, List.head?_cons, Option.some.injEq] at hquery hfragment
    have hcases : c = '?' ∨ c = '#' := by simpa [endsPath] using hpath
    rcases hcases with rfl | rfl
    · simp at hquery
    · simp at hfragment

end Plain

/-! ## Writing and reading a host -/

section Text

variable {text : List Char} {host : OpaqueHost rules.Address}

theorem encode_eq_self {set : Char → Bool} (h : ∀ c ∈ text, set c = false) :
    encode set text = text := by
  induction text with
  | nil => rfl
  | cons c rest ih =>
    have hc : encodeChar set c = [c] := by
      rw [encodeChar, h c List.mem_cons_self]
      rfl
    rw [encode, List.flatMap_cons, hc]
    exact congrArg (c :: ·) (ih fun d hd => h d (List.mem_cons_of_mem c hd))

/-- A text in which a host is literally written: a name of printable ASCII characters, or an
IPv6 address in brackets. -/
inductive IsHost (rules : Ipv6Rules) : List Char → Prop where
  | name {text : List Char} (hne : text ≠ [])
    (hchar : ∀ c ∈ text, isForbiddenHost c = false ∧ 0x20 < c.toNat ∧ c.toNat ≤ 0x7e) :
    IsHost rules text
  | ipv6 {text : List Char} {address : rules.Address} (h : rules.parse text = some address) :
    IsHost rules ('[' :: text ++ [']'])

theorem isHost_of_parseOpaqueHost (hne : text ≠ [])
    (hchar : ∀ c ∈ text, 0x20 ≤ c.toNat ∧ c.toNat ≤ 0x7e)
    (h : parseOpaqueHost rules text = some host) : IsHost rules text := by
  unfold parseOpaqueHost at h
  split at h
  · rename_i rest
    split at h
    · rename_i hlast
      obtain ⟨address, haddress, -⟩ := Option.map_eq_some_iff.1 h
      have hrest : rest = rest.dropLast ++ [']'] := by
        have hne : rest ≠ [] := by
          rintro rfl
          cases hlast
        rw [List.getLast?_eq_getLast_of_ne_nil hne] at hlast
        rw [← Option.some.inj hlast, List.dropLast_append_getLast]
      rw [hrest, ← List.cons_append]
      exact .ipv6 haddress
    · cases h
  · split at h
    · cases h
    · rename_i hany
      refine .name hne fun c hc => ?_
      have hforbidden : isForbiddenHost c = false := by
        simpa using List.any_eq_false.1 (Bool.eq_false_iff.2 hany) c hc
      have hspace : c.toNat ≠ 0x20 := by
        intro heq
        simp [isForbiddenHost, heq] at hforbidden
      have hbounds := hchar c hc
      exact ⟨hforbidden, by omega, hbounds.2⟩

theorem parseOpaqueHost_ipv6 (address : rules.Address) :
    parseOpaqueHost rules (OpaqueHost.ipv6 address).text = some (.ipv6 address) := by
  show (if (rules.serialize address ++ [']']).getLast? = some ']' then
    (rules.parse (rules.serialize address ++ [']']).dropLast).map OpaqueHost.ipv6 else none) = _
  rw [List.getLast?_concat, if_pos rfl, List.dropLast_concat, rules.parse_serialize]
  rfl

theorem not_forbidden_bracket {c : Char} (h : isForbiddenHost c = false) : c ≠ '[' := by
  rintro rfl
  revert h
  decide

theorem parseOpaqueHost_name (hchar : ∀ c ∈ text, isForbiddenHost c = false ∧ 0x20 < c.toNat ∧
    c.toNat ≤ 0x7e) : parseOpaqueHost rules text = some (.name text) := by
  unfold parseOpaqueHost
  split
  · rename_i rest
    exact absurd rfl (not_forbidden_bracket (hchar '[' List.mem_cons_self).1)
  · have hany : text.any isForbiddenHost = false :=
      List.any_eq_false.2 fun c hc => by simp [(hchar c hc).1]
    have hset : ∀ c ∈ text, inSet [] c = false := by
      intro c hc
      obtain ⟨-, hlow, hhigh⟩ := hchar c hc
      simp only [inSet, List.contains_nil, Bool.or_false, Bool.or_eq_false_iff,
        decide_eq_false_iff_not]
      omega
    rw [if_neg (by rw [hany]; exact Bool.false_ne_true), encode_eq_self hset]

/-- What is known of the text of a host that can be read again. -/
structure Readable (rules : Ipv6Rules) (text : List Char) : Prop where
  isHost : IsHost rules text
  char : ∀ c ∈ text, endsOpaqueAuthority c = false ∧ c ≠ '@' ∧ 0x20 < c.toNat ∧ c.toNat ≤ 0x7e
  split : ∀ port, splitPort false (text ++ ':' :: port) = (text, some port)

theorem readable_name (hne : text ≠ []) (hchar : ∀ c ∈ text, isForbiddenHost c = false ∧
    0x20 < c.toNat ∧ c.toNat ≤ 0x7e) : Readable rules text := by
  have hnot : ∀ {c d : Char}, c ∈ text → isForbiddenHost d = true → c ≠ d := by
    rintro c d hc hd rfl
    rw [(hchar c hc).1] at hd
    cases hd
  refine ⟨.name hne hchar, fun c hc => ⟨?_, hnot hc (by decide), (hchar c hc).2⟩, ?_⟩
  · simp only [endsOpaqueAuthority, endsPath, Bool.or_eq_false_iff, beq_eq_false_iff_ne]
    exact ⟨hnot hc (by decide), hnot hc (by decide), hnot hc (by decide)⟩
  · exact splitPort_name fun c hc => ⟨hnot hc (by decide), hnot hc (by decide)⟩

theorem isAlphanum_bounds {c : Char} (h : c.isAlphanum = true) :
    48 ≤ c.toNat ∧ c.toNat ≤ 57 ∨ 65 ≤ c.toNat ∧ c.toNat ≤ 90 ∨ 97 ≤ c.toNat ∧ c.toNat ≤ 122 := by
  simp only [Char.isAlphanum, Char.isAlpha, Char.isUpper, Char.isLower, Char.isDigit,
    Bool.or_eq_true, Bool.and_eq_true, decide_eq_true_eq, ge_iff_le, UInt32.le_iff_toNat_le] at h
  have htoNat : c.toNat = c.val.toNat := rfl
  have hupper : 'A'.val.toNat = 65 ∧ 'Z'.val.toNat = 90 := ⟨rfl, rfl⟩
  have hlower : 'a'.val.toNat = 97 ∧ 'z'.val.toNat = 122 := ⟨rfl, rfl⟩
  have hdigit : '0'.val.toNat = 48 ∧ '9'.val.toNat = 57 := ⟨rfl, rfl⟩
  omega

/-- Letters and digits mean nothing to the parser. -/
theorem isAlphanum_plain {c : Char} (h : c.isAlphanum = true) :
    endsOpaqueAuthority c = false ∧ c ≠ '@' ∧ c ≠ ']' ∧ 0x20 < c.toNat ∧ c.toNat ≤ 0x7e := by
  have hbounds := isAlphanum_bounds h
  have hne : ∀ {d : Char}, d.toNat < 48 ∨ 57 < d.toNat ∧ d.toNat < 65 ∨
      90 < d.toNat ∧ d.toNat < 97 → c ≠ d := by
    rintro d hd rfl
    omega
  simp only [endsOpaqueAuthority, endsPath, Bool.or_eq_false_iff, beq_eq_false_iff_ne]
  exact ⟨⟨hne (by decide), hne (by decide), hne (by decide)⟩, hne (by decide), hne (by decide),
    by omega, by omega⟩

theorem readable_ipv6 (address : rules.Address) :
    Readable rules (OpaqueHost.ipv6 address).text := by
  -- the characters of an address, and the brackets
  have hinner : ∀ c ∈ rules.serialize address, endsOpaqueAuthority c = false ∧ c ≠ '@' ∧
      c ≠ ']' ∧ 0x20 < c.toNat ∧ c.toNat ≤ 0x7e := by
    intro c hc
    rcases rules.serialize_char address c hc with halnum | rfl
    · exact isAlphanum_plain halnum
    · decide
  refine ⟨.ipv6 (rules.parse_serialize address), fun c hc => ?_, fun port => ?_⟩
  · rcases List.mem_append.1 hc with hc | hc
    · rcases List.mem_cons.1 hc with rfl | hc
      · decide
      · obtain ⟨hends, hat, -, hbounds⟩ := hinner c hc
        exact ⟨hends, hat, hbounds⟩
    · obtain rfl := List.mem_singleton.1 hc
      decide
  · have hclose : ']' ∉ rules.serialize address := fun hmem => (hinner _ hmem).2.2.1 rfl
    have hsplit := splitPort_bracket hclose port
    have htext : (OpaqueHost.ipv6 address).text ++ ':' :: port =
        '[' :: (rules.serialize address ++ ']' :: ':' :: port) := by
      simp [OpaqueHost.text]
    rw [htext, splitPort]
    have hcolon : ('[' == ':') = false := rfl
    have hopen : ('[' == '[') = true := rfl
    simp only [hcolon, hopen, Bool.false_and, Bool.true_or, Bool.false_eq_true, if_false, hsplit]
    rfl

/-- A host is written so that it can be read again. -/
theorem IsHost.written (h : IsHost rules text) :
    ∃ host, parseOpaqueHost rules text = some host ∧ Readable rules host.text ∧
      parseOpaqueHost rules host.text = some host := by
  cases h with
  | name hne hchar =>
    have hparse : parseOpaqueHost rules text = some (.name text) := parseOpaqueHost_name hchar
    exact ⟨.name text, hparse, readable_name hne hchar, hparse⟩
  | @ipv6 inner address haddress =>
    refine ⟨.ipv6 address, ?_, readable_ipv6 address, parseOpaqueHost_ipv6 address⟩
    show (if (inner ++ [']']).getLast? = some ']' then
      (rules.parse (inner ++ [']']).dropLast).map OpaqueHost.ipv6 else none) = _
    rw [List.getLast?_concat, if_pos rfl, List.dropLast_concat, haddress]
    rfl

theorem IsHost.ne_nil (h : IsHost rules text) : text ≠ [] := by
  cases h with
  | name hne => exact hne
  | ipv6 => exact List.cons_ne_nil _ _

/-- A host and a port. -/
theorem Readable.parse (h : Readable rules text) (hhost : parseOpaqueHost rules text = some host)
    {digits : List Char} (hne : digits ≠ []) (hdigits : digits.all Char.isDigit = true)
    (hle : Nat.ofDigitChars 10 digits 0 ≤ 65535) (scheme : List Char) :
    parseNonSpecial rules scheme (text ++ ':' :: digits) =
      some ⟨scheme, [], [], some (String.ofList host.text), some (Nat.ofDigitChars 10 digits 0), [],
        none, none⟩ := by
  have hdigit : ∀ c ∈ digits, c.isAlphanum = true := by
    intro c hc
    simp [Char.isAlphanum, List.all_eq_true.1 hdigits c hc]
  have hchar : ∀ c ∈ text ++ ':' :: digits, endsOpaqueAuthority c = false ∧ c ≠ '@' := by
    intro c hc
    rcases List.mem_append.1 hc with hc | hc
    · exact ⟨(h.char c hc).1, (h.char c hc).2.1⟩
    · rcases List.mem_cons.1 hc with rfl | hc
      · decide
      · obtain ⟨hends, hat, -⟩ := isAlphanum_plain (hdigit c hc)
        exact ⟨hends, hat⟩
  rw [parseNonSpecial_plain (fun c hc => (hchar c hc).1) fun hmem => (hchar _ hmem).2 rfl]
  simp only [parseOpaqueHostPort, h.split, h.isHost.ne_nil, hhost, parseOpaquePort, hne, hdigits,
    hle, if_false, Option.getD_some, and_self, if_true, Option.bind_some, Option.map_some]

end Text

end Whatwg
