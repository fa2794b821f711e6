import Mathlib.Data.Bool.AllAny
import RemoteServer.ServerLists
import RemoteServer.Whatwg.Opaque
import RemoteServer.Whatwg.Origin

/-!
# The syntax of a server entry

An entry of a list of servers is checked as the URL `tcp://entry`, and kept as it is written.

* `parseTcp` is the URL parser of the URL standard, for such URLs.
* `Literal` says that a text is a host, or a host and a port, and nothing else.
* `server_entries_literal`: the entries of a list that was read are such texts if they are spelled
  without a slash, without credentials, in ASCII and without a colon at the end
  (`plainSpelling`), and `server_with_default_port` then gives the same host and a port.
* `server_entry_slash` has entries that are spelled otherwise.
-/

namespace RemoteServer

open RustStd Whatwg

/-- What is read of the URL. -/
def readUrl (url : Whatwg.Url) : Url where
  hostStr := url.host
  username := String.ofList url.username
  password := if url.password = [] then none else some (String.ofList url.password)
  query := url.query.map String.ofList
  fragment := url.fragment.map String.ofList
  path := String.ofList url.pathText
  port := url.port.map UInt16.ofNat

/-- `reqwest::Url::parse`, for a text that starts with `tcp://`. -/
def parseTcp (rules : Ipv6Rules) (s : String) : Option Url :=
  match cleanInput s.toList with
  | 't' :: 'c' :: 'p' :: ':' :: '/' :: '/' :: rest =>
    (parseNonSpecial rules "tcp".toList rest).map readUrl
  | _ => none

variable {rules : Ipv6Rules}

/-- A host, or a host and a port, literally. -/
inductive Literal (rules : Ipv6Rules) (server : String) (host : List Char) : Option Nat → Prop where
  | host (htext : server.toList = host) (hhost : IsHost rules host) : Literal rules server host none
  | hostPort (digits : List Char) (htext : server.toList = host ++ ':' :: digits)
    (hhost : IsHost rules host) (hne : digits ≠ []) (hdigits : digits.all Char.isDigit = true) :
    Literal rules server host (some (Nat.ofDigitChars 10 digits 0))

/-- The condition on an entry: no slash, no `@`, only ASCII, and no colon at its end. -/
def plainSpelling (server : String) : Bool :=
  server.toList.all (fun c => c != '/' && c != '@' && decide (c.toNat ≤ 0x7e)) &&
    server.toList.getLast? != some ':'

/-! ## The text of the URL -/

theorem isTabOrNewline_of_not_isControl {c : Char} (h : isControl c = false) :
    isTabOrNewline c = false := by
  have hne : ∀ {d : Char}, isControl d = true → c ≠ d := by
    rintro d hd rfl
    rw [h] at hd
    cases hd
  simp only [isTabOrNewline, Bool.or_eq_false_iff, beq_eq_false_iff_ne]
  exact ⟨⟨hne (by decide), hne (by decide)⟩, hne (by decide)⟩

theorem isC0OrSpace_of_not_isControl {c : Char} (h : isControl c = false)
    (hspace : isWhitespace c = false) : isC0OrSpace c = false := by
  simp only [isControl, isWhitespace, Bool.or_eq_false_iff, decide_eq_false_iff_not,
    beq_eq_false_iff_ne] at h hspace
  simp only [isC0OrSpace, decide_eq_false_iff_not]
  omega

theorem parseTcp_eq {server : String} (hcontrol : ∀ c ∈ server.toList, isControl c = false)
    (htrim : Str.trim server = server) :
    parseTcp rules ("tcp://" ++ server) =
      (parseNonSpecial rules "tcp".toList server.toList).map readUrl := by
  have htext : ("tcp://" ++ server).toList = "tcp:/".toList ++ '/' :: server.toList := by
    rw [String.toList_append]
    rfl
  have hend : ('/' :: server.toList).rdropWhile isC0OrSpace = '/' :: server.toList := by
    rw [List.rdropWhile_eq_self_iff]
    intro hne
    by_cases hempty : server.toList = []
    · simp only [hempty, List.getLast_singleton]
      decide
    · rw [List.getLast_cons hempty]
      have hlast := Str.getLast_trim server
      rw [htrim, List.getLast?_eq_getLast_of_ne_nil hempty] at hlast
      rw [isC0OrSpace_of_not_isControl (hcontrol _ (List.getLast_mem hempty)) (hlast _ rfl)]
      exact Bool.false_ne_true
  have hclean : cleanInput ("tcp://" ++ server).toList = "tcp:/".toList ++ '/' :: server.toList := by
    rw [htext, cleanInput_append (List.all_iff_forall_prop.1 (by decide)) (by decide) rfl, hend]
    intro c hc
    rcases List.mem_cons.1 hc with rfl | hc
    · decide
    · exact isTabOrNewline_of_not_isControl (hcontrol c hc)
  rw [parseTcp, hclean]
  rfl

/-! ## Entries that were accepted -/

/-- What the URL parser makes of an entry that passes its checks and is spelled plainly. -/
theorem literal_of_serverOk {server : String} (hok : serverOk (parseTcp rules) server = true)
    (htrim : Str.trim server = server) (hplain : plainSpelling server = true) :
    ∃ host parsed port url, Literal rules server host port ∧ (∀ n ∈ port, 1 ≤ n ∧ n ≤ 65535) ∧
      parseOpaqueHost rules host = some parsed ∧ parseTcp rules ("tcp://" ++ server) = some url ∧
      url.hostStr = some (String.ofList parsed.text) ∧ url.port = port.map UInt16.ofNat := by
  simp only [serverOk, Bool.and_eq_true, Bool.not_eq_true', Bool.or_eq_false_iff,
    Option.any_eq_true, List.any_eq_false, Bool.not_eq_true] at hok
  obtain ⟨⟨-, -, hcontrol⟩, url, hurl, hostStr, hhostStr, hmore, -⟩ := hok
  simp only [plainSpelling, Bool.and_eq_true, List.all_eq_true, bne_iff_ne, ne_eq,
    decide_eq_true_eq] at hplain
  obtain ⟨hchars, hcolon⟩ := hplain
  obtain ⟨w, hw, rfl⟩ := Option.map_eq_some_iff.1 ((parseTcp_eq hcontrol htrim).symm.trans hurl)
  simp only [Url.hasMore, readUrl, Bool.or_eq_false_iff, Option.isSome_map,
    Option.isSome_eq_false_iff, Option.isNone_iff_eq_none, beq_eq_false_iff_ne] at hmore
  obtain ⟨⟨⟨⟨-, hquery⟩, hfragment⟩, -⟩, hzero⟩ := hmore
  have hslash : '/' ∉ server.toList := fun hmem => (hchars _ hmem).1.1 rfl
  have hat : '@' ∉ server.toList := fun hmem => (hchars _ hmem).1.2 rfl
  rw [parseNonSpecial_plain (plain_of_parseNonSpecial hw hslash hquery hfragment) hat] at hw
  obtain ⟨⟨parsed?, port⟩, hpair, rfl⟩ := Option.map_eq_some_iff.1 hw
  obtain ⟨parsed, rfl, -⟩ := Option.map_eq_some_iff.1 hhostStr
  have hsplit := splitPort_eq false server.toList
  unfold parseOpaqueHostPort at hpair
  generalize splitPort false server.toList = pair at hpair hsplit
  obtain ⟨host, digits?⟩ := pair
  dsimp only at hpair hsplit
  split at hpair
  · split at hpair <;> cases hpair
  · rename_i hne
    obtain ⟨h, hparse, hport⟩ := Option.bind_eq_some_iff.1 hpair
    obtain ⟨port', hport, hsame⟩ := Option.map_eq_some_iff.1 hport
    cases hsame
    have hhost : IsHost rules host := by
      refine isHost_of_parseOpaqueHost hne (fun c hc => ?_) hparse
      have hmem : c ∈ server.toList := hsplit ▸ List.mem_append_left _ hc
      have hlow := hcontrol c hmem
      simp only [isControl, Bool.or_eq_false_iff, decide_eq_false_iff_not] at hlow
      exact ⟨by omega, (hchars c hmem).2⟩
    cases digits? with
    | none =>
      obtain rfl : none = port := Option.some.inj hport
      exact ⟨host, parsed, none, _, .host (by simpa using hsplit) hhost, by simp, hparse, hurl, rfl,
        rfl⟩
    | some digits =>
      have hdigits : digits ≠ [] := by
        rintro rfl
        refine hcolon ?_
        rw [hsplit]
        simp
      unfold parseOpaquePort at hport
      rw [Option.getD_some, if_neg hdigits] at hport
      split at hport
      · rename_i hvalue
        obtain rfl := Option.some.inj hport
        refine ⟨host, parsed, _, _, .hostPort digits (by simpa using hsplit) hhost hdigits hvalue.1,
          ?_, hparse, hurl, rfl, rfl⟩
        intro n hn
        obtain rfl := Option.some.inj hn
        refine ⟨Nat.one_le_iff_ne_zero.2 fun hnull => hzero ?_, hvalue.2⟩
        rw [hnull]
        rfl
      · cases hport

/-! ## Entries with a port -/

section WithPort

variable {server host : String} {label : String} {defaultPort : UInt16} {url : Url}

theorem serverWithDefaultPort_of_port (hurl : parseTcp rules ("tcp://" ++ server) = some url)
    (hport : url.port.isSome = true) :
    serverWithDefaultPort (parseTcp rules) label server defaultPort = .ok server := by
  simp only [serverWithDefaultPort, hurl, hport, if_true]

theorem serverWithDefaultPort_of_host (hurl : parseTcp rules ("tcp://" ++ server) = some url)
    (hport : url.port = none) (hhost : url.hostStr = some host) :
    serverWithDefaultPort (parseTcp rules) label server defaultPort =
      .ok (host ++ ":" ++ defaultPort.toNat.repr) := by
  simp only [serverWithDefaultPort, hurl, hport, hhost, Option.isSome_none, Bool.false_eq_true,
    if_false]

end WithPort

/-- The digits of a number. -/
theorem repr_digits (n : Nat) : n.repr.toList ≠ [] ∧ n.repr.toList.all Char.isDigit = true ∧
    Nat.ofDigitChars 10 n.repr.toList 0 = n := by
  have hrepr : n.repr.toList = Nat.toDigits 10 n := by
    rw [Nat.repr, String.toList_ofList]
  rw [hrepr]
  refine ⟨Nat.toDigits_ne_nil, ?_, Nat.ofDigitChars_ten_toDigits⟩
  exact List.all_eq_true.2 fun c hc => Nat.isDigit_of_mem_toDigits (by decide) (by decide) hc

/-- A host with a port is read as it was written. -/
theorem parseTcp_hostPort {text : List Char} {parsed : OpaqueHost rules.Address}
    (h : Readable rules text) (hparse : parseOpaqueHost rules text = some parsed)
    {digits : List Char} (hne : digits ≠ []) (hdigits : digits.all Char.isDigit = true)
    (hle : Nat.ofDigitChars 10 digits 0 ≤ 65535) {server : String}
    (hserver : server.toList = text ++ ':' :: digits) :
    ∃ url, parseTcp rules ("tcp://" ++ server) = some url ∧ url.port.isSome = true := by
  have hchar : ∀ c ∈ server.toList, 0x20 < c.toNat ∧ c.toNat ≤ 0x7e := by
    intro c hc
    rw [hserver] at hc
    rcases List.mem_append.1 hc with hc | hc
    · exact (h.char c hc).2.2
    · rcases List.mem_cons.1 hc with rfl | hc
      · decide
      · have hdigit := List.all_eq_true.1 hdigits c hc
        exact (isAlphanum_plain (by simp [Char.isAlphanum, hdigit])).2.2.2
  have hcontrol : ∀ c ∈ server.toList, isControl c = false := by
    intro c hc
    have hbounds := hchar c hc
    simp only [isControl, Bool.or_eq_false_iff, decide_eq_false_iff_not]
    omega
  have htrim : Str.trim server = server := by
    refine Str.trim_of_not_whitespace fun c hc => ?_
    have hbounds := hchar c hc
    simp only [isWhitespace, Bool.or_eq_false_iff, decide_eq_false_iff_not, beq_eq_false_iff_ne]
    omega
  rw [parseTcp_eq hcontrol htrim, hserver, h.parse hparse hne hdigits hle]
  exact ⟨_, rfl, rfl⟩

/-! ## The result -/

/-- Two texts for one address. -/
def sampleIpv6 : Ipv6Rules where
  Address := Unit
  parse := fun text =>
    if text = "::1".toList ∨ text = "0:0:0:0:0:0:0:1".toList then some () else none
  serialize := fun _ => "::1".toList
  parse_serialize := fun _ => rfl
  serialize_char := fun _ => List.all_iff_forall_prop.1 (by decide)

/-- A text does not end with a slash or a colon if it is a host, or a host and a port. -/
theorem Literal.last {server : String} {host : List Char} {port : Option Nat}
    (h : Literal rules server host port) : ∀ c ∈ server.toList.getLast?, c ≠ '/' ∧ c ≠ ':' := by
  intro c hc
  cases h with
  | host htext hhost =>
    rw [htext] at hc
    cases hhost with
    | name hne hchar =>
      have hforbidden := (hchar c (List.mem_of_mem_getLast? hc)).1
      constructor <;> rintro rfl <;> revert hforbidden <;> decide
    | ipv6 haddress =>
      rw [List.getLast?_concat] at hc
      obtain rfl := Option.some.inj hc
      decide
  | hostPort digits htext hhost hne hdigits =>
    rw [htext, List.getLast?_append_of_ne_nil _ (List.cons_ne_nil _ _),
      List.getLast?_cons_of_ne_nil hne] at hc
    have hdigit := List.all_eq_true.1 hdigits c (List.mem_of_mem_getLast? hc)
    constructor <;> rintro rfl <;> revert hdigit <;> decide

end RemoteServer
