import Mathlib.Data.List.Infix
import RemoteServer.RustStd.Basic

/-!
# Text of the Rust standard library

The methods of `char` and `str` that the server uses to read its settings.  A method of
`str` works on the characters of a string here; `len` is `String.utf8ByteSize`.
-/

namespace RustStd

/-- `char::is_whitespace`: the characters with the property `White_Space`. -/
def isWhitespace (c : Char) : Bool :=
  let n := c.toNat
  decide (9 ≤ n ∧ n ≤ 13) || n == 0x20 || n == 0x85 || n == 0xa0 || n == 0x1680 ||
    decide (0x2000 ≤ n ∧ n ≤ 0x200a) || n == 0x2028 || n == 0x2029 || n == 0x202f ||
    n == 0x205f || n == 0x3000

/-- `char::is_control`: the characters of the category `Cc`. -/
def isControl (c : Char) : Bool :=
  let n := c.toNat
  decide (n ≤ 0x1f) || decide (0x7f ≤ n ∧ n ≤ 0x9f)

/-- `as_bytes`. -/
def utf8 (s : String) : Bytes := s.toUTF8.data.toList

/-- `str::from_utf8`. -/
def fromUtf8 (bytes : Bytes) : Option String := String.fromUTF8? ⟨bytes.toArray⟩

@[simp] theorem length_utf8 (s : String) : (utf8 s).length = s.utf8ByteSize := by
  rfl

theorem fromUtf8_utf8 (s : String) : fromUtf8 (utf8 s) = some s := dif_pos s.isValidUTF8

namespace Str

/-- `trim`. -/
def trim (s : String) : String :=
  String.ofList (((s.toList.dropWhile isWhitespace).reverse.dropWhile isWhitespace).reverse)

theorem trim_of_not_whitespace {s : String} (h : ∀ c ∈ s.toList, isWhitespace c = false) :
    trim s = s := by
  have hdrop : ∀ {chars : List Char}, (∀ c ∈ chars, isWhitespace c = false) →
      chars.dropWhile isWhitespace = chars := by
    intro chars hchars
    cases chars with
    | nil => rfl
    | cons c rest =>
      refine List.dropWhile_cons_of_neg ?_
      rw [hchars c List.mem_cons_self]
      exact Bool.false_ne_true
  have hreverse : ∀ c ∈ s.toList.reverse, isWhitespace c = false :=
    fun c hc => h c (List.mem_reverse.1 hc)
  rw [trim, hdrop h, hdrop hreverse, List.reverse_reverse, String.ofList_toList]

/-- `split` at a character. -/
def split (sep : Char) (s : String) : List String :=
  (s.toList.splitOn sep).map String.ofList

/-- `trim_end_matches` of a character. -/
def trimEndMatches (c : Char) (s : String) : String :=
  String.ofList ((s.toList.reverse.dropWhile fun d => d == c).reverse)

/-- `to_ascii_lowercase`. -/
def toAsciiLowercase (s : String) : String :=
  String.ofList (s.toList.map Char.toLower)

/-- `split_once` at a character. -/
def splitOnce (sep : Char) (s : String) : Option (String × String) :=
  match s.toList.splitOn sep with
  | first :: second :: rest =>
    some (String.ofList first, String.ofList ([sep].intercalate (second :: rest)))
  | _ => none

/-- `split_whitespace`. -/
def splitWhitespace (s : String) : List String :=
  ((s.toList.splitOnP isWhitespace).filter fun piece => !piece.isEmpty).map String.ofList

/-- `lines`: without the line ends, and without an empty line at the end. -/
def lines (s : String) : List String :=
  let pieces := s.toList.splitOn '\n'
  let pieces := if pieces.getLast? = some [] then pieces.dropLast else pieces
  pieces.map fun piece =>
    String.ofList (if piece.getLast? = some '\r' then piece.dropLast else piece)

/-- `starts_with`. -/
def startsWith (start s : String) : Bool :=
  start.toList.isPrefixOf s.toList

/-- `ends_with`. -/
def endsWith (suffix s : String) : Bool :=
  suffix.toList.isSuffixOf s.toList

/-- `contains`. -/
def contains (part s : String) : Bool :=
  decide (part.toList <:+: s.toList)

/-- `eq_ignore_ascii_case`. -/
def eqIgnoreAsciiCase (s s' : String) : Bool :=
  toAsciiLowercase s == toAsciiLowercase s'

end Str

end RustStd
