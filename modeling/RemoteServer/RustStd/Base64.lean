import RemoteServer.RustStd.Text

/-!
# Base64

The standard engine of base64: the standard alphabet, with padding.  Four digits stand for three
bytes; the last four can have padding in place of one or two digits.  The decoder takes only
what the encoder writes: the padding has to be there, and the bits that a digit has in excess
have to be zero.

* `decode_encode`: what was encoded is decoded.
* `utf8ByteSize_encode` and `trim_encode` are about the size of an encoded text and the spaces
  that it does not have.
-/

namespace RustStd.Base64

def alphabet : List Char :=
  "ABCDEFGHIJKLMNOPQRSTUVWXYZabcdefghijklmnopqrstuvwxyz0123456789+/".toList

/-- The digit for six bits. -/
def digit (n : Nat) : Char := alphabet.getD n '='

/-- The six bits of a digit. -/
def value (c : Char) : Option Nat := alphabet.idxOf? c

def encodeBytes : Bytes → List Char
  | [] => []
  | [x] => [digit (x.toNat / 4), digit (x.toNat % 4 * 16), '=', '=']
  | [x, y] =>
    [digit (x.toNat / 4), digit (x.toNat % 4 * 16 + y.toNat / 16), digit (y.toNat % 16 * 4), '=']
  | x :: y :: z :: rest =>
    digit (x.toNat / 4) :: digit (x.toNat % 4 * 16 + y.toNat / 16) ::
      digit (y.toNat % 16 * 4 + z.toNat / 64) :: digit (z.toNat % 64) :: encodeBytes rest

def encode (bytes : Bytes) : String := String.ofList (encodeBytes bytes)

/-- The last digits, before one character of padding. -/
def decodeLast (a b c : Char) : Option Bytes := do
  let x ← value a
  let y ← value b
  if c = '=' then
    if y % 16 = 0 then some [UInt8.ofNat (x * 4 + y / 16)] else none
  else
    let z ← value c
    if z % 4 = 0 then
      some [UInt8.ofNat (x * 4 + y / 16), UInt8.ofNat (y % 16 * 16 + z / 4)]
    else none

def decodeChars : List Char → Option Bytes
  | [] => some []
  | a :: b :: c :: d :: rest =>
    if d = '=' then if rest = [] then decodeLast a b c else none
    else do
      let x ← value a
      let y ← value b
      let z ← value c
      let w ← value d
      let bytes ← decodeChars rest
      some (UInt8.ofNat (x * 4 + y / 16) :: UInt8.ofNat (y % 16 * 16 + z / 4) ::
        UInt8.ofNat (z % 4 * 64 + w) :: bytes)
  | _ => none

def decode (text : String) : Option Bytes := decodeChars text.toList

/-! ## Digits -/

theorem digit_spec {n : Nat} (h : n < 64) :
    value (digit n) = some n ∧ digit n ≠ '=' ∧ isWhitespace (digit n) = false ∧
      (digit n).utf8Size = 1 := by
  have hall : ∀ n : Fin 64, value (digit n) = some n.1 ∧ digit n ≠ '=' ∧
      isWhitespace (digit n) = false ∧ (digit n).utf8Size = 1 := by
    decide +kernel
  exact hall ⟨n, h⟩

theorem value_digit {n : Nat} (h : n < 64) : value (digit n) = some n := (digit_spec h).1

theorem digit_ne_padding {n : Nat} (h : n < 64) : digit n ≠ '=' := (digit_spec h).2.1

/-- A byte from its bits. -/
theorem ofNat_eq {x : UInt8} {n : Nat} (h : n = x.toNat) : UInt8.ofNat n = x := by
  rw [h, UInt8.ofNat_toNat]

/-! ## The codec -/

theorem decodeChars_encodeBytes (bytes : Bytes) : decodeChars (encodeBytes bytes) = some bytes := by
  fun_induction encodeBytes bytes with
  | case1 => rfl
  | case2 x =>
    have hx := x.toNat_lt
    have h1 : value (digit (x.toNat / 4)) = some _ := value_digit (by omega)
    have h2 : value (digit (x.toNat % 4 * 16)) = some _ := value_digit (by omega)
    have hbits : x.toNat % 4 * 16 % 16 = 0 := by omega
    simp only [decodeChars, decodeLast, h1, h2, Option.bind_eq_bind, Option.bind_some, if_true,
      hbits, Option.some.injEq, List.cons.injEq, and_true]
    exact ofNat_eq (by omega)
  | case3 x y =>
    have hx := x.toNat_lt
    have hy := y.toNat_lt
    have h1 : value (digit (x.toNat / 4)) = some _ := value_digit (by omega)
    have h2 : value (digit (x.toNat % 4 * 16 + y.toNat / 16)) = some _ := value_digit (by omega)
    have h3 : value (digit (y.toNat % 16 * 4)) = some _ := value_digit (by omega)
    have hbits : y.toNat % 16 * 4 % 4 = 0 := by omega
    have hpad : digit (y.toNat % 16 * 4) ≠ '=' := digit_ne_padding (by omega)
    simp only [decodeChars, decodeLast, h1, h2, h3, Option.bind_eq_bind, Option.bind_some, if_true,
      hpad, if_false, hbits, Option.some.injEq, List.cons.injEq, and_true]
    exact ⟨ofNat_eq (by omega), ofNat_eq (by omega)⟩
  | case4 x y z rest ih =>
    have hx := x.toNat_lt
    have hy := y.toNat_lt
    have hz := z.toNat_lt
    have h1 : value (digit (x.toNat / 4)) = some _ := value_digit (by omega)
    have h2 : value (digit (x.toNat % 4 * 16 + y.toNat / 16)) = some _ := value_digit (by omega)
    have h3 : value (digit (y.toNat % 16 * 4 + z.toNat / 64)) = some _ := value_digit (by omega)
    have h4 : value (digit (z.toNat % 64)) = some _ := value_digit (by omega)
    have hpad : digit (z.toNat % 64) ≠ '=' := digit_ne_padding (by omega)
    simp only [decodeChars, h1, h2, h3, h4, Option.bind_eq_bind, Option.bind_some, hpad, if_false,
      ih, Option.some.injEq, List.cons.injEq, and_true]
    exact ⟨ofNat_eq (by omega), ofNat_eq (by omega), ofNat_eq (by omega)⟩

theorem decode_encode (bytes : Bytes) : decode (encode bytes) = some bytes := by
  rw [decode, encode, String.toList_ofList]
  exact decodeChars_encodeBytes bytes

/-- The characters of an encoded text. -/
theorem of_mem_encodeBytes {bytes : Bytes} {c : Char} (h : c ∈ encodeBytes bytes) :
    isWhitespace c = false ∧ c.utf8Size = 1 := by
  have hdigit : ∀ {n : Nat}, n < 64 → isWhitespace (digit n) = false ∧ (digit n).utf8Size = 1 :=
    fun hn => (digit_spec hn).2.2
  fun_induction encodeBytes bytes with
  | case1 => cases h
  | case2 x =>
    have hx := x.toNat_lt
    simp only [List.mem_cons, List.not_mem_nil, or_false] at h
    rcases h with rfl | rfl | rfl | rfl
    · exact hdigit (by omega)
    · exact hdigit (by omega)
    · decide
    · decide
  | case3 x y =>
    have hx := x.toNat_lt
    have hy := y.toNat_lt
    simp only [List.mem_cons, List.not_mem_nil, or_false] at h
    rcases h with rfl | rfl | rfl | rfl
    · exact hdigit (by omega)
    · exact hdigit (by omega)
    · exact hdigit (by omega)
    · decide
  | case4 x y z rest ih =>
    have hx := x.toNat_lt
    have hy := y.toNat_lt
    have hz := z.toNat_lt
    simp only [List.mem_cons] at h
    rcases h with rfl | rfl | rfl | rfl | h
    · exact hdigit (by omega)
    · exact hdigit (by omega)
    · exact hdigit (by omega)
    · exact hdigit (by omega)
    · exact ih h

theorem length_encodeBytes (bytes : Bytes) :
    (encodeBytes bytes).length = (bytes.length + 2) / 3 * 4 := by
  fun_induction encodeBytes bytes with
  | case1 => rfl
  | case2 x => simp
  | case3 x y => simp
  | case4 x y z rest ih =>
    simp only [List.length_cons, ih]
    omega

theorem utf8ByteSize_encode (bytes : Bytes) :
    (encode bytes).utf8ByteSize = (bytes.length + 2) / 3 * 4 := by
  have hsize : ∀ {text : List Char}, (∀ c ∈ text, c.utf8Size = 1) →
      (String.ofList text).utf8ByteSize = text.length := by
    intro text h
    induction text with
    | nil => rfl
    | cons c rest ih =>
      rw [String.ofList_cons, String.utf8ByteSize_append, String.utf8ByteSize_singleton,
        h c List.mem_cons_self, ih fun d hd => h d (List.mem_cons_of_mem c hd), List.length_cons]
      omega
  rw [encode, hsize fun c hc => (of_mem_encodeBytes hc).2, length_encodeBytes]

theorem trim_encode (bytes : Bytes) : Str.trim (encode bytes) = encode bytes := by
  refine Str.trim_of_not_whitespace fun c hc => ?_
  rw [encode, String.toList_ofList] at hc
  exact (of_mem_encodeBytes hc).1

end RustStd.Base64
