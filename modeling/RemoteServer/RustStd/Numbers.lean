import Mathlib.Data.Rat.Floor
import RemoteServer.RustStd.Text

/-!
# Numbers in texts

`str::parse` for `usize`, `i32` and `f64`, and what is done with an `f64` before it is stored as a
`usize`.  A `usize` has 64 bits.  The number of an `f64` is read exactly here, as a rational
number, so nothing is rounded before `round` is called.  The sum of two `i32` depends on how the
program was built.
-/

namespace RustStd

def usizeMax : Nat := 2 ^ 64 - 1

/-- `parse::<usize>()`. -/
def parseUsize (s : String) : Option Nat :=
  let digits := match s.toList with
    | '+' :: rest => rest
    | chars => chars
  if digits ≠ [] ∧ digits.all Char.isDigit ∧ Nat.ofDigitChars 10 digits 0 ≤ usizeMax then
    some (Nat.ofDigitChars 10 digits 0)
  else none

/-- `checked_mul`. -/
def checkedMul (a b : Nat) : Option Nat := if a * b ≤ usizeMax then some (a * b) else none

/-- An `f64`. -/
inductive F64 where
  | finite (value : ℚ)
  | infinite (negative : Bool)
  | nan
deriving DecidableEq

/-- A text that starts with a sign: whether it is a minus, and what follows. -/
def parseSign : List Char → Bool × List Char
  | '-' :: rest => (true, rest)
  | '+' :: rest => (false, rest)
  | chars => (false, chars)

def i32Min : ℤ := -2 ^ 31

def i32Max : ℤ := 2 ^ 31 - 1

/-- `parse::<i32>()`. -/
def parseI32 (s : String) : Option ℤ :=
  let (negative, digits) := parseSign s.toList
  let value : ℤ := Nat.ofDigitChars 10 digits 0
  let value := if negative then -value else value
  if digits ≠ [] ∧ digits.all Char.isDigit ∧ i32Min ≤ value ∧ value ≤ i32Max then some value
  else none

/-- How a thread ends that adds two numbers in a build with overflow checks. -/
inductive Panic where
  | addOverflow
deriving DecidableEq

/-- `+` of `i32`.  Without overflow checks the sum is taken modulo `2 ^ 32`. -/
def addI32 (overflowChecks : Bool) (a b : ℤ) : Except Panic ℤ :=
  if i32Min ≤ a + b ∧ a + b ≤ i32Max then .ok (a + b)
  else if overflowChecks then .error .addOverflow
  else .ok ((a + b).bmod (2 ^ 32))

/-- What follows the `e`. -/
def parseExponent (chars : List Char) : Option (Bool × Nat) :=
  let (negative, digits) := parseSign chars
  if digits ≠ [] ∧ digits.all Char.isDigit then some (negative, Nat.ofDigitChars 10 digits 0)
  else none

/-- The digits after a point, and what follows them. -/
def parseFraction : List Char → List Char × List Char
  | '.' :: rest => (rest.takeWhile Char.isDigit, rest.dropWhile Char.isDigit)
  | chars => ([], chars)

/-- A number without a sign: digits, perhaps with a point and an exponent. -/
def parseNumber (chars : List Char) : Option ℚ :=
  let whole := chars.takeWhile Char.isDigit
  let (fraction, rest) := parseFraction (chars.dropWhile Char.isDigit)
  let mantissa : ℚ := Nat.ofDigitChars 10 (whole ++ fraction) 0 / 10 ^ fraction.length
  if whole = [] ∧ fraction = [] then none
  else
    match rest with
    | [] => some mantissa
    | c :: rest =>
      if c = 'e' ∨ c = 'E' then
        (parseExponent rest).map fun (negative, exponent) =>
          if negative then mantissa / 10 ^ exponent else mantissa * 10 ^ exponent
      else none

/-- `parse::<f64>()`. -/
def parseF64 (s : String) : Option F64 :=
  let (negative, chars) := parseSign s.toList
  match parseNumber chars with
  | some value => some (.finite (if negative then -value else value))
  | none =>
    let word := String.ofList (chars.map Char.toLower)
    if word = "inf" ∨ word = "infinity" then some (.infinite negative)
    else if word = "nan" then some .nan
    else none

/-- `round`: to the nearest integer, and away from zero when there are two. -/
def roundAway (q : ℚ) : ℤ := if 0 ≤ q then ⌊q + 1 / 2⌋ else ⌈q - 1 / 2⌉

/-- `as usize`, for an integer. -/
def asUsize (n : ℤ) : Nat := min n.toNat usizeMax

theorem checkedMul_eq_some {a b n : Nat} (h : checkedMul a b = some n) :
    n = a * b ∧ n ≤ usizeMax := by
  unfold checkedMul at h
  split at h
  · rename_i hle
    obtain rfl := Option.some.inj h
    exact ⟨rfl, hle⟩
  · cases h

/-- A number of at least one half is not rounded to zero. -/
theorem one_le_asUsize_roundAway {q : ℚ} (h : 1 / 2 ≤ q) : 1 ≤ asUsize (roundAway q) := by
  have hfloor : 1 ≤ ⌊q + 1 / 2⌋ := by
    rw [Int.le_floor]
    push_cast
    linarith
  have hround : roundAway q = ⌊q + 1 / 2⌋ := if_pos (by linarith)
  rw [asUsize, hround, usizeMax]
  omega

/-- Rounding does not pass an integer. -/
theorem asUsize_roundAway_le {q : ℚ} (hpos : 0 ≤ q) {n : Nat} (h : q ≤ n) :
    asUsize (roundAway q) ≤ n := by
  have hfloor : ⌊q + 1 / 2⌋ < (n : ℤ) + 1 := by
    rw [Int.floor_lt]
    push_cast
    linarith
  have hround : roundAway q = ⌊q + 1 / 2⌋ := if_pos hpos
  rw [asUsize, hround]
  omega

end RustStd
