import Mathlib
import RemoteServer.RustStd.Text

/-!
# The protobuf wire format

The encoder of proto3 for the kinds of fields that are needed: numbers, text, bytes and
messages.  A field has a tag with its number and its wire type, and what has a length has the
length before it.  A number that is zero and empty text or bytes are not written.

The lemmas bound what the tags and lengths add to the payload.
-/

namespace RustStd.Protobuf

/-- The number of a field. -/
structure FieldNumber where
  num : Nat
  lt : num < 2 ^ 29

/-- Base 128, seven bits a byte, the lowest first. -/
def varint (n : Nat) : Bytes :=
  if n < 128 then [UInt8.ofNat n] else UInt8.ofNat (n % 128 + 128) :: varint (n / 128)
termination_by n
decreasing_by omega

def tag (field : FieldNumber) (wireType : Fin 8) : Bytes := varint (field.num * 8 + wireType)

/-- A field with a length: a message, or bytes that are not empty. -/
def lenField (field : FieldNumber) (payload : Bytes) : Bytes :=
  tag field 2 ++ varint payload.length ++ payload

def bytesField (field : FieldNumber) (payload : Bytes) : Bytes :=
  if payload.isEmpty then [] else lenField field payload

def stringField (field : FieldNumber) (s : String) : Bytes := bytesField field (utf8 s)

/-- An `int32`: a negative number is extended to 64 bits. -/
def int32Field (field : FieldNumber) (v : Int) : Bytes :=
  if v = 0 then [] else tag field 0 ++ varint (v % 2 ^ 64).toNat

theorem length_varint_le (k n : Nat) (h : n < 128 ^ (k + 1)) : (varint n).length ≤ k + 1 := by
  induction k generalizing n with
  | zero =>
    rw [varint, if_pos (by omega)]
    exact Nat.le_refl 1
  | succ k ih =>
    rw [varint]
    split
    · simp
    · have hdiv : n / 128 < 128 ^ (k + 1) := by
        rw [Nat.div_lt_iff_lt_mul (by omega), ← Nat.pow_succ]
        exact h
      have hle := ih (n / 128) hdiv
      rw [List.length_cons]
      omega

theorem length_tag_le (field : FieldNumber) (wireType : Fin 8) :
    (tag field wireType).length ≤ 5 := by
  have hlt := field.lt
  have htype := wireType.isLt
  refine length_varint_le 4 _ ?_
  omega

/-- A tag and a length take at most ten bytes. -/
theorem length_lenField_le (field : FieldNumber) {payload : Bytes}
    (h : payload.length < 2 ^ 35) : (lenField field payload).length ≤ payload.length + 10 := by
  have htag := length_tag_le field 2
  have hlen := length_varint_le 4 payload.length (by omega)
  rw [lenField, List.length_append, List.length_append]
  omega

theorem le_length_lenField (field : FieldNumber) (payload : Bytes) :
    payload.length ≤ (lenField field payload).length := by
  rw [lenField, List.length_append]
  omega

theorem length_bytesField_le (field : FieldNumber) {payload : Bytes}
    (h : payload.length < 2 ^ 35) : (bytesField field payload).length ≤ payload.length + 10 := by
  unfold bytesField
  split
  · exact Nat.zero_le _
  · exact length_lenField_le field h

theorem le_length_bytesField (field : FieldNumber) (payload : Bytes) :
    payload.length ≤ (bytesField field payload).length := by
  unfold bytesField
  split
  · rename_i hempty
    rw [List.isEmpty_iff.1 hempty, List.length_nil]
  · exact le_length_lenField field payload

theorem length_int32Field_le (field : FieldNumber) (v : Int) :
    (int32Field field v).length ≤ 15 := by
  unfold int32Field
  split
  · exact Nat.zero_le _
  · have htag := length_tag_le field 0
    have hnum := length_varint_le 9 (v % 2 ^ 64).toNat (by omega)
    rw [List.length_append]
    omega

end RustStd.Protobuf
