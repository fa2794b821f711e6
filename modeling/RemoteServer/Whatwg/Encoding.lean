import RemoteServer.Whatwg.Url

/-!
# What percent-encoding leaves alone

Frameworks disagree about an encoded dot, slash, backslash or percent sign in a path (`marks`).
The parser does not decode them, but it encodes other characters, so that one might be put
together from what stood apart.

* `infix_of_encode`: a mark in an encoded text stands in the text itself.
* `infix_of_pathText`: one in a path stands in the text of the path.
-/

namespace Whatwg

/-- The encoded dot, slash, backslash and percent sign, in lowercase. -/
def marks : List (List Char) := ["%2e".toList, "%2f".toList, "%5c".toList, "%25".toList]

section Encoding

variable {mark text : List Char}

/-- The bytes that the marks stand for. -/
def markBytes : List UInt8 := [0x2e, 0x2f, 0x5c, 0x25]

/-- Another byte is not encoded as a mark, and its digits are no percent sign. -/
theorem percentEncode_not_mark : ∀ byte : UInt8, byte ∉ markBytes →
    toLower (percentEncode byte) ∉ marks ∧
      '%' ∉ (toLower (percentEncode byte)).drop 1 := by
  intro byte hbyte
  have hall : ∀ n : Fin 256, UInt8.ofNat n ∉ markBytes →
      toLower (percentEncode (UInt8.ofNat n)) ∉ marks ∧
        '%' ∉ (toLower (percentEncode (UInt8.ofNat n))).drop 1 := by
    decide +kernel
  have h := hall ⟨byte.toNat, byte.toNat_lt⟩
  rw [UInt8.ofNat_toNat] at h
  exact h hbyte

/-- The bytes of a character that is encoded in a path are not those of the marks. -/
theorem utf8EncodeChar_not_mark {c : Char} (h : inPathSet c = true) :
    ∀ byte ∈ String.utf8EncodeChar c, byte ∉ markBytes := by
  have hlarge : ∀ n : Nat, 128 ≤ n → n < 256 → UInt8.ofNat n ∉ markBytes := by
    intro n hle hlt hmem
    have hnat : (UInt8.ofNat n).toNat = n := UInt8.toNat_ofNat_of_lt' hlt
    simp only [markBytes, List.mem_cons, List.not_mem_nil, or_false] at hmem
    rcases hmem with heq | heq | heq | heq
    · rw [heq] at hnat
      have : (0x2e : UInt8).toNat = 46 := rfl
      omega
    · rw [heq] at hnat
      have : (0x2f : UInt8).toNat = 47 := rfl
      omega
    · rw [heq] at hnat
      have : (0x5c : UInt8).toNat = 92 := rfl
      omega
    · rw [heq] at hnat
      have : (0x25 : UInt8).toNat = 37 := rfl
      omega
  intro byte hbyte
  unfold String.utf8EncodeChar at hbyte
  dsimp only at hbyte
  split at hbyte
  · -- one byte, the character itself
    rename_i hascii
    obtain rfl := List.mem_singleton.1 hbyte
    have hall : ∀ n : Fin 128, inPathSet (Char.ofNat n) = true → UInt8.ofNat n ∉ markBytes := by
      decide +kernel
    have hc := hall ⟨c.toNat, Nat.lt_succ_of_le hascii⟩
    rw [Char.ofNat_toNat] at hc
    exact hc h
  · split at hbyte
    · simp only [List.mem_cons, List.not_mem_nil, or_false] at hbyte
      rcases hbyte with rfl | rfl <;> exact hlarge _ (by omega) (by omega)
    · split at hbyte
      · simp only [List.mem_cons, List.not_mem_nil, or_false] at hbyte
        rcases hbyte with rfl | rfl | rfl <;> exact hlarge _ (by omega) (by omega)
      · simp only [List.mem_cons, List.not_mem_nil, or_false] at hbyte
        rcases hbyte with rfl | rfl | rfl | rfl <;> exact hlarge _ (by omega) (by omega)

theorem length_of_mem_marks (h : mark ∈ marks) : mark.length = 3 := by
  have hall : ∀ mark ∈ marks, mark.length = 3 := by decide
  exact hall mark h

theorem toLower_append (xs ys : List Char) : toLower (xs ++ ys) = toLower xs ++ toLower ys :=
  List.map_append

/-- A mark after encoded bytes stands in what follows them. -/
theorem infix_of_bytes (hmark : mark ∈ marks) {bytes : List UInt8}
    (hbytes : ∀ byte ∈ bytes, byte ∉ markBytes) {rest : List Char}
    (h : mark <:+: toLower (bytes.flatMap percentEncode) ++ rest) : mark <:+: rest := by
  induction bytes with
  | nil => exact h
  | cons byte bytes ih =>
    refine ih (fun b hb => hbytes b (List.mem_cons_of_mem _ hb)) ?_
    obtain ⟨hnot, hdigits⟩ := percentEncode_not_mark byte (hbytes byte List.mem_cons_self)
    rw [List.flatMap_cons, toLower_append, List.append_assoc] at h
    generalize toLower (bytes.flatMap percentEncode) ++ rest = tail at h ⊢
    obtain ⟨d, e, hencode⟩ : ∃ d e, toLower (percentEncode byte) = ['%', d, e] := ⟨_, _, rfl⟩
    rw [hencode] at h hnot hdigits
    simp only [List.drop_succ_cons, List.drop_zero, List.mem_cons, List.not_mem_nil, or_false,
      not_or] at hdigits
    -- a mark starts with a percent sign, so it does not start at the digits
    have hstart : ∀ {c : Char} {l : List Char}, '%' ≠ c → mark <:+: c :: l → mark <:+: l := by
      intro c l hc hl
      rcases List.infix_cons_iff.1 hl with hprefix | hwithin
      · simp only [marks, List.mem_cons, List.not_mem_nil, or_false] at hmark
        rcases hmark with rfl | rfl | rfl | rfl <;>
          exact absurd (List.cons_prefix_cons.1 hprefix).1 hc
      · exact hwithin
    rcases List.infix_cons_iff.1 h with hprefix | hwithin
    · have htake := List.prefix_iff_eq_take.1 hprefix
      rw [length_of_mem_marks hmark] at htake
      have heq : mark = ['%', d, e] := htake
      exact absurd (heq ▸ hmark) hnot
    · exact hstart hdigits.2 (hstart hdigits.1 hwithin)

/-- What starts an encoded text and has no percent sign starts the text. -/
theorem prefix_of_encode {part : List Char} (hpart : '%' ∉ part)
    (h : part <+: toLower (encode inPathSet text)) : part <+: toLower text := by
  induction part generalizing text with
  | nil => exact List.nil_prefix
  | cons x part ih =>
    cases text with
    | nil => exact h
    | cons c rest =>
      rw [encode, List.flatMap_cons, toLower_append] at h
      by_cases hset : inPathSet c = true
      · -- an encoded character starts with a percent sign
        exfalso
        obtain ⟨byte, bytes, hbytes⟩ : ∃ byte bytes, String.utf8EncodeChar c = byte :: bytes := by
          cases hbytes : String.utf8EncodeChar c with
          | nil =>
            have hnil := encodeChar_ne_nil inPathSet c
            simp [encodeChar, hset, hbytes] at hnil
          | cons byte bytes => exact ⟨byte, bytes, rfl⟩
        rw [encodeChar, if_pos hset, hbytes, List.flatMap_cons] at h
        have hx : x = '%' := (List.cons_prefix_cons.1 h).1
        exact hpart (hx ▸ List.mem_cons_self)
      · rw [encodeChar, if_neg hset] at h
        obtain ⟨hx, hrest⟩ := List.cons_prefix_cons.1 h
        refine List.cons_prefix_cons.2 ⟨hx, ih (fun hmem => hpart ?_) hrest⟩
        exact List.mem_cons_of_mem _ hmem

/-- A mark in an encoded text stands in the text. -/
theorem infix_of_encode (hmark : mark ∈ marks) (h : mark <:+: toLower (encode inPathSet text)) :
    mark <:+: toLower text := by
  induction text with
  | nil => exact h
  | cons c rest ih =>
    rw [encode, List.flatMap_cons, toLower_append] at h
    by_cases hset : inPathSet c = true
    · rw [encodeChar, if_pos hset] at h
      have hrest := infix_of_bytes hmark (utf8EncodeChar_not_mark hset) h
      exact List.infix_cons (ih hrest)
    · rw [encodeChar, if_neg hset] at h
      rcases List.infix_cons_iff.1 h with hprefix | hwithin
      · obtain ⟨x, y, rfl, hx, hy⟩ : ∃ x y, mark = ['%', x, y] ∧ x ≠ '%' ∧ y ≠ '%' := by
          simp only [marks, List.mem_cons, List.not_mem_nil, or_false] at hmark
          rcases hmark with rfl | rfl | rfl | rfl <;> exact ⟨_, _, rfl, by decide, by decide⟩
        obtain ⟨hc, htail⟩ := List.cons_prefix_cons.1 hprefix
        have hplain : '%' ∉ [x, y] := by simp [hx.symm, hy.symm]
        have hstart := List.cons_prefix_cons.2 ⟨hc, prefix_of_encode hplain htail⟩
        exact hstart.isInfix
      · exact List.infix_cons (ih hwithin)

/-! ## Paths -/

/-- What has no slash and starts before a slash ends before it. -/
theorem prefix_of_append_slash {part : List Char} (xs : List Char) {ys : List Char}
    (hpart : '/' ∉ part) (h : part <+: xs ++ '/' :: ys) : part <+: xs := by
  induction xs generalizing part with
  | nil =>
    cases part with
    | nil => exact List.nil_prefix
    | cons x part =>
      have hx : x = '/' := (List.cons_prefix_cons.1 h).1
      exact absurd (hx ▸ List.mem_cons_self) hpart
  | cons c xs ih =>
    cases part with
    | nil => exact List.nil_prefix
    | cons x part =>
      obtain ⟨hx, hrest⟩ := List.cons_prefix_cons.1 h
      refine List.cons_prefix_cons.2 ⟨hx, ih (fun hmem => hpart ?_) hrest⟩
      exact List.mem_cons_of_mem _ hmem

theorem infix_of_append_slash {part : List Char} (xs : List Char) {ys : List Char}
    (hpart : '/' ∉ part) (hne : part ≠ []) (h : part <:+: xs ++ '/' :: ys) : part <:+: xs ∨ part <:+: ys := by
  induction xs with
  | nil =>
    rcases List.infix_cons_iff.1 h with hprefix | hwithin
    · have hnil := List.prefix_nil.1 (prefix_of_append_slash [] hpart hprefix)
      exact absurd hnil hne
    · exact Or.inr hwithin
  | cons c xs ih =>
    rcases List.infix_cons_iff.1 h with hprefix | hwithin
    · exact Or.inl (prefix_of_append_slash (c :: xs) hpart hprefix).isInfix
    · rcases ih hwithin with hxs | hys
      · exact Or.inl (List.infix_cons hxs)
      · exact Or.inr hys

/-- What has no slash stands in one segment of a path. -/
theorem infix_of_flatMap_slash {part : List Char} (hpart : '/' ∉ part) (hne : part ≠ [])
    {segments : List (List Char)} (h : part <:+: segments.flatMap fun s => '/' :: s) :
    ∃ s ∈ segments, part <:+: s := by
  induction segments with
  | nil => exact absurd (List.infix_nil.1 h) hne
  | cons s segments ih =>
    have hrest : part <:+: s ++ segments.flatMap fun s => '/' :: s := by
      rcases infix_of_append_slash [] hpart hne h with hnil | hwithin
      · exact absurd (List.infix_nil.1 hnil) hne
      · exact hwithin
    cases segments with
    | nil =>
      rw [List.flatMap_nil, List.append_nil] at hrest
      exact ⟨s, List.mem_cons_self, hrest⟩
    | cons s' segments =>
      rw [List.flatMap_cons, List.cons_append] at hrest
      rcases infix_of_append_slash s hpart hne hrest with hs | hmore
      · exact ⟨s, List.mem_cons_self, hs⟩
      · have hmem := ih (List.infix_cons hmore)
        obtain ⟨found, hfound, hwithin⟩ := hmem
        exact ⟨found, List.mem_cons_of_mem _ hfound, hwithin⟩

/-- A mark in the path of a text stands in the text. -/
theorem infix_of_pathText (hmark : mark ∈ marks)
    (h : mark <:+: toLower ((parsePath [] (pathSegments text)).flatMap fun s => '/' :: s)) :
    mark <:+: toLower text := by
  have hlower : ∀ segments : List (List Char),
      toLower (segments.flatMap fun s => '/' :: s) =
        (segments.map toLower).flatMap fun s => '/' :: s := by
    intro segments
    induction segments with
    | nil => rfl
    | cons s segments ih =>
      rw [List.flatMap_cons, toLower_append, ih]
      rfl
  have hslash : '/' ∉ mark ∧ mark ≠ [] := by
    have hall : ∀ mark ∈ marks, '/' ∉ mark ∧ mark ≠ [] := by decide
    exact hall mark hmark
  rw [hlower] at h
  obtain ⟨s, hs, hwithin⟩ := infix_of_flatMap_slash hslash.1 hslash.2 h
  obtain ⟨segment, hsegment, rfl⟩ := List.mem_map.1 hs
  rcases mem_parsePath hsegment with hnil | rfl | ⟨hmem, -⟩
  · cases hnil
  · exact absurd (List.infix_nil.1 hwithin) hslash.2
  · obtain ⟨piece, hpiece, rfl⟩ := List.mem_map.1 hmem
    have hpart : piece <:+: text :=
      (infix_of_mem_splitOnP hpiece).trans (List.drop_suffix 1 text).isInfix
    exact (infix_of_encode hmark hwithin).trans (hpart.map Char.toLower)

end Encoding

end Whatwg
