import RemoteServer.RustStd.Split

/-!
# The texts of addresses

The text of an IPv4 address has digits and dots, that of an IPv6 address has hexadecimal digits
and colons, and that of a mapped one has all of them.  So a text says which kind its address is
of, and the dotted part says which IPv4 address is meant.

* `Ipv4Addr.toString_injective`: two IPv4 addresses have different texts.
* `Ipv4Addr.toIpv6Mapped_of_toIpv4Mapped`: a mapped address is the mapped form of its IPv4
  address.
* `Ipv4Addr.colon_not_mem_toString` and `Ipv6Addr.dot_not_mem_toString` are about the characters.
-/

namespace RustStd

theorem isDigit_of_mem_repr {n : Nat} {c : Char} (h : c ∈ n.repr.toList) : c.isDigit = true := by
  rw [Nat.repr, String.toList_ofList] at h
  exact Nat.isDigit_of_mem_toDigits (by decide) (by decide) h

/-! ## IPv4 -/

namespace Ipv4Addr

/-- The numbers between the dots. -/
def octets (ip : Ipv4Addr) : List String :=
  [ip.a.toNat.repr, ip.b.toNat.repr, ip.c.toNat.repr, ip.d.toNat.repr]

theorem isDigit_of_mem_octets {ip : Ipv4Addr} {piece : String} (hpiece : piece ∈ ip.octets)
    {c : Char} (h : c ∈ piece.toList) : c.isDigit = true := by
  simp only [octets, List.mem_cons, List.not_mem_nil, or_false] at hpiece
  rcases hpiece with rfl | rfl | rfl | rfl
  all_goals exact isDigit_of_mem_repr h

theorem toString_eq_join (ip : Ipv4Addr) : ip.toString = Str.join '.' ip.octets := by
  apply String.toList_inj.1
  rw [Str.toList_join]
  simp [toString, octets, List.intercalate]

theorem toString_injective {ip ip' : Ipv4Addr} (h : ip.toString = ip'.toString) : ip = ip' := by
  have hoctets : ∀ ip : Ipv4Addr, Str.split '.' ip.toString = ip.octets := by
    intro ip
    rw [toString_eq_join]
    refine Str.split_join (List.cons_ne_nil _ _) fun piece hpiece hdot => ?_
    exact absurd (isDigit_of_mem_octets hpiece hdot) (by decide)
  have hsame : ip.octets = ip'.octets := by rw [← hoctets, h, hoctets]
  have hvalue : ∀ {m n : UInt8}, m.toNat.repr = n.toNat.repr → m = n := by
    intro m n hrepr
    have hdigits : Nat.toDigits 10 m.toNat = Nat.toDigits 10 n.toNat := by
      rw [← String.toList_ofList (l := Nat.toDigits 10 m.toNat),
        ← String.toList_ofList (l := Nat.toDigits 10 n.toNat)]
      exact congrArg String.toList hrepr
    apply UInt8.toNat_inj.1
    rw [← Nat.ofDigitChars_ten_toDigits (n := m.toNat), hdigits, Nat.ofDigitChars_ten_toDigits]
  simp only [octets, List.cons.injEq, and_true] at hsame
  obtain ⟨ha, hb, hc, hd⟩ := hsame
  obtain ⟨a, b, c, d⟩ := ip
  obtain ⟨a', b', c', d'⟩ := ip'
  obtain rfl : a = a' := hvalue ha
  obtain rfl : b = b' := hvalue hb
  obtain rfl : c = c' := hvalue hc
  obtain rfl : d = d' := hvalue hd
  rfl

theorem colon_not_mem_toString (ip : Ipv4Addr) : ':' ∉ ip.toString.toList := by
  intro h
  rw [toString_eq_join] at h
  rcases Str.of_mem_join h with h | ⟨piece, hpiece, hc⟩
  · exact absurd h (by decide)
  · exact absurd (isDigit_of_mem_octets hpiece hc) (by decide)

theorem dot_mem_toString (ip : Ipv4Addr) : '.' ∈ ip.toString.toList := by
  simp [toString, String.toList_append]

end Ipv4Addr

/-! ## Mapped addresses -/

/-- The text that `Display` puts before the dotted part. -/
def mappedText (text : String) : String := "::ffff:" ++ text

theorem mappedText_inj {text text' : String} (h : mappedText text = mappedText text') :
    text = text' := by
  rw [mappedText, mappedText, ← String.toList_inj, String.toList_append, String.toList_append] at h
  exact String.toList_inj.1 (List.append_cancel_left h)

theorem colon_mem_mappedText (text : String) : ':' ∈ (mappedText text).toList := by
  rw [mappedText, String.toList_append]
  exact List.mem_append_left _ (by decide)

private theorem segment_of_octets (seg : UInt16) :
    UInt16.ofNat ((seg >>> 8).toUInt8.toNat * 256 + seg.toUInt8.toNat) = seg := by
  have hseg : seg.toNat < 65536 := seg.toNat_lt
  apply UInt16.toNat_inj.1
  rw [UInt16.toNat_ofNat_of_lt', UInt16.toNat_toUInt8, UInt16.toNat_toUInt8,
    UInt16.toNat_shiftRight]
  · simp only [UInt16.toNat_ofNat, Nat.reducePow, Nat.reduceMod, Nat.shiftRight_eq_div_pow]
    omega
  · simp only [UInt16.toNat_toUInt8, UInt16.toNat_shiftRight, UInt16.toNat_ofNat, Nat.reducePow,
      Nat.reduceMod, Nat.shiftRight_eq_div_pow]
    show _ < 65536
    omega

theorem Ipv4Addr.toIpv6Mapped_of_toIpv4Mapped {ip : Ipv6Addr} {v4 : Ipv4Addr}
    (h : ip.toIpv4Mapped = some v4) : v4.toIpv6Mapped = ip := by
  obtain ⟨segments⟩ := ip
  unfold Ipv6Addr.toIpv4Mapped at h
  split at h
  · rename_i hi lo hlist
    cases h
    have hseg : segments = #v[0, 0, 0, 0, 0, 0xffff, hi, lo] := by
      apply Vector.toList_inj.1
      exact hlist
    rw [hseg, toIpv6Mapped, Ipv6Addr.tailV4, segment_of_octets, segment_of_octets]
  · cases h

namespace Ipv6Addr

theorem toString_toIpv6Mapped (ip : Ipv4Addr) :
    ip.toIpv6Mapped.toString = mappedText ip.toString := by
  rw [toString, ip.toIpv4Mapped_toIpv6Mapped, mappedText]

theorem isLoopback_toIpv6Mapped (ip : Ipv4Addr) : ip.toIpv6Mapped.isLoopback = false := by
  simp [isLoopback, Ipv4Addr.toIpv6Mapped]

theorem toIpv4_toIpv6Mapped (ip : Ipv4Addr) : ip.toIpv6Mapped.toIpv4 = some ip :=
  ip.toIpv4Mapped_toIpv6Mapped

theorem digitChar_ne_dot : ∀ digit < 16, Nat.digitChar digit ≠ '.' := by decide

theorem dot_not_mem_toDigits (n : Nat) : '.' ∉ Nat.toDigits 16 n := by
  induction n using Nat.strong_induction_on with
  | h n ih =>
    by_cases hlt : n < 16
    · rw [Nat.toDigits_of_lt_base hlt, List.mem_singleton]
      exact (digitChar_ne_dot n hlt).symm
    · rw [Nat.toDigits_of_base_le (by decide) (not_lt.1 hlt), List.mem_append, List.mem_singleton]
      rintro (h | h)
      · exact ih (n / 16) (by omega) h
      · exact digitChar_ne_dot _ (Nat.mod_lt n (by decide)) h.symm

theorem dot_not_mem_joinSegments (segs : List UInt16) : '.' ∉ (joinSegments segs).toList := by
  have hsep : ":" = String.singleton ':' := by decide
  intro h
  rw [joinSegments, hsep] at h
  rcases Str.of_mem_join h with h | ⟨piece, hpiece, hc⟩
  · exact absurd h (by decide)
  · obtain ⟨seg, -, rfl⟩ := List.mem_map.1 hpiece
    rw [String.toList_ofList] at hc
    exact dot_not_mem_toDigits _ hc

/-- Only a mapped address has a dot in its text. -/
theorem dot_not_mem_toString {ip : Ipv6Addr} (h : ip.toIpv4Mapped = none) :
    '.' ∉ ip.toString.toList := by
  unfold toString
  rw [h]
  dsimp only
  split
  · rw [String.toList_append, String.toList_append]
    simp [dot_not_mem_joinSegments]
  · exact dot_not_mem_joinSegments _

end Ipv6Addr

end RustStd
