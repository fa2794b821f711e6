import Mathlib.Logic.Embedding.Basic
import RemoteServer.RustStd.AddressText

/-!
# Renaming addresses

`AddrRenaming` is a renaming of addresses together with the renaming of their texts.  It keeps
different addresses apart, keeps the ports, and keeps what the standard library can tell of an
address: whether it is a loopback address or the unspecified one.  A program that compares
addresses, or uses their texts as keys, cannot tell the renamed addresses from the others.

`exchange` is the renaming that the two forms of an IPv4 address give rise to: each chosen
address changes places with its mapped form.

* `exchangeIp_cases` says what it does to an address.
* `exchangeText_of_ne`: a text that is neither form of a chosen address is kept.
-/

namespace RustStd

/-- A renaming of addresses and of their texts. -/
structure AddrRenaming where
  ip : IpAddr ↪ IpAddr
  text : String ↪ String
  addr : SocketAddr → SocketAddr
  addr_ip : ∀ a, (addr a).ip = ip a.ip
  addr_port : ∀ a, (addr a).port = a.port
  addr_unspecified : addr .unspecified = .unspecified
  toString_ip : ∀ x, (ip x).toString = text x.toString
  isLoopback_ip : ∀ x, (ip x).isLoopback = x.isLoopback
  text_empty : text "" = ""

attribute [simp] AddrRenaming.addr_ip AddrRenaming.addr_port AddrRenaming.addr_unspecified
  AddrRenaming.toString_ip AddrRenaming.isLoopback_ip AddrRenaming.text_empty

namespace Mapped

variable (chosen : Ipv4Addr → Bool)

/-! ## Addresses -/

def exchangeIp : IpAddr → IpAddr
  | .v4 ip => if chosen ip then .v6 ip.toIpv6Mapped else .v4 ip
  | .v6 ip =>
    match ip.toIpv4Mapped with
    | some v4 => if chosen v4 then .v4 v4 else .v6 ip
    | none => .v6 ip

def exchangeAddr : SocketAddr → SocketAddr
  | .v4 ip port => if chosen ip then .v6 ip.toIpv6Mapped port 0 0 else .v4 ip port
  | .v6 ip port flowinfo scopeId =>
    match ip.toIpv4Mapped with
    | some v4 => if chosen v4 then .v4 v4 port else .v6 ip port flowinfo scopeId
    | none => .v6 ip port flowinfo scopeId

/-- The cases of an exchange: the address has a mapped form that is chosen, it is one, or neither
holds and it is kept. -/
theorem exchangeIp_cases (x : IpAddr) :
    (∃ ip, chosen ip = true ∧ x = .v4 ip ∧ exchangeIp chosen x = .v6 ip.toIpv6Mapped) ∨
      (∃ ip, chosen ip = true ∧ x = .v6 ip.toIpv6Mapped ∧ exchangeIp chosen x = .v4 ip) ∨
      exchangeIp chosen x = x ∧ ∀ ip, chosen ip = true → x ≠ .v4 ip ∧ x ≠ .v6 ip.toIpv6Mapped := by
  cases x with
  | v4 ip =>
    by_cases hchosen : chosen ip = true
    · exact Or.inl ⟨ip, hchosen, rfl, if_pos hchosen⟩
    · refine Or.inr (Or.inr ⟨if_neg hchosen, fun ip' hip' => ⟨?_, IpAddr.noConfusion⟩⟩)
      rintro h
      cases h
      exact hchosen hip'
  | v6 ip =>
    cases hmapped : ip.toIpv4Mapped with
    | none =>
      refine Or.inr (Or.inr ⟨by rw [exchangeIp, hmapped], fun ip' _ => ⟨IpAddr.noConfusion, ?_⟩⟩)
      rintro h
      cases h
      rw [Ipv4Addr.toIpv4Mapped_toIpv6Mapped] at hmapped
      cases hmapped
    | some v4 =>
      obtain rfl := Ipv4Addr.toIpv6Mapped_of_toIpv4Mapped hmapped
      by_cases hchosen : chosen v4 = true
      · refine Or.inr (Or.inl ⟨v4, hchosen, rfl, ?_⟩)
        simp [exchangeIp, hmapped, hchosen]
      · refine Or.inr (Or.inr ⟨by simp [exchangeIp, hmapped, hchosen],
          fun ip' hip' => ⟨IpAddr.noConfusion, ?_⟩⟩)
        rintro h
        rw [IpAddr.v6.injEq] at h
        rw [h, Ipv4Addr.toIpv4Mapped_toIpv6Mapped, Option.some.injEq] at hmapped
        rw [hmapped] at hip'
        exact hchosen hip'

theorem exchangeIp_involutive : Function.Involutive (exchangeIp chosen) := by
  intro x
  rcases exchangeIp_cases chosen x with ⟨ip, hip, rfl, h⟩ | ⟨ip, hip, rfl, h⟩ | ⟨h, -⟩
  · rw [h]
    simp [exchangeIp, Ipv4Addr.toIpv4Mapped_toIpv6Mapped, hip]
  · rw [h]
    simp [exchangeIp, hip]
  · rw [h, h]

theorem exchangeAddr_ip (a : SocketAddr) : (exchangeAddr chosen a).ip = exchangeIp chosen a.ip := by
  cases a with
  | v4 ip port =>
    by_cases hchosen : chosen ip = true <;> simp [exchangeAddr, exchangeIp, SocketAddr.ip, hchosen]
  | v6 ip port flowinfo scopeId =>
    cases hmapped : ip.toIpv4Mapped with
    | none => simp [exchangeAddr, exchangeIp, SocketAddr.ip, hmapped]
    | some v4 =>
      by_cases hchosen : chosen v4 = true <;>
        simp [exchangeAddr, exchangeIp, SocketAddr.ip, hmapped, hchosen]

theorem exchangeAddr_port (a : SocketAddr) : (exchangeAddr chosen a).port = a.port := by
  cases a with
  | v4 ip port => by_cases hchosen : chosen ip = true <;> simp [exchangeAddr, SocketAddr.port, hchosen]
  | v6 ip port flowinfo scopeId =>
    cases hmapped : ip.toIpv4Mapped with
    | none => simp [exchangeAddr, SocketAddr.port, hmapped]
    | some v4 =>
      by_cases hchosen : chosen v4 = true <;>
        simp [exchangeAddr, SocketAddr.port, hmapped, hchosen]

theorem exchangeIp_isLoopback (h : ∀ ip, chosen ip = true → ip.isLoopback = false) (x : IpAddr) :
    (exchangeIp chosen x).isLoopback = x.isLoopback := by
  rcases exchangeIp_cases chosen x with ⟨ip, hip, rfl, hx⟩ | ⟨ip, hip, rfl, hx⟩ | ⟨hx, -⟩
  · rw [hx]
    exact (Ipv6Addr.isLoopback_toIpv6Mapped ip).trans (h ip hip).symm
  · rw [hx]
    exact (h ip hip).trans (Ipv6Addr.isLoopback_toIpv6Mapped ip).symm
  · rw [hx]

/-! ## Texts -/

open Classical in
/-- What the exchange makes of a text. -/
noncomputable def exchangeText (text : String) : String :=
  if ∃ ip, chosen ip = true ∧ ip.toString = text then mappedText text
  else if h : ∃ ip, chosen ip = true ∧ mappedText ip.toString = text then h.choose.toString
  else text

variable {chosen}

theorem mappedText_ne_toString (text : String) (ip : Ipv4Addr) : mappedText text ≠ ip.toString :=
  fun h => ip.colon_not_mem_toString (h ▸ colon_mem_mappedText text)

theorem exchangeText_toString {ip : Ipv4Addr} (h : chosen ip = true) :
    exchangeText chosen ip.toString = mappedText ip.toString :=
  if_pos ⟨ip, h, rfl⟩

theorem exchangeText_mappedText {ip : Ipv4Addr} (h : chosen ip = true) :
    exchangeText chosen (mappedText ip.toString) = ip.toString := by
  have hex : ∃ ip', chosen ip' = true ∧ mappedText ip'.toString = mappedText ip.toString :=
    ⟨ip, h, rfl⟩
  rw [exchangeText, if_neg, dif_pos hex]
  · exact mappedText_inj hex.choose_spec.2
  · rintro ⟨ip', -, htext⟩
    exact mappedText_ne_toString _ _ htext.symm

theorem exchangeText_of_ne {text : String}
    (h : ∀ ip, chosen ip = true → text ≠ ip.toString ∧ text ≠ mappedText ip.toString) :
    exchangeText chosen text = text := by
  rw [exchangeText, if_neg, dif_neg]
  · rintro ⟨ip, hip, htext⟩
    exact (h ip hip).2 htext.symm
  · rintro ⟨ip, hip, htext⟩
    exact (h ip hip).1 htext.symm

theorem exchangeText_involutive : Function.Involutive (exchangeText chosen) := by
  intro text
  by_cases hplain : ∃ ip, chosen ip = true ∧ text = ip.toString
  · obtain ⟨ip, hip, rfl⟩ := hplain
    rw [exchangeText_toString hip, exchangeText_mappedText hip]
  by_cases hmapped : ∃ ip, chosen ip = true ∧ text = mappedText ip.toString
  · obtain ⟨ip, hip, rfl⟩ := hmapped
    rw [exchangeText_mappedText hip, exchangeText_toString hip]
  · have hkept : exchangeText chosen text = text := exchangeText_of_ne fun ip hip =>
      ⟨fun h => hplain ⟨ip, hip, h⟩, fun h => hmapped ⟨ip, hip, h⟩⟩
    rw [hkept, hkept]

/-- A text belongs to one address of the two kinds. -/
theorem toString_exchangeIp (x : IpAddr) :
    (exchangeIp chosen x).toString = exchangeText chosen x.toString := by
  rcases exchangeIp_cases chosen x with ⟨ip, hip, rfl, hx⟩ | ⟨ip, hip, rfl, hx⟩ | ⟨hx, hne⟩
  · rw [hx]
    exact (Ipv6Addr.toString_toIpv6Mapped ip).trans (exchangeText_toString hip).symm
  · rw [hx]
    show ip.toString = exchangeText chosen ip.toIpv6Mapped.toString
    rw [Ipv6Addr.toString_toIpv6Mapped, exchangeText_mappedText hip]
  · rw [hx]
    refine (exchangeText_of_ne fun ip hip => ?_).symm
    cases x with
    | v4 ip' =>
      refine ⟨fun h => (hne ip hip).1 ?_, fun h => mappedText_ne_toString _ _ h.symm⟩
      rw [Ipv4Addr.toString_injective h]
    | v6 ip' =>
      cases hmapped : ip'.toIpv4Mapped with
      | none =>
        -- the text has no dot
        have hdot := Ipv6Addr.dot_not_mem_toString hmapped
        refine ⟨fun h => hdot ?_, fun h => hdot ?_⟩
        · show '.' ∈ (IpAddr.v6 ip').toString.toList
          rw [h]
          exact ip.dot_mem_toString
        · show '.' ∈ (IpAddr.v6 ip').toString.toList
          rw [h, mappedText, String.toList_append]
          exact List.mem_append_right _ ip.dot_mem_toString
      | some v4 =>
        obtain rfl := Ipv4Addr.toIpv6Mapped_of_toIpv4Mapped hmapped
        have htext : (IpAddr.v6 v4.toIpv6Mapped).toString = mappedText v4.toString :=
          Ipv6Addr.toString_toIpv6Mapped v4
        rw [htext]
        refine ⟨mappedText_ne_toString _ _, fun h => (hne ip hip).2 ?_⟩
        rw [Ipv4Addr.toString_injective (mappedText_inj h)]

/-! ## The renaming -/

/-- Addresses that may arrive in either form. -/
structure Exchangeable (chosen : Ipv4Addr → Bool) : Prop where
  notLoopback : ∀ ip, chosen ip = true → ip.isLoopback = false
  notUnspecified : chosen ⟨0, 0, 0, 0⟩ = false

/-- Each chosen address changes places with its mapped form. -/
noncomputable def exchange (h : Exchangeable chosen) : AddrRenaming where
  ip := ⟨exchangeIp chosen, (exchangeIp_involutive chosen).injective⟩
  text := ⟨exchangeText chosen, exchangeText_involutive.injective⟩
  addr := exchangeAddr chosen
  addr_ip := exchangeAddr_ip chosen
  addr_port := exchangeAddr_port chosen
  addr_unspecified := by
    rw [SocketAddr.unspecified, exchangeAddr, h.notUnspecified]
    rfl
  toString_ip := toString_exchangeIp
  isLoopback_ip := exchangeIp_isLoopback chosen h.notLoopback
  text_empty := by
    refine exchangeText_of_ne fun ip _ => ⟨fun h => ?_, fun h => ?_⟩
    · have hdot := ip.dot_mem_toString
      rw [← h] at hdot
      cases hdot
    · have hcolon := colon_mem_mappedText ip.toString
      rw [← h] at hcolon
      cases hcolon

end Mapped

end RustStd
