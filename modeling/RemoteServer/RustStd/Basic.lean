import Mathlib.Data.Nat.Notation

/-!
# Bytes, addresses and instants of the Rust standard library

* `Bytes` is `Vec<u8>` and `bytes::Bytes`: the content, without sharing.
* `Ipv4Addr`, `Ipv6Addr`, `IpAddr` and `SocketAddr` are the types of
  `std::net`.  A V6 socket address has a flow label and a scope as well, and
  its equality reads them.
* `IpAddr.toString` is the `Display` text.  The V6 text compresses the first
  longest run of at least two zero segments, and prints an IPv4-mapped address
  with a dotted tail.
* A `std::time::Instant` is a `Nat`, the nanoseconds of the monotonic clock.
  A difference of instants saturates at zero, as natural subtraction does.
-/

namespace RustStd

/-- The content of a `Vec<u8>` or of a `Bytes`. -/
abbrev Bytes := List UInt8

/-! ## Addresses -/

/-- `std::net::Ipv4Addr`: four octets. -/
structure Ipv4Addr where
  a : UInt8
  b : UInt8
  c : UInt8
  d : UInt8
deriving DecidableEq, Repr

/-- `std::net::Ipv6Addr`: eight segments. -/
structure Ipv6Addr where
  segments : Vector UInt16 8
deriving DecidableEq, Repr

/-- `std::net::IpAddr`. -/
inductive IpAddr where
  | v4 (ip : Ipv4Addr)
  | v6 (ip : Ipv6Addr)
deriving DecidableEq, Repr

/-- `std::net::SocketAddr`. -/
inductive SocketAddr where
  | v4 (ip : Ipv4Addr) (port : UInt16)
  | v6 (ip : Ipv6Addr) (port : UInt16) (flowinfo scopeId : UInt32)
deriving DecidableEq, Repr

namespace Ipv4Addr

def toString (ip : Ipv4Addr) : String :=
  ip.a.toNat.repr ++ "." ++ ip.b.toNat.repr ++ "." ++ ip.c.toNat.repr ++ "." ++
    ip.d.toNat.repr

/-- `127.0.0.0/8`. -/
def isLoopback (ip : Ipv4Addr) : Bool := ip.a = 127

end Ipv4Addr

namespace Ipv6Addr

/-- The address of `::1`. -/
def isLoopback (ip : Ipv6Addr) : Bool := ip.segments.toList = [0, 0, 0, 0, 0, 0, 0, 1]

/-- The two octet pairs at the end, read as an IPv4 address. -/
def tailV4 (hi lo : UInt16) : Ipv4Addr :=
  ⟨(hi >>> 8).toUInt8, hi.toUInt8, (lo >>> 8).toUInt8, lo.toUInt8⟩

/-- `to_ipv4_mapped`: the addresses `::ffff:a.b.c.d`. -/
def toIpv4Mapped (ip : Ipv6Addr) : Option Ipv4Addr :=
  match ip.segments.toList with
  | [0, 0, 0, 0, 0, 0xffff, hi, lo] => some (tailV4 hi lo)
  | _ => none

/-- `to_ipv4`: the mapped addresses and the old compatible ones `::a.b.c.d`. -/
def toIpv4 (ip : Ipv6Addr) : Option Ipv4Addr :=
  match ip.segments.toList with
  | [0, 0, 0, 0, 0, 0xffff, hi, lo] => some (tailV4 hi lo)
  | [0, 0, 0, 0, 0, 0, hi, lo] => some (tailV4 hi lo)
  | _ => none

/-- The scan of `Display` for the first longest run of zero segments.  A run is
its start and its length; the first pair is the longest so far and the second
the current one. -/
def zeroRuns : List UInt16 → Nat → Nat × Nat → Nat × Nat → Nat × Nat
  | [], _, longest, _ => longest
  | seg :: rest, i, longest, current =>
    if seg = 0 then
      let current := if current.2 = 0 then (i, 1) else (current.1, current.2 + 1)
      zeroRuns rest (i + 1) (if longest.2 < current.2 then current else longest) current
    else zeroRuns rest (i + 1) longest (0, 0)

/-- Segments in lower-case hexadecimal, separated by colons. -/
def joinSegments (segs : List UInt16) : String :=
  String.intercalate ":" (segs.map fun seg => String.ofList (Nat.toDigits 16 seg.toNat))

def toString (ip : Ipv6Addr) : String :=
  match ip.toIpv4Mapped with
  | some v4 => "::ffff:" ++ v4.toString
  | none =>
    let segs := ip.segments.toList
    let longest := zeroRuns segs 0 (0, 0) (0, 0)
    if 1 < longest.2 then
      joinSegments (segs.take longest.1) ++ "::" ++
        joinSegments (segs.drop (longest.1 + longest.2))
    else joinSegments segs

end Ipv6Addr

/-- `to_ipv6_mapped`. -/
def Ipv4Addr.toIpv6Mapped (ip : Ipv4Addr) : Ipv6Addr :=
  ⟨#v[0, 0, 0, 0, 0, 0xffff, UInt16.ofNat (ip.a.toNat * 256 + ip.b.toNat),
    UInt16.ofNat (ip.c.toNat * 256 + ip.d.toNat)]⟩

private theorem octets_of_segment (a b : UInt8) :
    (UInt16.ofNat (a.toNat * 256 + b.toNat) >>> 8).toUInt8 = a ∧
      (UInt16.ofNat (a.toNat * 256 + b.toNat)).toUInt8 = b := by
  have ha : a.toNat < 256 := a.toNat_lt
  have hb : b.toNat < 256 := b.toNat_lt
  have hseg : (UInt16.ofNat (a.toNat * 256 + b.toNat)).toNat = a.toNat * 256 + b.toNat := by
    apply UInt16.toNat_ofNat_of_lt
    show _ < 65536
    omega
  refine ⟨UInt8.toNat_inj.1 ?_, UInt8.toNat_inj.1 ?_⟩
  · rw [UInt16.toNat_toUInt8, UInt16.toNat_shiftRight, hseg]
    simp only [UInt16.toNat_ofNat, Nat.reducePow, Nat.reduceMod, Nat.shiftRight_eq_div_pow]
    omega
  · rw [UInt16.toNat_toUInt8, hseg]
    omega

theorem Ipv4Addr.toIpv4Mapped_toIpv6Mapped (ip : Ipv4Addr) :
    ip.toIpv6Mapped.toIpv4Mapped = some ip := by
  obtain ⟨a, b, c, d⟩ := ip
  show some (Ipv6Addr.tailV4 _ _) = _
  rw [Ipv6Addr.tailV4, (octets_of_segment a b).1, (octets_of_segment a b).2,
    (octets_of_segment c d).1, (octets_of_segment c d).2]

namespace IpAddr

def isLoopback : IpAddr → Bool
  | .v4 ip => ip.isLoopback
  | .v6 ip => ip.isLoopback

def toString : IpAddr → String
  | .v4 ip => ip.toString
  | .v6 ip => ip.toString

end IpAddr

namespace SocketAddr

def ip : SocketAddr → IpAddr
  | .v4 ip _ => .v4 ip
  | .v6 ip _ _ _ => .v6 ip

def port : SocketAddr → UInt16
  | .v4 _ port => port
  | .v6 _ port _ _ => port

/-- `SocketAddr::from(([0, 0, 0, 0], 0))`. -/
def unspecified : SocketAddr := .v4 ⟨0, 0, 0, 0⟩ 0

end SocketAddr

example : (IpAddr.v4 ⟨192, 0, 2, 10⟩).toString = "192.0.2.10" := by decide

example : (IpAddr.v6 ⟨#v[0x2001, 0xdb8, 0, 0, 1, 0, 0, 1]⟩).toString =
    "2001:db8::1:0:0:1" := by decide

/-! ## Instants -/

namespace Instant

/-- The nanoseconds of `Duration::from_secs`. -/
def ofSecs (secs : Nat) : Nat := secs * 1000000000

/-- `t.elapsed()` at the instant `now`. -/
def elapsed (now t : Nat) : Nat := now - t

/-- `t.elapsed().as_secs()` at the instant `now`. -/
def elapsedSecs (now t : Nat) : Nat := (now - t) / 1000000000

/-- `t.elapsed().as_millis()` at the instant `now`. -/
def elapsedMillis (now t : Nat) : Nat := (now - t) / 1000000

end Instant

end RustStd
