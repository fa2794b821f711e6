import RemoteServer.Peer.IpTables

/-!
# The cached peer

`Peer` is the in-memory record of one device id.  Its identity is the part that
the database stores as well: `guid`, `uuid`, `pk` and `info`.  The rest lives in
memory only.

The persisted `info` is JSON text.  The JSON library is not part of the
repository, so `InfoCodec` takes its two functions as a parameter together with
the one law the server relies on: a record that was written is read back as it
was.  A text that does not parse makes the load fail.
-/

namespace RemoteServer

open RustStd

abbrev PeerId := String

def peerIdMinLen : Nat := 6
def peerIdMaxLen : Nat := 16

/-- A text of `minLen` to `maxLen` bytes, each an ASCII letter or digit, `-` or `_`. -/
def validName (minLen maxLen : Nat) (name : String) : Bool :=
  decide (minLen ≤ name.utf8ByteSize) && decide (name.utf8ByteSize ≤ maxLen) &&
    name.toList.all fun c => c.isAlphanum || c == '-' || c == '_'

/-- `valid_peer_id`. -/
def validPeerId (id : PeerId) : Bool := validName peerIdMinLen peerIdMaxLen id

/-- `PeerInfo`, the part of a peer that is stored as JSON. -/
structure PeerInfo where
  ip : String := ""
deriving DecidableEq, Repr

/-- `serde_json` on `PeerInfo`. -/
structure InfoCodec where
  encode : PeerInfo → String
  decode : String → Option PeerInfo
  decode_encode : ∀ info, decode (encode info) = some info

/-- The JSON object around the text of an address. -/
def InfoCodec.plainEncode (info : PeerInfo) : String :=
  "\x7b\"ip\":\"" ++ info.ip ++ "\"\x7d"

/-- The text between the two ends of `plainEncode`. -/
def InfoCodec.plainDecode (text : String) : Option PeerInfo :=
  if text.toList.take 7 = "\x7b\"ip\":\"".toList then
    some ⟨String.ofList (text.toList.drop 7).dropLast.dropLast⟩
  else none

/-- The codec on texts that need no escape, which every address text is. -/
def InfoCodec.plain : InfoCodec where
  encode := plainEncode
  decode := plainDecode
  decode_encode := by
    intro info
    have hlist : (plainEncode info).toList =
        "\x7b\"ip\":\"".toList ++ info.ip.toList ++ "\"\x7d".toList := by
      simp [plainEncode, String.toList_append]
    have hlen : "\x7b\"ip\":\"".toList.length = 7 := by decide
    have htail : "\"\x7d".toList = ['"', '\x7d'] := by decide
    rw [plainDecode, hlist, List.append_assoc, List.take_left' hlen, if_pos rfl,
      List.drop_left' hlen, htail]
    simp [List.dropLast_append_of_ne_nil]

/-- `get_expired_time`: an hour ago, or `now` when the clock is younger. -/
def getExpiredTime (now : Nat) : Nat :=
  if Instant.ofSecs 3600 ≤ now then now - Instant.ofSecs 3600 else now

structure Peer where
  socketAddr : SocketAddr
  lastRegTime : Nat
  lastAccessTime : Nat
  guid : Bytes
  uuid : Bytes
  pk : Bytes
  persistenceInProgress : Bool
  deploymentVerifiedAt : Option Nat
  info : PeerInfo
  /-- How often `register_pk` was tried, and when last. -/
  regPk : Nat × Nat
deriving DecidableEq, Repr

namespace Peer

/-- `Peer::default()` at the instant `now`. -/
def fresh (now : Nat) : Peer where
  socketAddr := .unspecified
  lastRegTime := getExpiredTime now
  lastAccessTime := now
  guid := []
  uuid := []
  pk := []
  persistenceInProgress := false
  deploymentVerifiedAt := none
  info := {}
  regPk := (0, getExpiredTime now)

/-- What the database stores of a peer. -/
structure Identity where
  guid : Bytes
  uuid : Bytes
  pk : Bytes
  info : PeerInfo
deriving DecidableEq, Repr

/-- The identity of a peer that was never registered. -/
structure Identity.Blank (x : Identity) : Prop where
  guid : x.guid = []
  uuid : x.uuid = []
  pk : x.pk = []

def identity (p : Peer) : Identity := ⟨p.guid, p.uuid, p.pk, p.info⟩

/-- The write of `last_access_time` that every cache hit makes. -/
def touch (p : Peer) (now : Nat) : Peer := { p with lastAccessTime := now }

/-- `REG_TIMEOUT`, in milliseconds. -/
def regTimeout : Nat := 30000

/-- Whether the peer counts as registered: seen less than `REG_TIMEOUT` ago. -/
def online (p : Peer) (now : Nat) : Bool :=
  decide (Instant.elapsedMillis now p.lastRegTime < regTimeout)

end Peer

end RemoteServer
