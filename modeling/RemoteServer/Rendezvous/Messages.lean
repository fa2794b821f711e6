import RemoteServer.PeerStore.Machine

/-!
# The messages of a rendezvous

A controller asks for a peer with a `PunchHoleRequest` or a `RequestRelay`.  The
server sends the peer a `PunchHole`, a `FetchLocalAddr` or a `RequestRelay` with a
one-time token, the peer answers it with a `PunchHoleSent`, a `LocalAddr` or a
`RelayResponse`, and the server sends the controller a `PunchHoleResponse` or a
`RelayResponse`.  The other messages of a connection are registrations and requests
that the server answers itself.

* `Protocol` are the functions of the protocol crate, which is not part of the
  repository, with the two laws about `try_into_v4` that are used.
* The message types have the fields that the server reads or writes.
* `wellFormed` are the checks that a message passes before it is handled.
-/

namespace RemoteServer.Rendezvous

open RustStd

/-- The functions of the protocol crate. -/
structure Protocol where
  tryIntoV4 : SocketAddr → SocketAddr
  /-- `AddrMangle::encode`. -/
  mangle : SocketAddr → Bytes
  /-- `AddrMangle::try_decode`. -/
  tryDecode : Bytes → Option SocketAddr
  /-- `sign::sign` of an `IdPk` with the key of the server. -/
  sign : PeerId → Bytes → Bytes
  tryIntoV4_idem : ∀ addr, tryIntoV4 (tryIntoV4 addr) = tryIntoV4 addr
  tryIntoV4_port : ∀ addr, (tryIntoV4 addr).port = addr.port

inductive NatType where
  | unknownNat
  | asymmetric
  | symmetric
deriving DecidableEq, Repr

/-- `EnumOrUnknown`: a number on the wire may be none of the known ones. -/
inductive EnumOrUnknown (α : Type) where
  | known (value : α)
  | unknown (number : Int)
deriving DecidableEq, Repr

def EnumOrUnknown.enumValue {α : Type} : EnumOrUnknown α → Option α
  | known value => some value
  | unknown _ => none

/-! ## Requests -/

structure PunchHoleRequest where
  id : PeerId
  natType : EnumOrUnknown NatType
  licenceKey : String
  token : String
  version : String
  forceRelay : Bool
  socketAddrV6 : Bytes
  switchCode : String
deriving DecidableEq, Repr

/-- The same message goes from the controller to the server and on to the peer. -/
structure RequestRelay where
  id : PeerId
  uuid : String
  socketAddr : Bytes
  relayServer : String
  licenceKey : String
  token : String
  switchCode : String
  rendezvousToken : Bytes
  controlPermissions : Option Bytes
  controlledContext : Option Bytes
deriving DecidableEq, Repr

structure PunchHole where
  socketAddr : Bytes
  natType : EnumOrUnknown NatType
  relayServer : String
  forceRelay : Bool
  socketAddrV6 : Bytes
  rendezvousToken : Bytes
deriving DecidableEq, Repr

structure FetchLocalAddr where
  socketAddr : Bytes
  relayServer : String
  socketAddrV6 : Bytes
  rendezvousToken : Bytes
deriving DecidableEq, Repr

/-! ## Answers -/

structure PunchHoleSent where
  id : PeerId
  version : String
  relayServer : String
  natType : EnumOrUnknown NatType
  socketAddr : Bytes
  socketAddrV6 : Bytes
  rendezvousToken : Bytes
deriving DecidableEq, Repr

structure LocalAddr where
  id : PeerId
  version : String
  relayServer : String
  localAddr : Bytes
  socketAddr : Bytes
  socketAddrV6 : Bytes
  rendezvousToken : Bytes
deriving DecidableEq, Repr

/-- The `oneof` of a `RelayResponse`: the peer sends its id, the server a key. -/
inductive RelayResponse.Union where
  | unset
  | id (id : PeerId)
  | pk (pk : Bytes)
deriving DecidableEq, Repr

structure RelayResponse where
  union : RelayResponse.Union := .unset
  uuid : String := ""
  relayServer : String := ""
  refuseReason : String := ""
  version : String := ""
  socketAddr : Bytes := []
  socketAddrV6 : Bytes := []
  rendezvousToken : Bytes := []
deriving DecidableEq, Repr

/-- `RelayResponse::id`. -/
def RelayResponse.id (rr : RelayResponse) : PeerId :=
  match rr.union with
  | .id id => id
  | _ => ""

/-- `punch_hole_response::Failure`; the first one is the default. -/
inductive Failure where
  | idNotExist
  | offline
  | licenseMismatch
deriving DecidableEq, Repr

/-- The `oneof` of a `PunchHoleResponse`. -/
inductive PunchHoleResponse.Union where
  | unset
  | natType (natType : NatType)
  | isLocal (isLocal : Bool)
deriving DecidableEq, Repr

structure PunchHoleResponse where
  socketAddr : Bytes := []
  pk : Bytes := []
  failure : Failure := .idNotExist
  union : PunchHoleResponse.Union := .unset
  relayServer : String := ""
  socketAddrV6 : Bytes := []
  isUdp : Bool := false
deriving DecidableEq, Repr

/-- The answer of the API proxy. -/
structure HttpProxyResponse where
  status : Int
  headers : List (String × String) := []
  body : Bytes := []
  error : String := ""
deriving DecidableEq, Repr

/-- The messages of a connection. -/
inductive ClientMessage where
  | registerPeer (rp : RegisterPeer)
  | registerPk (rk : RegisterPk)
  | punchHoleRequest (ph : PunchHoleRequest)
  | requestRelay (rf : RequestRelay)
  | punchHoleSent (phs : PunchHoleSent)
  | localAddr (la : LocalAddr)
  | relayResponse (rr : RelayResponse)
  | testNatRequest (serial : Int)
  | onlineRequest (peers : List PeerId)
  | httpProxyRequest (licenceKey : String)
  /-- `HealthCheck`. -/
  | hc (token : String)
  | keyExchange
  /-- No message, or one that only the server sends. -/
  | other
deriving DecidableEq

/-- The messages that the server puts on a connection. -/
inductive ServerMessage where
  | registerPeerResponse (requestPk : Bool)
  | configureUpdate (cu : PeerStore.ConfigUpdate)
  | registerPkResponse (result : RegisterPkResult)
  | punchHole (ph : PunchHole)
  | fetchLocalAddr (fla : FetchLocalAddr)
  | requestRelay (rf : RequestRelay)
  | punchHoleResponse (phr : PunchHoleResponse)
  | relayResponse (rr : RelayResponse)
  | testNatResponse (port : UInt16) (cu : Option PeerStore.ConfigUpdate)
  | onlineResponse (states : Bytes)
  | httpProxyResponse (resp : HttpProxyResponse)
  /-- `health_check_response`: a `RegisterPkResponse` that sets `keep_alive`. -/
  | healthCheckResponse
deriving DecidableEq

/-! ## Checks -/

def relayServerNameMaxLen : Nat := 512
def relayUuidMinLen : Nat := 8
def relayUuidMaxLen : Nat := 128

/-- `valid_relay_uuid`. -/
def validRelayUuid (uuid : String) : Bool := validName relayUuidMinLen relayUuidMaxLen uuid

/-- `valid_optional_mangled_addr`. -/
def Protocol.validOptionalMangledAddr (proto : Protocol) (bytes : Bytes) : Bool :=
  bytes.isEmpty || (proto.tryDecode bytes).isSome

def PunchHoleRequest.wellFormed (proto : Protocol) (ph : PunchHoleRequest) : Bool :=
  validPeerId ph.id && decide (ph.licenceKey.utf8ByteSize ≤ 128) &&
    decide (ph.token.utf8ByteSize ≤ 4096) && decide (ph.version.utf8ByteSize ≤ 64) &&
    decide (ph.switchCode.utf8ByteSize ≤ 128) && proto.validOptionalMangledAddr ph.socketAddrV6

def RequestRelay.wellFormed (rf : RequestRelay) : Bool :=
  validPeerId rf.id && validRelayUuid rf.uuid && decide (rf.licenceKey.utf8ByteSize ≤ 128) &&
    decide (rf.relayServer.utf8ByteSize ≤ relayServerNameMaxLen) &&
    decide (rf.token.utf8ByteSize ≤ 4096) && decide (rf.switchCode.utf8ByteSize ≤ 128)

def PunchHoleSent.wellFormed (proto : Protocol) (phs : PunchHoleSent) : Bool :=
  validPeerId phs.id && decide (phs.version.utf8ByteSize ≤ 64) &&
    decide (phs.relayServer.utf8ByteSize ≤ relayServerNameMaxLen) &&
    proto.validOptionalMangledAddr phs.socketAddrV6

def LocalAddr.wellFormed (proto : Protocol) (la : LocalAddr) : Bool :=
  validPeerId la.id && decide (la.version.utf8ByteSize ≤ 64) &&
    decide (la.relayServer.utf8ByteSize ≤ relayServerNameMaxLen) &&
    (proto.tryDecode la.localAddr).isSome && proto.validOptionalMangledAddr la.socketAddrV6

def RelayResponse.wellFormed (proto : Protocol) (rr : RelayResponse) : Bool :=
  validPeerId rr.id && (rr.uuid.isEmpty || validRelayUuid rr.uuid) &&
    decide (rr.relayServer.utf8ByteSize ≤ relayServerNameMaxLen) &&
    decide (rr.refuseReason.utf8ByteSize ≤ 1024) && decide (rr.version.utf8ByteSize ≤ 64) &&
    proto.validOptionalMangledAddr rr.socketAddrV6

/-- `strip_untrusted_relay_metadata`. -/
def RequestRelay.stripUntrustedMetadata (rf : RequestRelay) : RequestRelay :=
  { rf with
    id := ""
    licenceKey := ""
    token := ""
    switchCode := ""
    controlPermissions := none
    controlledContext := none }

end RemoteServer.Rendezvous
