import RemoteServer.Database

/-!
# The critical sections of a registration

`register_pk_common` and `register_peer_common` take the write lock of one peer
and compute on it without waiting.  Each function below is one such section: it
takes the peer, the instant at which the lock is held, and what the request
brings, and returns the peer as the section leaves it.

* `stagePeerRegistration` decides about a `RegisterPk` and, when something has
  to be stored, writes the new identity into the peer together with a snapshot
  of the old one.
* `Peer.commit` and `Peer.rollback` are the two ends of the persistence task.
* `Peer.verifiedNow` is the second write of the unchanged case.
* `heartbeat` is the section of `register_peer_common`.

`stagePeerRegistration` has one lemma per outcome, and no later proof unfolds
it.
-/

namespace RemoteServer

open RustStd

/-- The fields of `RegisterPk` that the server reads. -/
structure RegisterPk where
  id : PeerId
  uuid : Bytes
  pk : Bytes
  oldId : String := ""
deriving DecidableEq, Repr

/-- The fields of `RegisterPeer` that the server reads. -/
structure RegisterPeer where
  id : PeerId
  serial : Int
deriving DecidableEq, Repr

/-- `register_pk_response::Result`. -/
inductive RegisterPkResult where
  | ok
  | uuidMismatch
  | tooFrequent
  | invalidIdFormat
  | notSupport
  | notDeployed
  | serverError
deriving DecidableEq, Repr

def registerUuidMaxLen : Nat := 256

/-- `box_::PUBLICKEYBYTES`. -/
def peerPublicKeyLen : Nat := 32

/-- The format checks at the head of `register_pk_common`. -/
def RegisterPk.refusal (rk : RegisterPk) : Option RegisterPkResult :=
  if rk.oldId ≠ "" then some .notSupport
  else if !validPeerId rk.id || rk.uuid.isEmpty || decide (registerUuidMaxLen < rk.uuid.length) ||
      decide (rk.pk.length ≠ peerPublicKeyLen) then some .invalidIdFormat
  else none

/-- An accepted request has a non-empty `uuid`. -/
theorem RegisterPk.uuid_ne_nil {rk : RegisterPk} (h : rk.refusal = none) : rk.uuid ≠ [] := by
  intro hnil
  unfold refusal at h
  split at h
  · cases h
  · simp [hnil] at h

/-! ## Staging -/

/-- `PeerRegistrationRollback`: what a failed write restores. -/
structure PeerRegistrationRollback where
  socketAddr : SocketAddr
  lastRegTime : Nat
  uuid : Bytes
  pk : Bytes
  info : PeerInfo
  deploymentVerifiedAt : Option Nat
deriving DecidableEq, Repr

/-- The snapshot that staging takes. -/
def Peer.snapshot (p : Peer) : PeerRegistrationRollback :=
  ⟨p.socketAddr, p.lastRegTime, p.uuid, p.pk, p.info, p.deploymentVerifiedAt⟩

/-- `PendingPeerRegistration`. -/
structure PendingPeerRegistration where
  guid : Bytes
  rollback : PeerRegistrationRollback
  serializedInfo : String
  ipChanged : Bool
deriving DecidableEq, Repr

/-- `PeerRegistrationStage`. -/
inductive PeerRegistrationStage where
  | busy
  | uuidMismatch
  | tooFrequent
  | unchanged
  | persist (pending : PendingPeerRegistration)
deriving DecidableEq, Repr

/-- Whether the request may speak for the peer.  An unclaimed peer takes any
identity, and the management API decides for a managed one; otherwise the
`uuid` has to match, and the key may only change at an unchanged address. -/
def identityAccepted (peer : Peer) (uuid pk : Bytes) (ip : String) (managedAuthorized : Bool) :
    Bool :=
  if peer.uuid.isEmpty then true
  else if managedAuthorized then true
  else if peer.uuid = uuid then !(decide (peer.info.ip ≠ ip) && decide (peer.pk ≠ pk))
  else false

/-- The attempt counter after a counted attempt, or `none` when there were more
than two in the last six seconds. -/
def countAttempt (regPk : Nat × Nat) (now : Nat) : Option (Nat × Nat) :=
  if 6 < Instant.elapsedSecs now regPk.2 then some (1, now)
  else if 2 < regPk.1 then none
  else some (regPk.1 + 1, now)

/-- `ip_changed` of the source. -/
def ipChanged (peer : Peer) (ip : String) : Bool :=
  !peer.uuid.isEmpty && decide (peer.info.ip ≠ ip)

/-- `changed` of the source. -/
def registrationChanged (peer : Peer) (uuid pk : Bytes) (ip : String) : Bool :=
  peer.uuid.isEmpty || decide (peer.uuid ≠ uuid) || decide (peer.pk ≠ pk) || ipChanged peer ip

/-- The peer with the new identity written into it before the database call. -/
def Peer.staged (peer : Peer) (socketAddr : SocketAddr) (uuid pk : Bytes) (ip : String)
    (now : Nat) : Peer :=
  { peer with
    socketAddr := socketAddr
    lastRegTime := now
    uuid := uuid
    pk := pk
    info := { peer.info with ip := ip }
    persistenceInProgress := true }

/-- `stage_peer_registration` at the instant `now`. -/
def stagePeerRegistration (codec : InfoCodec) (peer : Peer) (socketAddr : SocketAddr)
    (uuid pk : Bytes) (ip : String) (managedAuthorized : Bool) (now : Nat) :
    Peer × PeerRegistrationStage :=
  if peer.persistenceInProgress then (peer, .busy)
  else if !identityAccepted peer uuid pk ip managedAuthorized then (peer, .uuidMismatch)
  else
    match countAttempt peer.regPk now with
    | none => (peer, .tooFrequent)
    | some regPk =>
      let peer := { peer with regPk := regPk }
      if !registrationChanged peer uuid pk ip then (peer, .unchanged)
      else
        (peer.staged socketAddr uuid pk ip now,
          .persist ⟨peer.guid, peer.snapshot, codec.encode { peer.info with ip := ip },
            ipChanged peer ip⟩)

section Stage

variable {codec : InfoCodec} {peer peer' : Peer} {socketAddr : SocketAddr} {uuid pk : Bytes}
  {ip : String} {managed : Bool} {now : Nat}

theorem stage_of_busy (h : peer.persistenceInProgress = true) :
    stagePeerRegistration codec peer socketAddr uuid pk ip managed now = (peer, .busy) := by
  rw [stagePeerRegistration, if_pos h]

/-- A refused request leaves the peer as it was. -/
theorem stage_refused {stage : PeerRegistrationStage}
    (h : stagePeerRegistration codec peer socketAddr uuid pk ip managed now = (peer', stage))
    (hs : stage = .busy ∨ stage = .uuidMismatch ∨ stage = .tooFrequent) : peer' = peer := by
  unfold stagePeerRegistration at h
  split at h
  · cases h; rfl
  split at h
  · cases h; rfl
  split at h
  · cases h; rfl
  dsimp only at h
  split at h
  · cases h; simp at hs
  · cases h; simp at hs

/-- An unchanged registration only counts the attempt, and the peer already
holds the identity of the request. -/
theorem stage_unchanged
    (h : stagePeerRegistration codec peer socketAddr uuid pk ip managed now = (peer', .unchanged)) :
    peer.persistenceInProgress = false ∧ peer.uuid ≠ [] ∧ peer.uuid = uuid ∧ peer.pk = pk ∧
      peer.info.ip = ip ∧ ∃ regPk, peer' = { peer with regPk := regPk } := by
  unfold stagePeerRegistration at h
  split at h
  · cases h
  rename_i hbusy
  split at h
  · cases h
  split at h
  · cases h
  rename_i regPk _
  dsimp only at h
  split at h
  · rename_i hsame
    cases h
    simp only [registrationChanged, ipChanged, Bool.not_eq_true', Bool.or_eq_false_iff,
      decide_eq_false_iff_not, ne_eq, not_not, Bool.and_eq_false_iff, Bool.not_eq_false',
      List.isEmpty_eq_false_iff] at hsame
    obtain ⟨⟨⟨hne, huuid⟩, hpk⟩, hip⟩ := hsame
    refine ⟨by simpa using hbusy, hne, huuid, hpk, ?_, regPk, rfl⟩
    rcases hip with hemp | hip
    · exact absurd (List.isEmpty_iff.1 hemp) hne
    · exact hip
  · cases h

/-- A registration that has to be stored: the peer held no other one, the
request may speak for it, and the snapshot is the peer as it was. -/
theorem stage_persist {pending : PendingPeerRegistration}
    (h : stagePeerRegistration codec peer socketAddr uuid pk ip managed now =
      (peer', .persist pending)) :
    peer.persistenceInProgress = false ∧
      (peer.uuid = [] ∨ managed = true ∨ peer.uuid = uuid) ∧
      pending.guid = peer.guid ∧ pending.rollback = peer.snapshot ∧
      pending.serializedInfo = codec.encode { peer.info with ip := ip } ∧
      ∃ regPk, peer' = { peer with regPk := regPk }.staged socketAddr uuid pk ip now := by
  unfold stagePeerRegistration at h
  split at h
  · cases h
  rename_i hbusy
  split at h
  · cases h
  rename_i hacc
  split at h
  · cases h
  rename_i regPk _
  dsimp only at h
  split at h
  · cases h
  cases h
  refine ⟨by simpa using hbusy, ?_, rfl, rfl, rfl, regPk, rfl⟩
  rw [Bool.not_eq_true', Bool.not_eq_false] at hacc
  unfold identityAccepted at hacc
  split at hacc
  · rename_i hemp
    exact Or.inl (List.isEmpty_iff.1 hemp)
  split at hacc
  · rename_i hm
    exact Or.inr (Or.inl hm)
  split at hacc
  · rename_i heq
    exact Or.inr (Or.inr heq)
  · cases hacc

end Stage

/-! ## The end of a persistence task -/

/-- The write succeeded. -/
def Peer.commit (peer : Peer) (guid : Bytes) (managedAuthorized : Bool) (now : Nat) : Peer :=
  { peer with
    guid := guid
    persistenceInProgress := false
    deploymentVerifiedAt :=
      if managedAuthorized then some now else peer.deploymentVerifiedAt }

/-- The write failed: the snapshot is put back. -/
def Peer.rollback (peer : Peer) (r : PeerRegistrationRollback) : Peer :=
  { peer with
    socketAddr := r.socketAddr
    lastRegTime := r.lastRegTime
    uuid := r.uuid
    pk := r.pk
    info := r.info
    deploymentVerifiedAt := r.deploymentVerifiedAt
    persistenceInProgress := false }

/-- The write of `deployment_verified_at` after an unchanged registration. -/
def Peer.verifiedNow (peer : Peer) (now : Nat) : Peer :=
  { peer with deploymentVerifiedAt := some now }

/-! ## Heartbeats -/

def deploymentVerificationCacheSecs : Nat := 30

/-- Whether a heartbeat from `socketAddr` comes from another address than the
one known, which is the last socket address or, before there is one, the
persisted one.  A loopback address never counts as another one. -/
def heartbeatIpChange (old : Peer) (socketAddr : SocketAddr) : Bool :=
  (if old.socketAddr.port ≠ 0 then decide (socketAddr.ip ≠ old.socketAddr.ip)
    else decide (socketAddr.ip.toString ≠ old.info.ip)) && !socketAddr.ip.isLoopback

/-- In managed mode the last verification is missing or too old. -/
def deploymentVerificationExpired (allowUnmanagedDevices : Bool) (old : Peer) (now : Nat) :
    Bool :=
  !allowUnmanagedDevices &&
    match old.deploymentVerifiedAt with
    | none => true
    | some verifiedAt => decide (deploymentVerificationCacheSecs ≤ Instant.elapsedSecs now verifiedAt)

/-- Whether a heartbeat is answered with the request for a `RegisterPk`. -/
def heartbeatRequestPk (allowUnmanagedDevices : Bool) (old : Peer) (socketAddr : SocketAddr)
    (now : Nat) : Bool :=
  old.pk.isEmpty || heartbeatIpChange old socketAddr ||
    deploymentVerificationExpired allowUnmanagedDevices old now

/-- The critical section of `register_peer_common`: the peer afterwards and
`request_pk`. -/
def heartbeat (allowUnmanagedDevices : Bool) (old : Peer) (socketAddr : SocketAddr)
    (now : Nat) : Peer × Bool :=
  let requestPk := heartbeatRequestPk allowUnmanagedDevices old socketAddr now
  (if requestPk then old else { old with socketAddr := socketAddr, lastRegTime := now }, requestPk)

section Heartbeat

variable (allowUnmanagedDevices : Bool) (old : Peer) (socketAddr : SocketAddr) (now : Nat)

/-- A heartbeat never changes what the database stores. -/
theorem heartbeat_identity :
    (heartbeat allowUnmanagedDevices old socketAddr now).1.identity = old.identity := by
  unfold heartbeat
  dsimp only
  split <;> rfl

/-- A heartbeat is answered with the request for a key and changes nothing, or the
peer has a key, the address counts as the known one, and a verification that is
needed is recent. -/
theorem heartbeat_cases :
    heartbeat allowUnmanagedDevices old socketAddr now = (old, true) ∨
      heartbeat allowUnmanagedDevices old socketAddr now =
        ({ old with socketAddr := socketAddr, lastRegTime := now }, false) ∧
      old.pk ≠ [] ∧ heartbeatIpChange old socketAddr = false ∧
      deploymentVerificationExpired allowUnmanagedDevices old now = false := by
  unfold heartbeat
  dsimp only
  cases hreq : heartbeatRequestPk allowUnmanagedDevices old socketAddr now with
  | true => exact Or.inl rfl
  | false =>
    simp only [heartbeatRequestPk, Bool.or_eq_false_iff, List.isEmpty_eq_false_iff] at hreq
    obtain ⟨⟨hpk, hip⟩, hexpired⟩ := hreq
    exact Or.inr ⟨rfl, hpk, hip, hexpired⟩

theorem heartbeat_persistenceInProgress :
    (heartbeat allowUnmanagedDevices old socketAddr now).1.persistenceInProgress =
      old.persistenceInProgress := by
  unfold heartbeat
  dsimp only
  split <;> rfl

end Heartbeat

end RemoteServer
