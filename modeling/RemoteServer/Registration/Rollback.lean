import RemoteServer.Registration.Basic

/-!
# What a failed registration leaves behind

A `RegisterPk` whose database write fails puts a snapshot back that it took
before the write.  Between the two, heartbeats and other attempts are handled
on the same peer.  This module compares the peer after the rollback with the
peer of the same run without the failed request.

`PeerOp` is one thing handled in between.  An attempt carries the outcome its
own database write would have; it is only asked for it when it is staged, and
while the failed request is in progress it never is.

* `withFailed_visible`: whatever is handled in between, the rollback restores
  every visible field of the peer before staging.  So the run with the failed
  request forgets everything that happened meanwhile.
* `without_visible` and `without_ne`: the run without it is at the same point
  exactly when nothing that was handled in between takes effect there.
-/

namespace RemoteServer

open RustStd

/-- The fields that a failed request must not change: all but the attempt
counter, the access time and the flag. -/
structure Peer.Visible where
  socketAddr : SocketAddr
  lastRegTime : Nat
  identity : Peer.Identity
  deploymentVerifiedAt : Option Nat
deriving DecidableEq, Repr

def Peer.visible (p : Peer) : Peer.Visible :=
  ⟨p.socketAddr, p.lastRegTime, p.identity, p.deploymentVerifiedAt⟩

/-- What the peer may be asked while a persistence is in progress.  `stored` is
the outcome of the database write of an attempt: the `guid` of a new row, or
`none` when it fails. -/
inductive PeerOp where
  | heartbeat (socketAddr : SocketAddr) (now : Nat)
  | attempt (socketAddr : SocketAddr) (uuid pk : Bytes) (managedAuthorized : Bool)
      (now doneAt : Nat) (stored : Option Bytes)
  /-- The second write of an unchanged registration that was staged earlier. -/
  | verified (now : Nat)
deriving DecidableEq, Repr

/-- The `guid` a successful write reports: a new one for an insert, the old one
for an update. -/
def storedGuid (guid new : Bytes) : Bytes := if guid.isEmpty then new else guid

section

variable (codec : InfoCodec) (allowUnmanagedDevices : Bool)

/-- One operation on the peer, from its staging to its end. -/
def PeerOp.apply (p : Peer) : PeerOp → Peer
  | .heartbeat socketAddr now => (RemoteServer.heartbeat allowUnmanagedDevices p socketAddr now).1
  | .attempt socketAddr uuid pk managed now doneAt stored =>
    match stagePeerRegistration codec p socketAddr uuid pk socketAddr.ip.toString managed now with
    | (p', .unchanged) => if managed then p'.verifiedNow doneAt else p'
    | (p', .persist pending) =>
      match stored with
      | some new => p'.commit (storedGuid pending.guid new) managed doneAt
      | none => p'.rollback pending.rollback
    | (p', _) => p'
  | .verified now => p.verifiedNow now

/-- Whether the operation changes a visible field of `p`. -/
def PeerOp.takesEffect (p : Peer) : PeerOp → Bool
  | .heartbeat socketAddr now => !heartbeatRequestPk allowUnmanagedDevices p socketAddr now
  | .attempt socketAddr uuid pk managed now _ stored =>
    match (stagePeerRegistration codec p socketAddr uuid pk socketAddr.ip.toString managed now).2 with
    | .unchanged => managed
    | .persist _ => stored.isSome
    | _ => false
  | .verified _ => true

/-- None of the operations takes effect, in the run that consists of them. -/
def noneTakesEffect (p : Peer) : List PeerOp → Bool
  | [] => true
  | op :: ops => !op.takesEffect codec allowUnmanagedDevices p &&
      noneTakesEffect (op.apply codec allowUnmanagedDevices p) ops

/-- The run of the operations alone. -/
def runOps (p : Peer) (ops : List PeerOp) : Peer :=
  ops.foldl (PeerOp.apply codec allowUnmanagedDevices) p

end

/-- The operation comes after every instant that `p` records. -/
def PeerOp.LaterThan (p : Peer) : PeerOp → Prop
  | .heartbeat _ now => p.lastRegTime < now
  | .attempt _ _ _ _ now doneAt _ =>
    p.lastRegTime < now ∧ ∀ t ∈ p.deploymentVerifiedAt, t < doneAt
  | .verified now => ∀ t ∈ p.deploymentVerifiedAt, t < now

section

variable (codec : InfoCodec) (allowUnmanagedDevices : Bool)

/-! ## The run with the failed request -/

/-- While a persistence is in progress, an operation leaves the `guid` alone. -/
theorem PeerOp.apply_guid_of_busy {p : Peer} (op : PeerOp)
    (h : p.persistenceInProgress = true) :
    (op.apply codec allowUnmanagedDevices p).guid = p.guid ∧
      (op.apply codec allowUnmanagedDevices p).persistenceInProgress = true := by
  cases op with
  | heartbeat socketAddr now =>
    refine ⟨congrArg Peer.Identity.guid
      (heartbeat_identity allowUnmanagedDevices p socketAddr now), ?_⟩
    exact (heartbeat_persistenceInProgress allowUnmanagedDevices p socketAddr now).trans h
  | attempt socketAddr uuid pk managed now doneAt stored =>
    simp only [PeerOp.apply, stage_of_busy h, and_self, h]
  | verified now => exact ⟨rfl, h⟩

theorem runOps_guid_of_busy {p : Peer} (ops : List PeerOp) (h : p.persistenceInProgress = true) :
    (runOps codec allowUnmanagedDevices p ops).guid = p.guid := by
  induction ops generalizing p with
  | nil => rfl
  | cons op ops ih =>
    have hop := op.apply_guid_of_busy codec allowUnmanagedDevices h
    have hrest := ih hop.2
    rw [hop.1] at hrest
    exact hrest

/-- The rollback restores the peer before staging, whatever was handled in
between. -/
theorem withFailed_visible {codec : InfoCodec} {p p' : Peer} {socketAddr : SocketAddr} {uuid pk : Bytes}
    {ip : String} {managed : Bool} {now : Nat} {pending : PendingPeerRegistration}
    (hstage : stagePeerRegistration codec p socketAddr uuid pk ip managed now =
      (p', .persist pending)) (ops : List PeerOp) :
    ((runOps codec allowUnmanagedDevices p' ops).rollback pending.rollback).visible =
      p.visible := by
  obtain ⟨-, -, -, hrollback, -, regPk, hp'⟩ := stage_persist hstage
  have hbusy : p'.persistenceInProgress = true := by rw [hp']; rfl
  have hguid : (runOps codec allowUnmanagedDevices p' ops).guid = p.guid := by
    rw [runOps_guid_of_busy codec allowUnmanagedDevices ops hbusy, hp']
    rfl
  simp only [Peer.visible, Peer.rollback, Peer.identity, hguid, hrollback, Peer.snapshot]

/-! ## The run without it -/

variable {codec allowUnmanagedDevices}

theorem PeerOp.apply_visible {p : Peer} {op : PeerOp}
    (h : op.takesEffect codec allowUnmanagedDevices p = false) :
    (op.apply codec allowUnmanagedDevices p).visible = p.visible := by
  cases op with
  | heartbeat socketAddr now =>
    simp only [PeerOp.takesEffect, Bool.not_eq_false'] at h
    simp only [PeerOp.apply, RemoteServer.heartbeat, h, if_true]
  | attempt socketAddr uuid pk managed now doneAt stored =>
    simp only [PeerOp.takesEffect] at h
    simp only [PeerOp.apply]
    rcases hs : stagePeerRegistration codec p socketAddr uuid pk socketAddr.ip.toString managed
      now with ⟨p', stage⟩
    rw [hs] at h
    cases stage with
    | busy => rw [stage_refused hs (.inl rfl)]
    | uuidMismatch => rw [stage_refused hs (.inr (.inl rfl))]
    | tooFrequent => rw [stage_refused hs (.inr (.inr rfl))]
    | unchanged =>
      obtain ⟨-, -, -, -, -, regPk, rfl⟩ := stage_unchanged hs
      obtain rfl : managed = false := h
      rfl
    | persist pending =>
      obtain rfl : stored = none := by simpa using h
      exact withFailed_visible allowUnmanagedDevices hs []
  | verified now => cases h

theorem without_visible {p : Peer} {ops : List PeerOp}
    (h : noneTakesEffect codec allowUnmanagedDevices p ops = true) :
    (runOps codec allowUnmanagedDevices p ops).visible = p.visible := by
  induction ops generalizing p with
  | nil => rfl
  | cons op ops ih =>
    simp only [noneTakesEffect, Bool.and_eq_true, Bool.not_eq_true'] at h
    have hrest := ih h.2
    rw [PeerOp.apply_visible h.1] at hrest
    exact hrest

/-- A peer that was registered or verified after every instant recorded in
`p₀`. -/
def Peer.MovedOn (p₀ p : Peer) : Prop :=
  p₀.lastRegTime < p.lastRegTime ∨
    ∃ t ∈ p.deploymentVerifiedAt, ∀ t₀ ∈ p₀.deploymentVerifiedAt, t₀ < t

theorem Peer.MovedOn.visible_ne {p₀ p : Peer} (h : p₀.MovedOn p) : p.visible ≠ p₀.visible := by
  intro heq
  rcases h with h | ⟨t, ht, hlt⟩
  · have : p.lastRegTime = p₀.lastRegTime := congrArg Peer.Visible.lastRegTime heq
    omega
  · have hv : p.deploymentVerifiedAt = p₀.deploymentVerifiedAt :=
      congrArg Peer.Visible.deploymentVerifiedAt heq
    rw [hv] at ht
    exact absurd (hlt t ht) (Nat.lt_irrefl t)

/-- The two facts about one operation that the induction needs.  From a peer at
the old point, an operation that takes effect moves on; and no operation takes
a peer that has moved on back. -/
theorem PeerOp.apply_movedOn {p₀ p : Peer} {op : PeerOp} (hlater : op.LaterThan p₀)
    (h : p₀.MovedOn p ∨ op.takesEffect codec allowUnmanagedDevices p = true) :
    p₀.MovedOn (op.apply codec allowUnmanagedDevices p) := by
  cases op with
  | heartbeat socketAddr now =>
    simp only [PeerOp.apply, RemoteServer.heartbeat]
    split
    · rename_i hreq
      refine h.resolve_right ?_
      simp only [PeerOp.takesEffect, hreq, Bool.not_true, Bool.false_eq_true, not_false_eq_true]
    · exact Or.inl hlater
  | attempt socketAddr uuid pk managed now doneAt stored =>
    simp only [PeerOp.takesEffect] at h
    simp only [PeerOp.apply]
    rcases hs : stagePeerRegistration codec p socketAddr uuid pk socketAddr.ip.toString managed
      now with ⟨p', stage⟩
    rw [hs] at h
    cases stage with
    | busy => rw [stage_refused hs (.inl rfl)]; exact h.resolve_right (by simp)
    | uuidMismatch => rw [stage_refused hs (.inr (.inl rfl))]; exact h.resolve_right (by simp)
    | tooFrequent => rw [stage_refused hs (.inr (.inr rfl))]; exact h.resolve_right (by simp)
    | unchanged =>
      obtain ⟨-, -, -, -, -, regPk, rfl⟩ := stage_unchanged hs
      cases managed with
      | false => exact h.resolve_right (by simp)
      | true => exact Or.inr ⟨doneAt, rfl, hlater.2⟩
    | persist pending =>
      obtain ⟨-, -, -, hrollback, -, regPk, rfl⟩ := stage_persist hs
      cases stored with
      | some new => exact Or.inl hlater.1
      | none =>
        have hp := h.resolve_right (by simp)
        simp only [Peer.MovedOn, Peer.rollback, hrollback, Peer.snapshot]
        exact hp
  | verified now => exact Or.inr ⟨now, rfl, hlater⟩

theorem runOps_movedOn {p₀ p : Peer} {ops : List PeerOp} (hlater : ∀ op ∈ ops, op.LaterThan p₀)
    (h : p₀.MovedOn p ∨ noneTakesEffect codec allowUnmanagedDevices p ops = false) :
    p₀.MovedOn (runOps codec allowUnmanagedDevices p ops) := by
  induction ops generalizing p with
  | nil => exact h.resolve_right (by simp [noneTakesEffect])
  | cons op ops ih =>
    refine ih (fun op' hop' => hlater op' (List.mem_cons_of_mem _ hop')) ?_
    have hop := hlater op List.mem_cons_self
    rcases h with h | h
    · exact Or.inl (PeerOp.apply_movedOn hop (.inl h))
    · simp only [noneTakesEffect, Bool.and_eq_false_iff, Bool.not_eq_false'] at h
      rcases h with h | h
      · exact Or.inl (PeerOp.apply_movedOn hop (.inr h))
      · exact Or.inr h

/-- When something takes effect in the run without the failed request, that run
ends elsewhere. -/
theorem without_ne {p : Peer} {ops : List PeerOp} (hlater : ∀ op ∈ ops, op.LaterThan p)
    (h : noneTakesEffect codec allowUnmanagedDevices p ops = false) :
    (runOps codec allowUnmanagedDevices p ops).visible ≠ p.visible :=
  (runOps_movedOn hlater (.inr h)).visible_ne

end

/-! ## The comparison -/

/-- A failed registration leaves no trace exactly when nothing that was handled
between its staging and its rollback takes effect in the run without it.  That
nothing takes effect is enough at any clock; that it is needed uses that the
clock has moved on since the peer was last registered and verified. -/
theorem failedRegistration_traceless_iff (codec : InfoCodec) (allowUnmanagedDevices : Bool)
    {p p' : Peer} {socketAddr : SocketAddr} {uuid pk : Bytes} {managed : Bool} {now : Nat}
    {pending : PendingPeerRegistration}
    (hstage : stagePeerRegistration codec p socketAddr uuid pk socketAddr.ip.toString managed now =
      (p', .persist pending)) (ops : List PeerOp) :
    (noneTakesEffect codec allowUnmanagedDevices p ops = true →
      ((runOps codec allowUnmanagedDevices p' ops).rollback pending.rollback).visible =
        (runOps codec allowUnmanagedDevices p ops).visible) ∧
    ((∀ op ∈ ops, op.LaterThan p) →
      ((runOps codec allowUnmanagedDevices p' ops).rollback pending.rollback).visible =
        (runOps codec allowUnmanagedDevices p ops).visible →
      noneTakesEffect codec allowUnmanagedDevices p ops = true) := by
  rw [withFailed_visible allowUnmanagedDevices hstage ops]
  constructor
  · intro h
    exact (without_visible h).symm
  · intro hlater heq
    by_contra hsome
    exact without_ne hlater (by simpa using hsome) heq.symm

/-- Where the device of the two runs below sits. -/
def rollbackAddr : SocketAddr := .v4 ⟨192, 0, 2, 10⟩ 45000

/-- A peer that one device claimed from `rollbackAddr`. -/
def rollbackPeer : Peer :=
  { Peer.fresh 0 with
    socketAddr := rollbackAddr
    lastRegTime := Instant.ofSecs 10
    guid := List.replicate 16 1
    uuid := [7]
    pk := List.replicate 32 1
    info := ⟨rollbackAddr.ip.toString⟩ }

/-- A heartbeat from another address is refused with and without the request,
so it leaves no difference. -/
theorem failedRegistration_traceless_otherAddress :
    ∃ p' pending, stagePeerRegistration .plain rollbackPeer rollbackAddr [7] (List.replicate 32 2)
        rollbackAddr.ip.toString false (Instant.ofSecs 20) = (p', .persist pending) ∧
      ((runOps .plain true p' [.heartbeat (.v4 ⟨192, 0, 2, 66⟩ 45000) (Instant.ofSecs 25)]).rollback
          pending.rollback).visible =
        (runOps .plain true rollbackPeer
          [.heartbeat (.v4 ⟨192, 0, 2, 66⟩ 45000) (Instant.ofSecs 25)]).visible := by
  have hstage : stagePeerRegistration .plain rollbackPeer rollbackAddr [7] (List.replicate 32 2)
      rollbackAddr.ip.toString false (Instant.ofSecs 20) = (_, .persist _) := rfl
  exact ⟨_, _, hstage, (failedRegistration_traceless_iff .plain true hstage _).1 (by decide)⟩

/-- The device changes its key and the write fails; the heartbeat it sent
meanwhile, which was accepted, is undone. -/
theorem failedRegistration_undoes_heartbeat :
    ∃ p' pending, stagePeerRegistration .plain rollbackPeer rollbackAddr [7] (List.replicate 32 2)
        rollbackAddr.ip.toString false (Instant.ofSecs 20) = (p', .persist pending) ∧
      (heartbeat true p' rollbackAddr (Instant.ofSecs 25)).2 = false ∧
      ((runOps .plain true p' [.heartbeat rollbackAddr (Instant.ofSecs 25)]).rollback
          pending.rollback).visible ≠
        (runOps .plain true rollbackPeer [.heartbeat rollbackAddr (Instant.ofSecs 25)]).visible := by
  have hstage : stagePeerRegistration .plain rollbackPeer rollbackAddr [7] (List.replicate 32 2)
      rollbackAddr.ip.toString false (Instant.ofSecs 20) = (_, .persist _) := rfl
  exact ⟨_, _, hstage, by decide, by decide⟩

end RemoteServer
