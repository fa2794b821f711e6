import RemoteServer.Registration.Basic
import RemoteServer.RustStd.AddressRenaming
import RemoteServer.RustStd.Relabel

/-!
# The critical sections under a renaming of addresses

A registration reads a source address in three ways: as the address of the socket, as its text,
and as the text that was persisted with the peer.  A renaming of addresses acts on all of them, and
on the tables that have texts as keys.  Each critical section gives the same verdict on the renamed
data and leaves the renamed data behind.

* `Peer.rename`, `Database.rename` and the like rename one kind of data.
* `stagePeerRegistration_rename` and `heartbeat_rename` are about the peer, `allowIpRequest_rename`
  and `recordIpChange_rename` about the tables of `peer.rs`, and `insertPeer_rename` and
  `updateIdentity_rename` about the database.

The persisted text is the JSON of a `PeerInfo`, so it is renamed through the codec.  A text that
names no renamed address is kept as it is.
-/

namespace RemoteServer

open RustStd

variable (ρ : AddrRenaming)

/-! ## Peers -/

def PeerInfo.rename (info : PeerInfo) : PeerInfo := { info with ip := ρ.text info.ip }

def Peer.rename (p : Peer) : Peer :=
  { p with socketAddr := ρ.addr p.socketAddr, info := p.info.rename ρ }

def PeerRegistrationRollback.rename (r : PeerRegistrationRollback) : PeerRegistrationRollback :=
  { r with socketAddr := ρ.addr r.socketAddr, info := r.info.rename ρ }

@[simp] theorem Peer.rename_fresh (now : Nat) : (Peer.fresh now).rename ρ = Peer.fresh now := by
  simp [Peer.rename, Peer.fresh, PeerInfo.rename]

/-- The persisted text of a renamed `PeerInfo`. -/
def InfoCodec.rename (codec : InfoCodec) (text : String) : String :=
  match codec.decode text with
  | some info => if info.rename ρ = info then text else codec.encode (info.rename ρ)
  | none => text

theorem InfoCodec.decode_rename (codec : InfoCodec) (text : String) :
    codec.decode (codec.rename ρ text) = (codec.decode text).map (PeerInfo.rename ρ) := by
  unfold InfoCodec.rename
  cases h : codec.decode text with
  | none => simpa using h
  | some info =>
    dsimp only
    split
    · rename_i hkept
      rw [h, Option.map_some, hkept]
    · rw [codec.decode_encode, Option.map_some]

theorem InfoCodec.rename_encode (codec : InfoCodec) (info : PeerInfo) :
    codec.rename ρ (codec.encode info) = codec.encode (info.rename ρ) := by
  unfold InfoCodec.rename
  rw [codec.decode_encode]
  dsimp only
  split
  · rename_i hkept
    rw [hkept]
  · rfl

/-! ## Staging -/

def PendingPeerRegistration.rename (codec : InfoCodec) (pending : PendingPeerRegistration) :
    PendingPeerRegistration :=
  { pending with
    rollback := pending.rollback.rename ρ
    serializedInfo := codec.rename ρ pending.serializedInfo }

def PeerRegistrationStage.rename (codec : InfoCodec) : PeerRegistrationStage → PeerRegistrationStage
  | .persist pending => .persist (pending.rename ρ codec)
  | stage => stage

section Stage

variable (peer : Peer) (uuid pk : Bytes) (ip : String)

theorem identityAccepted_rename (managed : Bool) :
    identityAccepted (peer.rename ρ) uuid pk (ρ.text ip) managed =
      identityAccepted peer uuid pk ip managed := by
  have hip : decide ((peer.rename ρ).info.ip ≠ ρ.text ip) = decide (peer.info.ip ≠ ip) :=
    decide_eq_decide.2 ρ.text.injective.ne_iff
  unfold identityAccepted
  rw [hip]
  rfl

theorem ipChanged_rename : ipChanged (peer.rename ρ) (ρ.text ip) = ipChanged peer ip := by
  simp [ipChanged, Peer.rename, PeerInfo.rename]

theorem registrationChanged_rename :
    registrationChanged (peer.rename ρ) uuid pk (ρ.text ip) =
      registrationChanged peer uuid pk ip := by
  rw [registrationChanged, ipChanged_rename]
  rfl

theorem stagePeerRegistration_rename (codec : InfoCodec) (socketAddr : SocketAddr) (managed : Bool)
    (now : Nat) :
    stagePeerRegistration codec (peer.rename ρ) (ρ.addr socketAddr) uuid pk (ρ.text ip) managed now =
      (stagePeerRegistration codec peer socketAddr uuid pk ip managed now).map (Peer.rename ρ)
        (PeerRegistrationStage.rename ρ codec) := by
  unfold stagePeerRegistration
  rw [identityAccepted_rename]
  show (if peer.persistenceInProgress then _ else _) = _
  by_cases hbusy : peer.persistenceInProgress = true
  · rw [if_pos hbusy, if_pos hbusy]
    rfl
  rw [if_neg hbusy, if_neg hbusy]
  by_cases hid : (!identityAccepted peer uuid pk ip managed) = true
  · rw [if_pos hid, if_pos hid]
    rfl
  rw [if_neg hid, if_neg hid]
  rw [show (peer.rename ρ).regPk = peer.regPk from rfl]
  cases countAttempt peer.regPk now with
  | none => rfl
  | some regPk =>
    dsimp only
    have hpeer : { peer.rename ρ with regPk := regPk } =
        Peer.rename ρ { peer with regPk := regPk } := rfl
    rw [hpeer, registrationChanged_rename]
    split
    · rfl
    · rw [ipChanged_rename]
      simp only [Prod.map, PeerRegistrationStage.rename, PendingPeerRegistration.rename,
        InfoCodec.rename_encode]
      rfl

end Stage

/-! ## Heartbeats -/

theorem heartbeatIpChange_rename (old : Peer) (socketAddr : SocketAddr) :
    heartbeatIpChange (old.rename ρ) (ρ.addr socketAddr) = heartbeatIpChange old socketAddr := by
  simp [heartbeatIpChange, Peer.rename, PeerInfo.rename]

theorem heartbeat_rename (allowUnmanagedDevices : Bool) (old : Peer) (socketAddr : SocketAddr)
    (now : Nat) :
    heartbeat allowUnmanagedDevices (old.rename ρ) (ρ.addr socketAddr) now =
      (heartbeat allowUnmanagedDevices old socketAddr now).map (Peer.rename ρ) id := by
  have hreq : heartbeatRequestPk allowUnmanagedDevices (old.rename ρ) (ρ.addr socketAddr) now =
      heartbeatRequestPk allowUnmanagedDevices old socketAddr now := by
    rw [heartbeatRequestPk, heartbeatIpChange_rename]
    rfl
  simp only [heartbeat, hreq, Prod.map, id]
  split
  · rfl
  · rfl

/-! ## The tables of `peer.rs` -/

def IpBlockMap.rename (blockers : IpBlockMap) : IpBlockMap := blockers.relabel ρ.text id

def IpChangesMap.rename (changes : IpChangesMap) : IpChangesMap :=
  changes.relabel (.refl _) fun entry => (entry.1, entry.2.relabel ρ.text id)

theorem trackIp_rename (blockers : IpBlockMap) (ip : String) (now maxTrackedIps : Nat) :
    trackIp (IpBlockMap.rename ρ blockers) (ρ.text ip) now maxTrackedIps =
      (trackIp blockers ip now maxTrackedIps).map (IpBlockMap.rename ρ) id := by
  unfold trackIp IpBlockMap.rename
  rw [HashMap.containsKey_relabel, HashMap.len_relabel]
  by_cases hkey : blockers.containsKey ip = true
  · rw [if_pos hkey, if_pos hkey]
    rfl
  rw [if_neg hkey, if_neg hkey]
  have hpruned : (if maxTrackedIps ≤ blockers.len then
        (blockers.relabel ρ.text id).retain fun _ entry => entry.active now
      else blockers.relabel ρ.text id) =
      HashMap.relabel ρ.text id (if maxTrackedIps ≤ blockers.len then
        blockers.retain fun _ entry => entry.active now else blockers) := by
    split
    · exact HashMap.retain_relabel ρ.text id blockers fun _ _ => rfl
    · rfl
  dsimp only
  rw [hpruned, HashMap.len_relabel]
  generalize (if maxTrackedIps ≤ blockers.len then
    blockers.retain fun _ entry => entry.active now else blockers) = pruned
  split
  · rfl
  · exact Prod.ext (HashMap.insert_relabel ρ.text id _ ip _) rfl

theorem allowIpRequest_rename (blockers : IpBlockMap) (ip deviceId : String) (now : Nat) :
    allowIpRequest (IpBlockMap.rename ρ blockers) (ρ.text ip) deviceId now =
      (allowIpRequest blockers ip deviceId now).map (IpBlockMap.rename ρ) id := by
  unfold allowIpRequest allowIpRequestIn
  rw [trackIp_rename]
  obtain ⟨tracked, found⟩ := trackIp blockers ip now maxTrackedIpBlockers
  simp only [Prod.map, id]
  cases found with
  | false => rfl
  | true =>
    rw [if_pos rfl, if_pos rfl, IpBlockMap.rename, HashMap.get_relabel]
    cases tracked.get ip with
    | none => rfl
    | some entry => exact Prod.ext (HashMap.insert_relabel ρ.text id tracked ip _) rfl

theorem recordIpChange_rename (changes : IpChangesMap) (deviceId ip : String) (now : Nat) :
    recordIpChange (IpChangesMap.rename ρ changes) deviceId (ρ.text ip) now =
      (recordIpChange changes deviceId ip now).map (IpChangesMap.rename ρ) id := by
  -- the ids stay as they are, and the table of each id is renamed
  have hcontains : ∀ m : IpChangesMap,
      (IpChangesMap.rename ρ m).containsKey deviceId = m.containsKey deviceId := fun m =>
    HashMap.containsKey_relabel (.refl _) _ m deviceId
  have hget : ∀ m : IpChangesMap, (IpChangesMap.rename ρ m).get deviceId =
      (m.get deviceId).map fun entry => (entry.1, entry.2.relabel ρ.text id) := fun m =>
    HashMap.get_relabel (.refl _) _ m deviceId
  have hlen : ∀ m : IpChangesMap, (IpChangesMap.rename ρ m).len = m.len := fun m =>
    HashMap.len_relabel (.refl _) _ m
  have hinsert : ∀ (m : IpChangesMap) (entry : Nat × HashMap String Nat),
      (IpChangesMap.rename ρ m).insert deviceId (entry.1, entry.2.relabel ρ.text id) =
        IpChangesMap.rename ρ (m.insert deviceId entry) := fun m entry =>
    HashMap.insert_relabel (.refl _) _ m deviceId entry
  have hretain : (IpChangesMap.rename ρ changes).retain
        (fun _ entry => !windowExpired now entry.1 ipChangeDurX2) =
      IpChangesMap.rename ρ (changes.retain
        fun _ entry => !windowExpired now entry.1 ipChangeDurX2) :=
    HashMap.retain_relabel (.refl _) _ changes fun _ _ => rfl
  have hpruned : ∀ c : Bool, (if c = true then
        IpChangesMap.rename ρ (changes.retain
          fun _ entry => !windowExpired now entry.1 ipChangeDurX2)
      else IpChangesMap.rename ρ changes) =
      IpChangesMap.rename ρ (if c = true then
        changes.retain fun _ entry => !windowExpired now entry.1 ipChangeDurX2
      else changes) := by
    intro c
    cases c <;> rfl
  unfold recordIpChange recordIpChangeIn
  dsimp only
  rw [hcontains, hlen, hretain, hpruned]
  generalize (if (!changes.containsKey deviceId && decide (maxTrackedIpChanges ≤ changes.len)) = true
    then changes.retain fun _ entry => !windowExpired now entry.1 ipChangeDurX2 else changes) = pruned
  rw [hcontains, hlen, hget]
  split
  · rfl
  have hentry : ((pruned.get deviceId).map
        fun entry => (entry.1, entry.2.relabel ρ.text id)).getD (now, .empty) =
      (fun entry => (entry.1, entry.2.relabel ρ.text id))
        ((pruned.get deviceId).getD (now, .empty)) := by
    cases pruned.get deviceId <;> rfl
  rw [hentry]
  generalize (pruned.get deviceId).getD (now, .empty) = entry
  have hwindow : (if windowExpired now entry.1 ipChangeDur = true then (now, .empty)
        else (entry.1, entry.2.relabel ρ.text id)) =
      (fun entry => (entry.1, entry.2.relabel ρ.text id))
        (if windowExpired now entry.1 ipChangeDur = true then (now, .empty) else entry) := by
    split <;> rfl
  dsimp only at hwindow ⊢
  rw [hwindow]
  generalize (if windowExpired now entry.1 ipChangeDur = true then (now, .empty) else entry) = entry
  rw [HashMap.get_relabel]
  cases entry.2.get ip with
  | some count =>
    refine Prod.ext ?_ rfl
    show HashMap.insert _ _ (_, HashMap.insert _ _ (id _)) = _
    rw [HashMap.insert_relabel]
    exact hinsert pruned (entry.1, entry.2.insert ip (min (count + 1) (2 ^ 31 - 1)))
  | none =>
    dsimp only [Option.map_none]
    rw [HashMap.len_relabel]
    split
    · exact Prod.ext (hinsert pruned entry) rfl
    · refine Prod.ext ?_ rfl
      show HashMap.insert _ _ (_, HashMap.insert _ _ (id _)) = _
      rw [HashMap.insert_relabel]
      exact hinsert pruned (entry.1, entry.2.insert ip 1)

/-! ## The database -/

def Row.rename (codec : InfoCodec) (r : Row) : Row := { r with info := codec.rename ρ r.info }

namespace Database

theorem ext_rows {db db' : Database} (h : db.rows = db'.rows) : db = db' := by
  cases db
  cases db'
  simp_all

def rename (codec : InfoCodec) (db : Database) : Database where
  rows := db.rows.map (Row.rename ρ codec)
  guidNodup := by
    rw [List.map_map]
    exact db.guidNodup
  idNodup := by
    rw [List.map_map]
    exact db.idNodup

variable (codec : InfoCodec) (db : Database)

theorem getPeer_rename (id : PeerId) :
    (db.rename ρ codec).getPeer id = (db.getPeer id).map (Row.rename ρ codec) := by
  show (db.rows.map (Row.rename ρ codec)).find? _ = _
  rw [List.find?_map]
  rfl

theorem ofRows_rename (rows : List Row) :
    ofRows (rows.map (Row.rename ρ codec)) = (ofRows rows).map (rename ρ codec) := by
  have hguid : (rows.map (Row.rename ρ codec)).map Row.guid = rows.map Row.guid := by
    rw [List.map_map]
    rfl
  have hid : (rows.map (Row.rename ρ codec)).map Row.id = rows.map Row.id := by
    rw [List.map_map]
    rfl
  by_cases h : (rows.map Row.guid).Nodup ∧ (rows.map Row.id).Nodup
  · rw [ofRows, dif_pos (by rw [hguid, hid]; exact h), ofRows, dif_pos h]
    rfl
  · rw [ofRows, dif_neg (by rw [hguid, hid]; exact h), ofRows, dif_neg h]
    rfl

theorem insertPeer_rename (guid : Bytes) (id : PeerId) (uuid pk : Bytes) (info : String) :
    (db.rename ρ codec).insertPeer guid id uuid pk (codec.rename ρ info) =
      (db.insertPeer guid id uuid pk info).map (rename ρ codec) := by
  rw [insertPeer, insertPeer, ← ofRows_rename, List.map_append]
  rfl

theorem updateIdentity_rename (guid : Bytes) (id : PeerId) (uuid pk : Bytes) (info : String) :
    (db.rename ρ codec).updateIdentity guid id uuid pk (codec.rename ρ info) =
      (db.updateIdentity guid id uuid pk info).map (rename ρ codec) := by
  rw [updateIdentity, updateIdentity, ← ofRows_rename, rename, List.map_map, List.map_map]
  congr 1
  refine List.map_congr_left fun r _ => ?_
  show updateRow _ _ _ _ _ (Row.rename ρ codec r) = Row.rename ρ codec (updateRow _ _ _ _ _ r)
  by_cases hguid : r.guid = guid
  · have hguid' : (Row.rename ρ codec r).guid = guid := hguid
    rw [updateRow, if_pos hguid', updateRow, if_pos hguid]
    rfl
  · have hguid' : (Row.rename ρ codec r).guid ≠ guid := hguid
    rw [updateRow, if_neg hguid', updateRow, if_neg hguid]

end Database

end RemoteServer
