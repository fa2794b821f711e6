import RemoteServer.PeerStore.Machine
import RemoteServer.Registration.Renaming

/-!
# The peer store under a renaming of addresses

A renaming of addresses acts on a whole state of the store: on the origin of every request, on the
addresses in the peer objects and in the tasks, on the rows and on the two tables.  It changes no
id, no object number and no time, so a step of the renamed state is the renamed step
(`step_rename`).  There is no case in which only one of the two can move.
-/

namespace RemoteServer.PeerStore

open RustStd

variable (ρ : AddrRenaming)

/-! ## Requests and tasks -/

def Origin.rename (origin : Origin) : Origin := { origin with addr := ρ.addr origin.addr }

def Call.rename : Call → Call
  | .registerPk origin rk managed => .registerPk (origin.rename ρ) rk managed
  | .registerPeer origin rp => .registerPeer (origin.rename ρ) rp
  | call => call

@[simp] theorem Call.id_rename (call : Call) : (call.rename ρ).id = call.id := by
  cases call <;> rfl

def Fresh.rename (f : Fresh) : Fresh := { f with peer := f.peer.rename ρ }

def Lookup.rename : Lookup → Lookup
  | .cacheRead f => .cacheRead (f.rename ρ)
  | .cacheWrite f => .cacheWrite (f.rename ρ)
  | .cacheLast f => .cacheLast (f.rename ρ)
  | pc => pc

def Evictor.rename : Evictor → Evictor
  | .timer => .timer
  | .cachePeer call f => .cachePeer (call.rename ρ) (f.rename ρ)

def Request.rename : Request → Request
  | .registerPk origin rk => .registerPk (origin.rename ρ) rk
  | .registerPeer origin rp => .registerPeer (origin.rename ρ) rp
  | r => r

def Event.rename : Event → Event
  | .staged i origin id now => .staged i (origin.rename ρ) id now
  | .completed i origin id now => .completed i (origin.rename ρ) id now
  | .beat origin id requestPk => .beat (origin.rename ρ) id requestPk
  | e => e

section Codec

variable (codec : InfoCodec)

def Persist.rename (p : Persist) : Persist :=
  { p with
    origin := p.origin.rename ρ
    info := codec.rename ρ p.info
    rollback := p.rollback.rename ρ }

/-- What a lookup has seen. -/
def renameSeen : Option (Bool × SocketAddr) → Option (Bool × SocketAddr) :=
  Option.map (Prod.map id ρ.addr)

def Answer.rename : Answer → Answer
  | .registerPk origin rk result => .registerPk (origin.rename ρ) rk result
  | .registerPeer origin rp result => .registerPeer (origin.rename ρ) rp result
  | .seen id result => .seen id (result.map (renameSeen ρ))
  | .persisted p stored => .persisted (p.rename ρ codec) stored
  | answer => answer

def Task.rename : Task → Task
  | .allowIp origin rk => .allowIp (origin.rename ρ) rk
  | .verify origin rk => .verify (origin.rename ρ) rk
  | .lookup call pc => .lookup (call.rename ρ) (pc.rename ρ)
  | .stage origin rk managed o => .stage (origin.rename ρ) rk managed o
  | .unchanged origin rk o => .unchanged (origin.rename ρ) rk o
  | .join origin rk o ipChanged j => .join (origin.rename ρ) rk o ipChanged j
  | .recordIp origin rk o => .recordIp (origin.rename ρ) rk o
  | .beat origin rp o => .beat (origin.rename ρ) rp o
  | .readPk id o => .readPk id o
  | .memRead id => .memRead id
  | .memTouch id o => .memTouch id o
  | .readAddr id o => .readAddr id o
  | .hold id o online addr => .hold id o online (ρ.addr addr)
  | .persistWrite p => .persistWrite (p.rename ρ codec)
  | .persistEnd p result => .persistEnd (p.rename ρ codec) result
  | .evict caller e => .evict (caller.rename ρ) e
  | .done answer => .done (answer.rename ρ codec)

/-! ## States -/

def Store.rename (s : Store) : Store :=
  { s with
    peers := fun o => (s.peers o).rename ρ
    db := s.db.rename ρ codec
    blockers := IpBlockMap.rename ρ s.blockers
    changes := IpChangesMap.rename ρ s.changes }

def State.rename (s : State) : State :=
  { s.toStore.rename ρ codec with tasks := s.tasks.map (Task.rename ρ codec) }

def Outcome.rename (out : Outcome) : Outcome where
  store := out.store.rename ρ codec
  task := out.task.rename ρ codec
  spawned := out.spawned.map (Task.rename ρ codec)
  events := out.events.map (Event.rename ρ)

variable (s : Store)

theorem Store.rename_setPeer (o : Nat) (p : Peer) :
    (s.setPeer o p).rename ρ codec = (s.rename ρ codec).setPeer o (p.rename ρ) := by
  have hpeers : (fun o' => (Function.update s.peers o p o').rename ρ) =
      Function.update (fun o' => (s.peers o').rename ρ) o (p.rename ρ) :=
    Function.comp_update (Peer.rename ρ) s.peers o p
  rw [Store.setPeer, Store.rename, hpeers]
  rfl

theorem Store.rename_insertPeer (id : PeerId) (p : Peer) :
    (s.insertPeer id p).rename ρ codec = (s.rename ρ codec).insertPeer id (p.rename ρ) := by
  have hpeers : (fun o' => (Function.update s.peers s.next p o').rename ρ) =
      Function.update (fun o' => (s.peers o').rename ρ) s.next (p.rename ρ) :=
    Function.comp_update (Peer.rename ρ) s.peers s.next p
  rw [Store.insertPeer, Store.rename, hpeers]
  rfl

/-! ## Eviction -/

theorem Task.refs_rename (t : Task) : (t.rename ρ codec).refs = t.refs := by
  cases t with
  | lookup call pc => cases pc <;> simp [Task.rename, Task.refs, Lookup.rename, Lookup.refs]
  | _ => rfl

theorem taskRefs_rename (tasks : List Task) (o : Nat) :
    taskRefs (tasks.map (Task.rename ρ codec)) o = taskRefs tasks o := by
  rw [taskRefs, taskRefs, List.map_map]
  congr 1
  refine List.map_congr_left fun t _ => ?_
  rw [Function.comp_apply, Task.refs_rename]

theorem removeCandidates_rename (s : State) (tryRead : PeerId → Bool)
    (candidates : List (PeerId × Nat)) (map : HashMap PeerId Nat) :
    removeCandidates (s.rename ρ codec) tryRead candidates map =
      removeCandidates s tryRead candidates map := by
  induction candidates generalizing map with
  | nil => rfl
  | cons c rest ih =>
    obtain ⟨id, lastAccessTime⟩ := c
    simp only [removeCandidates, ih]
    have hrefs : ∀ o, strongCount map (s.rename ρ codec).tasks o = strongCount map s.tasks o := by
      intro o
      rw [strongCount, strongCount]
      congr 1
      exact taskRefs_rename ρ codec s.tasks o
    simp only [hrefs]
    rfl

theorem stepEvict_rename (s : State) (ch : Choice) (idleSecs : Nat) (e : Evict) :
    stepEvict (s.rename ρ codec) ch idleSecs e =
      (stepEvict s ch idleSecs e).map (Store.rename ρ codec) id := by
  cases e with
  | snapshot => rfl
  | scan snap todo candidates =>
    cases todo with
    | nil =>
      simp only [stepEvict, removeCandidates_rename]
      rfl
    | cons next todo =>
      simp only [stepEvict]
      show (if inactive idleSecs s.now (s.peers next.2) then _ else _) = _
      split
      · rfl
      · rfl

theorem Evictor.resume_rename (caller : Evictor) :
    (caller.rename ρ).resume = caller.resume.rename ρ codec := by
  cases caller <;> rfl

/-! ## Lookups -/

theorem Call.resume_rename (call : Call) (o : Nat) :
    (call.rename ρ).resume o = (call.resume o).rename ρ codec := by
  cases call <;> rfl

theorem Call.absent_rename (cfg : Config) (now : Nat) (call : Call) :
    (call.rename ρ).absent cfg now = (call.absent cfg now).rename ρ codec := by
  cases call with
  | registerPk origin rk managed =>
    simp [Call.rename, Call.absent, Task.rename, Lookup.rename, Fresh.rename]
  | _ => rfl

theorem Call.failed_rename (err : String) (call : Call) :
    (call.rename ρ).failed err = (call.failed err).rename ρ codec := by
  cases call <;> rfl

theorem Call.gotEvents_rename (o : Nat) (viaGet : Bool) (call : Call) :
    (call.rename ρ).gotEvents o viaGet = (call.gotEvents o viaGet).map (Event.rename ρ) := by
  cases call with
  | registerPk origin rk managed => cases viaGet <;> rfl
  | _ => rfl

theorem returnObject_rename (call : Call) (viaGet : Bool) (o : Nat) :
    returnObject (s.rename ρ codec) (call.rename ρ) viaGet o =
      (returnObject s call viaGet o).rename ρ codec := by
  rw [returnObject, returnObject, Outcome.rename, Call.resume_rename ρ codec,
    Call.gotEvents_rename]
  rfl

theorem returnInserted_rename (call : Call) (f : Fresh) :
    returnInserted (s.rename ρ codec) (call.rename ρ) (f.rename ρ) =
      (returnInserted s call f).rename ρ codec := by
  rw [returnInserted, returnInserted, ← returnObject_rename, Store.rename_insertPeer,
    Call.id_rename]
  rfl

theorem returnNoRoom_rename (cfg : Config) (call : Call) (f : Fresh) :
    returnNoRoom cfg (s.rename ρ codec) (call.rename ρ) (f.rename ρ) =
      (returnNoRoom cfg s call f).rename ρ codec := by
  obtain ⟨peer, loaded⟩ := f
  cases loaded with
  | true =>
    simp only [returnNoRoom, Fresh.rename, if_true, Call.id_rename,
      Call.absent_rename ρ codec]
    rfl
  | false => cases call <;> rfl

theorem loadedPeer_rename (row : Row) (info : PeerInfo) (now : Nat) :
    loadedPeer (row.rename ρ codec) (info.rename ρ) now = (loadedPeer row info now).rename ρ := by
  simp [loadedPeer, Peer.rename, Row.rename, Peer.fresh]

end Codec

theorem stepLookup_rename (cfg : Config) (s : State) (ch : Choice) (call : Call) (pc : Lookup) :
    stepLookup cfg (s.rename ρ cfg.infoCodec) ch (call.rename ρ) (pc.rename ρ) =
      (stepLookup cfg s ch call pc).rename ρ cfg.infoCodec := by
  have hmap : (s.rename ρ cfg.infoCodec).map.get (call.rename ρ).id = s.map.get call.id := by
    rw [Call.id_rename]
    rfl
  have hobject : ∀ (viaGet : Bool) (o : Nat),
      returnObject (s.rename ρ cfg.infoCodec).toStore (call.rename ρ) viaGet o =
        (returnObject s.toStore call viaGet o).rename ρ cfg.infoCodec :=
    returnObject_rename ρ cfg.infoCodec s.toStore call
  cases pc with
  | read =>
    simp only [stepLookup, Lookup.rename, hmap]
    cases s.map.get call.id <;> rfl
  | touch o =>
    have htouch := Store.rename_setPeer ρ cfg.infoCodec s.toStore o ((s.peers o).touch s.now)
    exact (congrArg (returnObject · (call.rename ρ) true o) htouch.symm).trans
      (returnObject_rename ρ cfg.infoCodec _ call true o)
  | load =>
    simp only [stepLookup, Lookup.rename, Call.id_rename]
    cases ch.dbOk with
    | false =>
      rw [if_neg Bool.false_ne_true, if_neg Bool.false_ne_true, Call.failed_rename ρ cfg.infoCodec]
      rfl
    | true =>
      rw [if_pos rfl, if_pos rfl]
      have hrow : (s.rename ρ cfg.infoCodec).db.getPeer call.id =
          (s.db.getPeer call.id).map (Row.rename ρ cfg.infoCodec) :=
        Database.getPeer_rename ρ cfg.infoCodec s.db call.id
      rw [hrow]
      cases s.db.getPeer call.id with
      | none =>
        dsimp only [Option.map_none]
        rw [Call.absent_rename ρ cfg.infoCodec]
        rfl
      | some row =>
        dsimp only [Option.map_some]
        rw [show (row.rename ρ cfg.infoCodec).info = cfg.infoCodec.rename ρ row.info from rfl,
          InfoCodec.decode_rename]
        cases cfg.infoCodec.decode row.info with
        | none =>
          dsimp only [Option.map_none]
          rw [Call.failed_rename ρ cfg.infoCodec]
          rfl
        | some info =>
          dsimp only [Option.map_some]
          rw [loadedPeer_rename]
          rfl
  | cacheRead f =>
    simp only [stepLookup, Lookup.rename, hmap]
    cases s.map.get call.id with
    | some o => exact hobject f.loaded o
    | none =>
      show (if s.map.len < cfg.maxCachedPeers then _ else _) = _
      split <;> rfl
  | cacheWrite f =>
    simp only [stepLookup, Lookup.rename, hmap]
    cases s.map.get call.id with
    | some o => exact hobject f.loaded o
    | none =>
      show (if s.map.len < cfg.maxCachedPeers then _ else _) = _
      split
      · exact returnInserted_rename ρ cfg.infoCodec s.toStore call f
      · rfl
  | cacheLast f =>
    simp only [stepLookup, Lookup.rename, hmap]
    cases s.map.get call.id with
    | some o => exact hobject f.loaded o
    | none =>
      show (if s.map.len < cfg.maxCachedPeers then _ else _) = _
      split
      · exact returnInserted_rename ρ cfg.infoCodec s.toStore call f
      · exact returnNoRoom_rename ρ cfg.infoCodec s.toStore cfg call f

/-! ## Registrations -/

theorem stepStage_rename (cfg : Config) (s : Store) (i j : Nat) (origin : Origin) (rk : RegisterPk)
    (managed : Bool) (o : Nat) :
    stepStage cfg (s.rename ρ cfg.infoCodec) i j (origin.rename ρ) rk managed o =
      (stepStage cfg s i j origin rk managed o).rename ρ cfg.infoCodec := by
  have hstage : stagePeerRegistration cfg.infoCodec ((s.rename ρ cfg.infoCodec).peers o)
      (origin.rename ρ).addr rk.uuid rk.pk (ρ.text origin.addr.ip.toString) managed
      (s.rename ρ cfg.infoCodec).now = _ :=
    stagePeerRegistration_rename ρ (s.peers o) rk.uuid rk.pk origin.addr.ip.toString
      cfg.infoCodec origin.addr managed s.now
  have htext : (origin.rename ρ).addr.ip.toString = ρ.text origin.addr.ip.toString := by
    rw [Origin.rename, ρ.addr_ip, ρ.toString_ip]
  unfold stepStage
  rw [htext, hstage]
  obtain ⟨p, stage⟩ := stagePeerRegistration cfg.infoCodec (s.peers o) origin.addr rk.uuid rk.pk
    origin.addr.ip.toString managed s.now
  cases stage with
  | busy => rfl
  | uuidMismatch => rfl
  | tooFrequent => rfl
  | unchanged =>
    simp only [Prod.map, PeerRegistrationStage.rename]
    split
    · rw [Outcome.rename, Store.rename_setPeer]
      rfl
    · rw [Outcome.rename, Store.rename_setPeer]
      rfl
  | persist pending =>
    simp only [Prod.map, PeerRegistrationStage.rename]
    rw [Outcome.rename, Store.rename_setPeer]
    rfl

theorem persistStatement_rename (codec : InfoCodec) (db : Database) (ch : Choice) (p : Persist) :
    persistStatement (db.rename ρ codec) ch (p.rename ρ codec) =
      (persistStatement db ch p).map (Prod.map (Database.rename ρ codec) id) := by
  unfold persistStatement
  cases ch.dbOk with
  | false => rfl
  | true =>
    rw [if_pos rfl, if_pos rfl]
    show (if p.guid.isEmpty then _ else _) = _
    split
    · show Option.map _ (Database.insertPeer _ _ _ _ _ (codec.rename ρ p.info)) = _
      rw [Database.insertPeer_rename, Option.map_map, Option.map_map]
      rfl
    · show Option.map _ (Database.updateIdentity _ _ _ _ _ (codec.rename ρ p.info)) = _
      rw [Database.updateIdentity_rename, Option.map_map, Option.map_map]
      rfl

/-! ## Steps -/

theorem stepTask_rename (cfg : Config) (s : State) (i : Nat) (ch : Choice) (t : Task) :
    stepTask cfg (s.rename ρ cfg.infoCodec) i ch (t.rename ρ cfg.infoCodec) =
      (stepTask cfg s i ch t).map (Outcome.rename ρ cfg.infoCodec) := by
  have htext : ∀ origin : Origin,
      (origin.rename ρ).addr.ip.toString = ρ.text origin.addr.ip.toString := by
    intro origin
    rw [Origin.rename, ρ.addr_ip, ρ.toString_ip]
  have hset : ∀ (o : Nat) (p : Peer), (s.rename ρ cfg.infoCodec).setPeer o (p.rename ρ) =
      (s.setPeer o p).rename ρ cfg.infoCodec := fun o p =>
    (Store.rename_setPeer ρ cfg.infoCodec s.toStore o p).symm
  cases t with
  | allowIp origin rk =>
    simp only [Task.rename, stepTask]
    cases rk.refusal with
    | some r => rfl
    | none =>
      dsimp only
      rw [htext, show (s.rename ρ cfg.infoCodec).blockers = IpBlockMap.rename ρ s.blockers from rfl,
        show (s.rename ρ cfg.infoCodec).now = s.now from rfl, allowIpRequest_rename]
      obtain ⟨blockers, allowed⟩ := allowIpRequest s.blockers origin.addr.ip.toString rk.id s.now
      cases allowed with
      | false => rfl
      | true =>
        dsimp only [Prod.map, id]
        cases cfg.allowUnmanagedDevices <;> rfl
  | verify origin rk =>
    simp only [Task.rename, stepTask]
    cases verifyDeviceDeployment cfg ch.status with
    | error err => rfl
    | ok deployed => cases deployed <;> rfl
  | lookup call pc =>
    exact congrArg some (stepLookup_rename ρ cfg s ch call pc)
  | stage origin rk managed o =>
    simp only [Task.rename, stepTask, Option.map_some]
    rw [← stepStage_rename ρ cfg s.toStore i s.tasks.length]
    have htasks : (s.rename ρ cfg.infoCodec).tasks.length = s.tasks.length := List.length_map _
    rw [htasks]
    rfl
  | unchanged origin rk o =>
    simp only [Task.rename, stepTask, Option.map_some, Outcome.rename]
    rw [← hset]
    rfl
  | join origin rk o ipChanged j =>
    simp only [Task.rename, stepTask]
    have htask : (s.rename ρ cfg.infoCodec).tasks[j]? =
        (s.tasks[j]?).map (Task.rename ρ cfg.infoCodec) := List.getElem?_map
    rw [htask]
    cases s.tasks[j]? with
    | none => rfl
    | some t =>
      cases t with
      | done answer =>
        cases answer with
        | persisted p stored =>
          cases stored with
          | true => cases ipChanged <;> rfl
          | false => rfl
        | _ => rfl
      | _ => rfl
  | recordIp origin rk o =>
    simp only [Task.rename, stepTask, Option.map_some, Outcome.rename]
    rw [htext, show (s.rename ρ cfg.infoCodec).changes = IpChangesMap.rename ρ s.changes from rfl,
      recordIpChange_rename]
    rfl
  | beat origin rp o =>
    have hbeat : heartbeat cfg.allowUnmanagedDevices ((s.rename ρ cfg.infoCodec).peers o)
        (origin.rename ρ).addr (s.rename ρ cfg.infoCodec).now = _ :=
      heartbeat_rename ρ cfg.allowUnmanagedDevices (s.peers o) origin.addr s.now
    simp only [Task.rename, stepTask, Option.map_some, Outcome.rename]
    rw [hbeat, ← hset]
    rfl
  | readPk id o => rfl
  | memRead id =>
    simp only [Task.rename, stepTask]
    rw [show (s.rename ρ cfg.infoCodec).map = s.map from rfl]
    cases s.map.get id <;> rfl
  | memTouch id o =>
    simp only [Task.rename, stepTask, Option.map_some, Outcome.rename]
    rw [← hset]
    rfl
  | readAddr id o => rfl
  | hold id o online addr => rfl
  | persistWrite p =>
    simp only [Task.rename, stepTask]
    rw [show (s.rename ρ cfg.infoCodec).db = s.db.rename ρ cfg.infoCodec from rfl,
      persistStatement_rename]
    cases persistStatement s.db ch p <;> rfl
  | persistEnd p result =>
    cases result with
    | some guid =>
      simp only [Task.rename, stepTask, Option.map_some, Outcome.rename]
      rw [← hset]
      rfl
    | none =>
      simp only [Task.rename, stepTask, Option.map_some, Outcome.rename]
      rw [← hset]
      rfl
  | evict caller e =>
    have hidle : (caller.rename ρ).idleSecs = caller.idleSecs := by cases caller <;> rfl
    simp only [Task.rename, stepTask]
    rw [hidle, stepEvict_rename]
    obtain ⟨store, next⟩ := stepEvict s ch caller.idleSecs e
    cases next with
    | some e' => rfl
    | none =>
      dsimp only [Prod.map, id]
      rw [Evictor.resume_rename ρ cfg.infoCodec]
      rfl
  | done answer => rfl

theorem Request.start_rename (codec : InfoCodec) (r : Request) :
    (r.rename ρ).start = r.start.rename ρ codec := by
  cases r with
  | getPk version id =>
    simp only [Request.rename, Request.start]
    split <;> rfl
  | _ => rfl

def Action.rename : Action → Action
  | .call r => .call (r.rename ρ)
  | a => a

/-- A step of the renamed state is the renamed step. -/
theorem step_rename (cfg : Config) (s : State) (a : Action) :
    step cfg (s.rename ρ cfg.infoCodec) (a.rename ρ) =
      (step cfg s a).map (Prod.map (State.rename ρ cfg.infoCodec) (List.map (Event.rename ρ))) := by
  cases a with
  | tick d => rfl
  | call r =>
    simp only [Action.rename, step, Option.map_some, Prod.map, State.rename, List.map_append,
      List.map_cons, List.map_nil, Request.start_rename ρ cfg.infoCodec]
  | run i ch =>
    simp only [Action.rename, step]
    have htask : (s.rename ρ cfg.infoCodec).tasks[i]? =
        (s.tasks[i]?).map (Task.rename ρ cfg.infoCodec) := List.getElem?_map
    rw [htask]
    cases s.tasks[i]? with
    | none => rfl
    | some t =>
      dsimp only [Option.map_some]
      rw [stepTask_rename]
      cases stepTask cfg s i ch t with
      | none => rfl
      | some out =>
        simp only [Option.map_some, Prod.map, State.after, State.rename, Lts.map_advance]
        rfl

end RemoteServer.PeerStore
