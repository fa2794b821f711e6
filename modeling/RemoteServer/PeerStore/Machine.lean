import Mathlib
import RemoteServer.Lts.Run
import RemoteServer.Lts.Pool
import RemoteServer.Registration.Basic

/-!
# The peer store and the tasks that work on it

`PeerMap` keeps one shared `Peer` object per cached id in front of the database.
Any number of tasks work on it: one per request that is being handled, one per
persistence that was spawned, and eviction passes.  A task only loses control at
an `.await`, that is when it takes a lock, calls the database or the management
API, or waits for another task.  The state of a task says at which `.await` it
is, and one step of it is what it does from there to the next one.  No lock is
held across an `.await`, so a step is atomic.

* `Store` is what the tasks share: the clock, the cache, the peer objects, the
  database and the two address tables.  Objects are numbered; an `Arc` is a
  number, and `Task.refs` lists the ones a task holds.
* `Lookup` are the points of `PeerMap::get` and `get_or`, with `cache_peer`
  inside, and `Evict` those of `evict_inactive`, which the timer and
  `cache_peer` call.
* `Task` are the points of `register_pk_common`, `register_peer_common`,
  `get_pk`, of the lookups that the request handlers make, and of the
  persistence task.
* `step` takes an action: the clock moves, a request arrives, or a task makes
  its next step.  What the outside answers is part of the action (`Choice`), and
  a database call either applies fully or fails without a trace.

A finished task stays in the list with its answer, so a state remembers every
answer given so far.
-/

namespace RemoteServer.PeerStore

open RustStd

/-- The settings that the functions below read. -/
structure Config where
  allowUnmanagedDevices : Bool
  maxCachedPeers : Nat
  /-- The origin of the management API. -/
  apiServer : String
  serial : Int
  rendezvousServers : List String
  infoCodec : InfoCodec

/-- Where a request came from: the connection and its source address. -/
structure Origin where
  conn : Nat
  addr : SocketAddr
deriving DecidableEq, Repr

/-- What the tasks share. -/
structure Store where
  now : Nat
  /-- `PeerMap::map`: the object of each cached id. -/
  map : HashMap PeerId Nat
  peers : Nat → Peer
  /-- The number of the next object. -/
  next : Nat
  db : Database
  blockers : IpBlockMap
  changes : IpChangesMap

/-- Write through an object. -/
def Store.setPeer (s : Store) (o : Nat) (p : Peer) : Store :=
  { s with peers := Function.update s.peers o p }

/-- Insert a new object for an id. -/
def Store.insertPeer (s : Store) (id : PeerId) (p : Peer) : Store :=
  { s with
    map := s.map.insert id s.next
    peers := Function.update s.peers s.next p
    next := s.next + 1 }

/-! ## The points of a task -/

/-- The request a lookup serves. -/
inductive Call where
  /-- `register_pk_common` after its verification; the only caller of `get_or`. -/
  | registerPk (origin : Origin) (rk : RegisterPk) (managedAuthorized : Bool)
  | registerPeer (origin : Origin) (rp : RegisterPeer)
  | getPk (id : PeerId)
  /-- The lookup of `handle_punch_hole_request`. -/
  | punchHole (id : PeerId)
deriving DecidableEq, Repr

def Call.id : Call → PeerId
  | .registerPk _ rk _ => rk.id
  | .registerPeer _ rp => rp.id
  | .getPk id => id
  | .punchHole id => id

/-- The peer that `cache_peer` is asked to store: read from the database by
`get`, or the empty one of `get_or`. -/
structure Fresh where
  peer : Peer
  loaded : Bool
deriving DecidableEq, Repr

/-- The points of `evict_inactive`.  A scan holds the whole snapshot until the
pass ends. -/
inductive Evict where
  /-- Before the read lock of the map. -/
  | snapshot
  /-- Before the read lock of the next object, or before the write lock of the
  map when none is left. -/
  | scan (snap todo : List (PeerId × Nat)) (candidates : List (PeerId × Nat))
deriving DecidableEq, Repr

/-- The points of a lookup. -/
inductive Lookup where
  /-- `get`, before the read lock of the map. -/
  | read
  /-- `get`, before the write lock of the object it found. -/
  | touch (o : Nat)
  /-- `get`, before the database call. -/
  | load
  /-- `cache_peer`, before the read lock of the map. -/
  | cacheRead (f : Fresh)
  /-- `cache_peer`, before its first write lock. -/
  | cacheWrite (f : Fresh)
  /-- `cache_peer`, before its last write lock. -/
  | cacheLast (f : Fresh)
deriving DecidableEq, Repr

/-- The caller of `evict_inactive`. -/
inductive Evictor where
  | timer
  | cachePeer (call : Call) (f : Fresh)
deriving DecidableEq, Repr

/-- What the spawned persistence task captures.  `owner` is the handler that
waits for it. -/
structure Persist where
  owner : Nat
  origin : Origin
  id : PeerId
  obj : Nat
  guid : Bytes
  uuid : Bytes
  pk : Bytes
  info : String
  rollback : PeerRegistrationRollback
  managedAuthorized : Bool
deriving DecidableEq, Repr

/-- `ConfigUpdate`. -/
structure ConfigUpdate where
  serial : Int
  rendezvousServers : List String
deriving DecidableEq, Repr

/-- What a finished task answered. -/
inductive Answer where
  | registerPk (origin : Origin) (rk : RegisterPk) (result : Except String RegisterPkResult)
  /-- `request_pk` and the configuration update. -/
  | registerPeer (origin : Origin) (rp : RegisterPeer)
      (result : Except String (Bool × Option ConfigUpdate))
  /-- `get_pk`: the key that was signed together with the id, or nothing. -/
  | getPk (id : PeerId) (signed : Option Bytes)
  /-- Whether the peer is online, and its address. -/
  | seen (id : PeerId) (result : Except String (Option (Bool × SocketAddr)))
  | persisted (p : Persist) (stored : Bool)
  | evicted
deriving DecidableEq

/-- The points of a task. -/
inductive Task where
  /-- `register_pk_common`, before the rate limit. -/
  | allowIp (origin : Origin) (rk : RegisterPk)
  /-- `register_pk_common`, waiting for the management API. -/
  | verify (origin : Origin) (rk : RegisterPk)
  | lookup (call : Call) (pc : Lookup)
  /-- `register_pk_common`, before the write lock that stages. -/
  | stage (origin : Origin) (rk : RegisterPk) (managedAuthorized : Bool) (o : Nat)
  /-- `register_pk_common`, before the second write of the unchanged case. -/
  | unchanged (origin : Origin) (rk : RegisterPk) (o : Nat)
  /-- `register_pk_common`, waiting for the persistence task `j`. -/
  | join (origin : Origin) (rk : RegisterPk) (o : Nat) (ipChanged : Bool) (j : Nat)
  /-- `register_pk_common`, before the lock of `IP_CHANGES`. -/
  | recordIp (origin : Origin) (rk : RegisterPk) (o : Nat)
  /-- `register_peer_common`, before the write lock. -/
  | beat (origin : Origin) (rp : RegisterPeer) (o : Nat)
  /-- `get_pk`, before the read lock. -/
  | readPk (id : PeerId) (o : Nat)
  /-- `get_in_memory`, before the read lock of the map. -/
  | memRead (id : PeerId)
  /-- `get_in_memory`, before the write lock of the object. -/
  | memTouch (id : PeerId) (o : Nat)
  /-- A request handler, before it reads the registration age and the address. -/
  | readAddr (id : PeerId) (o : Nat)
  /-- A request handler that has read them and still holds the object. -/
  | hold (id : PeerId) (o : Nat) (online : Bool) (addr : SocketAddr)
  /-- The persistence task, before the database call. -/
  | persistWrite (p : Persist)
  /-- The persistence task, before the write lock; `some guid` is a success. -/
  | persistEnd (p : Persist) (result : Option Bytes)
  | evict (caller : Evictor) (e : Evict)
  | done (answer : Answer)
deriving DecidableEq

structure State extends Store where
  tasks : List Task

/-! ## References -/

def Evict.refs : Evict → List (PeerId × Nat)
  | .snapshot => []
  | .scan snap _ _ => snap

def Lookup.refs (id : PeerId) : Lookup → List (PeerId × Nat)
  | .touch o => [(id, o)]
  | _ => []

/-- The objects a task holds an `Arc` of, each with the id it belongs to.  The
object that `cache_peer` has not inserted yet is nobody else's and is left out. -/
def Task.refs : Task → List (PeerId × Nat)
  | .lookup call pc => pc.refs call.id
  | .stage _ rk _ o => [(rk.id, o)]
  | .unchanged _ rk o => [(rk.id, o)]
  | .join _ rk o _ _ => [(rk.id, o)]
  | .recordIp _ rk o => [(rk.id, o)]
  | .beat _ rp o => [(rp.id, o)]
  | .readPk id o => [(id, o)]
  | .memTouch id o => [(id, o)]
  | .readAddr id o => [(id, o)]
  | .hold id o _ _ => [(id, o)]
  | .persistWrite p => [(p.id, p.obj)]
  | .persistEnd p _ => [(p.id, p.obj)]
  | .evict _ e => e.refs
  | _ => []

/-- The `Arc`s of an object that tasks hold. -/
def taskRefs (tasks : List Task) (o : Nat) : Nat :=
  (tasks.map fun t => t.refs.countP fun q => decide (q.2 = o)).sum

/-! ## Actions and events -/

/-- What the outside decides at one step. -/
structure Choice where
  /-- Whether the database call succeeds. -/
  dbOk : Bool := true
  /-- `Uuid::new_v4`. -/
  guid : Vector UInt8 16 := Vector.replicate 16 0
  /-- The status of the management API, `none` when there is no answer. -/
  status : Option Nat := none
  /-- Whether `try_read` gets the lock. -/
  tryRead : PeerId → Bool := fun _ => true

/-- What a connection or a timer starts. -/
inductive Request where
  | registerPk (origin : Origin) (rk : RegisterPk)
  | registerPeer (origin : Origin) (rp : RegisterPeer)
  | getPk (version : String) (id : PeerId)
  | punchHole (id : PeerId)
  | requestRelay (id : PeerId)
  | evictTimer
deriving DecidableEq, Repr

inductive Action where
  | tick (d : Nat)
  | call (r : Request)
  | run (i : Nat) (ch : Choice)

/-- What an observer sees.  `i` is the handler of a `RegisterPk`. -/
inductive Event where
  /-- `PeerMap::get` answered `Ok`. -/
  | got (id : PeerId) (r : Option Nat)
  /-- `PeerMap::get_or` answered with an object. -/
  | gotOr (id : PeerId) (o : Nat)
  | verifying (i : Nat) (id : PeerId)
  | verified (i : Nat) (id : PeerId)
  | staged (i : Nat) (origin : Origin) (id : PeerId) (now : Nat)
  /-- A `RegisterPk` completed with `OK`. -/
  | completed (i : Nat) (origin : Origin) (id : PeerId) (now : Nat)
  | rolledBack (i : Nat) (id : PeerId)
  /-- A `RegisterPeer` was decided. -/
  | beat (origin : Origin) (id : PeerId) (requestPk : Bool)
  | signed (id : PeerId) (pk : Bytes)
deriving DecidableEq, Repr

/-! ## One step of a task -/

/-- The store, the task and the spawned task that a step leaves, and its events. -/
structure Outcome where
  store : Store
  task : Task
  spawned : List Task := []
  events : List Event := []

def peerCacheActiveGraceSecs : Nat := 60
def peerCacheIdleSecs : Nat := 600

/-- The `idle_secs` a caller passes. -/
def Evictor.idleSecs : Evictor → Nat
  | .timer => peerCacheIdleSecs
  | .cachePeer _ _ => peerCacheActiveGraceSecs

/-- How the caller goes on after the pass. -/
def Evictor.resume : Evictor → Task
  | .timer => .done .evicted
  | .cachePeer call f => .lookup call (.cacheLast f)

/-- Whether a scan makes the object a candidate. -/
def inactive (idleSecs now : Nat) (p : Peer) : Bool :=
  decide (idleSecs ≤ Instant.elapsedSecs now p.lastAccessTime) &&
    decide (peerCacheActiveGraceSecs ≤ Instant.elapsedSecs now p.lastRegTime)

/-- `Arc::strong_count` of an object, with `map` as the cache. -/
def strongCount (map : HashMap PeerId Nat) (tasks : List Task) (o : Nat) : Nat :=
  (map.entries.countP fun e => decide (e.2 = o)) + taskRefs tasks o

/-- The loop of `evict_inactive` over its candidates, under one write lock. -/
def removeCandidates (s : State) (tryRead : PeerId → Bool) :
    List (PeerId × Nat) → HashMap PeerId Nat → HashMap PeerId Nat
  | [], map => map
  | (id, lastAccessTime) :: rest, map =>
    match map.get id with
    | some o =>
      if strongCount map s.tasks o ≤ 2 ∧ tryRead id = true ∧
          (s.peers o).lastAccessTime = lastAccessTime then
        removeCandidates s tryRead rest (map.remove id)
      else removeCandidates s tryRead rest map
    | none => removeCandidates s tryRead rest map

/-- One step of `evict_inactive`; `none` when the pass is over. -/
def stepEvict (s : State) (ch : Choice) (idleSecs : Nat) : Evict → Store × Option Evict
  | .snapshot => (s.toStore, some (.scan s.map.entries s.map.entries []))
  | .scan snap ((id, o) :: todo) candidates =>
    let p := s.peers o
    if inactive idleSecs s.now p then
      (s.toStore, some (.scan snap todo (candidates ++ [(id, p.lastAccessTime)])))
    else (s.toStore, some (.scan snap todo candidates))
  | .scan _ [] candidates =>
    ({ s.toStore with map := removeCandidates s ch.tryRead candidates s.map }, none)

/-- The configuration update of `register_peer_common`. -/
def configUpdate (cfg : Config) (rp : RegisterPeer) : Option ConfigUpdate :=
  if rp.serial < cfg.serial then some ⟨cfg.serial, cfg.rendezvousServers⟩ else none

/-- How a request goes on with the object it looked up. -/
def Call.resume (o : Nat) : Call → Task
  | .registerPk origin rk managed => .stage origin rk managed o
  | .registerPeer origin rp => .beat origin rp o
  | .getPk id => .readPk id o
  | .punchHole id => .readAddr id o

/-- How a request goes on when `get` answers `Ok(None)`: `get_or` offers an
empty peer, the others take the id for unknown. -/
def Call.absent (cfg : Config) (now : Nat) : Call → Task
  | .registerPk origin rk managed =>
    .lookup (.registerPk origin rk managed) (.cacheRead ⟨Peer.fresh now, false⟩)
  | .registerPeer origin rp => .done (.registerPeer origin rp (.ok (true, configUpdate cfg rp)))
  | .getPk id => .done (.getPk id none)
  | .punchHole id => .done (.seen id (.ok none))

/-- How a request goes on when the lookup fails. -/
def Call.failed (err : String) : Call → Task
  | .registerPk origin rk _ => .done (.registerPk origin rk (.error err))
  | .registerPeer origin rp => .done (.registerPeer origin rp (.error err))
  | .getPk id => .done (.getPk id none)
  | .punchHole id => .done (.seen id (.error err))

/-- Events of a lookup that returns an object: `get_or` returns what `get`
returned, and so does `get` when it loaded the peer itself. -/
def Call.gotEvents (o : Nat) (viaGet : Bool) : Call → List Event
  | .registerPk _ rk _ => (if viaGet then [.got rk.id (some o)] else []) ++ [.gotOr rk.id o]
  | call => [.got call.id (some o)]

/-- `cache_peer` returns an object. -/
def returnObject (s : Store) (call : Call) (viaGet : Bool) (o : Nat) : Outcome where
  store := s
  task := call.resume o
  events := call.gotEvents o viaGet

/-- `cache_peer` inserts the offered peer. -/
def returnInserted (s : Store) (call : Call) (f : Fresh) : Outcome :=
  returnObject (s.insertPeer call.id f.peer) call f.loaded s.next

/-- `cache_peer` finds no room.  Inside `get` this is an `Ok(None)` like that of
an absent row; inside `get_or` the registration fails. -/
def returnNoRoom (cfg : Config) (s : Store) (call : Call) (f : Fresh) : Outcome where
  store := s
  task :=
    if f.loaded then call.absent cfg s.now
    else
      match call with
      | .registerPk origin rk _ => .done (.registerPk origin rk (.ok .serverError))
      | call => call.absent cfg s.now
  events := if f.loaded then [.got call.id none] else []

/-- The peer that `get` builds from a row. -/
def loadedPeer (row : Row) (info : PeerInfo) (now : Nat) : Peer :=
  { Peer.fresh now with guid := row.guid, uuid := row.uuid, pk := row.pk, info := info }

/-- One step of a lookup. -/
def stepLookup (cfg : Config) (s : State) (ch : Choice) (call : Call) : Lookup → Outcome
  | .read =>
    match s.map.get call.id with
    | some o => ⟨s.toStore, .lookup call (.touch o), [], []⟩
    | none => ⟨s.toStore, .lookup call .load, [], []⟩
  | .touch o => returnObject (s.setPeer o ((s.peers o).touch s.now)) call true o
  | .load =>
    if ch.dbOk then
      match s.db.getPeer call.id with
      | none => ⟨s.toStore, call.absent cfg s.now, [], [.got call.id none]⟩
      | some row =>
        match cfg.infoCodec.decode row.info with
        | none =>
          ⟨s.toStore, call.failed ("Peer " ++ call.id ++ " has malformed persisted metadata"),
            [], []⟩
        | some info => ⟨s.toStore, .lookup call (.cacheRead ⟨loadedPeer row info s.now, true⟩), [], []⟩
    else
      ⟨s.toStore, call.failed ("Unable to load peer " ++ call.id ++ " from the database"), [], []⟩
  | .cacheRead f =>
    match s.map.get call.id with
    | some o => returnObject s.toStore call f.loaded o
    | none =>
      if s.map.len < cfg.maxCachedPeers then ⟨s.toStore, .lookup call (.cacheWrite f), [], []⟩
      else ⟨s.toStore, .evict (.cachePeer call f) .snapshot, [], []⟩
  | .cacheWrite f =>
    match s.map.get call.id with
    | some o => returnObject s.toStore call f.loaded o
    | none =>
      if s.map.len < cfg.maxCachedPeers then returnInserted s.toStore call f
      else ⟨s.toStore, .evict (.cachePeer call f) .snapshot, [], []⟩
  | .cacheLast f =>
    match s.map.get call.id with
    | some o => returnObject s.toStore call f.loaded o
    | none =>
      if s.map.len < cfg.maxCachedPeers then returnInserted s.toStore call f
      else returnNoRoom cfg s.toStore call f

/-- `verify_device_deployment` as a function of what the API answers.  The
origin counts as missing when nothing is left without its trailing slashes. -/
def verifyDeviceDeployment (cfg : Config) (status : Option Nat) : Except String Bool :=
  if cfg.allowUnmanagedDevices then .ok true
  else if cfg.apiServer.toList.all (· == '/') then .error "API server is not configured"
  else
    match status with
    | none => .error "error sending request"
    | some status =>
      if status = 204 then .ok true
      else if status = 401 ∨ status = 403 then
        .error "API rejected the rendezvous server credential"
      else if status = 400 ∨ status = 404 then .ok false
      else .error ("API returned status " ++ status.repr)

/-- The statement of the persistence task: the table and the `guid` when it
applies, `none` when it fails. -/
def persistStatement (db : Database) (ch : Choice) (p : Persist) : Option (Database × Bytes) :=
  if ch.dbOk then
    if p.guid.isEmpty then
      (db.insertPeer ch.guid.toList p.id p.uuid p.pk p.info).map fun db' => (db', ch.guid.toList)
    else (db.updateIdentity p.guid p.id p.uuid p.pk p.info).map fun db' => (db', p.guid)
  else none

/-- The staging step of `register_pk_common`, with the spawn when something has
to be stored.  `i` is the task itself and `j` the number of the spawned one. -/
def stepStage (cfg : Config) (s : Store) (i j : Nat) (origin : Origin) (rk : RegisterPk)
    (managed : Bool) (o : Nat) : Outcome :=
  match stagePeerRegistration cfg.infoCodec (s.peers o) origin.addr rk.uuid rk.pk
      origin.addr.ip.toString managed s.now with
  | (_, .busy) => ⟨s, .done (.registerPk origin rk (.ok .serverError)), [], []⟩
  | (_, .uuidMismatch) => ⟨s, .done (.registerPk origin rk (.ok .uuidMismatch)), [], []⟩
  | (_, .tooFrequent) => ⟨s, .done (.registerPk origin rk (.ok .tooFrequent)), [], []⟩
  | (p, .unchanged) =>
    if managed then ⟨s.setPeer o p, .unchanged origin rk o, [], []⟩
    else
      ⟨s.setPeer o p, .done (.registerPk origin rk (.ok .ok)), [], [.completed i origin rk.id s.now]⟩
  | (p, .persist pending) =>
    ⟨s.setPeer o p, .join origin rk o pending.ipChanged j,
      [.persistWrite ⟨i, origin, rk.id, o, pending.guid, rk.uuid, rk.pk, pending.serializedInfo,
        pending.rollback, managed⟩],
      [.staged i origin rk.id s.now]⟩

/-- One step of task `i`; `none` when it cannot move. -/
def stepTask (cfg : Config) (s : State) (i : Nat) (ch : Choice) : Task → Option Outcome
  | .allowIp origin rk =>
    match rk.refusal with
    | some r => some ⟨s.toStore, .done (.registerPk origin rk (.ok r)), [], []⟩
    | none =>
      let (blockers, allowed) := allowIpRequest s.blockers origin.addr.ip.toString rk.id s.now
      let store := { s.toStore with blockers := blockers }
      if !allowed then some ⟨store, .done (.registerPk origin rk (.ok .tooFrequent)), [], []⟩
      else if cfg.allowUnmanagedDevices then
        some ⟨store, .lookup (.registerPk origin rk false) .read, [], []⟩
      else some ⟨store, .verify origin rk, [], [.verifying i rk.id]⟩
  | .verify origin rk =>
    match verifyDeviceDeployment cfg ch.status with
    | .ok true =>
      some ⟨s.toStore, .lookup (.registerPk origin rk true) .read, [], [.verified i rk.id]⟩
    | .ok false => some ⟨s.toStore, .done (.registerPk origin rk (.ok .notDeployed)), [], []⟩
    | .error _ => some ⟨s.toStore, .done (.registerPk origin rk (.ok .serverError)), [], []⟩
  | .lookup call pc => some (stepLookup cfg s ch call pc)
  | .stage origin rk managed o =>
    some (stepStage cfg s.toStore i s.tasks.length origin rk managed o)
  | .unchanged origin rk o =>
    some ⟨s.setPeer o ((s.peers o).verifiedNow s.now), .done (.registerPk origin rk (.ok .ok)), [],
      [.completed i origin rk.id s.now]⟩
  | .join origin rk o ipChanged j =>
    match s.tasks[j]? with
    | some (.done (.persisted _ true)) =>
      if ipChanged then some ⟨s.toStore, .recordIp origin rk o, [], []⟩
      else some ⟨s.toStore, .done (.registerPk origin rk (.ok .ok)), [], []⟩
    | some (.done (.persisted _ false)) =>
      some ⟨s.toStore, .done (.registerPk origin rk (.ok .serverError)), [], []⟩
    | _ => none
  | .recordIp origin rk _ =>
    some ⟨{ s.toStore with
        changes := (recordIpChange s.changes rk.id origin.addr.ip.toString s.now).1 },
      .done (.registerPk origin rk (.ok .ok)), [], []⟩
  | .beat origin rp o =>
    let (p, requestPk) := heartbeat cfg.allowUnmanagedDevices (s.peers o) origin.addr s.now
    some ⟨s.setPeer o p, .done (.registerPeer origin rp (.ok (requestPk, configUpdate cfg rp))), [],
      [.beat origin rp.id requestPk]⟩
  | .readPk id o =>
    some ⟨s.toStore, .done (.getPk id (some (s.peers o).pk)), [], [.signed id (s.peers o).pk]⟩
  | .memRead id =>
    match s.map.get id with
    | some o => some ⟨s.toStore, .memTouch id o, [], []⟩
    | none => some ⟨s.toStore, .done (.seen id (.ok none)), [], []⟩
  | .memTouch id o =>
    some ⟨s.setPeer o ((s.peers o).touch s.now), .readAddr id o, [], []⟩
  | .readAddr id o =>
    some ⟨s.toStore, .hold id o ((s.peers o).online s.now) (s.peers o).socketAddr, [], []⟩
  | .hold id _ online addr => some ⟨s.toStore, .done (.seen id (.ok (some (online, addr)))), [], []⟩
  | .persistWrite p =>
    match persistStatement s.db ch p with
    | some (db, guid) => some ⟨{ s.toStore with db := db }, .persistEnd p (some guid), [], []⟩
    | none => some ⟨s.toStore, .persistEnd p none, [], []⟩
  | .persistEnd p (some guid) =>
    some ⟨s.setPeer p.obj ((s.peers p.obj).commit guid p.managedAuthorized s.now),
      .done (.persisted p true), [], [.completed p.owner p.origin p.id s.now]⟩
  | .persistEnd p none =>
    some ⟨s.setPeer p.obj ((s.peers p.obj).rollback p.rollback), .done (.persisted p false), [],
      [.rolledBack p.owner p.id]⟩
  | .evict caller e =>
    match stepEvict s ch caller.idleSecs e with
    | (store, some e') => some ⟨store, .evict caller e', [], []⟩
    | (store, none) => some ⟨store, caller.resume, [], []⟩
  | .done _ => none

/-! ## The system -/

/-- The first point of a request. -/
def Request.start : Request → Task
  | .registerPk origin rk => .allowIp origin rk
  | .registerPeer origin rp => .lookup (.registerPeer origin rp) .read
  | .getPk version id => if version.isEmpty then .done (.getPk id none) else .lookup (.getPk id) .read
  | .punchHole id => .lookup (.punchHole id) .read
  | .requestRelay id => .memRead id
  | .evictTimer => .evict .timer .snapshot

/-- The state after the outcome of task `i`. -/
def State.after (s : State) (i : Nat) (out : Outcome) : State :=
  { out.store with tasks := Lts.advance s.tasks i out.task out.spawned }

/-- One action of the system. -/
def step (cfg : Config) (s : State) : Action → Option (State × List Event)
  | .tick d => some ({ s with now := s.now + d }, [])
  | .call r => some ({ s with tasks := s.tasks ++ [r.start] }, [])
  | .run i ch =>
    match s.tasks[i]? with
    | none => none
    | some t =>
      match stepTask cfg s i ch t with
      | none => none
      | some out => some (s.after i out, out.events)

/-- The state in which the server starts: nothing is cached and no task runs. -/
def State.initial (now : Nat) (db : Database) : State where
  now := now
  map := .empty
  peers := fun _ => Peer.fresh now
  next := 0
  db := db
  blockers := .empty
  changes := .empty
  tasks := []

/-! ## Data of the concrete runs

The later modules show single runs of the system.  They share one configuration,
with the smallest capacity that the server accepts, and requests for one id. -/

def sampleConfig (allowUnmanagedDevices : Bool) : Config where
  allowUnmanagedDevices := allowUnmanagedDevices
  maxCachedPeers := 1024
  apiServer := "http://127.0.0.1:21114"
  serial := 0
  rendezvousServers := []
  infoCodec := .plain

/-- Two hours after the start of the clock. -/
def sampleStart : Nat := Instant.ofSecs 7200

def sampleId : PeerId := "device01"

def sampleOrigin (conn : Nat) : Origin := ⟨conn, .v4 ⟨192, 0, 2, 1⟩ 5000⟩

/-- A request with a `uuid` of one byte and a key of 32 equal bytes. -/
def sampleRequest (uuid pk : UInt8) : RegisterPk := ⟨sampleId, [uuid], List.replicate 32 pk, ""⟩

/-- Task `i` makes `n` steps, and nothing outside fails. -/
def runs (i n : Nat) : List Action := List.replicate n (.run i { status := some 204 })

end RemoteServer.PeerStore
