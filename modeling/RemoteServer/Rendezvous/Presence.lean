import RemoteServer.PeerStore.Presence
import RemoteServer.Rendezvous.Machine

/-!
# Presence

Three handlers decide whether a peer is online.  An online query and a
`RequestRelay` ask the cache only; a `PunchHoleRequest` loads an absent peer from
the database.  Each of them is compared here with `present`: the id is cached and
its registration is recent.

* `lookupAlone` is a lookup at one instant, with nothing in between, and `Passes`
  says that a request handler would go on after it.
* `buildOnlineResponse` is `build_online_response` at one instant, and
  `online_run` shows that it is what the handler of the machine sends when only
  that handler and its lookups run.
-/

namespace RemoteServer.Rendezvous

open RustStd Lts

/-- The id is cached and was registered less than `REG_TIMEOUT` ago. -/
def present (s : PeerStore.Store) (id : PeerId) : Bool :=
  match s.map.get id with
  | some o => (s.peers o).online s.now
  | none => false

/-! ## Lookups at one instant -/

/-- The store with the task of a new request. -/
def asked (s : PeerStore.State) (r : PeerStore.Request) : PeerStore.State :=
  { s with tasks := s.tasks ++ [r.start] }

/-- Task `i` runs on its own for at most `n` steps, until its handler can go on with what it
has seen. -/
def lookupAlone (cfg : PeerStore.Config) (ch : PeerStore.Choice) (i : Nat) :
    Nat → PeerStore.State →
      Option (PeerStore.State × Except String (Option (Bool × SocketAddr)))
  | 0, s => ((s.tasks[i]?).bind seen?).map fun r => (s, r)
  | n + 1, s =>
    match (s.tasks[i]?).bind seen? with
    | some r => some (s, r)
    | none =>
      match PeerStore.step cfg s (.run i ch) with
      | none => none
      | some (s', _) => lookupAlone cfg ch i n s'

/-- The request would pass its lookup and its check of the registration age. -/
def Passes (cfg : PeerStore.Config) (ch : PeerStore.Choice) (s : PeerStore.State)
    (r : PeerStore.Request) : Prop :=
  ∃ n s' addr, lookupAlone cfg ch s.tasks.length n (asked s r) = some (s', .ok (some (true, addr)))

section Alone

variable {cfg : PeerStore.Config} {ch : PeerStore.Choice}

/-- A step of the last task. -/
theorem step_last {store : PeerStore.Store} {ts : List PeerStore.Task} {t : PeerStore.Task}
    {out : PeerStore.Outcome} (hspawned : out.spawned = [])
    (h : PeerStore.stepTask cfg ⟨store, ts ++ [t]⟩ ts.length ch t = some out) :
    PeerStore.step cfg ⟨store, ts ++ [t]⟩ (.run ts.length ch) =
      some (⟨out.store, ts ++ [out.task]⟩, out.events) := by
  have hlast : (ts ++ [t])[ts.length]? = some t := by simp
  simp only [PeerStore.step, hlast, h, PeerStore.State.after, advance, hspawned]
  simp

/-- One more step of a lookup that has not seen anything yet. -/
theorem lookupAlone_step {store : PeerStore.Store} {ts : List PeerStore.Task}
    {t : PeerStore.Task} {out : PeerStore.Outcome} (n : Nat) (hseen : seen? t = none)
    (hspawned : out.spawned = [])
    (h : PeerStore.stepTask cfg ⟨store, ts ++ [t]⟩ ts.length ch t = some out) :
    lookupAlone cfg ch ts.length (n + 1) ⟨store, ts ++ [t]⟩ =
      lookupAlone cfg ch ts.length n ⟨out.store, ts ++ [out.task]⟩ := by
  have hlast : (ts ++ [t])[ts.length]? = some t := by simp
  simp only [lookupAlone, hlast, Option.bind_some, hseen, step_last hspawned h]

theorem lookupAlone_seen {store : PeerStore.Store} {ts : List PeerStore.Task}
    {t : PeerStore.Task} {r : Except String (Option (Bool × SocketAddr))} (n : Nat)
    (hseen : seen? t = some r) :
    lookupAlone cfg ch ts.length n ⟨store, ts ++ [t]⟩ = some (⟨store, ts ++ [t]⟩, r) := by
  have hlast : (ts ++ [t])[ts.length]? = some t := by simp
  cases n with
  | zero => simp only [lookupAlone, hlast, Option.bind_some, hseen, Option.map_some]
  | succ n => simp only [lookupAlone, hlast, Option.bind_some, hseen]

/-- A handler that holds an object reads its age and its address. -/
theorem lookupAlone_readAddr {store : PeerStore.Store} {ts : List PeerStore.Task} (id : PeerId)
    (o n : Nat) :
    lookupAlone cfg ch ts.length (n + 1) ⟨store, ts ++ [.readAddr id o]⟩ =
      some (⟨store, ts ++ [.hold id o ((store.peers o).online store.now)
          (store.peers o).socketAddr]⟩,
        .ok (some ((store.peers o).online store.now, (store.peers o).socketAddr))) := by
  rw [lookupAlone_step n rfl rfl rfl]
  exact lookupAlone_seen n rfl

/-- What `get_in_memory` and the reads after it leave of a cached peer. -/
def touched (s : PeerStore.State) (id : PeerId) (o : Nat) : PeerStore.State :=
  ⟨s.setPeer o ((s.peers o).touch s.now),
    s.tasks ++ [.hold id o ((s.peers o).online s.now) (s.peers o).socketAddr]⟩

theorem lookupAlone_touched (s : PeerStore.State) (id : PeerId) (o n : Nat) :
    lookupAlone cfg ch s.tasks.length (n + 1)
        ⟨s.setPeer o ((s.peers o).touch s.now), s.tasks ++ [.readAddr id o]⟩ =
      some (touched s id o, .ok (some ((s.peers o).online s.now, (s.peers o).socketAddr))) := by
  have hpeer : (s.setPeer o ((s.peers o).touch s.now)).peers o = (s.peers o).touch s.now :=
    Function.update_self ..
  rw [lookupAlone_readAddr, hpeer]
  rfl

/-- The lookup of a `RequestRelay`, and of one id of an online query. -/
theorem lookupAlone_relay (s : PeerStore.State) {id : PeerId} {o : Nat}
    (hget : s.map.get id = some o) :
    lookupAlone cfg ch s.tasks.length 3 (asked s (.requestRelay id)) =
      some (touched s id o, .ok (some ((s.peers o).online s.now, (s.peers o).socketAddr))) := by
  show lookupAlone cfg ch s.tasks.length 3 ⟨s.toStore, s.tasks ++ [.memRead id]⟩ = _
  have hstep : PeerStore.stepTask cfg ⟨s.toStore, s.tasks ++ [.memRead id]⟩ s.tasks.length ch
      (.memRead id) = some ⟨s.toStore, .memTouch id o, [], []⟩ := by
    simp only [PeerStore.stepTask, hget]
  rw [lookupAlone_step 2 rfl rfl hstep, lookupAlone_step 1 rfl rfl rfl]
  exact lookupAlone_touched s id o 0

theorem lookupAlone_relay_absent (s : PeerStore.State) {id : PeerId}
    (hget : s.map.get id = none) :
    lookupAlone cfg ch s.tasks.length 3 (asked s (.requestRelay id)) =
      some (⟨s.toStore, s.tasks ++ [.done (.seen id (.ok none))]⟩, .ok none) := by
  show lookupAlone cfg ch s.tasks.length 3 ⟨s.toStore, s.tasks ++ [.memRead id]⟩ = _
  have hstep : PeerStore.stepTask cfg ⟨s.toStore, s.tasks ++ [.memRead id]⟩ s.tasks.length ch
      (.memRead id) = some ⟨s.toStore, .done (.seen id (.ok none)), [], []⟩ := by
    simp only [PeerStore.stepTask, hget]
  rw [lookupAlone_step 2 rfl rfl hstep]
  exact lookupAlone_seen 2 rfl

/-- A cached peer is found by `PeerMap::get` without the database. -/
theorem lookupAlone_punchHole (s : PeerStore.State) {id : PeerId} {o : Nat}
    (hget : s.map.get id = some o) :
    lookupAlone cfg ch s.tasks.length 3 (asked s (.punchHole id)) =
      some (touched s id o, .ok (some ((s.peers o).online s.now, (s.peers o).socketAddr))) := by
  show lookupAlone cfg ch s.tasks.length 3 ⟨s.toStore, s.tasks ++ [.lookup (.punchHole id) .read]⟩ = _
  have hstep : PeerStore.stepTask cfg ⟨s.toStore, s.tasks ++ [.lookup (.punchHole id) .read]⟩
      s.tasks.length ch (.lookup (.punchHole id) .read) =
        some ⟨s.toStore, .lookup (.punchHole id) (.touch o), [], []⟩ := by
    simp only [PeerStore.stepTask, PeerStore.stepLookup, PeerStore.Call.id, hget]
  rw [lookupAlone_step 2 rfl rfl hstep, lookupAlone_step 1 rfl rfl rfl]
  exact lookupAlone_touched s id o 0

/-! ## Lookups that cannot pass -/

/-- A peer that `get` has just loaded, or that `get_or` has just made, is offline on a clock
that is an hour old. -/
theorem fresh_offline {now : Nat} (h : Instant.ofSecs 3600 ≤ now) {p : Peer}
    (hp : p.lastRegTime = getExpiredTime now) : p.online now = false := by
  rw [getExpiredTime, if_pos h] at hp
  have h : 3600 * 1000000000 ≤ now := h
  have hp : p.lastRegTime = now - 3600 * 1000000000 := hp
  rw [Peer.online, decide_eq_false_iff_not, Peer.regTimeout, Instant.elapsedMillis, hp]
  omega

/-- The points of a lookup for `id` from which it can only see an offline peer. -/
def Hopeless (s : PeerStore.Store) (id : PeerId) : PeerStore.Task → Prop
  | .lookup call pc =>
    call = .punchHole id ∧ present s id = false ∧
      (∀ q ∈ pc.refs id, (s.peers q.2).online s.now = false) ∧
      ∀ f, pc.offer = some f → f.peer.online s.now = false
  | .evict caller _ =>
    ∃ f, caller = .cachePeer (.punchHole id) f ∧ present s id = false ∧
      f.peer.online s.now = false
  | .memRead id' => id' = id ∧ present s id = false
  | .memTouch _ o => (s.peers o).online s.now = false
  | .readAddr _ o => (s.peers o).online s.now = false
  | .hold _ _ online _ => online = false
  | .done (.seen _ result) => sawOnline result = false
  | _ => False

theorem offline_of_not_present {s : PeerStore.Store} {id : PeerId} {o : Nat}
    (h : present s id = false) (hget : s.map.get id = some o) :
    (s.peers o).online s.now = false := by
  simpa only [present, hget] using h

/-- A lookup that cannot pass still cannot after its next step. -/
theorem Move.hopeless {s : PeerStore.State} {i : Nat} {t : PeerStore.Task}
    {out : PeerStore.Outcome} {id : PeerId} (h : PeerStore.Move cfg s i t out)
    (hclock : Instant.ofSecs 3600 ≤ s.now) (ht : Hopeless s.toStore id t) :
    Hopeless out.store id out.task := by
  cases h with
  | hit hget =>
    obtain ⟨rfl, habs, -, -⟩ := ht
    refine ⟨rfl, habs, fun q hq => ?_, nofun⟩
    cases List.mem_singleton.1 hq
    exact offline_of_not_present habs hget
  | miss hget =>
    obtain ⟨rfl, habs, -, -⟩ := ht
    exact ⟨rfl, habs, nofun, nofun⟩
  | @touched call o =>
    obtain ⟨rfl, -, hrefs, -⟩ := ht
    have hoff : (s.peers o).online s.now = false := hrefs (id, o) (List.mem_singleton_self _)
    show (Function.update s.peers o ((s.peers o).touch s.now) o).online s.now = false
    rw [Function.update_self]
    exact hoff
  | loadFailed =>
    obtain ⟨rfl, -, -, -⟩ := ht
    rfl
  | loadAbsent =>
    obtain ⟨rfl, -, -, -⟩ := ht
    rfl
  | loaded =>
    obtain ⟨rfl, habs, -, -⟩ := ht
    refine ⟨rfl, habs, nofun, fun f hf => ?_⟩
    cases hf
    exact fresh_offline hclock rfl
  | @cached call pc f o hpc hget =>
    obtain ⟨rfl, habs, -, -⟩ := ht
    exact offline_of_not_present habs hget
  | toWrite =>
    obtain ⟨rfl, habs, -, hoffer⟩ := ht
    exact ⟨rfl, habs, nofun, hoffer⟩
  | toEvict hpc =>
    obtain ⟨rfl, habs, -, hoffer⟩ := ht
    exact ⟨_, rfl, habs, hoffer _ hpc⟩
  | @inserted call pc f hpc hget =>
    obtain ⟨rfl, -, -, hoffer⟩ := ht
    show (Function.update s.peers s.next f.peer s.next).online s.now = false
    rw [Function.update_self]
    exact hoffer f hpc
  | @noRoom call f =>
    obtain ⟨rfl, -, -, -⟩ := ht
    unfold PeerStore.returnNoRoom
    dsimp only
    split <;> rfl
  | scan =>
    obtain ⟨f, rfl, habs, hoff⟩ := ht
    exact ⟨f, rfl, habs, hoff⟩
  | @evicted caller snap candidates tryRead =>
    obtain ⟨f, rfl, habs, hoff⟩ := ht
    refine ⟨rfl, ?_, nofun, fun g hg => by cases hg; exact hoff⟩
    -- the pass removes cached ids and adds none
    show (match (PeerStore.removeCandidates s tryRead candidates s.map).get id with
      | some o => (s.peers o).online s.now
      | none => false) = false
    rcases PeerStore.removeCandidates_get s tryRead id candidates s.map with hkeep | ⟨hgone, -⟩
    · rw [hkeep]
      exact habs
    · rw [hgone]
  | memHit hget =>
    obtain ⟨rfl, habs⟩ := ht
    exact offline_of_not_present habs hget
  | memMiss => rfl
  | @memTouched id' o =>
    show (Function.update s.peers o ((s.peers o).touch s.now) o).online s.now = false
    rw [Function.update_self]
    exact ht
  | addrRead => exact ht
  | released =>
    cases ht
    rfl
  | @refuse t _ _ _ _ hreg =>
    cases t with
    | allowIp => cases ht
    | verify => cases ht
    | stage => cases ht
    | _ => cases hreg
  | _ => cases ht

/-- What a lookup that cannot pass has seen. -/
theorem Hopeless.sawOnline {s : PeerStore.Store} {id : PeerId} {t : PeerStore.Task}
    {r : Except String (Option (Bool × SocketAddr))} (h : Hopeless s id t) (hr : seen? t = some r) :
    sawOnline r = false := by
  cases t with
  | hold id' o online addr =>
    cases hr
    exact h
  | done answer =>
    cases answer with
    | seen id' result =>
      cases hr
      exact h
    | _ => cases hr
  | _ => cases hr

theorem lookupAlone_hopeless {id : PeerId} {i : Nat} (n : Nat) :
    ∀ {s s' : PeerStore.State} {t : PeerStore.Task} {r : Except String (Option (Bool × SocketAddr))},
      s.tasks[i]? = some t → Hopeless s.toStore id t → Instant.ofSecs 3600 ≤ s.now →
      lookupAlone cfg ch i n s = some (s', r) → sawOnline r = false := by
  induction n with
  | zero =>
    intro s s' t r hi ht _ h
    simp only [lookupAlone, hi, Option.bind_some, Option.map_eq_some_iff] at h
    obtain ⟨r', hr', hpair⟩ := h
    cases hpair
    exact ht.sawOnline hr'
  | succ n ih =>
    intro s s' t r hi ht hclock h
    simp only [lookupAlone, hi, Option.bind_some] at h
    split at h
    · rename_i r' hr'
      cases h
      exact ht.sawOnline hr'
    · split at h
      · cases h
      · rename_i s₁ evs hs
        rcases PeerStore.step_cases hs with ⟨d, ha, -⟩ | ⟨q, ha, -⟩ |
          ⟨j, ch', t', out, ha, hj, -, hm, rfl, rfl⟩
        · cases ha
        · cases ha
        · cases ha
          rw [hi] at hj
          cases hj
          have hnow : out.store.now = s.now := hm.now_eq
          exact ih (getElem?_advance_self hi) (Move.hopeless hm hclock ht)
            (by rw [← hnow] at hclock; exact hclock) h

theorem asked_last (s : PeerStore.State) (r : PeerStore.Request) :
    (asked s r).tasks[s.tasks.length]? = some r.start := by
  simp [asked]

/-- No request for an absent peer passes. -/
theorem not_passes_of_hopeless {s : PeerStore.State} {id : PeerId} {r : PeerStore.Request}
    (hclock : Instant.ofSecs 3600 ≤ s.now) (h : Hopeless s.toStore id r.start) :
    ¬Passes cfg ch s r := by
  rintro ⟨n, s', addr, hrun⟩
  have hsaw := lookupAlone_hopeless n (asked_last s r) h hclock hrun
  cases hsaw

theorem online_of_present {s : PeerStore.Store} {id : PeerId} (h : present s id = true) :
    ∃ o, s.map.get id = some o ∧ (s.peers o).online s.now = true := by
  unfold present at h
  split at h
  · rename_i o hget
    exact ⟨o, hget, h⟩
  · cases h

/-- A `RequestRelay` passes its checks exactly when the peer is present. -/
theorem passes_relay_iff {s : PeerStore.State} {id : PeerId}
    (hclock : Instant.ofSecs 3600 ≤ s.now) :
    Passes cfg ch s (.requestRelay id) ↔ present s.toStore id = true := by
  constructor
  · intro hpass
    by_contra habs
    have hopeless : Hopeless s.toStore id (PeerStore.Request.requestRelay id).start :=
      ⟨rfl, by simpa using habs⟩
    exact not_passes_of_hopeless hclock hopeless hpass
  · intro h
    obtain ⟨o, hget, honline⟩ := online_of_present h
    refine ⟨3, touched s id o, (s.peers o).socketAddr, ?_⟩
    rw [lookupAlone_relay s hget, honline]

/-- A `PunchHoleRequest` may load the peer, but a loaded peer is offline. -/
theorem passes_punchHole_iff {s : PeerStore.State} {id : PeerId}
    (hclock : Instant.ofSecs 3600 ≤ s.now) :
    Passes cfg ch s (.punchHole id) ↔ present s.toStore id = true := by
  constructor
  · intro hpass
    by_contra habs
    have hopeless : Hopeless s.toStore id (PeerStore.Request.punchHole id).start :=
      ⟨rfl, by simpa using habs, nofun, nofun⟩
    exact not_passes_of_hopeless hclock hopeless hpass
  · intro h
    obtain ⟨o, hget, honline⟩ := online_of_present h
    refine ⟨3, touched s id o, (s.peers o).socketAddr, ?_⟩
    rw [lookupAlone_punchHole s hget, honline]

end Alone

/-! ## The bitmap -/

/-- Bit `7 - i % 8` of byte `i / 8`. -/
def stateBit (states : Bytes) (i : Nat) : Bool :=
  (states.getD (i / 8) 0).toNat.testBit (7 - i % 8)

theorem offlineStates_length (n : Nat) : (offlineStates n).length = (n + 7) / 8 :=
  List.length_replicate

theorem stateBit_offlineStates (n i : Nat) : stateBit (offlineStates n) i = false := by
  have hbyte : (offlineStates n).getD (i / 8) 0 = 0 := by
    simp only [offlineStates, List.getD_eq_getElem?_getD, List.getElem?_replicate]
    split <;> rfl
  rw [stateBit, hbyte]
  exact Nat.zero_testBit _

theorem setOnline_length (states : Bytes) (i : Nat) (online : Bool) :
    (setOnline states i online).length = states.length := by
  unfold setOnline
  split
  · exact List.length_modify ..
  · rfl

/-- One bit of a byte is set. -/
theorem testBit_or_shift (byte : UInt8) {m k : Nat} (hm : m < 8) (hk : k < 8) :
    (byte ||| 1 <<< UInt8.ofNat m).toNat.testBit k = (byte.toNat.testBit k || decide (k = m)) := by
  have hbits : ∀ m k : Fin 8,
      (1 <<< UInt8.ofNat m.val : UInt8).toNat.testBit k.val = decide (k.val = m.val) := by decide
  rw [UInt8.toNat_or, Nat.testBit_or, hbits ⟨m, hm⟩ ⟨k, hk⟩]

theorem stateBit_setOnline {states : Bytes} {i : Nat} (hi : i / 8 < states.length) (online : Bool)
    (k : Nat) :
    stateBit (setOnline states i online) k = (stateBit states k || online && decide (k = i)) := by
  cases online with
  | false => simp [setOnline]
  | true =>
    simp only [stateBit, setOnline, if_true, List.getD_eq_getElem?_getD, List.getElem?_modify,
      Bool.true_and]
    by_cases hbyte : i / 8 = k / 8
    · obtain ⟨byte, hget⟩ : ∃ byte, states[k / 8]? = some byte :=
        ⟨_, List.getElem?_eq_getElem (hbyte ▸ hi)⟩
      simp only [hbyte, if_true, hget, Option.map_eq_map, Option.map_some, Option.getD_some]
      rw [testBit_or_shift byte (by omega) (by omega)]
      congr 1
      rw [decide_eq_decide]
      omega
    · have hne : k ≠ i := fun he => hbyte (by rw [he])
      simp [hbyte, hne]

/-! ## `build_online_response` -/

/-- The loop of `build_online_response` from the `i`-th id on, with nothing else in between. -/
def onlineLoop (cfg : PeerStore.Config) :
    PeerStore.State → List PeerId → Nat → Bytes → Option (PeerStore.State × Bytes)
  | s, [], _, states => some (s, states)
  | s, id :: rest, i, states =>
    match lookupAlone cfg {} s.tasks.length 3 (asked s (.requestRelay id)) with
    | none => none
    | some (s', result) => onlineLoop cfg s' rest (i + 1) (setOnline states i (sawOnline result))

/-- `build_online_response` at one instant: the store it leaves and the states. -/
def buildOnlineResponse (cfg : PeerStore.Config) (s : PeerStore.State) (peers : List PeerId) :
    Option (PeerStore.State × Bytes) :=
  onlineLoop cfg s peers 0 (offlineStates peers.length)

/-- A lookup of one id says whether it is present, and changes the presence of none. -/
theorem lookupAlone_present (cfg : PeerStore.Config) (s : PeerStore.State) (id : PeerId) :
    ∃ s' result, lookupAlone cfg {} s.tasks.length 3 (asked s (.requestRelay id)) =
        some (s', result) ∧
      sawOnline result = present s.toStore id ∧
      ∀ id', present s'.toStore id' = present s.toStore id' := by
  cases hget : s.map.get id with
  | none =>
    refine ⟨_, _, lookupAlone_relay_absent s hget, ?_, fun id' => rfl⟩
    simp only [present, hget]
    rfl
  | some o =>
    refine ⟨_, _, lookupAlone_relay s hget, ?_, fun id' => ?_⟩
    · simp only [present, hget]
      rfl
    · show (match s.map.get id' with
        | some o' => (Function.update s.peers o ((s.peers o).touch s.now) o').online s.now
        | none => false) = present s.toStore id'
      unfold present
      cases s.map.get id' with
      | none => rfl
      | some o' =>
        by_cases ho : o' = o
        · rw [ho]
          dsimp only
          rw [Function.update_self]
          rfl
        · dsimp only
          rw [Function.update_of_ne ho]

/-- The loop sets the bits of the ids that are present, and no other. -/
theorem onlineLoop_spec (cfg : PeerStore.Config) (peers : List PeerId) :
    ∀ (s : PeerStore.State) (i : Nat) (states : Bytes), i + peers.length ≤ 8 * states.length →
      ∃ s' states', onlineLoop cfg s peers i states = some (s', states') ∧
        states'.length = states.length ∧
        ∀ k, stateBit states' k = (stateBit states k ||
          decide (i ≤ k) && (peers[k - i]?).any (present s.toStore)) := by
  induction peers with
  | nil =>
    intro s i states _
    exact ⟨s, states, rfl, rfl, fun k => by simp⟩
  | cons id rest ih =>
    intro s i states hlen
    rw [List.length_cons] at hlen
    obtain ⟨s₁, result, hlookup, hsaw, hsame⟩ := lookupAlone_present cfg s id
    have hroom : i + 1 + rest.length ≤ 8 * (setOnline states i (sawOnline result)).length := by
      rw [setOnline_length]
      omega
    obtain ⟨s', states', hloop, hlength, hbits⟩ := ih s₁ (i + 1) _ hroom
    refine ⟨s', states', ?_, hlength.trans (setOnline_length ..), fun k => ?_⟩
    · simp only [onlineLoop, hlookup, hloop]
    · have hpresent : present s₁.toStore = present s.toStore := funext hsame
      rw [hbits, stateBit_setOnline (by omega), hsaw, hpresent, Bool.or_assoc]
      congr 1
      -- the bit of this id, or one of a later id
      rcases Nat.lt_trichotomy k i with hk | rfl | hk
      · simp [Nat.not_le.2 hk, Nat.ne_of_lt hk, show ¬i + 1 ≤ k by omega]
      · simp
      · obtain ⟨d, rfl⟩ : ∃ d, k = i + 1 + d := ⟨k - (i + 1), by omega⟩
        simp [show i + 1 + d - i = d + 1 by omega, show i + 1 + d ≠ i by omega,
          show i ≤ i + 1 + d by omega]

/-- The answer to an online query at one instant. -/
theorem buildOnlineResponse_spec (cfg : PeerStore.Config) (s : PeerStore.State)
    (peers : List PeerId) :
    ∃ s' states, buildOnlineResponse cfg s peers = some (s', states) ∧
      states.length = (peers.length + 7) / 8 ∧
      ∀ k, stateBit states k = (peers[k]?).any (present s.toStore) := by
  obtain ⟨s', states, hloop, hlength, hbits⟩ := onlineLoop_spec cfg peers s 0
    (offlineStates peers.length) (by rw [offlineStates_length]; omega)
  refine ⟨s', states, hloop, hlength.trans (offlineStates_length _), fun k => ?_⟩
  rw [hbits, stateBit_offlineStates]
  simp

/-! ## The handler of an online query -/

/-- Only the handler of connection `c` and tasks of the store move, and no time passes. -/
def OnlyHandler (c : Nat) : Action → Prop
  | .handle c' _ => c' = c
  | .store _ _ => True
  | _ => False

section Handler

variable {cfg : Config} {c : Nat} {s₀ s : State} {tr : List Event}

/-- A lookup alone is a run in which only its task moves. -/
theorem run_lookupAlone {i : Nat} {ch : PeerStore.Choice} (n : Nat) :
    ∀ {tr : List Event} {s : State} {store : PeerStore.State}
      {r : Except String (Option (Bool × SocketAddr))},
      Run (step cfg) (fun _ _ a => OnlyHandler c a) s₀ tr s →
      lookupAlone cfg.peerStore ch i n s.store = some (store, r) →
      ∃ tr', Run (step cfg) (fun _ _ a => OnlyHandler c a) s₀ tr' { s with store := store } ∧
        (store.tasks[i]?).bind seen? = some r := by
  induction n with
  | zero =>
    intro tr s store r hrun h
    obtain ⟨r', hr', hpair⟩ := Option.map_eq_some_iff.1 h
    cases hpair
    exact ⟨tr, hrun, hr'⟩
  | succ n ih =>
    intro tr s store r hrun h
    simp only [lookupAlone] at h
    split at h
    · rename_i r' hr'
      cases h
      exact ⟨tr, hrun, hr'⟩
    · split at h
      · cases h
      · rename_i store₁ evs hs
        have hstep : step cfg s (.store i ch) =
            some ({ s with store := store₁ }, evs.map Event.store) := by
          simp only [step, hs, Option.map_some]
        have hok : OnlyHandler c (.store i ch) := trivial
        exact ih (s := { s with store := store₁ }) (.step hrun hok hstep) h

/-- The handler is about to look up `id`, with `rest` still to come. -/
structure Querying (s : State) (c : Nat) (link : Link) (before : PeerStore.State) (id : PeerId)
    (rest : List PeerId) (i : Nat) (states : Bytes) : Prop where
  conn : s.conns[c]? = some ⟨link, .busy (.online rest i states before.tasks.length)⟩
  store : s.store = asked before (.requestRelay id)

/-- When only the handler and its lookups run, it sends the states that the loop computes. -/
theorem run_onlineLoop {link : Link} (rest : List PeerId) :
    ∀ {tr : List Event} {s : State} {before store : PeerStore.State} {id : PeerId} {i : Nat}
      {states states' : Bytes},
      Run (step cfg) (fun _ _ a => OnlyHandler c a) s₀ tr s →
      Querying s c link before id rest i states →
      onlineLoop cfg.peerStore before (id :: rest) i states = some (store, states') →
      ∃ tr' s₁ h, Run (step cfg) (fun _ _ a => OnlyHandler c a) s₀ tr' s₁ ∧
        s₁.conns[c]? = some ⟨link, .busy h⟩ ∧ s₁.store = store ∧
        stepHandler cfg s₁.toShared c link {} h =
          some (replyToSink s₁.toShared c (.onlineResponse states')) := by
  induction rest with
  | nil =>
    intro tr s before store id i states states' hrun hq h
    simp only [onlineLoop] at h
    split at h
    · cases h
    · rename_i store₁ result hlookup
      cases h
      rw [← hq.store] at hlookup
      obtain ⟨tr', hrun', hseen⟩ := run_lookupAlone 3 hrun hlookup
      refine ⟨tr', _, _, hrun', hq.conn, rfl, ?_⟩
      simp only [stepHandler, hseen, Option.map_some, stepOnline]
  | cons id' rest ih =>
    intro tr s before store id i states states' hrun hq h
    rw [onlineLoop] at h
    split at h
    · cases h
    · rename_i store₁ result hlookup
      rw [← hq.store] at hlookup
      obtain ⟨tr', hrun', hseen⟩ := run_lookupAlone 3 hrun hlookup
      have hstep : step cfg { s with store := store₁ } (.handle c {}) = some
          (({ s with store := store₁ } : State).resume c
            ⟨link, .busy (.online (id' :: rest) i states before.tasks.length)⟩
            (({ s with store := store₁ } : State).toShared.call (.requestRelay id'))
            (.go (.online rest (i + 1) (setOnline states i (sawOnline result))
              store₁.tasks.length)), []) := by
        simp only [step, hq.conn, stepHandler, hseen, Option.map_some, stepOnline]
      have hok : OnlyHandler c (.handle c {}) := rfl
      refine ih (.step hrun' hok hstep) ⟨?_, rfl⟩ h
      simp only [State.resume, List.getElem?_set_self', hq.conn]
      rfl

end Handler

/-- The handler of an online query for `id :: rest` sends what `buildOnlineResponse` returns. -/
theorem online_run {cfg : Config} {c : Nat} {link : Link} {s : State} {id : PeerId}
    {rest : List PeerId} {store : PeerStore.State} {states : Bytes}
    (hconn : s.conns[c]? = some ⟨link, .idle⟩) (hvalid : ∀ x ∈ id :: rest, validPeerId x = true)
    (hlen : (id :: rest).length ≤ onlineQueryMaxPeers)
    (hbuild : buildOnlineResponse cfg.peerStore s.store (id :: rest) = some (store, states)) :
    ∃ s₁ tr s₂ h, step cfg s (.message c (.onlineRequest (id :: rest))) = some (s₁, []) ∧
      Run (step cfg) (fun _ _ a => OnlyHandler c a) s₁ tr s₂ ∧
      s₂.conns[c]? = some ⟨link, .busy h⟩ ∧ s₂.store = store ∧
      stepHandler cfg s₂.toShared c link {} h =
        some (replyToSink s₂.toShared c (.onlineResponse states)) := by
  have hform : (decide (onlineQueryMaxPeers < (id :: rest).length) ||
      (id :: rest).any fun x => !validPeerId x) = false := by
    rw [Bool.or_eq_false_iff, decide_eq_false_iff_not, List.any_eq_false]
    exact ⟨Nat.not_lt.2 hlen, fun x hx => by simp [hvalid x hx]⟩
  have hstep : step cfg s (.message c (.onlineRequest (id :: rest))) =
      some (s.resume c ⟨link, .idle⟩ (s.toShared.call (.requestRelay id))
        (.go (.online rest 0 (offlineStates (id :: rest).length) s.store.tasks.length)), []) := by
    simp only [step, hconn, receive, hform, Bool.false_eq_true, if_false]
  have hq : Querying (s.resume c ⟨link, .idle⟩ (s.toShared.call (.requestRelay id))
      (.go (.online rest 0 (offlineStates (id :: rest).length) s.store.tasks.length))) c link
      s.store id rest 0 (offlineStates (id :: rest).length) := by
    refine ⟨?_, rfl⟩
    simp only [State.resume, List.getElem?_set_self', hconn]
    rfl
  obtain ⟨tr, s₂, h, hrun, hbusy, hstore, hsend⟩ := run_onlineLoop rest .start hq hbuild
  exact ⟨_, tr, s₂, h, hstep, hrun, hbusy, hstore, hsend⟩

/-! ## Presence is exact on a clock that is an hour old -/

/-- All three handlers agree, and an id that no client has registered is offline. -/
theorem presence_exact {cfg : PeerStore.Config} {now : Nat} {db : Database}
    {tr : List PeerStore.Event} {s : PeerStore.State} (hclock : Instant.ofSecs 3600 ≤ now)
    (h : Run (PeerStore.step cfg) anything (PeerStore.State.initial now db) tr s)
    (peers : List PeerId) :
    ∃ s' states, buildOnlineResponse cfg s peers = some (s', states) ∧
      states.length = (peers.length + 7) / 8 ∧
      (∀ i id, peers[i]? = some id → ∀ ch,
        (stateBit states i = true ↔ Passes cfg ch s (.requestRelay id)) ∧
          (stateBit states i = true ↔ Passes cfg ch s (.punchHole id))) ∧
      (∀ i, peers.length ≤ i → stateBit states i = false) ∧
      ∀ i id, peers[i]? = some id → ¬PeerStore.Registered tr id →
        (∀ o, s.map.get id = some o → (s.peers o).persistenceInProgress = false) →
        stateBit states i = false := by
  have haged := PeerStore.run_aged hclock h
  obtain ⟨s', states, hbuild, hlength, hbits⟩ := buildOnlineResponse_spec cfg s peers
  refine ⟨s', states, hbuild, hlength, fun i id hid ch => ?_, fun i hi => ?_,
    fun i id hid hnew hidle => ?_⟩
  · have hbit : stateBit states i = present s.toStore id := by rw [hbits, hid]; rfl
    rw [hbit]
    exact ⟨(passes_relay_iff haged.clock).symm, (passes_punchHole_iff haged.clock).symm⟩
  · rw [hbits, List.getElem?_eq_none hi]
    rfl
  · rw [hbits, hid]
    show present s.toStore id = false
    unfold present
    split
    · rename_i o hget
      exact haged.offline hget hnew (hidle o hget)
    · rfl

/-- A table with the row of one peer. -/
def onePeer : Database where
  rows := [⟨[1], PeerStore.sampleId, [1], List.replicate 32 2,
    InfoCodec.plainEncode ⟨"192.0.2.1"⟩⟩]
  guidNodup := List.nodup_singleton _
  idNodup := List.nodup_singleton _

/-- A query for one id that has just been registered and one that is only in the table. -/
theorem presence_exact_registered :
    ∃ s tr, Run (PeerStore.step (PeerStore.sampleConfig true)) anything
        (PeerStore.State.initial PeerStore.sampleStart onePeer) tr s ∧
      Passes (PeerStore.sampleConfig true) {} s (.requestRelay "device02") ∧
      ¬Passes (PeerStore.sampleConfig true) {} s (.punchHole PeerStore.sampleId) := by
  obtain ⟨s, tr, hrun, hstates⟩ := exists_run_of_exec (PeerStore.step (PeerStore.sampleConfig true))
    (PeerStore.State.initial PeerStore.sampleStart onePeer)
    (.call (.registerPk (PeerStore.sampleOrigin 0) ⟨"device02", [1], List.replicate 32 3, ""⟩) ::
      PeerStore.runs 0 6 ++ PeerStore.runs 1 2 ++ PeerStore.runs 0 1)
    (fun y => (buildOnlineResponse (PeerStore.sampleConfig true) y.1
      ["device02", PeerStore.sampleId]).map Prod.snd)
    (b := some [0x80]) (by decide +kernel)
  obtain ⟨s', states, hbuild, -, hbits, -, -⟩ := presence_exact
    (show Instant.ofSecs 3600 ≤ PeerStore.sampleStart by decide) hrun
    ["device02", PeerStore.sampleId]
  have hstates : (buildOnlineResponse (PeerStore.sampleConfig true) s
      ["device02", PeerStore.sampleId]).map Prod.snd = some [0x80] := hstates
  rw [hbuild] at hstates
  cases hstates
  refine ⟨s, tr, hrun, (hbits 0 "device02" rfl {}).1.1 (by decide), fun hpass => ?_⟩
  have hbit := (hbits 1 PeerStore.sampleId rfl {}).2.2 hpass
  revert hbit
  decide

/-! ## A younger clock -/

theorem passes_of_saw {cfg : PeerStore.Config} {ch : PeerStore.Choice} {s : PeerStore.State}
    {r : PeerStore.Request} (n : Nat)
    (h : (lookupAlone cfg ch s.tasks.length n (asked s r)).map (fun x => sawOnline x.2) =
      some true) : Passes cfg ch s r := by
  obtain ⟨⟨s', result⟩, hlookup, hsaw⟩ := Option.map_eq_some_iff.1 h
  cases result with
  | error err => cases hsaw
  | ok seen =>
    cases seen with
    | none => cases hsaw
    | some seen =>
      obtain ⟨online, addr⟩ := seen
      have hsaw : online = true := hsaw
      rw [hsaw] at hlookup
      exact ⟨n, s', addr, hlookup⟩

/-- A minute after the start of the clock.  An id that is only in the table is offline in an
online query, while a `PunchHoleRequest` for it passes its checks; and once that request has
loaded the peer, the online query answers that it is online, although no client has
registered it. -/
theorem young_clock_online :
    (∃ s', buildOnlineResponse (PeerStore.sampleConfig true)
          (PeerStore.State.initial (Instant.ofSecs 60) onePeer) [PeerStore.sampleId] =
        some (s', [0])) ∧
      Passes (PeerStore.sampleConfig true) {}
        (PeerStore.State.initial (Instant.ofSecs 60) onePeer) (.punchHole PeerStore.sampleId) ∧
      ∃ s tr, Run (PeerStore.step (PeerStore.sampleConfig true)) anything
          (PeerStore.State.initial (Instant.ofSecs 60) onePeer) tr s ∧
        ¬PeerStore.Registered tr PeerStore.sampleId ∧
        (∀ o, s.map.get PeerStore.sampleId = some o →
          (s.peers o).persistenceInProgress = false) ∧
        ∃ s', buildOnlineResponse (PeerStore.sampleConfig true) s [PeerStore.sampleId] =
          some (s', [0x80]) := by
  refine ⟨?_, passes_of_saw 5 (by decide +kernel), ?_⟩
  · have hbuild : (buildOnlineResponse (PeerStore.sampleConfig true)
        (PeerStore.State.initial (Instant.ofSecs 60) onePeer) [PeerStore.sampleId]).map Prod.snd =
          some [0] := by decide +kernel
    obtain ⟨⟨s', states⟩, hbuild, hstates⟩ := Option.map_eq_some_iff.1 hbuild
    cases hstates
    exact ⟨s', hbuild⟩
  · obtain ⟨s, tr, hrun, hrest⟩ := exists_run_of_exec
      (PeerStore.step (PeerStore.sampleConfig true))
      (PeerStore.State.initial (Instant.ofSecs 60) onePeer)
      (.call (.punchHole PeerStore.sampleId) :: PeerStore.runs 0 5)
      (fun y => (y.2, (y.1.map.get PeerStore.sampleId).map fun o =>
          (y.1.peers o).persistenceInProgress,
        (buildOnlineResponse (PeerStore.sampleConfig true) y.1 [PeerStore.sampleId]).map Prod.snd))
      (b := ([.got PeerStore.sampleId (some 0)], some false, some [0x80])) (by decide +kernel)
    simp only [Prod.mk.injEq] at hrest
    obtain ⟨rfl, hidle, hbuild⟩ := hrest
    obtain ⟨⟨s', states⟩, hbuild, hstates⟩ := Option.map_eq_some_iff.1 hbuild
    cases hstates
    refine ⟨s, _, hrun, ?_, fun o ho => ?_, s', hbuild⟩
    · rintro ⟨e, he, hacc⟩
      obtain rfl := List.mem_singleton.1 he
      rcases hacc with ⟨_, _, _, h⟩ | ⟨_, h⟩ <;> cases h
    · rw [ho] at hidle
      simpa using hidle

end RemoteServer.Rendezvous
