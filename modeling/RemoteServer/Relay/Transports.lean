import RemoteServer.RustStd.Streams
import RemoteServer.Relay.Pairing

/-!
# The transports of a session

A client comes over TCP or over a WebSocket.  Its stream is built with limits before it is
known with whom it will be paired, and only if both clients come over TCP the streams are
switched to raw bytes.

* `step` is the system of `Relay.Machine` with the streams of the connections and the data that
  comes in on them.
* `Tuned` says which limits the two streams of a session have.
* `session_forwards` is the result: a message is passed on unchanged and the session goes on, if
  the message fits (`Fits`).  TCP clients are not limited among themselves, but a TCP client
  that is paired with a WebSocket keeps the limit of control frames, and a WebSocket cannot write
  everything that the other one may read (`transport_limits_differ`).
-/

namespace RemoteServer.Relay.Transports

open RustStd Lts

structure Config extends Relay.Config where
  /-- Whether a `FramedStream` refuses to send what it would refuse to receive. -/
  encodeLimited : Bool

def relayControlFrameMax : Nat := 64 * 1024
def relayWebsocketFrameMax : Nat := 8 * 1024 * 1024

def websocketConfig : WebSocketConfig where
  readBufferSize := 32 * 1024
  writeBufferSize := 32 * 1024
  maxWriteBufferSize := relayWebsocketFrameMax
  maxMessageSize := some relayWebsocketFrameMax
  maxFrameSize := some relayWebsocketFrameMax

/-- The stream that `make_pair` builds. -/
def makePair (cfg : Config) (ws : Bool) : Stream :=
  if ws then .webSocket websocketConfig
  else .framed ⟨relayControlFrameMax, false, cfg.encodeLimited⟩

/-- `make_pair_` after the stream of the first client was taken out of the table. -/
def settle (stream pending : Stream) : Stream × Stream :=
  if !stream.isWs && !pending.isWs then (stream.setRaw, pending.setRaw) else (stream, pending)

structure State where
  relay : Relay.State
  /-- The stream of each connection. -/
  streams : List Stream

inductive Action where
  /-- An action of the relay in which no data arrives. -/
  | relay (a : Relay.Action)
  /-- Something arrives for the session that task `j` serves, from the client whose stream it
  has taken or from its own. -/
  | arrive (j : Nat) (fromPeer : Bool) (arrival : Arrival)

/-- The bytes of one client are sent to the other one. -/
structure Forwarded where
  src : Nat
  dst : Nat
  bytes : Bytes
deriving DecidableEq

/-- The second client and the first one, when they are about to be paired. -/
def joining? (s : Relay.State) : Relay.Action → Option (Nat × Nat)
  | .pair j =>
    match s.conns[j]? with
    | some conn =>
      match conn.stage with
      | .pairing rf => (s.peers.get rf.uuid).map fun pending => (j, pending.stream)
      | _ => none
    | none => none
  | _ => none

def settleAt (streams : List Stream) (j i : Nat) : List Stream :=
  match streams[j]?, streams[i]? with
  | some stream, some pending =>
    (streams.set j (settle stream pending).1).set i (settle stream pending).2
  | _, _ => streams

/-- The streams after an action that has led to `s'`. -/
def nextStreams (cfg : Config) (s : State) (s' : Relay.State) (a : Relay.Action) : List Stream :=
  match joining? s.relay a with
  | some (j, i) => settleAt s.streams j i
  | none =>
    match a with
    | .accept _ ws =>
      if s.relay.conns.length < s'.conns.length then s.streams ++ [makePair cfg ws] else s.streams
    | _ => s.streams

def carries : Relay.Action → Bool
  | .turn _ (.data _) => true
  | .turn _ .closed => true
  | _ => false

/-- One branch of the `select!` of `relay`: what its turn sees, and the bytes sent on. -/
def copy (source target : Stream) (arrival : Arrival) : Ready × Option Bytes :=
  match source.recv arrival with
  | none => (.closed, none)
  | some bytes =>
    if bytes.isEmpty then (.data true, none)
    else if target.sendRaw bytes then (.data true, some bytes)
    else (.data false, none)

/-- The source and the target of what arrives at task `j`. -/
def ends (j peer : Nat) (fromPeer : Bool) : Nat × Nat := if fromPeer then (peer, j) else (j, peer)

def step (cfg : Config) (s : State) : Action → Option (State × List Forwarded)
  | .relay a =>
    if carries a then none
    else (Relay.step cfg.toConfig s.relay a).map fun y => (⟨y.1, nextStreams cfg s y.1 a⟩, [])
  | .arrive j fromPeer arrival =>
    ((s.relay.conns[j]?).bind fun conn => conn.stage.peer?).bind fun peer =>
      (s.streams[(ends j peer fromPeer).1]?).bind fun source =>
        (s.streams[(ends j peer fromPeer).2]?).bind fun target =>
          let out := copy source target arrival
          (Relay.step cfg.toConfig s.relay (.turn j out.1)).map fun y =>
            (⟨y.1, s.streams⟩, out.2.toList.map fun bytes =>
              ⟨(ends j peer fromPeer).1, (ends j peer fromPeer).2, bytes⟩)

def State.initial (cfg : Config) (now : Nat) (lists : Lists) : State :=
  ⟨.initial cfg.toConfig now lists, []⟩

/-! ## The streams of a session -/

/-- The task has not looked at the table yet. -/
def Stage.Fresh (stage : Stage) : Prop := stage.Early ∨ ∃ rf, stage = .pairing rf

/-- Which limits the streams have. -/
structure Tuned (cfg : Config) (s : State) : Prop where
  len : s.streams.length = s.relay.conns.length
  fresh : ∀ {k : Nat} {conn : Conn}, s.relay.conns[k]? = some conn → Stage.Fresh conn.stage →
    ∃ ws, s.streams[k]? = some (makePair cfg ws)
  waiting : ∀ {uuid : String} {pending : PendingRelay}, s.relay.peers.get uuid = some pending →
    ∃ ws, s.streams[pending.stream]? = some (makePair cfg ws)
  session : ∀ {i j : Nat}, s.relay.Joins i j → ∃ ws ws',
    s.streams[j]? = some (settle (makePair cfg ws) (makePair cfg ws')).1 ∧
    s.streams[i]? = some (settle (makePair cfg ws) (makePair cfg ws')).2

section Tuned

variable {cfg : Config} {s : State} {r' : Relay.State} {a : Relay.Action} {evs : List Event}

theorem joining?_eq_some {s : Relay.State} {j i : Nat} (h : joining? s a = some (j, i)) :
    ∃ conn rf pending, a = .pair j ∧ s.conns[j]? = some conn ∧ conn.stage = .pairing rf ∧
      s.peers.get rf.uuid = some pending ∧ pending.stream = i := by
  unfold joining? at h
  split at h
  · rename_i k
    split at h
    · rename_i conn hconn
      split at h
      · rename_i rf hstage
        obtain ⟨pending, hget, hpair⟩ := Option.map_eq_some_iff.1 h
        cases hpair
        exact ⟨conn, rf, pending, rfl, hconn, hstage, hget, rfl⟩
      · cases h
    · cases h
  · cases h

/-- A session that is new joins the two clients. -/
theorem joins_cases (hmove : Move cfg.toConfig s.relay r' a) {i j : Nat} (hj : r'.Joins i j) :
    s.relay.Joins i j ∨ joining? s.relay a = some (j, i) := by
  rcases hmove.joins hj with hold | ⟨conn, rf, pending, rfl, hconn, hstage, hget, -, rfl⟩
  · exact Or.inl hold
  · refine Or.inr ?_
    simp only [joining?, hconn, hstage, hget, Option.map_some]

theorem joins_of_joining (hstep : Relay.step cfg.toConfig s.relay a = some (r', evs)) {i j : Nat}
    (h : joining? s.relay a = some (j, i)) : r'.Joins i j := by
  obtain ⟨conn, rf, pending, rfl, hconn, hstage, hget, rfl⟩ := joining?_eq_some h
  simp only [Relay.step, Relay.Action.task?, Option.bind_some, hconn, stepConn, hstage, pair, hget,
    Option.map_some] at hstep
  cases hstep
  exact ⟨_, getElem?_advance_self hconn, rfl⟩

theorem fresh_back {conn conn' : Conn} {k : Nat}
    (h : conn.Moves cfg.toConfig s.relay r' a k conn') (hf : Stage.Fresh conn'.stage) :
    Stage.Fresh conn.stage := by
  have hlate : ∀ {stage : Stage}, stage.Late → ¬ Stage.Fresh stage := by
    rintro stage hl (he | ⟨rf, rfl⟩)
    · exact he.not_late hl
    · exact hl
  cases h with
  | same => exact hf
  | pass hpass =>
    cases hpass with
    | early h => exact Or.inl h
    | present h => exact Or.inl h
    | wake _ hconn' =>
      subst hconn'
      exact absurd hf (hlate trivial)
    | turn _ hconn' =>
      subst hconn'
      rcases hf with he | ⟨rf, heq⟩
      · exact he.elim
      · cases heq
    | stop _ hconn' =>
      subst hconn'
      exact absurd hf (hlate trivial)
  | join _ hstage => exact Or.inr ⟨_, hstage⟩
  | wait _ hstage => exact Or.inr ⟨_, hstage⟩
  | expire => exact absurd hf (hlate trivial)

theorem length_cases (hmove : Move cfg.toConfig s.relay r' a) :
    r'.conns.length = s.relay.conns.length ∨
      ∃ addr ws, a = .accept addr ws ∧ r'.conns.length = s.relay.conns.length + 1 := by
  have hadvance : ∀ {i : Nat} {conn : Conn}, r'.conns = advance s.relay.conns i conn [] →
      r'.conns.length = s.relay.conns.length := by
    intro i conn hconns
    rw [hconns, advance, List.append_nil, List.length_set]
  cases hmove with
  | still hconns => exact Or.inl (congrArg List.length hconns)
  | spawn hnew hconns =>
    obtain ⟨ws, rfl⟩ := hnew.accepted
    refine Or.inr ⟨_, ws, rfl, ?_⟩
    rw [hconns, List.length_append, List.length_singleton]
  | pass _ _ _ hconns => exact Or.inl (hadvance hconns)
  | join _ _ _ hconns => exact Or.inl (hadvance hconns)
  | wait _ _ _ _ _ hconns => exact Or.inl (hadvance hconns)
  | expire _ _ hconns => exact Or.inl (hadvance hconns)

theorem settleAt_of_getElem? {streams : List Stream} {i j : Nat} {stream pending : Stream}
    (hj : streams[j]? = some stream) (hi : streams[i]? = some pending) :
    settleAt streams j i =
      (streams.set j (settle stream pending).1).set i (settle stream pending).2 := by
  simp only [settleAt, hj, hi]

theorem length_settleAt (streams : List Stream) (j i : Nat) :
    (settleAt streams j i).length = streams.length := by
  unfold settleAt
  split
  · rw [List.length_set, List.length_set]
  · rfl

theorem length_nextStreams (hlen : s.streams.length = s.relay.conns.length)
    (hmove : Move cfg.toConfig s.relay r' a) :
    (nextStreams cfg s r' a).length = r'.conns.length := by
  unfold nextStreams
  rcases length_cases hmove with hsame | ⟨addr, ws, rfl, hmore⟩
  · have hkept : ¬ s.relay.conns.length < r'.conns.length := by omega
    split
    · rw [length_settleAt]
      omega
    · split
      · rw [if_neg hkept]
        omega
      · omega
  · have hgrown : s.relay.conns.length < r'.conns.length := by omega
    simp only [joining?, if_pos hgrown, List.length_append, List.length_singleton]
    omega

/-- A stream stays as it is unless its client is paired in the step. -/
theorem stream_kept {k : Nat} {stream : Stream} (hk : s.streams[k]? = some stream)
    (hne : ∀ {j i : Nat}, joining? s.relay a = some (j, i) → j ≠ k ∧ i ≠ k) :
    (nextStreams cfg s r' a)[k]? = some stream := by
  have hlt := (List.getElem?_eq_some_iff.1 hk).1
  unfold nextStreams
  split
  · rename_i j i hjoining
    obtain ⟨hj, hi⟩ := hne hjoining
    unfold settleAt
    split
    · rw [List.getElem?_set_ne hi, List.getElem?_set_ne hj]
      exact hk
    · exact hk
  · split
    · split
      · rw [List.getElem?_append_left hlt]
        exact hk
      · exact hk
    · exact hk

/-- The client that waits in the table has not been paired, and the one that is about to look
at the table is another one. -/
theorem joining_stages (hp : Paired cfg.toConfig s.relay) {i j : Nat}
    (h : joining? s.relay a = some (j, i)) :
    (∃ conn, s.relay.conns[i]? = some conn ∧ conn.stage.Late) ∧
      ∃ conn rf, s.relay.conns[j]? = some conn ∧ conn.stage = .pairing rf := by
  obtain ⟨conn, rf, pending, -, hconn, hstage, hget, rfl⟩ := joining?_eq_some h
  obtain ⟨first, hfirst, hwaits, -⟩ := hp.entry hget
  exact ⟨⟨first, hfirst, hwaits.late⟩, conn, rf, hconn, hstage⟩

theorem Tuned.fresh_step (ht : Tuned cfg s) (hp : Paired cfg.toConfig s.relay)
    (hstep : Relay.step cfg.toConfig s.relay a = some (r', evs)) {k : Nat} {conn' : Conn}
    (hk : r'.conns[k]? = some conn') (hf : Stage.Fresh conn'.stage) :
    ∃ ws, (nextStreams cfg s r' a)[k]? = some (makePair cfg ws) := by
  have hmove := step_move hstep
  have hlt := (List.getElem?_eq_some_iff.1 hk).1
  by_cases hold : k < s.relay.conns.length
  · have hconn := List.getElem?_eq_getElem hold
    obtain ⟨conn'', hk', hmoves⟩ := hmove.conns.1 hconn
    obtain rfl := Option.some.inj (hk'.symm.trans hk)
    obtain ⟨ws, hws⟩ := ht.fresh hconn (fresh_back hmoves hf)
    refine ⟨ws, stream_kept hws fun {j i} hjoining => ?_⟩
    obtain ⟨⟨first, hfirst, hl⟩, -⟩ := joining_stages hp hjoining
    constructor
    · -- the second client serves the session now
      rintro rfl
      obtain ⟨second, hsecond, hpeer⟩ := joins_of_joining hstep hjoining
      obtain rfl := Option.some.inj (hsecond.symm.trans hk)
      rcases hf with he | ⟨rf, heq⟩
      · obtain ⟨session, hstage⟩ := Stage.exists_of_peer? hpeer
        rw [hstage] at he
        exact he
      · rw [heq] at hpeer
        cases hpeer
    · rintro rfl
      rw [hconn] at hfirst
      cases hfirst
      rcases fresh_back hmoves hf with he | ⟨rf', heq⟩
      · exact he.not_late hl
      · rw [heq] at hl
        exact hl
  · rcases length_cases hmove with hsame | ⟨addr, ws, rfl, hmore⟩
    · omega
    · obtain rfl : k = s.relay.conns.length := by omega
      have hgrown : s.relay.conns.length < r'.conns.length := by omega
      refine ⟨ws, ?_⟩
      simp only [nextStreams, joining?, if_pos hgrown]
      rw [← ht.len, List.getElem?_concat_length]

theorem Tuned.waiting_step (ht : Tuned cfg s) (hp : Paired cfg.toConfig s.relay)
    (hstep : Relay.step cfg.toConfig s.relay a = some (r', evs)) {uuid : String}
    {pending : PendingRelay} (hget : r'.peers.get uuid = some pending) :
    ∃ ws, (nextStreams cfg s r' a)[pending.stream]? = some (makePair cfg ws) := by
  have hpaired' := step_paired hp hstep
  have hws : ∃ ws, s.streams[pending.stream]? = some (makePair cfg ws) := by
    rcases (step_move hstep).entry hget with hold | ⟨conn, rf, -, -, hconn, hstage, rfl, -⟩
    · exact ht.waiting hold
    · exact ht.fresh hconn (Or.inr ⟨rf, hstage⟩)
  obtain ⟨ws, hws⟩ := hws
  refine ⟨ws, stream_kept hws fun hjoining => ?_⟩
  have hjoins := joins_of_joining hstep hjoining
  exact ⟨(hpaired'.stream_ne_of_joins hjoins hget).symm, (hpaired'.taken hjoins hget).symm⟩

theorem Tuned.session_step (ht : Tuned cfg s) (hp : Paired cfg.toConfig s.relay)
    (hstep : Relay.step cfg.toConfig s.relay a = some (r', evs)) {i j : Nat} (hj : r'.Joins i j) :
    ∃ ws ws', (nextStreams cfg s r' a)[j]? =
        some (settle (makePair cfg ws) (makePair cfg ws')).1 ∧
      (nextStreams cfg s r' a)[i]? = some (settle (makePair cfg ws) (makePair cfg ws')).2 := by
  rcases joins_cases (step_move hstep) hj with hold | hnew
  · obtain ⟨ws, ws', hsecond, hfirst⟩ := ht.session hold
    have hne : ∀ {j' i' : Nat}, joining? s.relay a = some (j', i') →
        (j' ≠ j ∧ i' ≠ j) ∧ j' ≠ i ∧ i' ≠ i := by
      intro j' i' hjoining
      obtain ⟨conn, rf, pending, -, hconn, hstage, hget, rfl⟩ := joining?_eq_some hjoining
      refine ⟨⟨?_, hp.stream_ne_of_joins hold hget⟩, ?_, hp.taken hold hget⟩
      · rintro rfl
        obtain ⟨conn', hconn', hpeer⟩ := hold
        rw [hconn] at hconn'
        cases hconn'
        rw [hstage] at hpeer
        cases hpeer
      · rintro rfl
        exact hp.not_joins_of_pairing hconn hstage j hold
    exact ⟨ws, ws', stream_kept hsecond fun h => (hne h).1, stream_kept hfirst fun h => (hne h).2⟩
  · obtain ⟨conn, rf, pending, -, hconn, hstage, hget, rfl⟩ := joining?_eq_some hnew
    obtain ⟨ws, hsecond⟩ := ht.fresh hconn (Or.inr ⟨rf, hstage⟩)
    obtain ⟨ws', hfirst⟩ := ht.waiting hget
    have hne : pending.stream ≠ j := (step_paired hp hstep).ne_of_joins hj
    have hltj := (List.getElem?_eq_some_iff.1 hsecond).1
    have hlti := (List.getElem?_eq_some_iff.1 hfirst).1
    refine ⟨ws, ws', ?_, ?_⟩
    · simp only [nextStreams, hnew]
      rw [settleAt_of_getElem? hsecond hfirst, List.getElem?_set_ne hne,
        List.getElem?_set_self hltj]
    · simp only [nextStreams, hnew]
      rw [settleAt_of_getElem? hsecond hfirst, List.getElem?_set_self]
      rw [List.length_set]
      exact hlti

theorem Tuned.relay_step (ht : Tuned cfg s) (hp : Paired cfg.toConfig s.relay)
    (hstep : Relay.step cfg.toConfig s.relay a = some (r', evs)) :
    Tuned cfg ⟨r', nextStreams cfg s r' a⟩ :=
  ⟨length_nextStreams ht.len (step_move hstep), ht.fresh_step hp hstep, ht.waiting_step hp hstep,
    ht.session_step hp hstep⟩

end Tuned

/-- An action does one step of the relay, and data changes no stream. -/
theorem step_relay {cfg : Config} {s s' : State} {a : Action} {evs : List Forwarded}
    (h : step cfg s a = some (s', evs)) :
    ∃ a' evs', Relay.step cfg.toConfig s.relay a' = some (s'.relay, evs') ∧
      s'.streams = nextStreams cfg s s'.relay a' := by
  cases a with
  | relay a' =>
    simp only [step] at h
    split at h
    · cases h
    · obtain ⟨y, hy, hpair⟩ := Option.map_eq_some_iff.1 h
      cases hpair
      exact ⟨a', y.2, hy, rfl⟩
  | arrive j fromPeer arrival =>
    simp only [step] at h
    obtain ⟨peer, -, h⟩ := Option.bind_eq_some_iff.1 h
    obtain ⟨source, -, h⟩ := Option.bind_eq_some_iff.1 h
    obtain ⟨target, -, h⟩ := Option.bind_eq_some_iff.1 h
    obtain ⟨y, hy, hpair⟩ := Option.map_eq_some_iff.1 h
    cases hpair
    exact ⟨_, y.2, hy, rfl⟩

theorem run_tuned {cfg : Config} {now : Nat} {lists : Lists}
    {ok : List Forwarded → State → Action → Prop} {tr : List Forwarded} {s : State}
    (h : Run (step cfg) ok (State.initial cfg now lists) tr s) :
    Paired cfg.toConfig s.relay ∧ Tuned cfg s := by
  refine h.inv_state (I := fun s => Paired cfg.toConfig s.relay ∧ Tuned cfg s) ?_
    fun hi _ hs => ?_
  · have hstart : Run (Relay.step cfg.toConfig) anything
        (Relay.State.initial cfg.toConfig now lists) [] (.initial cfg.toConfig now lists) := .start
    refine ⟨run_paired hstart, rfl, nofun, nofun, ?_⟩
    rintro i j ⟨conn, hconn, -⟩
    cases hconn
  · obtain ⟨a', evs', hstep, hstreams⟩ := step_relay hs
    refine ⟨step_paired hi.1 hstep, ?_⟩
    have ht := hi.2.relay_step hi.1 hstep
    rw [← hstreams] at ht
    exact ht

/-! ## The data of a session -/

/-- The stream of a client that is paired with one on the transport `ws'`. -/
def settled (cfg : Config) (ws ws' : Bool) : Stream :=
  if ws then .webSocket websocketConfig
  else .framed ⟨relayControlFrameMax, !ws', cfg.encodeLimited⟩

theorem settle_makePair (cfg : Config) (ws ws' : Bool) :
    settle (makePair cfg ws) (makePair cfg ws') = (settled cfg ws ws', settled cfg ws' ws) := by
  cases ws <;> cases ws' <;> rfl

/-- A message of `n` bytes from one stream fits the limits of both. -/
def Fits (cfg : Config) (source target : Stream) (n : Nat) : Prop :=
  match source.isWs, target.isWs with
  | false, false => True
  | false, true => n ≤ relayControlFrameMax
  | true, false => cfg.encodeLimited = true → n ≤ relayControlFrameMax
  | true, true => frameHeaderLen n + n ≤ relayWebsocketFrameMax

section Data

variable {cfg : Config} {s : State} {i j : Nat}

theorem recv_settled {ws ws' : Bool} {frames : List Bytes}
    (hmax : frames.flatten.length ≤ relayWebsocketFrameMax)
    (hfits : Fits cfg (settled cfg ws ws') (settled cfg ws' ws) frames.flatten.length) :
    (settled cfg ws ws').recv (.data frames) = some frames.flatten := by
  cases ws with
  | true => exact if_pos (WebSocketConfig.reads_of_length_le rfl rfl hmax)
  | false =>
    refine if_pos ?_
    cases ws' with
    | true =>
      have hle : frames.flatten.length ≤ relayControlFrameMax := hfits
      exact decide_eq_true hle
    | false => rfl

theorem sendRaw_settled {ws ws' : Bool} {bytes : Bytes}
    (hfits : Fits cfg (settled cfg ws ws') (settled cfg ws' ws) bytes.length) :
    (settled cfg ws' ws).sendRaw bytes = true := by
  cases ws' with
  | true =>
    refine decide_eq_true ?_
    show frameHeaderLen bytes.length + bytes.length ≤ relayWebsocketFrameMax
    cases ws with
    | true => exact hfits
    | false =>
      -- a control frame is far below the limit of the WebSocket
      have hle : bytes.length ≤ 64 * 1024 := hfits
      have hheader := frameHeaderLen_le bytes.length
      show _ ≤ 8 * 1024 * 1024
      omega
  | false =>
    cases ws with
    | true =>
      have hle : cfg.encodeLimited = true → bytes.length ≤ relayControlFrameMax := hfits
      show (!cfg.encodeLimited || decide (bytes.length ≤ relayControlFrameMax)) = true
      cases hlimited : cfg.encodeLimited with
      | true => simpa using hle hlimited
      | false => rfl
    | false => rfl

theorem copy_settled {ws ws' : Bool} {frames : List Bytes} (hne : frames.flatten ≠ [])
    (hmax : frames.flatten.length ≤ relayWebsocketFrameMax)
    (hfits : Fits cfg (settled cfg ws ws') (settled cfg ws' ws) frames.flatten.length) :
    copy (settled cfg ws ws') (settled cfg ws' ws) (.data frames) =
      (.data true, some frames.flatten) := by
  have hempty : frames.flatten.isEmpty = false := by
    cases hflatten : frames.flatten with
    | nil => exact absurd hflatten hne
    | cons => rfl
  simp [copy, recv_settled hmax hfits, sendRaw_settled hfits, hempty]

/-- The two streams of what arrives in a session. -/
theorem Tuned.settled_ends (ht : Tuned cfg s) (hj : s.relay.Joins i j) (fromPeer : Bool) :
    ∃ ws ws', s.streams[(ends j i fromPeer).1]? = some (settled cfg ws ws') ∧
      s.streams[(ends j i fromPeer).2]? = some (settled cfg ws' ws) := by
  obtain ⟨ws, ws', hsecond, hfirst⟩ := ht.session hj
  rw [settle_makePair] at hsecond hfirst
  cases fromPeer with
  | true => exact ⟨ws', ws, hfirst, hsecond⟩
  | false => exact ⟨ws, ws', hsecond, hfirst⟩

/-- What arrives in a session is one turn of its task. -/
theorem step_arrive (cfg : Config) (hj : s.relay.Joins i j) {fromPeer : Bool} {source target : Stream}
    (hsource : s.streams[(ends j i fromPeer).1]? = some source)
    (htarget : s.streams[(ends j i fromPeer).2]? = some target) {arrival : Arrival} {ready : Ready}
    {sent : Option Bytes} (hcopy : copy source target arrival = (ready, sent)) :
    ∃ conn session, s.relay.conns[j]? = some conn ∧ conn.stage = .relaying i session ∧
      step cfg s (.arrive j fromPeer arrival) =
        some (⟨turn s.relay j conn i session ready, s.streams⟩, sent.toList.map fun bytes =>
          ⟨(ends j i fromPeer).1, (ends j i fromPeer).2, bytes⟩) := by
  obtain ⟨conn, hconn, hpeer⟩ := hj
  obtain ⟨session, hstage⟩ := Stage.exists_of_peer? hpeer
  refine ⟨conn, session, hconn, hstage, ?_⟩
  simp only [step, hconn, Option.bind_some, hstage, Stage.peer?, hsource, htarget, hcopy,
    Relay.step, Relay.Action.task?, stepConn, Option.map_some]

/-- In every run, a message that arrives on one stream of a session and fits is sent to the other
one as it is, and the session goes on as after any data. -/
theorem session_forwards {now : Nat} {lists : Lists} {tr : List Forwarded}
    (hrun : Run (step cfg) anything (State.initial cfg now lists) tr s) (hj : s.relay.Joins i j)
    {fromPeer : Bool} {source target : Stream}
    (hsource : s.streams[(ends j i fromPeer).1]? = some source)
    (htarget : s.streams[(ends j i fromPeer).2]? = some target) {frames : List Bytes}
    (hne : frames.flatten ≠ []) (hmax : frames.flatten.length ≤ relayWebsocketFrameMax)
    (hfits : Fits cfg source target frames.flatten.length) :
    ∃ s', step cfg s (.arrive j fromPeer (.data frames)) =
        some (s', [⟨(ends j i fromPeer).1, (ends j i fromPeer).2, frames.flatten⟩]) ∧
      Relay.step cfg.toConfig s.relay (.turn j (.data true)) = some (s'.relay, []) := by
  obtain ⟨ws, ws', hsource', htarget'⟩ := (run_tuned hrun).2.settled_ends hj fromPeer
  obtain rfl := Option.some.inj (hsource.symm.trans hsource')
  obtain rfl := Option.some.inj (htarget.symm.trans htarget')
  obtain ⟨conn, session, hconn, hstage, hstep⟩ :=
    step_arrive cfg hj hsource htarget (copy_settled hne hmax hfits)
  refine ⟨_, hstep, ?_⟩
  simp only [Relay.step, Relay.Action.task?, Option.bind_some, hconn, stepConn, hstage,
    Option.map_some]

/-- A session ends when what arrives cannot be received or sent on. -/
theorem session_ends (hj : s.relay.Joins i j) {fromPeer : Bool} {source target : Stream}
    (hsource : s.streams[(ends j i fromPeer).1]? = some source)
    (htarget : s.streams[(ends j i fromPeer).2]? = some target) {arrival : Arrival} {ready : Ready}
    (hcopy : copy source target arrival = (ready, none))
    (hready : ready = .closed ∨ ready = .data false) :
    ∃ s' conn, step cfg s (.arrive j fromPeer arrival) = some (s', []) ∧
      s'.relay.conns[j]? = some conn ∧ conn.stage = .ended := by
  obtain ⟨conn, session, hconn, -, hstep⟩ := step_arrive cfg hj hsource htarget hcopy
  have hturn : turn s.relay j conn i session ready = s.relay.finish j conn := by
    rcases hready with rfl | rfl <;> rfl
  rw [hturn] at hstep
  exact ⟨_, _, hstep, getElem?_advance_self hconn, rfl⟩

end Data

/-! ## Concrete runs -/

def sampleConfig : Config := ⟨Relay.sampleConfig, false⟩

/-- Client `i` connects and presents its request. -/
def joins (i : Nat) (ws : Bool) : List Action :=
  List.map Action.relay (.accept (sampleAddr 1) ws ::
    (if ws then [.upgrade i ⟨none, none⟩] else []) ++
    [.message i (some (sampleRequest "session-1")), .pair i])

/-- A session of two clients. -/
theorem exists_session (ws ws' : Bool) : ∃ s tr,
    Run (step sampleConfig) anything (State.initial sampleConfig 0 ⟨.empty, .empty⟩) tr s ∧
      s.relay.Joins 0 1 ∧ s.streams[0]? = some (settled sampleConfig ws ws') ∧
      s.streams[1]? = some (settled sampleConfig ws' ws) := by
  obtain ⟨s, tr, hrun, hshow⟩ := exists_run_of_exec (step sampleConfig)
    (State.initial sampleConfig 0 ⟨.empty, .empty⟩) (joins 0 ws ++ joins 1 ws')
    (fun (x : State × List Forwarded) => decide (
      (x.1.relay.conns[1]?).bind (fun (conn : Conn) => conn.stage.peer?) = some 0 ∧
      x.1.streams[0]? = some (settled sampleConfig ws ws') ∧
      x.1.streams[1]? = some (settled sampleConfig ws' ws)))
    (b := true) (by revert ws ws'; decide +kernel)
  obtain ⟨hpeer, hfirst, hsecond⟩ := of_decide_eq_true hshow
  obtain ⟨conn, hconn, hpeer⟩ := Option.bind_eq_some_iff.1 hpeer
  exact ⟨s, tr, hrun, ⟨conn, hconn, hpeer⟩, hfirst, hsecond⟩

/-- A message of `n` bytes. -/
def sampleMessage (n : Nat) : List Bytes := [List.replicate n 0]

theorem flatten_sampleMessage (n : Nat) : (sampleMessage n).flatten = List.replicate n 0 :=
  List.flatten_singleton

theorem length_sampleMessage (n : Nat) : (sampleMessage n).flatten.length = n := by
  rw [flatten_sampleMessage, List.length_replicate]

theorem sampleMessage_ne_nil {n : Nat} (h : 0 < n) : (sampleMessage n).flatten ≠ [] := by
  intro hnil
  have hlen := length_sampleMessage n
  rw [hnil, List.length_nil] at hlen
  omega

/-- Two TCP clients exchange a message of the size of the largest WebSocket message. -/
theorem session_forwards_raw : ∃ s tr s',
    Run (step sampleConfig) anything (State.initial sampleConfig 0 ⟨.empty, .empty⟩) tr s ∧
      step sampleConfig s (.arrive 1 true (.data (sampleMessage relayWebsocketFrameMax))) =
        some (s', [⟨0, 1, (sampleMessage relayWebsocketFrameMax).flatten⟩]) := by
  obtain ⟨s, tr, hrun, hj, hfirst, hsecond⟩ := exists_session false false
  have hsource : s.streams[(ends 1 0 true).1]? = some (settled sampleConfig false false) := hfirst
  have htarget : s.streams[(ends 1 0 true).2]? = some (settled sampleConfig false false) := hsecond
  have hpos : 0 < relayWebsocketFrameMax := by decide
  obtain ⟨s', hstep, -⟩ := session_forwards hrun hj hsource htarget (sampleMessage_ne_nil hpos)
    (length_sampleMessage _).le trivial
  exact ⟨s, tr, s', hrun, hstep⟩

/-- A TCP client that is paired with a WebSocket cannot send more than a control frame. -/
theorem copy_above_control {n : Nat} (h : relayControlFrameMax < n) :
    copy (settled sampleConfig false true) (settled sampleConfig true false)
      (.data (sampleMessage n)) = (.closed, none) := by
  have hrecv : (settled sampleConfig false true).recv (.data (sampleMessage n)) = none := by
    refine if_neg ?_
    show ¬ decide ((sampleMessage n).flatten.length ≤ relayControlFrameMax) = true
    rw [length_sampleMessage, decide_eq_true_eq]
    omega
  simp only [copy, hrecv]

/-- A WebSocket reads a message that another one cannot write with its header. -/
theorem copy_above_buffer {n : Nat} (hpos : 0 < n) (hmax : n ≤ relayWebsocketFrameMax)
    (h : relayWebsocketFrameMax < frameHeaderLen n + n) :
    copy (settled sampleConfig true true) (settled sampleConfig true true)
      (.data (sampleMessage n)) = (.data false, none) := by
  have hreads : websocketConfig.reads (sampleMessage n) = true := by
    refine WebSocketConfig.reads_of_length_le rfl rfl ?_
    rw [length_sampleMessage]
    exact hmax
  have hwrites : websocketConfig.writes (sampleMessage n).flatten = false := by
    unfold WebSocketConfig.writes
    rw [length_sampleMessage, decide_eq_false_iff_not]
    exact Nat.not_le.2 h
  have hempty : (sampleMessage n).flatten.isEmpty = false := by
    rw [List.isEmpty_eq_false_iff]
    exact sampleMessage_ne_nil hpos
  have hrecv : (settled sampleConfig true true).recv (.data (sampleMessage n)) =
      some (sampleMessage n).flatten := if_pos hreads
  have hsend : (settled sampleConfig true true).sendRaw (sampleMessage n).flatten = false := hwrites
  simp only [copy, hrecv, hempty, hsend, Bool.false_eq_true, if_false]

/-- Two messages within the size of the largest WebSocket message that end their sessions: one
byte more than a control frame from a TCP client to a WebSocket, and the largest one from a
WebSocket to another. -/
theorem transport_limits_differ :
    (∃ s tr s' conn,
      Run (step sampleConfig) anything (State.initial sampleConfig 0 ⟨.empty, .empty⟩) tr s ∧
        s.relay.Joins 0 1 ∧ relayControlFrameMax + 1 ≤ relayWebsocketFrameMax ∧
        step sampleConfig s
          (.arrive 1 true (.data (sampleMessage (relayControlFrameMax + 1)))) = some (s', []) ∧
        s'.relay.conns[1]? = some conn ∧ conn.stage = .ended) ∧
      ∃ s tr s' conn,
        Run (step sampleConfig) anything (State.initial sampleConfig 0 ⟨.empty, .empty⟩) tr s ∧
        s.relay.Joins 0 1 ∧
        step sampleConfig s (.arrive 1 true (.data (sampleMessage relayWebsocketFrameMax))) =
          some (s', []) ∧
        s'.relay.conns[1]? = some conn ∧ conn.stage = .ended := by
  constructor
  · obtain ⟨s, tr, hrun, hj, hfirst, hsecond⟩ := exists_session false true
    have hsource : s.streams[(ends 1 0 true).1]? = some (settled sampleConfig false true) := hfirst
    have htarget : s.streams[(ends 1 0 true).2]? = some (settled sampleConfig true false) :=
      hsecond
    obtain ⟨s', conn, hstep, hconn, hended⟩ := session_ends hj hsource htarget
      (copy_above_control (Nat.lt_succ_self relayControlFrameMax)) (Or.inl rfl)
    exact ⟨s, tr, s', conn, hrun, hj, by decide, hstep, hconn, hended⟩
  · obtain ⟨s, tr, hrun, hj, hfirst, hsecond⟩ := exists_session true true
    have hsource : s.streams[(ends 1 0 true).1]? = some (settled sampleConfig true true) := hfirst
    have htarget : s.streams[(ends 1 0 true).2]? = some (settled sampleConfig true true) := hsecond
    have hpos : 0 < relayWebsocketFrameMax := by decide
    have hheader : relayWebsocketFrameMax <
        frameHeaderLen relayWebsocketFrameMax + relayWebsocketFrameMax := by decide
    obtain ⟨s', conn, hstep, hconn, hended⟩ := session_ends hj hsource htarget
      (copy_above_buffer hpos (Nat.le_refl _) hheader) (Or.inr rfl)
    exact ⟨s, tr, s', conn, hrun, hj, hstep, hconn, hended⟩

end RemoteServer.Relay.Transports
