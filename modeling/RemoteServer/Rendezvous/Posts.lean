import RemoteServer.Rendezvous.Moves

/-!
# What an action puts on a channel

`Move` is about the tables.  This is its counterpart for the channels: a step leaves
all queues as they are, takes the first message of one, or puts one message on one
(`step_queues`).  `Posts` says who does that and how his handler goes on.
-/

namespace RemoteServer.Rendezvous

open RustStd

/-- The messages on the channel of a connection. -/
def Shared.queue (s : Shared) (c : Nat) : List ServerMessage :=
  ((s.channels[c]?).map Channel.queue).getD []

/-- `try_send` to the connection succeeds. -/
def Shared.HasRoom (s : Shared) (c : Nat) : Prop :=
  ∃ ch, s.channels[c]? = some ch ∧ ch.receiver = true ∧ ch.queue.length < connectionQueueCapacity

instance (s : Shared) (c : Nat) : Decidable (s.HasRoom c) :=
  decidable_of_iff (∃ ch ∈ s.channels[c]?,
    ch.receiver = true ∧ ch.queue.length < connectionQueueCapacity) Iff.rfl

/-- The message was put on the channel of `t`, and no other queue has changed. -/
structure Shared.Posted (s s' : Shared) (t : Nat) (msg : ServerMessage) : Prop where
  room : s.HasRoom t
  queue : ∀ k, s'.queue k = if k = t then s.queue t ++ [msg] else s.queue k

/-- The requests of a controller that go on to a peer. -/
def ServerMessage.crosses : ServerMessage → Bool
  | .punchHole _ => true
  | .fetchLocalAddr _ => true
  | .requestRelay _ => true
  | _ => false

/-! ## Sending -/

section Send

variable {s s' : Shared} {c : Nat} {msg : ServerMessage}

theorem Shared.queue_congr (h : s'.channels = s.channels) (k : Nat) : s'.queue k = s.queue k := by
  unfold Shared.queue
  rw [h]

theorem Shared.Posted.congr {s₁ s₁' : Shared} (h : s.Posted s' c msg)
    (hs : s.channels = s₁.channels) (hs' : s₁'.channels = s'.channels) : s₁.Posted s₁' c msg := by
  obtain ⟨ch, hch, hopen⟩ := h.room
  refine ⟨⟨ch, hs ▸ hch, hopen⟩, fun k => ?_⟩
  rw [Shared.queue_congr hs', h.queue, Shared.queue_congr hs, Shared.queue_congr hs]

theorem Shared.trySend_posted (h : s.trySend c msg = some s') : s.Posted s' c msg := by
  unfold Shared.trySend at h
  split at h
  · rename_i ch hch
    split at h
    · rename_i hroom
      rw [Bool.and_eq_true, decide_eq_true_eq] at hroom
      cases h
      refine ⟨⟨ch, hch, hroom⟩, fun k => ?_⟩
      unfold Shared.queue
      by_cases hk : k = c
      · subst hk
        simp [List.getElem?_set_self (List.getElem?_eq_some_iff.1 hch).1, hch]
      · rw [if_neg hk]
        simp [List.getElem?_set_ne (Ne.symm hk)]
    · cases h
  · cases h

theorem Shared.HasRoom.trySend (h : s.HasRoom c) (msg : ServerMessage) :
    ∃ s', s.trySend c msg = some s' := by
  obtain ⟨ch, hch, hrecv, hlen⟩ := h
  unfold Shared.trySend
  rw [hch]
  dsimp only
  rw [hrecv, if_pos (by simp [hlen])]
  exact ⟨_, rfl⟩

/-- The two cases of `send_to_sink`. -/
theorem Shared.sendToSink_cases (s : Shared) (c : Nat) (msg : ServerMessage) :
    (∃ s', s.sendToSink c msg = (s', true) ∧ s.Posted s' c msg) ∨
      s.sendToSink c msg = (s, false) ∧ ¬ s.HasRoom c := by
  unfold Shared.sendToSink
  split
  · rename_i s' h
    exact Or.inl ⟨s', rfl, Shared.trySend_posted h⟩
  · rename_i h
    refine Or.inr ⟨rfl, fun hroom => ?_⟩
    obtain ⟨s', hs'⟩ := hroom.trySend msg
    rw [h] at hs'
    cases hs'

theorem Shared.sendToTcpSync_posted {proto : Protocol} {addr : SocketAddr} {target : Nat}
    (h : s.sendToTcpSync proto msg addr = some (target, s')) : s.Posted s' target msg := by
  obtain ⟨c, -, hmap⟩ := Option.bind_eq_some_iff.1 h
  obtain ⟨s₁, hsend, hpair⟩ := Option.map_eq_some_iff.1 hmap
  cases hpair
  exact Shared.trySend_posted hsend

/-- The two cases of `send_to_tcp`. -/
theorem Shared.sendToTcp_cases (proto : Protocol) (s : Shared) (msg : ServerMessage)
    (addr : SocketAddr) :
    (∃ s' target, s.sendToTcp proto msg addr = (s', some target) ∧
      s.tcpPunch.get (proto.tryIntoV4 addr) = some target ∧ s.Posted s' target msg) ∨
    ∃ s', s.sendToTcp proto msg addr = (s', none) ∧ s'.channels = s.channels ∧
      ∀ {target}, s.tcpPunch.get (proto.tryIntoV4 addr) = some target → ¬ s.HasRoom target := by
  unfold Shared.sendToTcp
  dsimp only
  split
  · rename_i c s' h
    obtain ⟨c', hget, hmap⟩ := Option.bind_eq_some_iff.1 h
    obtain ⟨s₁, hsend, hpair⟩ := Option.map_eq_some_iff.1 hmap
    cases hpair
    exact Or.inl ⟨s', c, rfl, hget, (Shared.trySend_posted hsend).congr rfl rfl⟩
  · rename_i h
    refine Or.inr ⟨_, rfl, rfl, fun {target} hget hroom => ?_⟩
    have hroom' : Shared.HasRoom
        { s with tcpPunch := s.tcpPunch.remove (proto.tryIntoV4 addr) } target := hroom
    obtain ⟨s', hs'⟩ := hroom'.trySend msg
    rw [hget, Option.bind_some, hs'] at h
    cases h

end Send

/-! ## Handlers -/

/-- The handler of connection `c` puts a message on the channel of a connection and goes
on. -/
inductive Handler.Posts (cfg : Config) (s : Shared) (c : Nat) (link : Link) :
    Handler → Next → Nat → ServerMessage → Prop where
  /-- To its own connection, as the last thing it does. -/
  | own {h : Handler} {msg : ServerMessage} (hmsg : msg.crosses = false) :
      Posts cfg s c link h (.ret true) c msg
  | registered {j : Nat} {requestPk : Bool} {cu : PeerStore.ConfigUpdate} :
      Posts cfg s c link (.register j) (.go (.configure cu)) c (.registerPeerResponse requestPk)
  | push {route : Route} {token : Bytes} {target : Nat}
      (hget : s.tcpPunch.get (cfg.protocol.tryIntoV4 route.peerAddr) = some target) :
      Posts cfg s c link (.forward route token) (.ret true) target
        (route.message cfg.protocol link.addr token)
  | answer {failure : Failure} {target : Nat}
      (hget : s.tcpPunch.get (cfg.protocol.tryIntoV4 link.addr) = some target) :
      Posts cfg s c link (.answer failure) (.ret true) target (punchHoleFailure failure)
  | reply {resp : Response} {consumed : ConsumedRendezvous} {pk : Bytes} {target : Nat}
      (hget : s.tcpPunch.get (cfg.protocol.tryIntoV4 consumed.requester) = some target) :
      Posts cfg s c link (.respond (.reply resp consumed pk)) (.ret false) target
        (resp.reply cfg.protocol link.addr false consumed pk)

/-- The queues after a step of a handler. -/
def Handler.Queues (cfg : Config) (s : Shared) (c : Nat) (link : Link) (h : Handler)
    (s' : Shared) (next : Next) : Prop :=
  (∀ k, s'.queue k = s.queue k) ∨
    ∃ t msg, s.Posted s' t msg ∧ h.Posts cfg s c link next t msg

section Handlers

variable {cfg : Config} {s : Shared} {c : Nat} {link : Link} {ch : Choice}

/-- A handler that ends with an answer to its own connection. -/
private theorem queues_of_reply (h : Handler) {s₁ : Shared} (hs : s₁.channels = s.channels)
    {msg : ServerMessage} (hmsg : msg.crosses = false) :
    h.Queues cfg s c link (replyToSink s₁ c msg).shared (replyToSink s₁ c msg).next := by
  unfold replyToSink
  dsimp only
  rcases s₁.sendToSink_cases c msg with ⟨s', heq, hposted⟩ | ⟨heq, -⟩
  · rw [heq]
    exact Or.inr ⟨c, msg, hposted.congr hs rfl, .own hmsg⟩
  · rw [heq]
    exact Or.inl (Shared.queue_congr hs)

private theorem queues_of_relayFailure (h : Handler) {s₁ : Shared} (hs : s₁.channels = s.channels)
    (reason : String) (evs : List Event) :
    h.Queues cfg s c link (sendRelayFailure s₁ c reason evs).shared
      (sendRelayFailure s₁ c reason evs).next :=
  queues_of_reply h hs rfl

private theorem queues_of_register {j : Nat} {answer : PeerStore.Answer} {out : Outcome}
    (h : answerRegistration s c answer = some out) :
    (Handler.register j).Queues cfg s c link out.shared out.next := by
  unfold answerRegistration at h
  split at h
  · split at h
    · cases h
      exact Or.inl fun _ => rfl
    · rename_i s' hsend
      have hposted := Shared.trySend_posted hsend
      split at h
      · cases h
        exact Or.inr ⟨c, _, hposted, .own rfl⟩
      · cases h
        exact Or.inr ⟨c, _, hposted, .registered⟩
  · cases h
    exact queues_of_reply _ rfl rfl
  · cases h
    exact Or.inl fun _ => rfl
  · cases h
    exact Or.inl fun _ => rfl
  · cases h

private theorem getRelayServer_channels (relayServers : List String) :
    (s.getRelayServer relayServers).1.channels = s.channels := by
  unfold Shared.getRelayServer
  split <;> rfl

private theorem routeRelay_channels (relayServers : List String) (rf : RequestRelay)
    (peerAddr : SocketAddr) :
    (routeRelay cfg s relayServers rf peerAddr).1.channels = s.channels := by
  unfold routeRelay
  split
  · rfl
  · exact getRelayServer_channels _

private theorem queues_of_find (ask : Ask) (j : Nat)
    (result : Except String (Option (Bool × SocketAddr))) :
    (Handler.find ask j).Queues cfg s c link (stepFind cfg s c link ask result).shared
      (stepFind cfg s c link ask result).next := by
  unfold stepFind
  split
  · exact Or.inl fun _ => rfl
  · split
    · exact Or.inl fun _ => rfl
    · exact queues_of_relayFailure _ (by rfl) _ _
  · split
    · exact Or.inl fun _ => rfl
    · exact queues_of_relayFailure _ (by rfl) _ _
  · split
    · exact Or.inl (Shared.queue_congr (getRelayServer_channels _))
    · exact Or.inl (Shared.queue_congr (routeRelay_channels _ _ _))

private theorem queues_of_reserve (route : Route) :
    (Handler.reserve route).Queues cfg s c link (stepReserve cfg s c link ch route).shared
      (stepReserve cfg s c link ch route).next := by
  unfold stepReserve
  dsimp only
  split
  · exact Or.inl fun _ => rfl
  · split
    · exact Or.inl fun _ => rfl
    · exact queues_of_relayFailure _ (by rfl) _ _

private theorem queues_of_online (rest : List PeerId) (i j : Nat) (states states' : Bytes) :
    (Handler.online rest i states j).Queues cfg s c link (stepOnline s c i states' rest).shared
      (stepOnline s c i states' rest).next := by
  cases rest with
  | nil => exact queues_of_reply _ rfl rfl
  | cons id rest => exact Or.inl fun _ => rfl

private theorem queues_of_proxyRate :
    Handler.proxyRate.Queues cfg s c link (stepProxyRate s c link).shared
      (stepProxyRate s c link).next := by
  unfold stepProxyRate
  dsimp only
  split
  · exact queues_of_reply _ (by rfl) rfl
  · split
    · exact queues_of_reply _ (by rfl) rfl
    · exact Or.inl fun _ => rfl

/-- What the handling of an answer puts on a channel. -/
theorem queues_of_stepResponding {addr : SocketAddr} {isUdp : Bool} {r : Responding} {s' : Shared}
    {next : Option Responding} {evs : List Event}
    (h : stepResponding cfg s addr isUdp r = some (s', next, evs)) :
    (∀ k, s'.queue k = s.queue k) ∨
      ∃ resp consumed pk target, r = .reply resp consumed pk ∧ next = none ∧
        s.tcpPunch.get (cfg.protocol.tryIntoV4 consumed.requester) = some target ∧
        s.Posted s' target (resp.reply cfg.protocol addr isUdp consumed pk) := by
  cases r with
  | consume resp =>
    simp only [stepResponding] at h
    split at h <;> cases h <;> exact Or.inl fun _ => rfl
  | getPk resp consumed j =>
    simp only [stepResponding] at h
    split at h
    · cases h
      exact Or.inl fun _ => rfl
    · cases h
  | reply resp consumed pk =>
    simp only [stepResponding, Option.some.injEq, Prod.mk.injEq] at h
    obtain ⟨rfl, rfl, rfl⟩ := h
    rcases s.sendToTcp_cases cfg.protocol (resp.reply cfg.protocol addr isUdp consumed pk)
      consumed.requester with ⟨s', target, heq, hget, hposted⟩ | ⟨s', heq, hchannels, -⟩
    · rw [heq]
      exact Or.inr ⟨resp, consumed, pk, target, rfl, rfl, hget, hposted⟩
    · rw [heq]
      exact Or.inl (Shared.queue_congr hchannels)

theorem queues_of_stepHandler {h : Handler} {out : Outcome}
    (hstep : stepHandler cfg s c link ch h = some out) :
    h.Queues cfg s c link out.shared out.next := by
  cases h with
  | cacheSink r =>
    cases hstep
    exact Or.inl fun _ => rfl
  | register j =>
    simp only [stepHandler] at hstep
    split at hstep
    · exact queues_of_register hstep
    · cases hstep
  | configure cu =>
    cases hstep
    exact queues_of_reply _ rfl rfl
  | find ask j =>
    obtain ⟨result, -, hout⟩ := Option.map_eq_some_iff.1 hstep
    cases hout
    exact queues_of_find ask j result
  | reserve route =>
    cases hstep
    exact queues_of_reserve route
  | forward route token =>
    simp only [stepHandler] at hstep
    split at hstep
    · rename_i target s' hsend
      cases hstep
      exact Or.inr ⟨target, _, Shared.sendToTcpSync_posted hsend,
        .push (Shared.sendToTcpSync_some hsend).1⟩
    · cases hstep
      exact Or.inl fun _ => rfl
  | withdraw ask token =>
    simp only [stepHandler] at hstep
    split at hstep
    · cases hstep
      exact Or.inl fun _ => rfl
    · cases hstep
      exact queues_of_relayFailure _ (by rfl) _ _
  | answer failure =>
    simp only [stepHandler] at hstep
    split at hstep
    · rename_i target s' hsend
      cases hstep
      exact Or.inr ⟨target, _, Shared.sendToTcpSync_posted hsend,
        .answer (Shared.sendToTcpSync_some hsend).1⟩
    · cases hstep
      exact Or.inl fun _ => rfl
  | respond r =>
    simp only [stepHandler] at hstep
    split at hstep
    · rename_i s' r' evs hr
      cases hstep
      rcases queues_of_stepResponding hr with hsame | ⟨_, _, _, _, _, hnext, _⟩
      · exact Or.inl hsame
      · cases hnext
    · rename_i s' evs hr
      cases hstep
      rcases queues_of_stepResponding hr with hsame | ⟨resp, consumed, pk, target, rfl, -, hget, hp⟩
      · exact Or.inl hsame
      · exact Or.inr ⟨target, _, hp, .reply hget⟩
    · cases hstep
  | online rest i states j =>
    obtain ⟨result, -, hout⟩ := Option.map_eq_some_iff.1 hstep
    cases hout
    exact queues_of_online rest i j states _
  | proxyRate =>
    cases hstep
    exact queues_of_proxyRate
  | proxyCall =>
    cases hstep
    exact queues_of_reply _ (by rfl) rfl

end Handlers

/-! ## Actions -/

/-- The action puts a message on the channel of a connection. -/
inductive Posts (cfg : Config) (s s' : State) : Action → Nat → ServerMessage → Prop where
  /-- A request that is answered at once. -/
  | receive {c : Nat} {link : Link} {msg : ClientMessage} {out : ServerMessage}
      (hc : s.conns[c]? = some ⟨link, .idle⟩) (hc' : s'.conns[c]? = some ⟨link, .idle⟩)
      (hout : out.crosses = false) : Posts cfg s s' (.message c msg) c out
  | testNat {c : Nat} {link : Link} {serial : Int} (hc : s.conns[c]? = some ⟨link, .idle⟩)
      (hc' : s'.conns[c]? = some ⟨link, .ending⟩) :
      Posts cfg s s' (.message c (.testNatRequest serial)) c (testNatResponse cfg link.addr serial)
  | handle {c : Nat} {link : Link} {h : Handler} {ch : Choice} {next : Next} {t : Nat}
      {out : ServerMessage} (hc : s.conns[c]? = some ⟨link, .busy h⟩)
      (hc' : s'.conns[c]? = some ⟨link, next.status⟩)
      (hp : h.Posts cfg s.toShared c link next t out) : Posts cfg s s' (.handle c ch) t out
  | handleUdp {addr : SocketAddr} {resp : Response} {consumed : ConsumedRendezvous} {pk : Bytes}
      {t : Nat} (hu : s.udp = some (addr, .reply resp consumed pk))
      (hget : s.tcpPunch.get (cfg.protocol.tryIntoV4 consumed.requester) = some t) :
      Posts cfg s s' .handleUdp t (resp.reply cfg.protocol addr true consumed pk)
  | keepAlive {c : Nat} : Posts cfg s s' (.keepAlive c) c .healthCheckResponse

section Actions

variable {cfg : Config} {s s' : State} {a : Action} {evs : List Event}

theorem Shared.leaveLoop_queue (s : Shared) (c : Nat) (ws : Bool) (k : Nat) :
    (s.leaveLoop c ws).queue k = s.queue k := by
  unfold Shared.leaveLoop
  split
  · rfl
  · unfold Shared.queue
    dsimp only
    rw [List.getElem?_modify]
    cases s.channels[k]? with
    | none => rfl
    | some channel => split <;> rfl

theorem State.resume_queue (s : State) (c : Nat) (conn : Conn) (shared : Shared) (next : Next)
    (k : Nat) : (s.resume c conn shared next).queue k = shared.queue k := by
  cases next with
  | go h => rfl
  | ret keep =>
    cases keep with
    | true => rfl
    | false => exact shared.leaveLoop_queue c conn.link.ws k

/-- What a message puts on a channel before the first `.await` of its handler. -/
private theorem queues_of_receive (cfg : Config) (s : Shared) (c : Nat) (link : Link)
    (msg : ClientMessage) :
    (∀ k, (receive cfg s c link msg).1.queue k = s.queue k) ∨
      ∃ out, s.Posted (receive cfg s c link msg).1 c out ∧
        ((receive cfg s c link msg).2 = .ret true ∧ out.crosses = false ∨
          ∃ serial, msg = .testNatRequest serial ∧ out = testNatResponse cfg link.addr serial ∧
            (receive cfg s c link msg).2 = .ret false) := by
  have hnow : ∀ out : ServerMessage, out.crosses = false →
      (∀ k, (receive.replyNow s c out).1.queue k = s.queue k) ∨
        s.Posted (receive.replyNow s c out).1 c out ∧ (receive.replyNow s c out).2 = .ret true := by
    intro out _
    unfold receive.replyNow
    dsimp only
    rcases s.sendToSink_cases c out with ⟨s', heq, hposted⟩ | ⟨heq, -⟩
    · rw [heq]
      exact Or.inr ⟨hposted, rfl⟩
    · rw [heq]
      exact Or.inl fun _ => rfl
  cases msg with
  | testNatRequest serial =>
    simp only [receive]
    rcases s.sendToSink_cases c (testNatResponse cfg link.addr serial) with
      ⟨s', heq, hposted⟩ | ⟨heq, -⟩
    · rw [heq]
      exact Or.inr ⟨_, hposted, Or.inr ⟨serial, rfl, rfl, trivial⟩⟩
    · rw [heq]
      exact Or.inl fun _ => rfl
  | onlineRequest peers =>
    simp only [receive]
    split
    · exact Or.inl fun _ => rfl
    · split
      · rcases hnow (.onlineResponse []) rfl with hsame | ⟨hposted, hret⟩
        · exact Or.inl hsame
        · exact Or.inr ⟨_, hposted, Or.inl ⟨hret, rfl⟩⟩
      · exact Or.inl fun _ => rfl
  | httpProxyRequest licenceKey =>
    simp only [receive]
    split
    · exact Or.inl fun _ => rfl
    · rcases hnow (httpProxyFailure 403 "API proxy authorization failed") rfl with
        hsame | ⟨hposted, hret⟩
      · exact Or.inl hsame
      · exact Or.inr ⟨_, hposted, Or.inl ⟨hret, rfl⟩⟩
  | punchHoleRequest ph =>
    simp only [receive]
    split
    · exact Or.inl fun _ => rfl
    · split <;> exact Or.inl fun _ => rfl
  | requestRelay rf =>
    simp only [receive]
    split <;> exact Or.inl fun _ => rfl
  | hc token =>
    simp only [receive]
    split <;> exact Or.inl fun _ => rfl
  | _ => exact Or.inl fun _ => rfl

theorem Shared.Posted.resume {shared : Shared} {t : Nat} {msg : ServerMessage}
    (h : s.toShared.Posted shared t msg) (c : Nat) (conn : Conn) (next : Next) :
    s.toShared.Posted (s.resume c conn shared next).toShared t msg :=
  ⟨h.room, fun k => (s.resume_queue c conn shared next k).trans (h.queue k)⟩

theorem State.resume_conn {c : Nat} {conn : Conn} (hc : s.conns[c]? = some conn) (shared : Shared)
    (next : Next) : (s.resume c conn shared next).conns[c]? = some ⟨conn.link, next.status⟩ := by
  rw [(s.resume_eq c conn shared next).2.1,
    List.getElem?_set_self (List.getElem?_eq_some_iff.1 hc).1]

/-- The queues after an action: all as before, or a message was taken off one of them, or
one was put on one. -/
theorem step_queues (h : step cfg s a = some (s', evs)) :
    (∀ k, s'.queue k = s.queue k) ∨
      (∃ c msg, a = .deliver c ∧ ∀ k, s.queue k = if k = c then msg :: s'.queue k else s'.queue k) ∨
      ∃ t msg, s.Posted s'.toShared t msg ∧ Posts cfg s s' a t msg := by
  cases a with
  | message c msg =>
    simp only [step] at h
    split at h
    · rename_i link hc
      cases h
      rcases queues_of_receive cfg s.toShared c link msg with
        hsame | ⟨out, hposted, ⟨hret, hout⟩ | ⟨serial, rfl, rfl, hret⟩⟩
      · exact Or.inl fun k => (s.resume_queue _ _ _ _ k).trans (hsame k)
      · refine Or.inr (Or.inr ⟨c, out, hposted.resume .., .receive hc ?_ hout⟩)
        rw [s.resume_conn hc, hret]
        rfl
      · refine Or.inr (Or.inr ⟨c, _, hposted.resume .., .testNat hc ?_⟩)
        rw [s.resume_conn hc, hret]
        rfl
    · cases h
  | handle c ch =>
    simp only [step] at h
    split at h
    · rename_i link handler hc
      obtain ⟨out, hout, hpair⟩ := Option.map_eq_some_iff.1 h
      cases hpair
      rcases queues_of_stepHandler hout with hsame | ⟨t, msg, hposted, hposts⟩
      · exact Or.inl fun k => (s.resume_queue _ _ _ _ k).trans (hsame k)
      · exact Or.inr (Or.inr ⟨t, msg, hposted.resume .., .handle hc (s.resume_conn hc ..) hposts⟩)
    · cases h
  | handleUdp =>
    simp only [step] at h
    split at h
    · rename_i addr r hu
      obtain ⟨⟨shared, next, events⟩, hr, hpair⟩ := Option.map_eq_some_iff.1 h
      cases hpair
      rcases queues_of_stepResponding hr with hsame | ⟨resp, consumed, pk, t, rfl, -, hget, hposted⟩
      · exact Or.inl hsame
      · exact Or.inr (Or.inr ⟨t, _, hposted, .handleUdp hu hget⟩)
    · cases h
  | keepAlive c =>
    simp only [step] at h
    split at h
    · split at h
      · rename_i shared hsend
        cases h
        exact Or.inr (Or.inr ⟨c, _, Shared.trySend_posted hsend, .keepAlive⟩)
      · cases h
        exact Or.inl fun _ => rfl
    · cases h
  | deliver c =>
    simp only [step] at h
    split at h
    · rename_i conn msg queue hconn hchannel
      split at h
      · cases h
        refine Or.inr (Or.inl ⟨c, msg, rfl, fun k => ?_⟩)
        unfold Shared.queue
        dsimp only
        split
        · rename_i hk
          subst hk
          simp [List.getElem?_set_self (List.getElem?_eq_some_iff.1 hchannel).1, hchannel]
        · rename_i hk
          rw [List.getElem?_set_ne (Ne.symm hk)]
      · cases h
    · cases h
  | accept link =>
    simp only [step] at h
    split at h
    · cases h
    · cases h
      refine Or.inl fun k => ?_
      unfold Shared.queue
      dsimp only
      rw [List.getElem?_append]
      split
      · rfl
      · rename_i hge
        rw [List.getElem?_eq_none (Nat.le_of_not_lt hge)]
        cases (k - s.channels.length) <;> rfl
  | hangUp c =>
    simp only [step] at h
    split at h
    · cases h
      exact Or.inl fun k => s.resume_queue _ _ _ _ k
    · cases h
  | dropReceiver c =>
    simp only [step] at h
    split at h
    · split at h
      · cases h
        exact Or.inl fun k => s.toShared.leaveLoop_queue c false k
      · cases h
    · cases h
  | datagram addr phs =>
    simp only [step] at h
    split at h
    · split at h <;> cases h <;> exact Or.inl fun _ => rfl
    · cases h
  | close c =>
    simp only [step] at h
    split at h
    · cases h
      exact Or.inl fun _ => rfl
    · cases h
  | store i ch =>
    obtain ⟨⟨store, events⟩, -, hpair⟩ := Option.map_eq_some_iff.1 h
    cases hpair
    exact Or.inl fun _ => rfl
  | tick d =>
    cases h
    exact Or.inl fun _ => rfl
  | evictTimer =>
    cases h
    exact Or.inl fun _ => rfl
  | setAlwaysUseRelay b =>
    cases h
    exact Or.inl fun _ => rfl

end Actions

end RemoteServer.Rendezvous
