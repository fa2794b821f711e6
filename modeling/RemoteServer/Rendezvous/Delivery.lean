import RemoteServer.Rendezvous.Sinks

/-!
# The way back to the requester

An accepted answer is put on the channel of the connection that made the request, and
a request that cannot be served gets a failure reply.  The answers and the failure
replies of `PunchHoleRequest` look for the sender of the connection in `tcp_punch`; the
failure replies of `RequestRelay` have it at hand.

* `failureReply` is the failure reply that an action is about to send.
* `answers_reach_requester` says that all of them arrive at a connection that is open,
  as long as no answer is sent to it twice between two insertions of its sender
  (`Recached`).
* `second_answer_lost` shows the second of two answers.
-/

namespace RemoteServer.Rendezvous

open RustStd Lts

def relayFailure (reason : String) : ServerMessage := .relayResponse { refuseReason := reason }

/-- The failure reply that a handler sends in its next step. -/
def Handler.failureReply (cfg : Config) (s : Shared) (link : Link) (ch : Choice) :
    Handler → Option ServerMessage
  | .answer failure => some (punchHoleFailure failure)
  | .find (.relay _) j =>
    match (s.store.tasks[j]?).bind seen? with
    | some (.ok none) => some (relayFailure "Peer is offline")
    | some (.ok (some (false, _))) => some (relayFailure "Peer is offline")
    | _ => none
  | .reserve route =>
    match route.ask, (reservePendingRendezvous cfg.protocol s.pending link.addr route.ask.id
        route.kind route.relayServer ch.draws s.store.now).2 with
    | .relay _, .error _ => some (relayFailure "Rendezvous server is busy")
    | _, _ => none
  | .withdraw (.relay _) _ => some (relayFailure "Peer is offline")
  | _ => none

/-- The connection whose request fails in an action, with the failure reply. -/
def failureReply (cfg : Config) (s : State) : Action → Option (Nat × ServerMessage)
  | .handle c ch =>
    (s.conns[c]?).bind fun conn =>
      match conn.status with
      | .busy h => (h.failureReply cfg s.toShared conn.link ch).map fun msg => (c, msg)
      | _ => none
  | _ => none

def Responding.lookedUp (cfg : Config) : Responding → Option SocketAddr
  | .reply _ consumed _ => some (cfg.protocol.tryIntoV4 consumed.requester)
  | _ => none

/-- The address under which an action looks for the requester. -/
def lookedUp (cfg : Config) (s : State) : Action → Option SocketAddr
  | .handle c _ =>
    (s.conns[c]?).bind fun conn =>
      match conn.status with
      | .busy (.answer _) => some (cfg.protocol.tryIntoV4 conn.link.addr)
      | .busy (.respond r) => r.lookedUp cfg
      | _ => none
  | .handleUdp => s.udp.bind fun udp => udp.2.lookedUp cfg
  | _ => none

/-- The condition: the requester has inserted its sender since the last answer to it. -/
def Recached (cfg : Config) (ops : List SinkOp) (s : State) (a : Action) : Prop :=
  ∀ key ∈ lookedUp cfg s a, spent key ops = false

instance {cfg : Config} {ops : List SinkOp} {s : State} {a : Action} :
    Decidable (Recached cfg ops s a) :=
  inferInstanceAs (Decidable (∀ key ∈ lookedUp cfg s a, spent key ops = false))

/-! ## One step -/

section Step

variable {cfg : Config} {evs : List Event} {resp : Response} {addr : SocketAddr}
  {msg : ServerMessage} {target : Option Nat}

/-- How a reply ended: it was put on the channel of the sender that was found, or that
sender, if there is one, has no room. -/
def Sent (cfg : Config) (s s' : Shared) (addr : SocketAddr) (msg : ServerMessage)
    (target : Option Nat) : Prop :=
  (∃ t, target = some t ∧ s.tcpPunch.get (cfg.protocol.tryIntoV4 addr) = some t ∧
      s.Posted s' t msg) ∨
    ∀ {t}, s.tcpPunch.get (cfg.protocol.tryIntoV4 addr) = some t → ¬ s.HasRoom t

theorem stepResponding_replied {s s' : Shared} {from_ : SocketAddr} {isUdp : Bool}
    {r : Responding} {next : Option Responding}
    (h : stepResponding cfg s from_ isUdp r = some (s', next, evs))
    (he : Event.replied resp addr msg target ∈ evs) :
    r.lookedUp cfg = some (cfg.protocol.tryIntoV4 addr) ∧ next = none ∧
      Sent cfg s s' addr msg target := by
  cases r with
  | consume resp' =>
    simp only [stepResponding] at h
    split at h
    · cases h
      cases List.mem_singleton.1 he
    · cases h
      rcases List.mem_append.1 he with he | he
      · split at he
        · cases List.mem_singleton.1 he
        · cases he
      · cases List.mem_singleton.1 he
  | getPk resp' consumed j =>
    simp only [stepResponding] at h
    split at h
    · cases h
      cases he
    · cases h
  | reply resp' consumed pk =>
    simp only [stepResponding, Option.some.injEq, Prod.mk.injEq] at h
    obtain ⟨rfl, rfl, rfl⟩ := h
    rcases s.sendToTcp_cases cfg.protocol (resp'.reply cfg.protocol from_ isUdp consumed pk)
      consumed.requester with ⟨s', t, heq, hget, hposted⟩ | ⟨s', heq, -, hroom⟩
    · rw [heq] at he ⊢
      cases List.mem_singleton.1 he
      exact ⟨rfl, rfl, Or.inl ⟨t, rfl, hget, hposted⟩⟩
    · rw [heq] at he ⊢
      cases List.mem_singleton.1 he
      exact ⟨rfl, rfl, Or.inr hroom⟩

theorem step_replied {s s' : State} {a : Action} (h : step cfg s a = some (s', evs))
    (he : Event.replied resp addr msg target ∈ evs) :
    lookedUp cfg s a = some (cfg.protocol.tryIntoV4 addr) ∧
      Sent cfg s.toShared s'.toShared addr msg target := by
  cases step_move h with
  | handle hc htables =>
    obtain ⟨r, next', rfl, -⟩ := htables.responding he (by simp [Event.response?])
    simp only [step, hc, stepHandler] at h
    obtain ⟨out, hout, hpair⟩ := Option.map_eq_some_iff.1 h
    cases hpair
    simp only [lookedUp, hc, Option.bind_some]
    split at hout
    · rename_i hstep
      cases hout
      obtain ⟨-, hnext, -⟩ := stepResponding_replied hstep he
      cases hnext
    · rename_i hstep
      cases hout
      obtain ⟨hlook, -, ⟨t, ht, hget, hposted⟩ | hroom⟩ := stepResponding_replied hstep he
      · exact ⟨hlook, Or.inl ⟨t, ht, hget, hposted.resume ..⟩⟩
      · exact ⟨hlook, Or.inr hroom⟩
    · cases hout
  | handleUdp hu htables =>
    simp only [step, hu] at h
    obtain ⟨⟨shared, next', events⟩, hstep, hpair⟩ := Option.map_eq_some_iff.1 h
    cases hpair
    simp only [lookedUp, hu, Option.bind_some]
    obtain ⟨hlook, -, hsent⟩ := stepResponding_replied hstep he
    exact ⟨hlook, hsent⟩
  | store =>
    obtain ⟨e', -, heq⟩ := List.mem_map.1 he
    cases heq
  | _ => cases he

/-- The outcome of a failure reply on the handler's own channel. -/
theorem sendRelayFailure_posted {s s₁ : Shared} {c : Nat} (hroom : s.HasRoom c) (reason : String)
    (evs : List Event) (hs : s₁.channels = s.channels) :
    (sendRelayFailure s₁ c reason evs).next = .ret true ∧
      s.Posted (sendRelayFailure s₁ c reason evs).shared c (relayFailure reason) := by
  unfold sendRelayFailure
  dsimp only
  rcases s₁.sendToSink_cases c (.relayResponse { refuseReason := reason }) with
    ⟨s', heq, hposted⟩ | ⟨-, hfull⟩
  · rw [heq]
    exact ⟨rfl, hposted.congr hs rfl⟩
  · refine absurd ?_ hfull
    unfold Shared.HasRoom
    rw [hs]
    exact hroom

/-- A failure reply is put on the channel of the connection, and the handler returns
`true`. -/
theorem stepHandler_failureReply {s : Shared} {c : Nat} {link : Link} {ch : Choice} {h : Handler}
    {out : Outcome} (hstep : stepHandler cfg s c link ch h = some out)
    (hfail : h.failureReply cfg s link ch = some msg) (hroom : s.HasRoom c)
    (hget : (∃ failure, h = .answer failure) →
      s.tcpPunch.get (cfg.protocol.tryIntoV4 link.addr) = some c) :
    out.next = .ret true ∧ s.Posted out.shared c msg := by
  cases h with
  | answer failure =>
    cases hfail
    simp only [stepHandler, Shared.sendToTcpSync] at hstep
    obtain ⟨s', hsend⟩ := hroom.trySend (punchHoleFailure failure)
    rw [hget ⟨failure, rfl⟩, Option.bind_some, hsend, Option.map_some] at hstep
    cases hstep
    exact ⟨rfl, Shared.trySend_posted hsend⟩
  | find ask j =>
    cases ask with
    | punchHole ph => cases hfail
    | relay rf =>
      obtain ⟨result, hbind, hout⟩ := Option.map_eq_some_iff.1 hstep
      simp only [Handler.failureReply, hbind] at hfail
      split at hfail
      · rename_i heq
        cases heq
        cases hfail
        cases hout
        exact sendRelayFailure_posted hroom "Peer is offline" [] rfl
      · rename_i heq
        cases heq
        cases hfail
        cases hout
        exact sendRelayFailure_posted hroom "Peer is offline" [] rfl
      · cases hfail
  | reserve route =>
    cases hstep
    simp only [Handler.failureReply] at hfail
    split at hfail
    · rename_i hask herr
      cases hfail
      unfold stepReserve
      dsimp only
      split
      · rename_i hreserve
        rw [hreserve] at herr
        cases herr
      · rw [hask]
        exact sendRelayFailure_posted hroom "Rendezvous server is busy" _ (by rfl)
    · cases hfail
  | withdraw ask token =>
    cases ask with
    | punchHole ph => cases hfail
    | relay rf =>
      cases hfail
      cases hstep
      exact sendRelayFailure_posted hroom "Peer is offline" _ (by rfl)
  | _ => cases hfail

end Step

/-! ## The result -/

/-- In every run in which an answer or a failure reply is sent to a connection only when
no answer was sent to it since it was accepted or last registered: let `c` be a
connection that is open, that was the last one to insert a sender under its canonical
address, and whose channel has room.  An accepted answer whose requester has that
address is put on the channel of `c`, and so is the failure reply to a request of `c`,
which stays open then. -/
theorem answers_reach_requester {cfg : Config} {now : Nat} {db : Database} {ops : List SinkOp}
    {s : State}
    (hrun : Run (observed (step cfg) (sinkNotes cfg)) (Recached cfg) (State.initial now db) ops s)
    {a : Action} {s' : State} {evs : List Event} (hok : Recached cfg ops s a)
    (hstep : step cfg s a = some (s', evs)) {c : Nat} {link : Link} {st : Status}
    (hc : s.conns[c]? = some ⟨link, st⟩) (hopen : st ≠ .ended)
    (hlast : lastCached (cfg.protocol.tryIntoV4 link.addr) ops = some c) (hroom : s.HasRoom c) :
    (∀ {resp addr msg target}, .replied resp addr msg target ∈ evs →
      cfg.protocol.tryIntoV4 addr = cfg.protocol.tryIntoV4 link.addr →
      target = some c ∧ s'.queue c = s.queue c ++ [msg]) ∧
    ∀ {msg}, failureReply cfg s a = some (c, msg) →
      s'.queue c = s.queue c ++ [msg] ∧ s'.conns[c]? = some ⟨link, .idle⟩ := by
  have hrec := run_recorded hrun
  have hlive : .close (cfg.protocol.tryIntoV4 link.addr) c ∉ ops := by
    intro hmem
    obtain ⟨link', hc'⟩ := hrec.ended hmem
    rw [hc] at hc'
    cases hc'
    exact hopen rfl
  -- the sender is there whenever it is looked for
  have hget : lookedUp cfg s a = some (cfg.protocol.tryIntoV4 link.addr) →
      s.tcpPunch.get (cfg.protocol.tryIntoV4 link.addr) = some c := by
    intro hlook
    rw [hrec.get]
    exact holder_eq_some hlive hlast (hok _ hlook)
  refine ⟨fun {resp addr msg target} he haddr => ?_, fun {msg} hfail => ?_⟩
  · obtain ⟨hlook, ⟨t, rfl, hsender, hposted⟩ | hfull⟩ := step_replied hstep he
    · rw [haddr] at hlook hsender
      obtain rfl : t = c := Option.some.inj (hsender.symm.trans (hget hlook))
      exact ⟨rfl, by rw [hposted.queue, if_pos rfl]⟩
    · rw [haddr] at hlook hfull
      exact absurd hroom (hfull (hget hlook))
  · cases a with
    | handle c' ch =>
      obtain ⟨⟨link', st'⟩, hconn, hmatch⟩ := Option.bind_eq_some_iff.1 hfail
      cases st' with
      | busy h =>
        obtain ⟨msg', hfail', hpair⟩ := Option.map_eq_some_iff.1 hmatch
        cases hpair
        rw [hc] at hconn
        cases hconn
        simp only [step, hc] at hstep
        obtain ⟨out, hout, hpair⟩ := Option.map_eq_some_iff.1 hstep
        cases hpair
        obtain ⟨hnext, hposted⟩ := stepHandler_failureReply hout hfail' hroom <| by
          rintro ⟨failure, rfl⟩
          exact hget (by simp only [lookedUp, hc, Option.bind_some])
        refine ⟨?_, ?_⟩
        · rw [State.resume_queue, hposted.queue, if_pos rfl]
        · rw [State.resume_conn hc, hnext]
          rfl
      | _ => cases hmatch
    | _ => cases hfail

/-! ## Concrete runs -/

/-- Connection 1 requests a relay twice, and the first answer arrives over connection 2. -/
def twoRequests : List Action :=
  registered ++ [.accept (sampleLink 2), .accept (sampleLink 3), .accept (sampleLink 4)] ++
    relayRequested 1 2 "key" 7 ++ relayRequested 1 3 "key" 8 ++
    [.message 2 (.relayResponse (sampleAnswer "" 7))] ++ handles 2 2

/-- The reply to connection 1, for an answer that came from `addr`. -/
def sampleReply (byte : UInt8) (addr : SocketAddr) : ServerMessage :=
  (Response.relay (sampleAnswer "" byte)).reply .plain addr false
    ⟨(sampleLink 2).addr, "relay.example.com"⟩ []

theorem answers_reach_requester_first :
    ∃ s ops s' evs, Run (observed (step sampleConfig) (sinkNotes sampleConfig))
      (Recached sampleConfig) (State.initial 0 .empty) ops s ∧
      step sampleConfig s (.handle 2 {}) = some (s', evs) ∧
      .replied (.relay (sampleAnswer "" 7)) (sampleLink 2).addr
        (sampleReply 7 (sampleLink 3).addr) (some 1) ∈ evs ∧
      s'.queue 1 = s.queue 1 ++ [sampleReply 7 (sampleLink 3).addr] := by
  obtain ⟨s, ops, hrun, hshow⟩ := exists_run_of_exec_guarded
    (observed (step sampleConfig) (sinkNotes sampleConfig)) (Recached sampleConfig)
    (State.initial 0 .empty) twoRequests
    (fun x => (step sampleConfig x.1 (.handle 2 {})).map fun (y : State × List Event) =>
      decide (Event.replied (.relay (sampleAnswer "" 7)) (sampleLink 2).addr
          (sampleReply 7 (sampleLink 3).addr) (some 1) ∈ y.2 ∧
        Recached sampleConfig x.2 x.1 (.handle 2 {}) ∧
        x.1.conns[1]? = some (⟨sampleLink 2, .idle⟩ : Conn) ∧
        lastCached (sampleLink 2).addr x.2 = some 1 ∧ x.1.HasRoom 1))
    (b := some true) (by decide +kernel)
  obtain ⟨⟨s', evs⟩, hstep, hfacts⟩ := Option.map_eq_some_iff.1 hshow
  obtain ⟨he, hok, hc, hlast, hroom⟩ := of_decide_eq_true hfacts
  have hreach := (answers_reach_requester hrun hok hstep hc nofun hlast hroom).1 he rfl
  exact ⟨s, ops, s', evs, hrun, hstep, he, hreach.2⟩

/-- The second answer arrives over connection 3 and is lost, although connection 1 is
open, has room and is still the last one to have inserted its sender. -/
theorem second_answer_lost :
    ∃ s ops s' evs, Run (observed (step sampleConfig) (sinkNotes sampleConfig)) anything
      (State.initial 0 .empty) ops s ∧
      step sampleConfig s (.handle 3 {}) = some (s', evs) ∧
      .replied (.relay (sampleAnswer "" 8)) (sampleLink 2).addr
        (sampleReply 8 (sampleLink 4).addr) none ∈ evs ∧
      s.conns[1]? = some ⟨sampleLink 2, .idle⟩ ∧ lastCached (sampleLink 2).addr ops = some 1 ∧
      s.HasRoom 1 ∧ s'.queue 1 = s.queue 1 := by
  obtain ⟨s, ops, hrun, hshow⟩ := exists_run_of_exec
    (observed (step sampleConfig) (sinkNotes sampleConfig)) (State.initial 0 .empty)
    (twoRequests ++ handles 2 1 ++ .message 3 (.relayResponse (sampleAnswer "" 8)) :: handles 3 2)
    (fun x => (step sampleConfig x.1 (.handle 3 {})).map fun (y : State × List Event) =>
      decide (Event.replied (.relay (sampleAnswer "" 8)) (sampleLink 2).addr
          (sampleReply 8 (sampleLink 4).addr) none ∈ y.2 ∧
        x.1.conns[1]? = some (⟨sampleLink 2, .idle⟩ : Conn) ∧
        lastCached (sampleLink 2).addr x.2 = some 1 ∧ x.1.HasRoom 1 ∧
        y.1.queue 1 = x.1.queue 1))
    (b := some true) (by decide +kernel)
  obtain ⟨⟨s', evs⟩, hstep, hfacts⟩ := Option.map_eq_some_iff.1 hshow
  exact ⟨s, ops, s', evs, hrun, hstep, of_decide_eq_true hfacts⟩

end RemoteServer.Rendezvous
