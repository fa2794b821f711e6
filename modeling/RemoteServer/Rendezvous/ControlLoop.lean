import RemoteServer.Rendezvous.Machine

/-!
# The loops of a control connection

`handle_listener_inner` has two loops, one for TCP and one for WebSocket connections.  The
TCP loop selects between the channel of the connection and its socket, with a timeout
that is made anew in every turn; the WebSocket loop only reads, and another task empties
the channel.

The inputs of a loop are the payloads that arrive, decrypted, the messages that are
written, and the time that passes.  The parser and the handler of the messages are
parameters (`Callee`), and so is what other tasks do to the state of the handler.

* `trace` is what a loop does with each input: the payload that it gives to the handler,
  and whether the connection ends.
* `loops_alike` says that both loops do the same, if no payload is empty and the server
  has been silent as well when the client was silent for 30 seconds (`Alike`).  Such a
  client is cut off.
* `loops_differ` shows an empty payload, and a silent client to which a keep-alive is
  sent.
-/

namespace RemoteServer.Rendezvous.ControlLoop

open RustStd

/-- What the loops call. -/
structure Callee (σ M : Type) where
  /-- `RendezvousMessage::parse_from_bytes`. -/
  parse : Bytes → Option M
  /-- `handle_tcp_msg`. -/
  handle : σ → M → σ × Bool

/-- `handle_tcp`: the payload if it was handled, the state after it and the result. -/
def Callee.handleTcp {σ M : Type} (callee : Callee σ M) (state : σ) (payload : Bytes) :
    Option Bytes × σ × Bool :=
  match callee.parse payload with
  | some msg =>
    let (state, keep) := callee.handle state msg
    (some payload, state, keep)
  | none => (none, state, false)

inductive Input (σ : Type) where
  | inbound (payload : Bytes)
  /-- A message of the channel is written. -/
  | outbound (msg : ServerMessage)
  | advance (millis : Nat)
  /-- Other tasks have changed the state of the handler. -/
  | elsewhere (state : σ)

/-- The milliseconds of the read timeout. -/
def readTimeout : Nat := 30000

/-- A loop before its next turn. -/
structure Loop (σ : Type) where
  state : σ
  now : Nat
  /-- When the timeout of the pending read is over. -/
  deadline : Nat

namespace Loop

variable {σ : Type}

/-- `timeout(30_000, …)` is called again. -/
def arm (l : Loop σ) : Loop σ := { l with deadline := l.now + readTimeout }

/-- The loop at its start. -/
def start (state : σ) (now : Nat) : Loop σ := ⟨state, now, now + readTimeout⟩

def advance (l : Loop σ) (millis : Nat) : Option (Loop σ) :=
  if l.deadline ≤ l.now + millis then none else some { l with now := l.now + millis }

end Loop

section Loops

variable {σ M : Type} (callee : Callee σ M)

/-- The TCP loop. -/
def tcpStep (l : Loop σ) : Input σ → Option Bytes × Option (Loop σ)
  | .inbound payload =>
    match callee.parse payload with
    | some msg =>
      match callee.handle l.state msg with
      | (state, true) => (some payload, some ({ l with state := state } : Loop σ).arm)
      | (_, false) => (some payload, none)
    | none => (none, none)
  | .outbound _ => (none, some l.arm)
  | .advance millis => (none, l.advance millis)
  | .elsewhere state => (none, some { l with state := state })

/-- The WebSocket loop. -/
def wsStep (l : Loop σ) : Input σ → Option Bytes × Option (Loop σ)
  | .inbound payload =>
    if payload.isEmpty then (none, some l.arm)
    else
      match callee.handleTcp l.state payload with
      | (handed, state, true) => (handed, some ({ l with state := state } : Loop σ).arm)
      | (handed, _, false) => (handed, none)
  | .outbound _ => (none, some l)
  | .advance millis => (none, l.advance millis)
  | .elsewhere state => (none, some { l with state := state })

end Loops

section Trace

variable {σ : Type}

/-- For each input until the connection ends, the payload that is given to the handler and
whether the connection ends. -/
def trace (step : Loop σ → Input σ → Option Bytes × Option (Loop σ)) :
    Loop σ → List (Input σ) → List (Option Bytes × Bool)
  | _, [] => []
  | l, input :: rest =>
    match step l input with
    | (handed, none) => [(handed, true)]
    | (handed, some l') => (handed, false) :: trace step l' rest

/-- The time that passes. -/
def elapsed : List (Input σ) → Nat
  | [] => 0
  | .advance millis :: rest => millis + elapsed rest
  | _ :: rest => elapsed rest

/-- The condition, when the client has been silent for `silent` milliseconds and both sides
for `both`: no payload is empty, and when the silence of the client reaches the timeout, so
does that of both. -/
def Alike : Nat → Nat → List (Input σ) → Prop
  | _, _, [] => True
  | _, _, .inbound payload :: rest => payload ≠ [] ∧ Alike 0 0 rest
  | silent, _, .outbound _ :: rest => Alike silent 0 rest
  | silent, both, .advance millis :: rest =>
    if readTimeout ≤ silent + millis then readTimeout ≤ both + millis
    else Alike (silent + millis) (both + millis) rest
  | silent, both, .elsewhere _ :: rest => Alike silent both rest

end Trace

/-! ## The two loops -/

section Alike

variable {σ M : Type} {callee : Callee σ M} {tcp ws : Loop σ} {inputs : List (Input σ)}

/-- The client has been silent for `silent` milliseconds and both sides for `both`, and the
loops wait for the rest of the timeout. -/
structure InStep (silent both : Nat) (tcp ws : Loop σ) : Prop where
  state : tcp.state = ws.state
  now : tcp.now = ws.now
  client : ws.deadline + silent = ws.now + readTimeout
  server : tcp.deadline + both = tcp.now + readTimeout
  both_le : both ≤ silent

theorem InStep.refl {l : Loop σ} (h : l.deadline = l.now + readTimeout) : InStep 0 0 l l :=
  ⟨rfl, rfl, h, h, Nat.le_refl 0⟩

/-- The loops handle a payload that is not empty in the same way. -/
theorem inbound_alike {payload : Bytes} (hpayload : payload ≠ []) (hstate : tcp.state = ws.state)
    (hnow : tcp.now = ws.now) :
    tcpStep callee tcp (.inbound payload) = wsStep callee ws (.inbound payload) := by
  have hne : payload.isEmpty = false := by
    rw [Bool.eq_false_iff, Ne, List.isEmpty_iff]
    exact hpayload
  simp only [tcpStep, wsStep, hne, Callee.handleTcp, hstate, Loop.arm, hnow]
  cases callee.parse payload with
  | none => rfl
  | some msg =>
    rcases hresult : callee.handle ws.state msg with ⟨state, _ | _⟩ <;> simp [hresult]

/-- A loop that goes on after a payload waits for the whole timeout. -/
theorem inbound_armed {payload : Bytes} {handed : Option Bytes} {l : Loop σ}
    (h : wsStep callee ws (.inbound payload) = (handed, some l)) :
    l.deadline = l.now + readTimeout := by
  simp only [wsStep] at h
  split at h
  · cases h
    rfl
  · split at h
    · cases h
      rfl
    · cases h

theorem trace_alike {silent both : Nat} (hloops : InStep silent both tcp ws)
    (h : Alike silent both inputs) :
    trace (tcpStep callee) tcp inputs = trace (wsStep callee) ws inputs := by
  induction inputs generalizing silent both tcp ws with
  | nil => rfl
  | cons input rest ih =>
    cases input with
    | inbound payload =>
      obtain ⟨hpayload, hrest⟩ := h
      rw [trace, trace, inbound_alike hpayload hloops.state hloops.now]
      rcases hstep : wsStep callee ws (.inbound payload) with ⟨handed, _ | l⟩
      · rfl
      · dsimp only
        rw [ih (.refl (inbound_armed hstep)) hrest]
    | outbound msg =>
      have harmed : InStep silent 0 tcp.arm ws :=
        ⟨hloops.state, hloops.now, hloops.client, rfl, Nat.zero_le _⟩
      exact congrArg _ (ih harmed h)
    | advance millis =>
      have hclient := hloops.client
      have hserver := hloops.server
      have hboth := hloops.both_le
      have hnow := hloops.now
      simp only [Alike] at h
      simp only [trace, tcpStep, wsStep, Loop.advance]
      by_cases hsilent : readTimeout ≤ silent + millis
      · rw [if_pos hsilent] at h
        rw [if_pos (by omega), if_pos (by omega)]
      · rw [if_neg hsilent] at h
        rw [if_neg (by omega), if_neg (by omega)]
        have hlater : InStep (silent + millis) (both + millis) { tcp with now := tcp.now + millis }
            { ws with now := ws.now + millis } :=
          ⟨hloops.state, congrArg (· + millis) hnow, by dsimp only; omega, by dsimp only; omega,
            by omega⟩
        exact congrArg _ (ih hlater h)
    | elsewhere state =>
      have hstate : InStep silent both { tcp with state := state } { ws with state := state } :=
        ⟨rfl, hloops.now, hloops.client, hloops.server, hloops.both_le⟩
      exact congrArg _ (ih hstate h)

theorem Alike.left {silent both : Nat} {rest : List (Input σ)}
    (h : Alike silent both (inputs ++ rest)) : Alike silent both inputs := by
  induction inputs generalizing silent both with
  | nil => trivial
  | cons input inputs ih =>
    cases input with
    | inbound payload => exact ⟨h.1, ih h.2⟩
    | outbound msg => exact @ih silent 0 h
    | advance millis =>
      simp only [List.cons_append, Alike] at h ⊢
      split at h
      · rename_i hsilent
        rw [if_pos hsilent]
        exact h
      · rename_i hsilent
        rw [if_neg hsilent]
        exact ih h
    | elsewhere state => exact @ih silent both h

end Alike

/-! ## A silent client -/

section Silence

variable {σ M : Type} {callee : Callee σ M} {l : Loop σ} {inputs : List (Input σ)}

/-- A loop that waits for at most the timeout. -/
structure Loop.Waiting (l : Loop σ) : Prop where
  pending : l.now < l.deadline
  bounded : l.deadline ≤ l.now + readTimeout

theorem Loop.arm_waiting (l : Loop σ) : l.arm.Waiting :=
  ⟨Nat.lt_add_of_pos_right (by decide), Nat.le_refl _⟩

theorem wsStep_waiting (h : l.Waiting) {input : Input σ} {handed : Option Bytes} {l' : Loop σ}
    (hstep : wsStep callee l input = (handed, some l')) : l'.Waiting := by
  cases input with
  | inbound payload =>
    simp only [wsStep] at hstep
    split at hstep
    · cases hstep
      exact l.arm_waiting
    · split at hstep
      · cases hstep
        exact Loop.arm_waiting _
      · cases hstep
  | outbound msg =>
    cases hstep
    exact h
  | advance millis =>
    have hbounded := h.bounded
    simp only [wsStep, Loop.advance] at hstep
    split at hstep
    · cases hstep
    · rename_i hlt
      cases hstep
      exact ⟨Nat.lt_of_not_le hlt, by dsimp only; omega⟩
  | elsewhere state =>
    cases hstep
    exact ⟨h.pending, h.bounded⟩

/-- The WebSocket loop ends when nothing arrives until its deadline, whatever is sent. -/
theorem ws_closes (hpending : l.now < l.deadline) (hin : ∀ payload, .inbound payload ∉ inputs)
    (h : l.deadline ≤ l.now + elapsed inputs) :
    ∃ handed, (handed, true) ∈ trace (wsStep callee) l inputs := by
  induction inputs generalizing l with
  | nil => exact absurd h (by simp only [elapsed]; omega)
  | cons input rest ih =>
    have hrest : ∀ payload, .inbound payload ∉ rest :=
      fun payload hmem => hin payload (List.mem_cons_of_mem _ hmem)
    cases input with
    | inbound payload => exact absurd List.mem_cons_self (hin payload)
    | outbound msg =>
      obtain ⟨handed, hmem⟩ := ih hpending hrest h
      exact ⟨handed, List.mem_cons_of_mem _ hmem⟩
    | advance millis =>
      simp only [elapsed] at h
      simp only [trace, wsStep, Loop.advance]
      by_cases hover : l.deadline ≤ l.now + millis
      · rw [if_pos hover]
        exact ⟨none, List.mem_singleton_self _⟩
      · rw [if_neg hover]
        obtain ⟨handed, hmem⟩ := ih (l := { l with now := l.now + millis })
          (Nat.lt_of_not_le hover) hrest (by dsimp only; omega)
        exact ⟨handed, List.mem_cons_of_mem _ hmem⟩
    | elsewhere state =>
      obtain ⟨handed, hmem⟩ := ih (l := { l with state := state }) hpending hrest h
      exact ⟨handed, List.mem_cons_of_mem _ hmem⟩

/-- The same after any inputs. -/
theorem ws_closes_after (hl : l.Waiting) {pre : List (Input σ)}
    (hin : ∀ payload, .inbound payload ∉ inputs) (h : readTimeout ≤ elapsed inputs) :
    ∃ handed, (handed, true) ∈ trace (wsStep callee) l (pre ++ inputs) := by
  induction pre generalizing l with
  | nil =>
    exact ws_closes hl.pending hin (Nat.le_trans hl.bounded (Nat.add_le_add_left h _))
  | cons input pre ih =>
    rw [List.cons_append, trace]
    rcases hstep : wsStep callee l input with ⟨handed, _ | l'⟩
    · exact ⟨handed, List.mem_singleton_self _⟩
    · obtain ⟨handed', hmem⟩ := ih (wsStep_waiting hl hstep)
      exact ⟨handed', List.mem_cons_of_mem _ hmem⟩

end Silence

/-! ## The result -/

/-- For every parser and handler and all inputs in which no payload is empty and the server
was silent for the last 30 seconds whenever the client was: both loops give the same
payloads to the handler and end the connection at the same input, and a connection from
which nothing arrives for 30 seconds is ended. -/
theorem loops_alike {σ M : Type} (callee : Callee σ M) (state : σ) (now : Nat)
    {inputs : List (Input σ)} (h : Alike 0 0 inputs) :
    trace (tcpStep callee) (.start state now) inputs =
      trace (wsStep callee) (.start state now) inputs ∧
    ∀ {pre mid post}, inputs = pre ++ mid ++ post → (∀ payload, .inbound payload ∉ mid) →
      readTimeout ≤ elapsed mid →
      ∃ handed, (handed, true) ∈ trace (tcpStep callee) (.start state now) (pre ++ mid) := by
  have hstart : InStep 0 0 (Loop.start state now) (Loop.start state now) := .refl rfl
  refine ⟨trace_alike hstart h, fun {pre mid post} heq hin helapsed => ?_⟩
  subst heq
  rw [trace_alike hstart h.left]
  exact ws_closes_after (Loop.arm_waiting ⟨state, now, 0⟩) hin helapsed

/-- A parser for which the empty payload is the message without content, and the handler of
such a message. -/
def sampleCallee : Callee Shared ClientMessage where
  parse := fun payload => if payload.isEmpty then some .other else some .keyExchange
  handle := fun s msg =>
    let (s', next) := receive sampleConfig s 0 (sampleLink 1) msg
    (s', decide (next ≠ .ret false))

def sampleStart : Loop Shared := .start (State.initial 0 .empty).toShared 0

/-- A payload arrives, a message is sent 10 seconds later, and then both are silent. -/
theorem loops_alike_silent :
    trace (tcpStep sampleCallee) sampleStart
      [.inbound [1], .advance 10000, .outbound .healthCheckResponse, .advance 30000] =
    trace (wsStep sampleCallee) sampleStart
      [.inbound [1], .advance 10000, .outbound .healthCheckResponse, .advance 30000] := by
  refine (loops_alike sampleCallee (State.initial 0 .empty).toShared 0 ?_).1
  simp [Alike, readTimeout]

/-- An empty payload ends a TCP connection and is ignored on a WebSocket one; and a silent
client stays connected over TCP for as long as keep-alives are sent to it. -/
theorem loops_differ :
    (trace (tcpStep sampleCallee) sampleStart [.inbound []] = [(some [], true)] ∧
      trace (wsStep sampleCallee) sampleStart [.inbound []] = [(none, false)]) ∧
    (trace (tcpStep sampleCallee) sampleStart
      [.advance 20000, .outbound .healthCheckResponse, .advance 20000] =
        [(none, false), (none, false), (none, false)] ∧
      trace (wsStep sampleCallee) sampleStart
        [.advance 20000, .outbound .healthCheckResponse, .advance 20000] =
        [(none, false), (none, false), (none, true)]) := by
  decide +kernel

end RemoteServer.Rendezvous.ControlLoop
