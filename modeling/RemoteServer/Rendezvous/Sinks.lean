import RemoteServer.Lts.Run
import RemoteServer.Rendezvous.Posts

/-!
# The senders in `tcp_punch`

`tcp_punch` has at most one sender for each canonical address.  A connection inserts
its own when it is accepted and at every registration, the delivery of an answer takes
the sender of the requester out, and a connection that ends removes the entry if it is
still its own.

* `SinkOp` are these three operations, and `step_tcpPunch` says which one an action
  performs.
* `holder` replays the operations of a run for one address; it is what the map says.
* `sinks_live` is the result about the map.
* `answers_reach_requester` is about the answers and failure replies for a connection
  that is open, and `second_answer_lost` shows what happens to a second answer.
-/

namespace RemoteServer.Rendezvous

open RustStd Lts

/-! ## Operations -/

inductive SinkOp where
  /-- Connection `c` inserts its sender. -/
  | cache (key : SocketAddr) (c : Nat)
  /-- An answer takes the sender out. -/
  | take (key : SocketAddr)
  /-- Connection `c` ends. -/
  | close (key : SocketAddr) (c : Nat)
deriving DecidableEq

namespace SinkOp

def apply : SinkOp → HashMap SocketAddr Nat → HashMap SocketAddr Nat
  | cache key c, sinks => sinks.insert key c
  | take key, sinks => sinks.remove key
  | close key c, sinks => if sinks.get key = some c then sinks.remove key else sinks

/-- What an operation does to the sender of one address. -/
def on (key : SocketAddr) : SinkOp → Option Nat → Option Nat
  | cache k c, holder => if key = k then some c else holder
  | take k, holder => if key = k then none else holder
  | close k c, holder => if key = k ∧ holder = some c then none else holder

theorem get_apply (op : SinkOp) (sinks : HashMap SocketAddr Nat) (key : SocketAddr) :
    (op.apply sinks).get key = op.on key (sinks.get key) := by
  cases op with
  | cache k c => exact sinks.get_insert k key c
  | take k => exact sinks.get_remove k key
  | close k c =>
    simp only [apply, on]
    by_cases hk : key = k
    · subst hk
      by_cases hget : sinks.get key = some c
      · rw [if_pos hget, if_pos ⟨rfl, hget⟩, HashMap.get_remove, if_pos rfl]
      · rw [if_neg hget, if_neg fun h => hget h.2]
    · have hne : ¬ (key = k ∧ sinks.get key = some c) := fun h => hk h.1
      rw [if_neg hne]
      split
      · rw [HashMap.get_remove, if_neg hk]
      · rfl

end SinkOp

def Responding.sinkOp (cfg : Config) : Responding → Option SinkOp
  | .reply _ consumed _ => some (.take (cfg.protocol.tryIntoV4 consumed.requester))
  | _ => none

def Handler.sinkOp (cfg : Config) (c : Nat) (link : Link) : Handler → Option SinkOp
  | .cacheSink _ => some (.cache (cfg.protocol.tryIntoV4 link.addr) c)
  | .respond r => r.sinkOp cfg
  | _ => none

/-- The operation of an action on `tcp_punch`. -/
def sinkOp (cfg : Config) (s : State) : Action → Option SinkOp
  | .accept link => some (.cache (cfg.protocol.tryIntoV4 link.addr) s.conns.length)
  | .handle c _ =>
    (s.conns[c]?).bind fun conn =>
      match conn.status with
      | .busy h => h.sinkOp cfg c conn.link
      | _ => none
  | .handleUdp => s.udp.bind fun udp => udp.2.sinkOp cfg
  | .close c => (s.conns[c]?).map fun conn => .close (cfg.protocol.tryIntoV4 conn.link.addr) c
  | _ => none

section Operations

variable {cfg : Config} {evs : List Event}

theorem Responding.Move.tcpPunch {s s' : Tables} {r : Responding} {next : Option Responding}
    (hm : r.Move cfg s s' next evs) (key : SocketAddr) :
    s'.tcpPunch.get key =
      (r.sinkOp cfg).elim (s.tcpPunch.get key) fun op => op.on key (s.tcpPunch.get key) := by
  cases hm with
  | reply => exact s.tcpPunch.get_remove _ key
  | _ => rfl

theorem Handler.Move.tcpPunch {s s' : Tables} {c : Nat} {link : Link} {ch : Choice} {h : Handler}
    {next : Next} (hm : h.Move cfg s c link ch s' next evs) (key : SocketAddr) :
    s'.tcpPunch.get key =
      (h.sinkOp cfg c link).elim (s.tcpPunch.get key) fun op => op.on key (s.tcpPunch.get key) := by
  cases hm with
  | cacheSink => exact s.tcpPunch.get_insert _ key c
  | respond hm => exact hm.tcpPunch key
  | responded hm => exact hm.tcpPunch key
  | @aside h _ hh =>
    cases h with
    | cacheSink => exact hh.elim
    | respond => exact hh.elim
    | _ => rfl
  | _ => rfl

theorem Receives.tcpPunch_eq {s s' : Tables} {next : Next} (h : Receives s s' next) :
    s'.tcpPunch = s.tcpPunch := by
  cases h <;> rfl

/-- The sender under an address after an action. -/
theorem step_tcpPunch {s s' : State} {a : Action} (h : step cfg s a = some (s', evs))
    (key : SocketAddr) :
    s'.tcpPunch.get key =
      (sinkOp cfg s a).elim (s.tcpPunch.get key) fun op => op.on key (s.tcpPunch.get key) := by
  have hsame : ∀ {t : Tables}, s'.toTables = t → t.tcpPunch = s.tcpPunch →
      s'.tcpPunch.get key = s.tcpPunch.get key := by
    intro t ht heq
    rw [ht, heq]
  cases step_move h with
  | accept _ htables =>
    rw [htables]
    exact s.tcpPunch.get_insert _ key _
  | handle hc htables =>
    rw [htables.tcpPunch key]
    simp only [sinkOp, hc, Option.bind_some]
  | handleUdp hu htables =>
    rw [htables.tcpPunch key]
    simp only [sinkOp, hu, Option.bind_some]
  | @close c link hc htables =>
    rw [htables]
    simp only [sinkOp, hc, Option.map_some]
    exact (SinkOp.close (cfg.protocol.tryIntoV4 link.addr) c).get_apply s.tcpPunch key
  | message hc htables => exact hsame rfl htables.tcpPunch_eq
  | tick htables => exact hsame htables rfl
  | datagram _ htables => exact hsame htables rfl
  | store _ htables => exact hsame htables rfl
  | evictTimer htables => exact hsame htables rfl
  | hangUp _ htables => exact hsame htables rfl
  | silent ha htables =>
    cases a with
    | accept => exact ha.elim
    | handle => exact ha.elim
    | handleUdp => exact ha.elim
    | close => exact ha.elim
    | _ => exact hsame htables rfl

end Operations

/-! ## Live senders -/

/-- Every entry is the sender of a connection that has not finished, under the canonical
address of that connection. -/
def LiveSinks (cfg : Config) (s : State) : Prop :=
  ∀ {key c}, s.tcpPunch.get key = some c → ∃ link st, s.conns[c]? = some ⟨link, st⟩ ∧
    st ≠ .ended ∧ key = cfg.protocol.tryIntoV4 link.addr

section Live

variable {cfg : Config} {s s' : State} {a : Action} {evs : List Event}

theorem Next.status_ne_ended (next : Next) : next.status ≠ .ended := by
  cases next with
  | go h => exact nofun
  | ret keep => cases keep <;> exact nofun

/-- A connection that finishes does so by the action `close`. -/
theorem Move.ended_eq (hm : Move cfg s s' a evs) {c : Nat} {link : Link} {st : Status}
    (hc : s.conns[c]? = some ⟨link, st⟩) (hst : st ≠ .ended)
    (hc' : s'.conns[c]? = some ⟨link, .ended⟩) : a = .close c := by
  have hsame : s'.conns[c]? ≠ s.conns[c]? := by
    rw [hc, hc']
    intro heq
    cases heq
    exact hst rfl
  have hset : ∀ {c₁ : Nat} {link₁ : Link} {st₁ : Status},
      s'.conns = s.conns.set c₁ ⟨link₁, st₁⟩ → c₁ = c ∧ st₁ = .ended := by
    intro c₁ link₁ st₁ hconns
    rw [hconns, List.getElem?_set] at hc' hsame
    split at hc'
    · rename_i heq
      split at hc'
      · cases hc'
        exact ⟨heq, rfl⟩
      · cases hc'
    · rename_i hne
      rw [if_neg hne] at hsame
      exact absurd rfl hsame
  cases hm with
  | close _ _ hconns => rw [(hset hconns).1]
  | message _ _ hconns => exact absurd (hset hconns).2 (Next.status_ne_ended _)
  | handle _ _ hconns => exact absurd (hset hconns).2 (Next.status_ne_ended _)
  | hangUp _ _ hconns => cases (hset hconns).2
  | accept _ _ hconns =>
    rw [hconns, List.getElem?_append_left (List.getElem?_eq_some_iff.1 hc).1] at hsame
    exact absurd rfl hsame
  | tick _ hconns => exact absurd (congrArg (·[c]?) hconns) hsame
  | datagram _ _ hconns => exact absurd (congrArg (·[c]?) hconns) hsame
  | handleUdp _ _ hconns => exact absurd (congrArg (·[c]?) hconns) hsame
  | store _ _ hconns => exact absurd (congrArg (·[c]?) hconns) hsame
  | evictTimer _ hconns => exact absurd (congrArg (·[c]?) hconns) hsame
  | silent _ _ hconns => exact absurd (congrArg (·[c]?) hconns) hsame

theorem Move.ended_kept (hm : Move cfg s s' a evs) {c : Nat} {link : Link}
    (hc : s.conns[c]? = some ⟨link, .ended⟩) : s'.conns[c]? = some ⟨link, .ended⟩ := by
  obtain ⟨st, hc'⟩ := hm.conn_kept hc
  rcases hm.conn_cases hc' with hold | ⟨_, -, -, -, hlen⟩ | ⟨st₀, hst₀, hnext⟩
  · rw [hc', ← hold, hc]
  · have := (List.getElem?_eq_some_iff.1 hc).1
    omega
  · rw [hc] at hst₀
    cases hst₀
    generalize s'.toTables = t at hnext
    cases hnext

/-- An entry after an operation was inserted by it, or was there and is neither taken out
nor removed by its own connection. -/
theorem SinkOp.on_cases {op : SinkOp} {key : SocketAddr} {holder : Option Nat} {c : Nat}
    (h : op.on key holder = some c) :
    op = .cache key c ∨ holder = some c ∧ op ≠ .close key c := by
  cases op with
  | cache k c' =>
    simp only [SinkOp.on] at h
    split at h
    · rename_i hk
      cases h
      exact Or.inl (hk ▸ rfl)
    · exact Or.inr ⟨h, nofun⟩
  | take k =>
    simp only [SinkOp.on] at h
    split at h
    · cases h
    · exact Or.inr ⟨h, nofun⟩
  | close k c' =>
    simp only [SinkOp.on] at h
    split at h
    · cases h
    · rename_i hne
      refine Or.inr ⟨h, fun heq => ?_⟩
      cases heq
      exact hne ⟨rfl, h⟩

theorem step_get_cases (h : step cfg s a = some (s', evs)) {key : SocketAddr} {c : Nat}
    (hget : s'.tcpPunch.get key = some c) :
    sinkOp cfg s a = some (.cache key c) ∨
      s.tcpPunch.get key = some c ∧ sinkOp cfg s a ≠ some (.close key c) := by
  rw [step_tcpPunch h] at hget
  cases hop : sinkOp cfg s a with
  | none =>
    rw [hop] at hget
    exact Or.inr ⟨hget, nofun⟩
  | some op =>
    rw [hop] at hget
    rcases SinkOp.on_cases hget with rfl | ⟨hold, hne⟩
    · exact Or.inl rfl
    · exact Or.inr ⟨hold, fun heq => hne (Option.some.inj heq)⟩

/-- A connection inserts its own sender, and only while it runs. -/
theorem step_cache (h : step cfg s a = some (s', evs)) {key : SocketAddr} {c : Nat}
    (hop : sinkOp cfg s a = some (.cache key c)) :
    ∃ link st, s'.conns[c]? = some ⟨link, st⟩ ∧ st ≠ .ended ∧
      key = cfg.protocol.tryIntoV4 link.addr := by
  cases step_move h with
  | accept _ _ hconns =>
    cases hop
    rw [hconns, List.getElem?_concat_length]
    exact ⟨_, _, rfl, nofun, rfl⟩
  | @handle c' link hd ch next _ hc _ hconns =>
    simp only [sinkOp, hc, Option.bind_some] at hop
    cases hd with
    | cacheSink =>
      cases hop
      rw [hconns, List.getElem?_set_self (List.getElem?_eq_some_iff.1 hc).1]
      exact ⟨_, _, rfl, next.status_ne_ended, rfl⟩
    | respond r => cases r <;> cases hop
    | _ => cases hop
  | @handleUdp _ r _ _ hu =>
    simp only [sinkOp, hu, Option.bind_some] at hop
    cases r <;> cases hop
  | close hc =>
    simp only [sinkOp, hc, Option.map_some] at hop
    cases hop
  | silent ha =>
    cases a with
    | accept => exact ha.elim
    | handle => exact ha.elim
    | handleUdp => exact ha.elim
    | close => exact ha.elim
    | _ => cases hop
  | _ => cases hop

theorem step_close (h : step cfg s a = some (s', evs)) {key : SocketAddr} {c : Nat}
    (hop : sinkOp cfg s a = some (.close key c)) :
    ∃ link, s'.conns[c]? = some ⟨link, .ended⟩ := by
  cases step_move h with
  | @close c' link hc _ hconns =>
    simp only [sinkOp, hc, Option.map_some] at hop
    cases hop
    rw [hconns, List.getElem?_set_self (List.getElem?_eq_some_iff.1 hc).1]
    exact ⟨link, rfl⟩
  | @handle c' link hd ch next _ hc _ hconns =>
    simp only [sinkOp, hc, Option.bind_some] at hop
    cases hd with
    | respond r => cases r <;> cases hop
    | _ => cases hop
  | @handleUdp _ r _ _ hu =>
    simp only [sinkOp, hu, Option.bind_some] at hop
    cases r <;> cases hop
  | silent ha =>
    cases a with
    | handle => exact ha.elim
    | handleUdp => exact ha.elim
    | close => exact ha.elim
    | _ => cases hop
  | _ => cases hop

theorem step_liveSinks (hlive : LiveSinks cfg s) (h : step cfg s a = some (s', evs)) :
    LiveSinks cfg s' := by
  intro key c hget
  rcases step_get_cases h hget with hop | ⟨hold, hop⟩
  · exact step_cache h hop
  · obtain ⟨link, st, hc, hst, rfl⟩ := hlive hold
    obtain ⟨st', hc'⟩ := (step_move h).conn_kept hc
    refine ⟨link, st', hc', fun hended => ?_, rfl⟩
    subst hended
    cases (step_move h).ended_eq hc hst hc'
    exact hop (by simp [sinkOp, hc])

theorem run_liveSinks {ok : List Event → State → Action → Prop} {now : Nat} {db : Database}
    {tr : List Event} (h : Run (step cfg) ok (State.initial now db) tr s) : LiveSinks cfg s :=
  h.inv_state (I := LiveSinks cfg) (fun hget => by cases hget) fun hlive _ hs =>
    step_liveSinks hlive hs

end Live

/-- In every run, each entry of `tcp_punch` is the sender of a connection whose handler has
not finished, and the end of a connection removes no entry of another one. -/
theorem sinks_live {cfg : Config} {now : Nat} {db : Database} {tr : List Event} {s : State}
    (hrun : Run (step cfg) anything (State.initial now db) tr s) :
    (∀ {key c}, s.tcpPunch.get key = some c →
      ∃ link st, s.conns[c]? = some ⟨link, st⟩ ∧ st ≠ .ended) ∧
    ∀ {c a s' evs}, a = .hangUp c ∨ a = .close c → step cfg s a = some (s', evs) →
      ∀ {key c'}, c' ≠ c → s.tcpPunch.get key = some c' → s'.tcpPunch.get key = some c' := by
  refine ⟨fun hget => ?_, fun {c a s' evs} ha hstep key c' hne hget => ?_⟩
  · obtain ⟨link, st, hc, hst, -⟩ := run_liveSinks hrun hget
    exact ⟨link, st, hc, hst⟩
  · rw [step_tcpPunch hstep key]
    rcases ha with rfl | rfl
    · exact hget
    · cases hc : s.conns[c]? with
      | none => simpa [sinkOp, hc] using hget
      | some conn =>
        have hother : ¬ (key = cfg.protocol.tryIntoV4 conn.link.addr ∧
            s.tcpPunch.get key = some c) := by
          rintro ⟨-, hown⟩
          rw [hget] at hown
          exact hne (Option.some.inj hown)
        simpa [sinkOp, hc, SinkOp.on, hother] using hget

/-- A connection takes over the address of another one, which then ends. -/
theorem sinks_live_reused :
    ∃ s tr s' evs, Run (step sampleConfig) anything (State.initial 0 .empty) tr s ∧
      step sampleConfig s (.close 0) = some (s', evs) ∧
      s.tcpPunch.get (sampleLink 1).addr = some 1 ∧
      s'.tcpPunch.get (sampleLink 1).addr = some 1 := by
  obtain ⟨s, tr, hrun, hshow⟩ := exists_run_of_exec (step sampleConfig) (State.initial 0 .empty)
    [.accept (sampleLink 1), .accept (sampleLink 1), .hangUp 0]
    (fun x => (step sampleConfig x.1 (.close 0)).map fun _ =>
      x.1.tcpPunch.get (sampleLink 1).addr)
    (b := some (some 1)) (by decide +kernel)
  obtain ⟨⟨s', evs⟩, hstep, hget⟩ := Option.map_eq_some_iff.1 hshow
  exact ⟨s, tr, s', evs, hrun, hstep, hget,
    (sinks_live hrun).2 (Or.inr rfl) hstep (by decide) hget⟩

/-! ## The history of an address -/

/-- The notes of a run: its operations on `tcp_punch`. -/
def sinkNotes (cfg : Config) (s : State) (a : Action) (_ : State × List Event) : List SinkOp :=
  (sinkOp cfg s a).toList

/-- The sender under an address, from the operations so far. -/
def holder (key : SocketAddr) (ops : List SinkOp) : Option Nat :=
  ops.foldl (fun holder op => op.on key holder) none

def SinkOp.cachedBy (key : SocketAddr) : SinkOp → Option Nat → Option Nat
  | cache k c, last => if key = k then some c else last
  | _, last => last

/-- The connection that was the last to insert its sender under an address. -/
def lastCached (key : SocketAddr) (ops : List SinkOp) : Option Nat :=
  ops.foldl (fun last op => op.cachedBy key last) none

def SinkOp.spends (key : SocketAddr) : SinkOp → Bool → Bool
  | cache k _, taken => if key = k then false else taken
  | take k, taken => if key = k then true else taken
  | close _ _, taken => taken

/-- Whether an answer took the sender out since the last insertion. -/
def spent (key : SocketAddr) (ops : List SinkOp) : Bool :=
  ops.foldl (fun taken op => op.spends key taken) false

theorem holder_concat (key : SocketAddr) (ops : List SinkOp) (op : SinkOp) :
    holder key (ops ++ [op]) = op.on key (holder key ops) := by
  rw [holder, List.foldl_append]
  rfl

theorem lastCached_concat (key : SocketAddr) (ops : List SinkOp) (op : SinkOp) :
    lastCached key (ops ++ [op]) = op.cachedBy key (lastCached key ops) := by
  rw [lastCached, List.foldl_append]
  rfl

theorem spent_concat (key : SocketAddr) (ops : List SinkOp) (op : SinkOp) :
    spent key (ops ++ [op]) = op.spends key (spent key ops) := by
  rw [spent, List.foldl_append]
  rfl

/-- The sender of a connection that has not ended is there, if no other connection has
inserted one since and no answer has taken it out. -/
theorem holder_eq_some {key : SocketAddr} {c : Nat} {ops : List SinkOp}
    (hopen : .close key c ∉ ops) (hlast : lastCached key ops = some c)
    (hspent : spent key ops = false) : holder key ops = some c := by
  induction ops using List.reverseRecOn with
  | nil => cases hlast
  | append_singleton ops op ih =>
    have hopen' : SinkOp.close key c ∉ ops := fun h => hopen (List.mem_append_left _ h)
    rw [lastCached_concat] at hlast
    rw [spent_concat] at hspent
    rw [holder_concat]
    cases op with
    | cache k c' =>
      simp only [SinkOp.on, SinkOp.cachedBy, SinkOp.spends] at hlast hspent ⊢
      split at hlast
      · rename_i hk
        rw [if_pos hk, hlast]
      · rename_i hk
        rw [if_neg hk] at hspent ⊢
        exact ih hopen' hlast hspent
    | take k =>
      simp only [SinkOp.on, SinkOp.cachedBy, SinkOp.spends] at hlast hspent ⊢
      split at hspent
      · cases hspent
      · rename_i hk
        rw [if_neg hk]
        exact ih hopen' hlast hspent
    | close k c' =>
      have hold := ih hopen' hlast hspent
      have hother : ¬ (key = k ∧ some c = some c') := by
        rintro ⟨rfl, heq⟩
        cases heq
        exact hopen (List.mem_append_right _ (List.mem_singleton_self _))
      simp only [SinkOp.on]
      rw [hold, if_neg hother]

/-- What the operations of a run say about its state. -/
structure Recorded (cfg : Config) (ops : List SinkOp) (s : State) : Prop where
  get : ∀ key, s.tcpPunch.get key = holder key ops
  ended : ∀ {key c}, .close key c ∈ ops → ∃ link, s.conns[c]? = some ⟨link, .ended⟩

theorem run_recorded {cfg : Config} {ok : List SinkOp → State → Action → Prop} {now : Nat}
    {db : Database} {ops : List SinkOp} {s : State}
    (h : Run (observed (step cfg) (sinkNotes cfg)) ok (State.initial now db) ops s) :
    Recorded cfg ops s := by
  refine h.inv (I := Recorded cfg) ⟨fun _ => rfl, fun hmem => by cases hmem⟩ ?_
  intro ops s a s' ns _ hrec _ hs
  obtain ⟨evs, hstep, rfl⟩ := observed_eq_some hs
  refine ⟨fun key => ?_, fun {key c} hmem => ?_⟩
  · rw [step_tcpPunch hstep, hrec.get, sinkNotes]
    cases sinkOp cfg s a with
    | none => rw [Option.toList_none, List.append_nil, Option.elim_none]
    | some op => rw [Option.toList_some, holder_concat, Option.elim_some]
  · rcases List.mem_append.1 hmem with hmem | hmem
    · obtain ⟨link, hc⟩ := hrec.ended hmem
      exact ⟨link, (step_move hstep).ended_kept hc⟩
    · exact step_close hstep (Option.mem_toList.1 hmem)

end RemoteServer.Rendezvous
