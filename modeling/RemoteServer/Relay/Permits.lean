import RemoteServer.Relay.Pairing

/-!
# The permits of the relay

A task holds one permit of `connection_slots`, and there are `max_connections` of them.
`Permitted` counts them: those that are free and those of the tasks that have not ended.

The permit belongs to the task that has accepted a client.  A client that waits is taken over
by the task of its partner, and its own task ends after 30 seconds.  `open_le_max` bounds the
clients in runs in which no session lasts that long (`Outlives`), and `permits_overrun` is a
run with more clients than permits.
-/

namespace RemoteServer.Relay

open RustStd Lts Rendezvous

/-! ## The clients -/

namespace State

/-- The client waits in the table. -/
def isWaiting (s : State) (i : Nat) : Bool :=
  s.peers.entries.any fun entry => entry.2.stream == i

/-- The client is one of the two of a session. -/
def inSession (s : State) (i : Nat) : Bool :=
  (s.conns[i]?).any (fun conn => conn.stage.peer?.isSome) ||
    s.conns.any fun conn => conn.stage.peer? == some i

/-- The clients that the relay holds open. -/
def openCount (s : State) : Nat :=
  s.conns.zipIdx.countP fun conn => s.isWaiting conn.2 || s.inSession conn.2

/-- The tasks that have not ended. -/
def liveCount (s : State) : Nat := s.conns.countP fun conn => conn.stage.live

end State

/-- A task whose client was taken into a session does not end before the session. -/
def outlives (s : State) : Action → Bool
  | .expire i => s.conns.all fun conn => conn.stage.peer? != some i
  | _ => true

/-- The guard of the runs. -/
def Outlives (_ : List Event) (s : State) (a : Action) : Prop := outlives s a = true

instance (tr : List Event) (s : State) (a : Action) : Decidable (Outlives tr s a) :=
  inferInstanceAs (Decidable (outlives s a = true))

section Permits

variable {cfg : Config} {s s' : State} {a : Action} {evs tr : List Event}

/-! ## Counting the permits -/

/-- Every permit is free or belongs to a task that has not ended. -/
def Permitted (cfg : Config) (s : State) : Prop := s.slots + s.liveCount = cfg.maxConnections

/-- The move of one task changes the count by its permit. -/
private theorem liveCount_advance {i : Nat} {conn conn' : Conn} (hi : s.conns[i]? = some conn)
    (hconns : s'.conns = advance s.conns i conn' []) :
    s'.liveCount + conn.permits = s.liveCount + conn'.permits := by
  rw [State.liveCount, State.liveCount, hconns]
  exact countP_advance (fun conn => conn.stage.live) hi

theorem step_permitted (h : Permitted cfg s) (hs : step cfg s a = some (s', evs)) :
    Permitted cfg s' := by
  unfold Permitted at h ⊢
  have hlive : ∀ {conn : Conn} {stage : Stage}, conn.stage = stage → stage.live = true →
      conn.permits = 1 := by
    rintro conn stage rfl hlive
    exact if_pos hlive
  cases step_move hs with
  | still hconns _ _ hslots =>
    have hcount : s'.liveCount = s.liveCount := by rw [State.liveCount, State.liveCount, hconns]
    omega
  | spawn hnew hconns _ _ hslots =>
    have hcount : s'.liveCount = s.liveCount + 1 := by
      rw [State.liveCount, State.liveCount, hconns, List.countP_append, List.countP_singleton,
        if_pos hnew.early.live]
    omega
  | pass hi _ _ hconns _ _ hslots =>
    have hcount := liveCount_advance hi hconns
    omega
  | join hi hstage _ hconns _ _ hslots =>
    have hcount := liveCount_advance hi hconns
    rw [hlive hstage rfl, hlive rfl rfl] at hcount
    omega
  | wait hi hstage _ _ _ hconns _ _ hslots =>
    have hcount := liveCount_advance hi hconns
    rw [hlive hstage rfl, hlive rfl rfl] at hcount
    omega
  | @expire _ conn _ _ hi hstage hconns _ _ hslots =>
    have hcount := liveCount_advance hi hconns
    rw [hlive hstage rfl, show ({ conn with stage := .ended } : Conn).permits = 0 from rfl] at hcount
    omega

/-! ## The tasks of the clients -/

/-- The task of a client that was taken into a session has not ended. -/
def Attended (s : State) : Prop :=
  ∀ {i j : Nat}, s.Joins i j →
    ∃ conn uuid generation, s.conns[i]? = some conn ∧ conn.stage.Waits uuid generation

theorem step_attended (hp : Paired cfg s) (h : Attended s) (hok : Outlives tr s a)
    (hs : step cfg s a = some (s', evs)) : Attended s' := by
  have hmove := step_move hs
  intro i j hj
  obtain ⟨⟨conn, uuid, generation, hconn, hw⟩, hexpire⟩ :
      (∃ conn uuid generation, s.conns[i]? = some conn ∧ conn.stage.Waits uuid generation) ∧
        a ≠ .expire i := by
    rcases hmove.joins hj with hj | ⟨_, rf, pending, ha, _, _, hget, _, rfl⟩
    · refine ⟨h hj, ?_⟩
      rintro rfl
      obtain ⟨conn', hconn', hpeer⟩ := hj
      have hne := List.all_eq_true.1 hok conn' (List.mem_of_getElem? hconn')
      simp [hpeer] at hne
    · obtain ⟨conn, hconn, hw, _⟩ := hp.entry hget
      refine ⟨⟨conn, rf.uuid, pending.generation, hconn, hw⟩, ?_⟩
      rw [ha]
      nofun
  obtain ⟨conn', hconn', hmoves⟩ := hmove.conns.1 hconn
  rcases hmoves.waits hw with hw | ⟨ha, _⟩
  · exact ⟨conn', uuid, generation, hconn', hw⟩
  · exact absurd ha hexpire

/-- A client that is held open has a task that has not ended. -/
theorem live_of_open (hp : Paired cfg s) (h : Attended s) {i : Nat} {conn : Conn}
    (hi : s.conns[i]? = some conn) (hopen : (s.isWaiting i || s.inSession i) = true) :
    conn.stage.live = true := by
  have hwaits : ∀ {conn' : Conn} {uuid : String} {generation : Nat}, s.conns[i]? = some conn' →
      conn'.stage.Waits uuid generation → conn.stage.live = true := by
    intro conn' uuid generation hconn' hw
    obtain rfl : conn = conn' := Option.some.inj (hi.symm.trans hconn')
    exact hw.live
  rcases Bool.or_eq_true_iff.1 hopen with hwaiting | hsession
  · obtain ⟨⟨uuid, pending⟩, hmem, hstream⟩ := List.any_eq_true.1 hwaiting
    obtain rfl : pending.stream = i := by simpa using hstream
    obtain ⟨conn', hconn', hw, _⟩ := hp.entry ((HashMap.get_eq_some_iff _ _ _).2 hmem)
    exact hwaits hconn' hw
  · rcases Bool.or_eq_true_iff.1 hsession with hserves | htaken
    · rw [hi] at hserves
      obtain ⟨peer, hpeer⟩ := Option.isSome_iff_exists.1 hserves
      obtain ⟨session, hstage⟩ := Stage.exists_of_peer? hpeer
      rw [hstage]
      rfl
    · obtain ⟨conn', hmem, hpeer⟩ := List.any_eq_true.1 htaken
      obtain ⟨j, hj⟩ := List.mem_iff_getElem?.1 hmem
      obtain ⟨conn', _, _, hconn', hw⟩ := h ⟨conn', hj, by simpa using hpeer⟩
      exact hwaits hconn' hw

theorem openCount_le_liveCount (hp : Paired cfg s) (h : Attended s) :
    s.openCount ≤ s.liveCount := by
  have hmap : s.liveCount = s.conns.zipIdx.countP fun conn => conn.1.stage.live := by
    rw [State.liveCount]
    nth_rewrite 1 [← List.zipIdx_map_fst 0 s.conns]
    rw [List.countP_map]
    rfl
  rw [hmap]
  refine List.countP_mono_left fun conn hmem hopen => ?_
  exact live_of_open hp h (List.mem_zipIdx_iff_getElem?.1 hmem) hopen

/-- In every run in which no session outlasts the tasks of its clients, the relay holds no more
clients than it has permits. -/
theorem open_le_max {now : Nat} {lists : Lists}
    (h : Run (step cfg) Outlives (State.initial cfg now lists) tr s) :
    s.openCount ≤ cfg.maxConnections := by
  have hattended : Attended s := by
    refine h.inv (I := fun _ s => Attended s) ?_ fun hr ha hok hs =>
      step_attended (run_paired hr) ha hok hs
    rintro i j ⟨conn, hj, _⟩
    cases hj
  have hpermitted : Permitted cfg s :=
    h.inv_state (I := Permitted cfg) rfl fun hp _ hs => step_permitted hp hs
  have hle := openCount_le_liveCount (run_paired h) hattended
  unfold Permitted at hpermitted
  omega

end Permits

/-! ## Concrete runs -/

/-- A text for each number. -/
def sampleUuid (n : Nat) : String := "session-" ++ n.repr

/-- The clients `2 * n` and `2 * n + 1` are paired. -/
def pairs (n : Nat) : List Action :=
  connects (2 * n) (sampleAddr 1) (sampleUuid n) ++ connects (2 * n + 1) (sampleAddr 2) (sampleUuid n)

/-- Two clients are in a session and a third one waits. -/
theorem open_le_max_three : ∃ s tr,
    Run (step sampleConfig) Outlives (sampleStart sampleConfig) tr s ∧ s.openCount = 3 ∧
      s.openCount ≤ 64 := by
  obtain ⟨s, tr, hrun, hopen⟩ := exists_run_of_exec_guarded (step sampleConfig) Outlives
    (sampleStart sampleConfig) (pairs 0 ++ connects 2 (sampleAddr 1) (sampleUuid 1))
    (fun x => x.1.openCount) (b := 3) (by decide +kernel)
  exact ⟨s, tr, hrun, hopen, open_le_max hrun⟩

/-- The task of the first client of a session ends after 30 seconds while the session goes on.
The relay then fills its permits with other clients. -/
theorem permits_overrun : ∃ s tr,
    Run (step sampleConfig) anything (sampleStart sampleConfig) tr s ∧
      sampleConfig.maxConnections = 64 ∧ s.openCount = 65 := by
  obtain ⟨s, tr, hrun, hopen⟩ := exists_run_of_exec (step sampleConfig) (sampleStart sampleConfig)
    (pairs 0 ++ [.tick (Instant.ofSecs 15), .turn 1 (.data true), .tick (Instant.ofSecs 15),
        .turn 1 (.data true), .wake 0, .expire 0] ++
      (List.range' 1 31).flatMap pairs ++ connects 64 (sampleAddr 3) (sampleUuid 32))
    (fun x => x.1.openCount) (b := 65) (by decide +kernel)
  exact ⟨s, tr, hrun, rfl, hopen⟩

end RemoteServer.Relay
