import RemoteServer.Relay.Moves

/-!
# Pairing

`Paired` is the invariant of the tasks, the table and the sessions: an entry of the table
belongs to a task that sleeps, the stream of a session belongs to a task that has slept, and
no two tasks have the same generation.  `Limited` are the limits of the table.

`relay_pairing_safe` is what follows for the clients.
-/

namespace RemoteServer.Relay

open RustStd Lts Rendezvous

/-! ## The table and the sessions -/

/-- The task of `j` copies the data of `i` and `j`. -/
def State.Joins (s : State) (i j : Nat) : Prop :=
  ∃ conn, s.conns[j]? = some conn ∧ conn.stage.peer? = some i

/-- What holds of the tasks, the table and the sessions. -/
structure Paired (cfg : Config) (s : State) : Prop where
  presents : ∀ {i : Nat} {conn : Conn} {rf : RequestRelay}, s.conns[i]? = some conn →
    conn.stage = .pairing rf → conn.Presents cfg rf.uuid
  generation_lt : ∀ {i : Nat} {conn : Conn} {uuid : String} {generation : Nat},
    s.conns[i]? = some conn → conn.stage.Waits uuid generation →
    generation < s.nextPendingGeneration
  generation_inj : ∀ {i j : Nat} {conn conn' : Conn} {uuid uuid' : String} {generation : Nat},
    s.conns[i]? = some conn → s.conns[j]? = some conn' → conn.stage.Waits uuid generation →
    conn'.stage.Waits uuid' generation → i = j
  /-- An entry belongs to a task that waits under its uuid. -/
  entry : ∀ {uuid : String} {pending : PendingRelay}, s.peers.get uuid = some pending →
    ∃ conn, s.conns[pending.stream]? = some conn ∧ conn.stage.Waits uuid pending.generation ∧
      conn.Presents cfg uuid ∧ conn.addr.ip = pending.sourceIp
  /-- The other stream of a session belongs to a task that waited under the same uuid. -/
  session : ∀ {i j : Nat} {conn : Conn}, s.conns[j]? = some conn → conn.stage.peer? = some i →
    ∃ conn' uuid, s.conns[i]? = some conn' ∧ conn'.stage.Late ∧ conn'.Presents cfg uuid ∧
      conn.Presents cfg uuid
  /-- That stream is no longer in the table, -/
  taken : ∀ {i j : Nat} {uuid : String} {pending : PendingRelay}, s.Joins i j →
    s.peers.get uuid = some pending → pending.stream ≠ i
  /-- and in no other session. -/
  joins_inj : ∀ {i j j' : Nat}, s.Joins i j → s.Joins i j' → j = j'

section Paired

variable {cfg : Config} {s s' : State} {a : Action} {evs : List Event} {i : Nat} {conn conn' : Conn}

/-- Two entries of one client are the same entry. -/
theorem Paired.uuid_unique (h : Paired cfg s) {uuid uuid' : String} {pending pending' : PendingRelay}
    (hget : s.peers.get uuid = some pending) (hget' : s.peers.get uuid' = some pending')
    (hstream : pending.stream = pending'.stream) : uuid = uuid' := by
  obtain ⟨conn, hconn, hw, _⟩ := h.entry hget
  obtain ⟨conn', hconn', hw', _⟩ := h.entry hget'
  rw [hstream] at hconn
  obtain rfl : conn = conn' := Option.some.inj (hconn.symm.trans hconn')
  exact (hw.unique hw').1

/-- A client that is about to pair is not the other one of a session. -/
theorem Paired.not_joins_of_pairing (h : Paired cfg s) {rf : RequestRelay}
    (hi : s.conns[i]? = some conn) (hstage : conn.stage = .pairing rf) (j : Nat) :
    ¬ s.Joins i j := by
  rintro ⟨other, hj, hp⟩
  obtain ⟨first, uuid, hfirst, hl, _⟩ := h.session hj hp
  obtain rfl : conn = first := Option.some.inj (hi.symm.trans hfirst)
  rw [hstage] at hl
  exact hl

/-- A session after a step was there before, or joins a client that was in the table. -/
theorem Move.joins (h : Move cfg s s' a) {k j : Nat} (hj : s'.Joins k j) :
    s.Joins k j ∨ ∃ conn rf pending, a = .pair j ∧ s.conns[j]? = some conn ∧
      conn.stage = .pairing rf ∧ s.peers.get rf.uuid = some pending ∧
      s'.peers.get rf.uuid = none ∧ pending.stream = k := by
  obtain ⟨conn', hconn', hp⟩ := hj
  rcases h.conns.2 hconn' with hnew | ⟨conn, hconn, hmoves⟩
  · obtain ⟨session, hstage⟩ := Stage.exists_of_peer? hp
    have hearly := hnew.early
    rw [hstage] at hearly
    exact absurd hearly id
  · rcases (hmoves.peer_back hp).2 with hp | ⟨rf, pending, ha, hrest⟩
    · exact Or.inl ⟨conn, hconn, hp⟩
    · exact Or.inr ⟨conn, rf, pending, ha, hconn, hrest⟩

/-- A task that waits after a step has done so before, or has just got the next generation. -/
theorem Move.waits_back (h : Move cfg s s' a) {uuid : String} {generation : Nat}
    (hi : s'.conns[i]? = some conn') (hw : conn'.stage.Waits uuid generation) :
    (∃ conn, s.conns[i]? = some conn ∧ conn.stage.Waits uuid generation) ∨
      (a = .pair i ∧ generation = s.nextPendingGeneration ∧
        s'.nextPendingGeneration = s.nextPendingGeneration + 1) := by
  rcases h.conns.2 hi with hnew | ⟨conn, hconn, hmoves⟩
  · exact absurd hw.late hnew.early.not_late
  · rcases hmoves.waits_back hw with hw | hnew
    · exact Or.inl ⟨conn, hconn, hw⟩
    · exact Or.inr hnew

theorem step_paired (h : Paired cfg s) (hs : step cfg s a = some (s', evs)) : Paired cfg s' := by
  have hmove := step_move hs
  constructor
  case presents =>
    intro i conn' rf hi hp
    rcases hmove.conns.2 hi with hnew | ⟨conn, hconn, hmoves⟩
    · have hearly := hnew.early
      rw [hp] at hearly
      exact absurd hearly id
    · rcases hmoves.pairing_back hp with rfl | hpres
      · exact h.presents hconn hp
      · exact hpres
  case generation_lt =>
    intro i conn' uuid generation hi hw
    have hle := hmove.generation_le
    rcases hmove.waits_back hi hw with ⟨conn, hconn, hw⟩ | ⟨_, rfl, hgen⟩
    · have hlt := h.generation_lt hconn hw
      omega
    · omega
  case generation_inj =>
    -- the next generation is larger than those that were given
    intro i j conn₁ conn₂ uuid uuid' generation hi hj hw hw'
    rcases hmove.waits_back hi hw with ⟨conn, hconn, hw⟩ | ⟨ha, heq, _⟩ <;>
      rcases hmove.waits_back hj hw' with ⟨conn', hconn', hw'⟩ | ⟨ha', heq', _⟩
    · exact h.generation_inj hconn hconn' hw hw'
    · have hlt := h.generation_lt hconn hw
      omega
    · have hlt := h.generation_lt hconn' hw'
      omega
    · exact Action.pair.inj (ha.symm.trans ha')
  case entry =>
    intro uuid pending hget
    rcases hmove.entry hget with hold | ⟨conn, rf, since, _, hconn, hstage, rfl, _, hnew, hip⟩
    · obtain ⟨conn, hconn, hw, hpres, hip⟩ := h.entry hold
      obtain ⟨conn', hconn', hmoves⟩ := hmove.conns.1 hconn
      obtain ⟨_, hreq, haddr⟩ := hmoves.late hw.late
      rcases hmoves.waits hw with hw | ⟨_, hgone⟩
      · exact ⟨conn', hconn', hw, hpres.congr hreq, haddr ▸ hip⟩
      · exact absurd rfl (hgone hget)
    · exact ⟨_, hnew, Or.inl ⟨since, rfl⟩, (h.presents hconn hstage).congr rfl, hip⟩
  case session =>
    intro i j conn' hj hp
    have hkept : ∀ {first : Conn} {uuid : String}, s.conns[i]? = some first → first.stage.Late →
        first.Presents cfg uuid → conn'.Presents cfg uuid →
        ∃ first' uuid, s'.conns[i]? = some first' ∧ first'.stage.Late ∧
          first'.Presents cfg uuid ∧ conn'.Presents cfg uuid := by
      intro first uuid hfirst hl hpres hpres'
      obtain ⟨first', hfirst', hmoves⟩ := hmove.conns.1 hfirst
      obtain ⟨hl, hreq, _⟩ := hmoves.late hl
      exact ⟨first', uuid, hfirst', hl, hpres.congr hreq, hpres'⟩
    rcases hmove.conns.2 hj with hnew | ⟨conn, hconn, hmoves⟩
    · obtain ⟨session, hstage⟩ := Stage.exists_of_peer? hp
      have hearly := hnew.early
      rw [hstage] at hearly
      exact absurd hearly id
    · obtain ⟨hreq, hp | ⟨rf, pending, _, hstage, hget, _, rfl⟩⟩ := hmoves.peer_back hp
      · obtain ⟨first, uuid, hfirst, hl, hpres, hpres'⟩ := h.session hconn hp
        exact hkept hfirst hl hpres (hpres'.congr hreq)
      · obtain ⟨first, hfirst, hw, hpres, _⟩ := h.entry hget
        exact hkept hfirst hw.late hpres ((h.presents hconn hstage).congr hreq)
  case taken =>
    intro i j uuid pending hj hget
    rcases hmove.entry hget with hold | ⟨conn, rf, _, ha, hconn, hstage, rfl, hnone, _⟩ <;>
      rcases hmove.joins hj with hj | ⟨conn', rf', pending', ha', hconn', hstage', hget', hgone, rfl⟩
    · exact h.taken hj hold
    · intro hstream
      rw [h.uuid_unique hold hget' hstream, hgone] at hget
      cases hget
    · rintro rfl
      exact h.not_joins_of_pairing hconn hstage j hj
    · -- the same task cannot find an entry and none
      obtain rfl := Action.pair.inj (ha.symm.trans ha')
      obtain rfl : conn = conn' := Option.some.inj (hconn.symm.trans hconn')
      obtain rfl := Stage.pairing.inj (hstage.symm.trans hstage')
      rw [hnone] at hget'
      cases hget'
  case joins_inj =>
    intro i j j' hj hj'
    rcases hmove.joins hj with hj | ⟨_, _, _, ha, _, _, hget, _, rfl⟩ <;>
      rcases hmove.joins hj' with hj' | ⟨_, _, _, ha', _, _, hget', _, heq⟩
    · exact h.joins_inj hj hj'
    · exact absurd heq (h.taken hj hget')
    · exact absurd rfl (h.taken hj' hget)
    · exact Action.pair.inj (ha.symm.trans ha')

theorem run_paired {now : Nat} {lists : Lists} {ok : List Event → State → Action → Prop}
    {tr : List Event} (h : Run (step cfg) ok (State.initial cfg now lists) tr s) : Paired cfg s := by
  refine h.inv_state ?_ fun hp _ hs => step_paired hp hs
  refine ⟨?_, ?_, ?_, ?_, ?_, ?_, ?_⟩
  · intro i conn rf hi
    cases hi
  · intro i conn uuid generation hi
    cases hi
  · intro i j conn conn' uuid uuid' generation hi
    cases hi
  · intro uuid pending hget
    cases hget
  · intro i j conn hj
    cases hj
  · rintro i j uuid pending ⟨conn, hj, _⟩
    cases hj
  · rintro i j j' ⟨conn, hj, _⟩
    cases hj

end Paired

/-! ## The limits of the table -/

/-- The limits of the table. -/
structure Limited (peers : HashMap String PendingRelay) : Prop where
  len_le : peers.len ≤ maxPendingRelays
  forIp_le : ∀ ip, pendingForIp peers ip ≤ maxPendingRelaysPerIp

section Limited

variable {cfg : Config} {s s' : State} {a : Action} {evs : List Event}
  {peers : HashMap String PendingRelay} {uuid : String}

theorem Limited.remove (h : Limited peers) : Limited (peers.remove uuid) :=
  ⟨(peers.len_remove_le uuid).trans h.len_le,
    fun ip => (peers.countP_remove_le uuid _).trans (h.forIp_le ip)⟩

theorem Limited.insert (h : Limited peers) {pending : PendingRelay}
    (hget : peers.get uuid = none) (hlen : peers.len < maxPendingRelays)
    (hip : pendingForIp peers pending.sourceIp < maxPendingRelaysPerIp) :
    Limited (peers.insert uuid pending) := by
  refine ⟨?_, fun ip => ?_⟩
  · rw [HashMap.len_insert_of_get_eq_none _ _ hget]
    omega
  · rw [pendingForIp, HashMap.entries_insert_of_get_eq_none _ _ hget, List.countP_append,
      List.countP_singleton]
    have hle : pendingForIp peers ip ≤ maxPendingRelaysPerIp := h.forIp_le ip
    rw [pendingForIp] at hle hip
    by_cases heq : pending.sourceIp = ip
    · rw [heq] at hip
      simp only [heq, decide_true, if_true]
      omega
    · simp only [heq, decide_false, Bool.false_eq_true, if_false]
      omega

theorem step_limited (h : Limited s.peers) (hs : step cfg s a = some (s', evs)) :
    Limited s'.peers := by
  cases step_move hs with
  | still _ hpeers => rwa [hpeers]
  | spawn _ _ hpeers => rwa [hpeers]
  | pass _ _ _ _ hpeers => rwa [hpeers]
  | join _ _ _ _ hpeers =>
    rw [hpeers]
    exact h.remove
  | wait _ _ hget hlen hip _ hpeers =>
    rw [hpeers]
    exact h.insert hget hlen hip
  | expire _ _ _ hpeers =>
    rw [hpeers, removePendingIfGeneration]
    split
    · split
      · exact h.remove
      · exact h
    · exact h

theorem run_limited {now : Nat} {lists : Lists} {ok : List Event → State → Action → Prop}
    {tr : List Event} (h : Run (step cfg) ok (State.initial cfg now lists) tr s) :
    Limited s.peers := by
  refine h.inv_state (I := fun s => Limited s.peers) ?_ fun hl _ hs => step_limited hl hs
  exact ⟨Nat.zero_le _, fun _ => Nat.zero_le _⟩

end Limited

/-! ## Safety of the pairing -/

/-- Client `i` has presented this request. -/
def State.Presented (s : State) (i : Nat) (rf : RequestRelay) : Prop :=
  ∃ conn, s.conns[i]? = some conn ∧ conn.request = some rf

section Safety

variable {cfg : Config} {now : Nat} {lists : Lists} {tr : List Event} {s : State}

theorem Paired.ne_of_joins (h : Paired cfg s) {i j : Nat} (hj : s.Joins i j) : i ≠ j := by
  rintro rfl
  obtain ⟨conn, hi, hp⟩ := hj
  obtain ⟨first, uuid, hfirst, hl, _⟩ := h.session hi hp
  obtain rfl : conn = first := Option.some.inj (hi.symm.trans hfirst)
  rw [hl.peer?_eq_none] at hp
  cases hp

/-- A client whose stream was taken serves no session itself. -/
theorem Paired.not_joins_of_joins (h : Paired cfg s) {i j k : Nat} (hj : s.Joins i j) :
    ¬ s.Joins k i := by
  rintro ⟨conn, hi, hp⟩
  obtain ⟨conn', hj, hp'⟩ := hj
  obtain ⟨first, uuid, hfirst, hl, _⟩ := h.session hj hp'
  obtain rfl : conn = first := Option.some.inj (hi.symm.trans hfirst)
  rw [hl.peer?_eq_none] at hp
  cases hp

/-- A client that serves a session is not in the table. -/
theorem Paired.stream_ne_of_joins (h : Paired cfg s) {i j : Nat} {uuid : String}
    {pending : PendingRelay} (hj : s.Joins i j) (hget : s.peers.get uuid = some pending) :
    pending.stream ≠ j := by
  rintro rfl
  obtain ⟨conn, hj, hp⟩ := hj
  obtain ⟨other, hother, hw, _⟩ := h.entry hget
  obtain rfl : conn = other := Option.some.inj (hj.symm.trans hother)
  rw [hw.late.peer?_eq_none] at hp
  cases hp

theorem Paired.presented (h : Paired cfg s) {i j : Nat} (hj : s.Joins i j) :
    ∃ rf rf', s.Presented i rf ∧ s.Presented j rf' ∧ rf.uuid = rf'.uuid ∧
      validRelayUuid rf.uuid = true ∧
      (cfg.key ≠ "" → rf.licenceKey = cfg.key ∧ rf'.licenceKey = cfg.key) := by
  obtain ⟨conn, hj, hp⟩ := hj
  obtain ⟨first, uuid, hfirst, _, ⟨rf, hreq, rfl, hvalid, hkey⟩, rf', hreq', huuid, _, hkey'⟩ :=
    h.session hj hp
  exact ⟨rf, rf', ⟨first, hfirst, hreq⟩, ⟨conn, hj, hreq'⟩, huuid.symm, hvalid,
    fun hne => ⟨hkey hne, hkey' hne⟩⟩

/-- The expiry of one task leaves the entries of the others. -/
theorem Paired.keeps_others (h : Paired cfg s) {i : Nat} {s' : State} {evs : List Event}
    (hs : step cfg s (.expire i) = some (s', evs)) {uuid : String} {pending : PendingRelay}
    (hget : s.peers.get uuid = some pending) (hne : pending.stream ≠ i) :
    s'.peers.get uuid = some pending := by
  cases step_move hs with
  | still _ hpeers => rwa [hpeers]
  | spawn _ _ hpeers => rwa [hpeers]
  | pass _ _ _ _ hpeers => rwa [hpeers]
  | expire hi hstage _ hpeers =>
    rw [hpeers, get_removePendingIfGeneration]
    refine ⟨hget, ?_⟩
    rintro ⟨rfl, hgeneration⟩
    obtain ⟨other, hother, hw, _⟩ := h.entry hget
    rw [hgeneration] at hw
    exact hne (h.generation_inj hother hi hw (Or.inr hstage))

/-- Pairing in every run: a session joins two different clients that have presented the same
valid uuid and the configured key, no client is in two sessions or in a session and in the
table, the expiry of a task removes no other client's entry, and the table keeps its
limits. -/
theorem relay_pairing_safe (h : Run (step cfg) anything (State.initial cfg now lists) tr s) :
    (∀ i j, s.Joins i j → i ≠ j ∧
      ∃ rf rf', s.Presented i rf ∧ s.Presented j rf' ∧ rf.uuid = rf'.uuid ∧
        validRelayUuid rf.uuid = true ∧
        (cfg.key ≠ "" → rf.licenceKey = cfg.key ∧ rf'.licenceKey = cfg.key)) ∧
    (∀ i j i' j', s.Joins i j → s.Joins i' j' → (i = i' ∨ i = j' ∨ j = i' ∨ j = j') →
      i = i' ∧ j = j') ∧
    (∀ i j uuid pending, s.Joins i j → s.peers.get uuid = some pending →
      pending.stream ≠ i ∧ pending.stream ≠ j) ∧
    (∀ i s' evs uuid pending, step cfg s (.expire i) = some (s', evs) →
      s.peers.get uuid = some pending → pending.stream ≠ i →
      s'.peers.get uuid = some pending) ∧
    s.peers.len ≤ 4096 ∧
    (∀ ip, pendingForIp s.peers ip ≤ 32) ∧
    ∀ uuid pending, s.peers.get uuid = some pending →
      ∃ conn, s.conns[pending.stream]? = some conn ∧ conn.addr.ip = pending.sourceIp := by
  have hpaired := run_paired h
  have hlimited := run_limited h
  refine ⟨?_, ?_, ?_, ?_, hlimited.len_le, hlimited.forIp_le, ?_⟩
  · intro i j hj
    exact ⟨hpaired.ne_of_joins hj, hpaired.presented hj⟩
  · intro i j i' j' hj hj' hshared
    rcases hshared with rfl | rfl | rfl | rfl
    · exact ⟨rfl, hpaired.joins_inj hj hj'⟩
    · exact absurd hj' (hpaired.not_joins_of_joins hj)
    · exact absurd hj (hpaired.not_joins_of_joins hj')
    · obtain ⟨conn, hconn, hp⟩ := hj
      obtain ⟨conn', hconn', hp'⟩ := hj'
      obtain rfl : conn = conn' := Option.some.inj (hconn.symm.trans hconn')
      exact ⟨Option.some.inj (hp.symm.trans hp'), rfl⟩
  · intro i j uuid pending hj hget
    exact ⟨hpaired.taken hj hget, hpaired.stream_ne_of_joins hj hget⟩
  · intro i s' evs uuid pending hs hget hne
    exact hpaired.keeps_others hs hget hne
  · intro uuid pending hget
    obtain ⟨conn, hconn, _, _, hip⟩ := hpaired.entry hget
    exact ⟨conn, hconn, hip⟩

/-- Two clients are in a session, a third one waits under the same uuid, and the task of the
first one is about to expire. -/
theorem relay_pairing_safe_reused : ∃ s tr,
    Run (step sampleConfig) anything (sampleStart sampleConfig) tr s ∧ s.Joins 0 1 ∧
      (∀ j, s.Joins 0 j → 1 = j) ∧
      ∃ s' evs pending, step sampleConfig s (.expire 0) = some (s', evs) ∧ pending.stream = 2 ∧
        s.peers.get "session-1" = some pending ∧ s'.peers.get "session-1" = some pending := by
  obtain ⟨s, tr, hrun, hout⟩ := exists_run_of_exec (step sampleConfig) (sampleStart sampleConfig)
    (connects 0 (sampleAddr 1) "session-1" ++ connects 1 (sampleAddr 2) "session-1" ++
      connects 2 (sampleAddr 3) "session-1" ++ [.tick (Instant.ofSecs 30), .wake 0])
    (fun x => ((x.1.conns[1]?).map fun conn => conn.stage.peer?,
      (x.1.peers.get "session-1").map PendingRelay.stream,
      (step sampleConfig x.1 (.expire 0)).isSome))
    (b := (some (some 0), some 2, true)) (by decide +kernel)
  obtain ⟨hpeer, hstream, hstep⟩ : (s.conns[1]?).map (fun conn => conn.stage.peer?) = some (some 0) ∧
      (s.peers.get "session-1").map PendingRelay.stream = some 2 ∧
      (step sampleConfig s (.expire 0)).isSome = true := by
    simpa using hout
  obtain ⟨conn, hconn, hpeer⟩ := Option.map_eq_some_iff.1 hpeer
  obtain ⟨pending, hget, hstream⟩ := Option.map_eq_some_iff.1 hstream
  obtain ⟨⟨s', evs⟩, hstep⟩ := Option.isSome_iff_exists.1 hstep
  obtain ⟨_, hjoins, _, hexpire, _⟩ := relay_pairing_safe hrun
  refine ⟨s, tr, hrun, ⟨conn, hconn, hpeer⟩, fun j hj => ?_, s', evs, pending, hstep, hstream, hget,
    hexpire 0 s' evs _ _ hstep hget (by omega)⟩
  exact (hjoins 0 1 0 j ⟨conn, hconn, hpeer⟩ hj (Or.inl rfl)).2

end Safety

end RemoteServer.Relay
