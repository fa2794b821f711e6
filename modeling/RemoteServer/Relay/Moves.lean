import RemoteServer.Relay.Machine

/-!
# The moves of the relay

* `Move` is what a step does to the tasks, the table, the generations and the permits, and
  `step_move` is the inversion of `step`.
* `Conn.Moves` is what it does to one task.  `Move.conns` and `Move.entry` go from a state to
  the one before or after it, and the lemmas about `Conn.Moves` say which stages follow
  which.
-/

namespace RemoteServer.Relay

open RustStd Lts Rendezvous

/-! ## Moves -/

/-- The client has presented a request with this uuid that passes the checks. -/
def Conn.Presents (cfg : Config) (conn : Conn) (uuid : String) : Prop :=
  ∃ rf, conn.request = some rf ∧ rf.uuid = uuid ∧ validRelayUuid uuid = true ∧
    (cfg.key ≠ "" → rf.licenceKey = cfg.key)

namespace Stage

/-- The task has put its stream into the table under this uuid and generation. -/
def Waits (uuid : String) (generation : Nat) (stage : Stage) : Prop :=
  (∃ since, stage = .sleeping uuid generation since) ∨ stage = .expiring uuid generation

/-- The stages before a request is presented, and that of the console. -/
def Early : Stage → Prop
  | .console => True
  | .upgrading => True
  | .reading _ => True
  | _ => False

/-- The stages of a task whose stream was put into the table, and the last one. -/
def Late : Stage → Prop
  | .sleeping _ _ _ => True
  | .expiring _ _ => True
  | .ended => True
  | _ => False

/-- The client whose stream the task has taken out of the table. -/
def peer? : Stage → Option Nat
  | .relaying peer _ => some peer
  | _ => none

/-- The task has not ended, and has its permit. -/
def live : Stage → Bool
  | .ended => false
  | _ => true

variable {stage : Stage} {uuid uuid' : String} {generation generation' peer : Nat}

theorem Waits.late (h : stage.Waits uuid generation) : stage.Late := by
  rcases h with ⟨since, rfl⟩ | rfl <;> trivial

theorem Waits.live (h : stage.Waits uuid generation) : stage.live = true := by
  rcases h with ⟨since, rfl⟩ | rfl <;> rfl

theorem Waits.unique (h : stage.Waits uuid generation) (h' : stage.Waits uuid' generation') :
    uuid = uuid' ∧ generation = generation' := by
  rcases h with ⟨since, rfl⟩ | rfl <;> rcases h' with ⟨since', h'⟩ | h' <;> cases h' <;>
    exact ⟨rfl, rfl⟩

theorem Early.not_late (h : stage.Early) : ¬ stage.Late := by
  cases stage <;> first | exact id | exact absurd h id

theorem Early.live (h : stage.Early) : stage.live = true := by
  cases stage <;> first | rfl | exact absurd h id

theorem exists_of_peer? (h : stage.peer? = some peer) : ∃ session, stage = .relaying peer session := by
  cases stage <;> cases h
  exact ⟨_, rfl⟩

theorem Late.peer?_eq_none (h : stage.Late) : stage.peer? = none := by
  cases stage <;> first | rfl | exact absurd h id

end Stage

/-- A task goes on or ends without a look at the table. -/
inductive Conn.Pass (cfg : Config) (conn conn' : Conn) : Prop where
  | early (h : conn.stage.Early) (h' : conn'.stage.Early ∨ conn'.stage = .ended)
  | present {rf : RequestRelay} (h : conn.stage.Early) (hreq : conn'.Presents cfg rf.uuid)
      (h' : conn'.stage = .pairing rf)
  | wake {uuid : String} {generation since : Nat} (h : conn.stage = .sleeping uuid generation since)
      (hconn' : conn' = { conn with stage := .expiring uuid generation })
  | turn {peer : Nat} {session session' : Session} (h : conn.stage = .relaying peer session)
      (hconn' : conn' = { conn with stage := .relaying peer session' })
  | stop (h : (∃ rf, conn.stage = .pairing rf) ∨ ∃ peer session, conn.stage = .relaying peer session)
      (hconn' : conn' = { conn with stage := .ended })

/-- A new task works with the address of its socket. -/
structure Conn.Arrives (a : Action) (conn : Conn) : Prop where
  early : conn.stage.Early
  accepted : ∃ ws, a = .accept conn.socket ws
  addr : conn.addr = conn.socket

/-- The address of a client only changes when the headers of its upgrade name another one. -/
structure Conn.Keeps (cfg : Config) (a : Action) (i : Nat) (conn conn' : Conn) : Prop where
  socket : conn'.socket = conn.socket
  addr : conn'.addr = conn.addr ∨ ∃ headers ip, a = .upgrade i headers ∧
    headers.realIp cfg = some ip ∧ conn'.addr = withIp conn.addr ip

/-- The permits that a task holds. -/
def Conn.permits (conn : Conn) : Nat := if conn.stage.live then 1 else 0

/-- What a step does to the tasks, the table, the generations and the permits. -/
inductive Move (cfg : Config) (s s' : State) : Action → Prop where
  | still {a : Action} (hconns : s'.conns = s.conns) (hpeers : s'.peers = s.peers)
      (hgen : s'.nextPendingGeneration = s.nextPendingGeneration) (hslots : s'.slots = s.slots) :
      Move cfg s s' a
  | spawn {a : Action} {conn : Conn} (hnew : conn.Arrives a)
      (hconns : s'.conns = s.conns ++ [conn]) (hpeers : s'.peers = s.peers)
      (hgen : s'.nextPendingGeneration = s.nextPendingGeneration)
      (hslots : s'.slots + 1 = s.slots) : Move cfg s s' a
  | pass {a : Action} {i : Nat} {conn conn' : Conn} (hi : s.conns[i]? = some conn)
      (hpass : conn.Pass cfg conn') (hkeeps : conn.Keeps cfg a i conn')
      (hconns : s'.conns = advance s.conns i conn' []) (hpeers : s'.peers = s.peers)
      (hgen : s'.nextPendingGeneration = s.nextPendingGeneration)
      (hslots : s'.slots + conn'.permits = s.slots + conn.permits) : Move cfg s s' a
  | join {i : Nat} {conn : Conn} {rf : RequestRelay} {pending : PendingRelay} {session : Session}
      (hi : s.conns[i]? = some conn) (hstage : conn.stage = .pairing rf)
      (hget : s.peers.get rf.uuid = some pending)
      (hconns : s'.conns =
        advance s.conns i { conn with stage := .relaying pending.stream session } [])
      (hpeers : s'.peers = s.peers.remove rf.uuid)
      (hgen : s'.nextPendingGeneration = s.nextPendingGeneration) (hslots : s'.slots = s.slots) :
      Move cfg s s' (.pair i)
  | wait {i : Nat} {conn : Conn} {rf : RequestRelay} {since : Nat} (hi : s.conns[i]? = some conn)
      (hstage : conn.stage = .pairing rf) (hget : s.peers.get rf.uuid = none)
      (hlen : s.peers.len < maxPendingRelays)
      (hip : pendingForIp s.peers conn.addr.ip < maxPendingRelaysPerIp)
      (hconns : s'.conns =
        advance s.conns i { conn with stage := .sleeping rf.uuid s.nextPendingGeneration since } [])
      (hpeers : s'.peers = s.peers.insert rf.uuid ⟨i, conn.addr.ip, s.nextPendingGeneration⟩)
      (hgen : s'.nextPendingGeneration = s.nextPendingGeneration + 1)
      (hslots : s'.slots = s.slots) : Move cfg s s' (.pair i)
  | expire {i : Nat} {conn : Conn} {uuid : String} {generation : Nat}
      (hi : s.conns[i]? = some conn) (hstage : conn.stage = .expiring uuid generation)
      (hconns : s'.conns = advance s.conns i { conn with stage := .ended } [])
      (hpeers : s'.peers = removePendingIfGeneration s.peers uuid generation)
      (hgen : s'.nextPendingGeneration = s.nextPendingGeneration)
      (hslots : s'.slots = s.slots + 1) : Move cfg s s' (.expire i)

section Moves

variable {cfg : Config} {s s' : State} {a : Action} {evs : List Event} {i : Nat} {conn conn' : Conn}

theorem Conn.Keeps.same (hsocket : conn'.socket = conn.socket) (haddr : conn'.addr = conn.addr) :
    conn.Keeps cfg a i conn' := ⟨hsocket, Or.inl haddr⟩

private theorem permits_of_live (h : conn.stage.live = true) : conn.permits = 1 := if_pos h

/-- A task that ends gives back the permit that it had. -/
private theorem move_of_finish (hi : s.conns[i]? = some conn) (hlive : conn.stage.live = true)
    (hpass : conn.Pass cfg { conn' with stage := .ended }) (hsocket : conn'.socket = conn.socket)
    (haddr : conn'.addr = conn.addr) : Move cfg s (s.finish i conn') a := by
  refine .pass hi hpass (.same hsocket haddr) rfl rfl rfl ?_
  rw [permits_of_live hlive]
  rfl

private theorem move_of_early (hi : s.conns[i]? = some conn) (hearly : conn.stage.Early)
    (hsocket : conn'.socket = conn.socket) (haddr : conn'.addr = conn.addr) :
    Move cfg s (s.finish i conn') a :=
  move_of_finish hi hearly.live (.early hearly (Or.inr rfl)) hsocket haddr

private theorem move_of_accept (addr : SocketAddr) (ws : Bool) :
    Move cfg s (handleConnection cfg s addr ws).1 (.accept addr ws) := by
  unfold handleConnection
  split
  · exact .still rfl rfl rfl rfl
  · rename_i hslots
    have hspawn : ∀ stage : Stage, stage.Early →
        Move cfg s (s.spawn addr ws stage) (.accept addr ws) := by
      intro stage hstage
      refine .spawn ?_ rfl rfl rfl ?_
      · exact ⟨hstage, ⟨ws, rfl⟩, rfl⟩
      · show s.slots - 1 + 1 = s.slots
        omega
    split
    · exact hspawn _ trivial
    · split
      · exact .still rfl rfl rfl rfl
      · refine hspawn _ ?_
        split <;> trivial

private theorem move_of_message (hi : s.conns[i]? = some conn) (hearly : conn.stage.Early)
    (msg : Option RequestRelay) : Move cfg s (message cfg s i conn msg) a := by
  unfold message
  split
  · exact move_of_early hi hearly rfl rfl
  · rename_i rf
    dsimp only
    split
    · exact move_of_early hi hearly rfl rfl
    · rename_i hkey
      split
      · rename_i hvalid
        have hpresents : Conn.Presents cfg { conn with request := some rf, stage := .pairing rf }
            rf.uuid := by
          refine ⟨rf, rfl, rfl, ?_, fun hne => ?_⟩
          · simp only [Bool.and_eq_true] at hvalid
            exact hvalid.1
          · by_contra hlicence
            simp [hne, hlicence] at hkey
        refine .pass hi (.present hearly hpresents rfl) (.same rfl rfl) rfl rfl rfl ?_
        rw [permits_of_live hearly.live]
        rfl
      · exact move_of_early hi hearly rfl rfl

private theorem move_of_pair {rf : RequestRelay} (hi : s.conns[i]? = some conn)
    (hstage : conn.stage = .pairing rf) : Move cfg s (pair s i conn rf) (.pair i) := by
  unfold pair
  split
  · rename_i pending hget
    exact .join hi hstage hget rfl rfl rfl rfl
  · rename_i hget
    split
    · refine move_of_finish hi ?_ (.stop (Or.inl ⟨rf, hstage⟩) rfl) rfl rfl
      rw [hstage]
      rfl
    · rename_i hlimit
      exact .wait hi hstage hget (by omega) (by omega) rfl rfl rfl rfl

private theorem move_of_turn {peer : Nat} {session : Session} (hi : s.conns[i]? = some conn)
    (hstage : conn.stage = .relaying peer session) (ready : Ready) :
    Move cfg s (turn s i conn peer session ready) a := by
  have hlive : conn.stage.live = true := by
    rw [hstage]
    rfl
  have hfinish : Move cfg s (s.finish i conn) a :=
    move_of_finish hi hlive (.stop (Or.inr ⟨peer, session, hstage⟩) rfl) rfl rfl
  have hadvance : ∀ session',
      Move cfg s (s.advance i { conn with stage := .relaying peer session' }) a := by
    intro session'
    refine .pass hi (.turn hstage rfl) (.same rfl rfl) rfl rfl rfl ?_
    rw [permits_of_live hlive]
    rfl
  unfold turn
  split
  · exact hfinish
  · split
    · split
      · exact hfinish
      · exact hadvance _
    · exact hadvance _

private theorem move_of_stepConn (hi : s.conns[i]? = some conn) (htask : a.task? = some i)
    (h : stepConn cfg s i conn a = some s') : Move cfg s s' a := by
  cases a with
  | tick d => cases htask
  | accept addr ws => cases htask
  | upgrade k headers =>
    cases htask
    simp only [stepConn] at h
    split at h
    · rename_i hstage
      cases h
      refine .pass hi (.early ?_ (Or.inl ?_)) ?_ rfl rfl rfl ?_
      · rw [hstage]
        trivial
      · trivial
      · refine ⟨rfl, ?_⟩
        cases hip : headers.realIp cfg with
        | none => exact Or.inl rfl
        | some ip => exact Or.inr ⟨headers, ip, rfl, hip, rfl⟩
      · rw [Conn.permits, Conn.permits, hstage]
        rfl
    · cases h
  | message k msg =>
    simp only [stepConn] at h
    split at h
    · rename_i since hstage
      split at h
      · cases h
        refine move_of_message hi ?_ msg
        rw [hstage]
        trivial
      · cases h
    · cases h
  | drop k =>
    simp only [stepConn] at h
    split at h
    · rename_i hstage
      cases h
      refine move_of_early hi ?_ rfl rfl
      rw [hstage]
      trivial
    · rename_i since hstage
      cases h
      refine move_of_early hi ?_ rfl rfl
      rw [hstage]
      trivial
    · cases h
  | pair k =>
    cases htask
    simp only [stepConn] at h
    split at h
    · rename_i rf hstage
      cases h
      exact move_of_pair hi hstage
    · cases h
  | wake k =>
    simp only [stepConn] at h
    split at h
    · rename_i uuid generation since hstage
      split at h
      · cases h
        refine .pass hi (.wake hstage rfl) (.same rfl rfl) rfl rfl rfl ?_
        rw [Conn.permits, Conn.permits, hstage]
        rfl
      · cases h
    · cases h
  | expire k =>
    cases htask
    simp only [stepConn] at h
    split at h
    · rename_i uuid generation hstage
      cases h
      exact .expire hi hstage rfl rfl rfl rfl
    · cases h
  | turn k ready =>
    simp only [stepConn] at h
    split at h
    · rename_i peer session hstage
      cases h
      exact move_of_turn hi hstage ready
    · cases h
  | command k cmd =>
    have hconsole : conn.stage = .console → conn.stage.Early := by
      intro hstage
      rw [hstage]
      trivial
    simp only [stepConn] at h
    split at h
    · rename_i hstage
      cases h
      -- the lists change as well, which a move does not look at
      refine .pass hi (.early (hconsole hstage) (Or.inr ?_)) ?_ rfl rfl rfl ?_
      · rfl
      · exact .same rfl rfl
      · rw [permits_of_live (hconsole hstage).live]
        rfl
    · rename_i hstage
      cases h
      exact move_of_early hi (hconsole hstage) rfl rfl
    · cases h

/-- The three kinds of action. -/
theorem step_cases (h : step cfg s a = some (s', evs)) :
    (∃ d, a = .tick d ∧ s' = { s with now := s.now + d }) ∨
    (∃ addr ws, a = .accept addr ws ∧ s' = (handleConnection cfg s addr ws).1) ∨
    ∃ i conn, a.task? = some i ∧ s.conns[i]? = some conn ∧ stepConn cfg s i conn a = some s' := by
  unfold step at h
  split at h
  · rename_i d
    cases h
    exact Or.inl ⟨d, rfl, rfl⟩
  · rename_i addr ws
    exact Or.inr (Or.inl ⟨addr, ws, rfl, (congrArg Prod.fst (Option.some.inj h)).symm⟩)
  · obtain ⟨i, hi, h⟩ := Option.bind_eq_some_iff.1 h
    obtain ⟨conn, hconn, h⟩ := Option.bind_eq_some_iff.1 h
    obtain ⟨s₁, hs, hpair⟩ := Option.map_eq_some_iff.1 h
    cases hpair
    exact Or.inr (Or.inr ⟨i, conn, hi, hconn, hs⟩)

theorem step_move (h : step cfg s a = some (s', evs)) : Move cfg s s' a := by
  rcases step_cases h with ⟨d, rfl, rfl⟩ | ⟨addr, ws, rfl, rfl⟩ | ⟨i, conn, hi, hconn, hs⟩
  · exact .still rfl rfl rfl rfl
  · exact move_of_accept addr ws
  · exact move_of_stepConn hconn hi hs

end Moves

/-! ## The lists -/

section Lists

variable {cfg : Config} {s s' : State} {a : Action} {evs : List Event} {i : Nat} {conn : Conn}

private theorem lists_of_message (msg : Option RequestRelay) :
    (message cfg s i conn msg).lists = s.lists := by
  unfold message
  split
  · rfl
  · dsimp only
    split
    · rfl
    · split <;> rfl

private theorem lists_of_pair (rf : RequestRelay) : (pair s i conn rf).lists = s.lists := by
  unfold pair
  split
  · rfl
  · split <;> rfl

private theorem lists_of_turn (peer : Nat) (session : Session) (ready : Ready) :
    (turn s i conn peer session ready).lists = s.lists := by
  unfold turn
  split
  · rfl
  · split
    · split <;> rfl
    · rfl

private theorem lists_of_accept (addr : SocketAddr) (ws : Bool) :
    (handleConnection cfg s addr ws).1.lists = s.lists := by
  unfold handleConnection
  split
  · rfl
  · split
    · rfl
    · split <;> rfl

private theorem lists_of_stepConn (h : stepConn cfg s i conn a = some s') :
    s'.lists = s.lists ∨
      ∃ i cmd, a = .command i (some cmd) ∧ s'.lists = (checkCmd cfg.parseIp s.lists cmd).1 := by
  cases a with
  | tick d => cases h
  | accept addr ws => cases h
  | upgrade k headers =>
    simp only [stepConn] at h
    split at h <;> cases h
    exact Or.inl rfl
  | message k msg =>
    simp only [stepConn] at h
    split at h
    · split at h <;> cases h
      exact Or.inl (lists_of_message msg)
    · cases h
  | drop k =>
    simp only [stepConn] at h
    split at h <;> cases h <;> exact Or.inl rfl
  | pair k =>
    simp only [stepConn] at h
    split at h <;> cases h
    exact Or.inl (lists_of_pair _)
  | wake k =>
    simp only [stepConn] at h
    split at h
    · split at h <;> cases h
      exact Or.inl rfl
    · cases h
  | expire k =>
    simp only [stepConn] at h
    split at h <;> cases h
    exact Or.inl rfl
  | turn k ready =>
    simp only [stepConn] at h
    split at h <;> cases h
    exact Or.inl (lists_of_turn _ _ ready)
  | command k cmd =>
    by_cases hstage : conn.stage = .console
    · cases cmd with
      | none =>
        simp only [stepConn, hstage] at h
        cases h
        exact Or.inl rfl
      | some cmd =>
        simp only [stepConn, hstage] at h
        cases h
        refine Or.inr ⟨k, cmd, rfl, ?_⟩
        dsimp only
    · simp [stepConn, hstage] at h

/-- Only the console changes the lists. -/
theorem step_lists (h : step cfg s a = some (s', evs)) :
    s'.lists = s.lists ∨
      ∃ i cmd, a = .command i (some cmd) ∧ s'.lists = (checkCmd cfg.parseIp s.lists cmd).1 := by
  rcases step_cases h with ⟨d, -, rfl⟩ | ⟨addr, ws, -, rfl⟩ | ⟨i, conn, -, -, hs⟩
  · exact Or.inl rfl
  · exact Or.inl (lists_of_accept addr ws)
  · exact lists_of_stepConn hs

end Lists

/-! ## One task in a step -/

/-- What a step does to task `i`. -/
inductive Conn.Moves (cfg : Config) (s s' : State) (a : Action) (i : Nat) (conn : Conn) :
    Conn → Prop where
  | same : conn.Moves cfg s s' a i conn
  | pass {conn' : Conn} (h : conn.Pass cfg conn') (hkeeps : conn.Keeps cfg a i conn') :
      conn.Moves cfg s s' a i conn'
  | join {rf : RequestRelay} {pending : PendingRelay} {session : Session} (ha : a = .pair i)
      (hstage : conn.stage = .pairing rf) (hget : s.peers.get rf.uuid = some pending)
      (hgone : s'.peers.get rf.uuid = none) :
      conn.Moves cfg s s' a i { conn with stage := .relaying pending.stream session }
  | wait {rf : RequestRelay} {since : Nat} (ha : a = .pair i) (hstage : conn.stage = .pairing rf)
      (hget : s.peers.get rf.uuid = none)
      (hgen : s'.nextPendingGeneration = s.nextPendingGeneration + 1) :
      conn.Moves cfg s s' a i
        { conn with stage := .sleeping rf.uuid s.nextPendingGeneration since }
  | expire {uuid : String} {generation : Nat} (ha : a = .expire i)
      (hstage : conn.stage = .expiring uuid generation)
      (hgone : ∀ {pending : PendingRelay}, s'.peers.get uuid = some pending →
        pending.generation ≠ generation) :
      conn.Moves cfg s s' a i { conn with stage := .ended }

section Tasks

variable {cfg : Config} {s s' : State} {a : Action} {evs : List Event} {i : Nat} {conn conn' : Conn}
  {uuid : String} {generation : Nat}

theorem get_removePendingIfGeneration {peers : HashMap String PendingRelay} {uuid' : String}
    {pending : PendingRelay} :
    (removePendingIfGeneration peers uuid generation).get uuid' = some pending ↔
      peers.get uuid' = some pending ∧ ¬ (uuid' = uuid ∧ pending.generation = generation) := by
  unfold removePendingIfGeneration
  split
  · rename_i own hown
    split
    · rename_i hgeneration
      rw [HashMap.get_remove]
      split
      · rename_i heq
        subst heq
        rw [hown]
        constructor
        · intro hget
          cases hget
        · rintro ⟨hpending, hne⟩
          cases hpending
          exact absurd ⟨rfl, hgeneration⟩ hne
      · rename_i hne
        exact ⟨fun hget => ⟨hget, fun he => hne he.1⟩, And.left⟩
    · rename_i hgeneration
      refine ⟨fun hget => ⟨hget, ?_⟩, And.left⟩
      rintro ⟨rfl, heq⟩
      rw [hown] at hget
      cases hget
      exact hgeneration heq
  · rename_i hnone
    refine ⟨fun hget => ⟨hget, ?_⟩, And.left⟩
    rintro ⟨rfl, _⟩
    rw [hnone] at hget
    cases hget

/-- The tasks of a step: those that were there, of which at most one moves, and new ones. -/
theorem Move.conns (h : Move cfg s s' a) :
    (∀ {j : Nat} {conn : Conn}, s.conns[j]? = some conn →
      ∃ conn', s'.conns[j]? = some conn' ∧ conn.Moves cfg s s' a j conn') ∧
    ∀ {j : Nat} {conn' : Conn}, s'.conns[j]? = some conn' →
      conn'.Arrives a ∨ ∃ conn, s.conns[j]? = some conn ∧ conn.Moves cfg s s' a j conn' := by
  have hadvance : ∀ {i : Nat} {old new : Conn}, s.conns[i]? = some old →
      s'.conns = advance s.conns i new [] → old.Moves cfg s s' a i new →
      (∀ {j : Nat} {conn : Conn}, s.conns[j]? = some conn →
        ∃ conn', s'.conns[j]? = some conn' ∧ conn.Moves cfg s s' a j conn') ∧
      ∀ {j : Nat} {conn' : Conn}, s'.conns[j]? = some conn' →
        conn'.Arrives a ∨ ∃ conn, s.conns[j]? = some conn ∧ conn.Moves cfg s s' a j conn' := by
    intro i old new hi hconns hmoves
    rw [hconns]
    refine ⟨fun {j conn} hj => ?_, fun {j conn'} hj => Or.inr ?_⟩
    · by_cases hne : j = i
      · subst hne
        obtain rfl : old = conn := Option.some.inj (hi.symm.trans hj)
        exact ⟨new, getElem?_advance_self hi, hmoves⟩
      · exact ⟨conn, getElem?_advance_of_ne hne hj, .same⟩
    · rcases getElem?_advance hj with ⟨rfl, rfl⟩ | ⟨_, hj⟩ | ⟨_, hj⟩
      · exact ⟨old, hi, hmoves⟩
      · exact ⟨conn', hj, .same⟩
      · simp at hj
  cases h with
  | still hconns =>
    rw [hconns]
    exact ⟨fun {j conn} hj => ⟨conn, hj, .same⟩, fun {j conn'} hj => Or.inr ⟨conn', hj, .same⟩⟩
  | spawn hnew hconns =>
    rw [hconns]
    refine ⟨fun {j conn} hj => ⟨conn, ?_, .same⟩, fun {j conn'} hj => ?_⟩
    · rw [List.getElem?_append_left (List.getElem?_eq_some_iff.1 hj).1]
      exact hj
    · rw [List.getElem?_append] at hj
      split at hj
      · exact Or.inr ⟨conn', hj, .same⟩
      · rw [List.mem_singleton.1 (List.mem_of_getElem? hj)]
        exact Or.inl hnew
  | pass hi hpass hkeeps hconns => exact hadvance hi hconns (.pass hpass hkeeps)
  | join hi hstage hget hconns hpeers =>
    refine hadvance hi hconns (.join rfl hstage hget ?_)
    rw [hpeers, HashMap.get_remove, if_pos rfl]
  | wait hi hstage hget _ _ hconns _ hgen => exact hadvance hi hconns (.wait rfl hstage hget hgen)
  | expire hi hstage hconns hpeers =>
    refine hadvance hi hconns (.expire rfl hstage fun {pending} hget heq => ?_)
    rw [hpeers, get_removePendingIfGeneration] at hget
    exact hget.2 ⟨rfl, heq⟩

/-- The table of a step: entries that were there, and that of a task that begins to wait. -/
theorem Move.entry (h : Move cfg s s' a) {pending : PendingRelay}
    (hget : s'.peers.get uuid = some pending) :
    s.peers.get uuid = some pending ∨
      ∃ conn rf since, a = .pair pending.stream ∧ s.conns[pending.stream]? = some conn ∧
        conn.stage = .pairing rf ∧ rf.uuid = uuid ∧ s.peers.get uuid = none ∧
        s'.conns[pending.stream]? =
          some { conn with stage := .sleeping uuid pending.generation since } ∧
        conn.addr.ip = pending.sourceIp := by
  cases h with
  | still _ hpeers => exact Or.inl (hpeers ▸ hget)
  | spawn _ _ hpeers => exact Or.inl (hpeers ▸ hget)
  | pass _ _ _ _ hpeers => exact Or.inl (hpeers ▸ hget)
  | join _ _ _ _ hpeers =>
    rw [hpeers, HashMap.get_remove] at hget
    split at hget
    · cases hget
    · exact Or.inl hget
  | wait hi hstage hnone _ _ hconns hpeers =>
    rw [hpeers, HashMap.get_insert] at hget
    split at hget
    · rename_i heq
      cases hget
      subst heq
      exact Or.inr ⟨_, _, _, rfl, hi, hstage, rfl, hnone, hconns ▸ getElem?_advance_self hi, rfl⟩
    · exact Or.inl hget
  | expire _ _ _ hpeers =>
    rw [hpeers, get_removePendingIfGeneration] at hget
    exact Or.inl hget.1

theorem Move.generation_le (h : Move cfg s s' a) :
    s.nextPendingGeneration ≤ s'.nextPendingGeneration := by
  cases h <;> omega

theorem Conn.Presents.congr (h : conn.Presents cfg uuid) (hreq : conn'.request = conn.request) :
    conn'.Presents cfg uuid := by
  obtain ⟨rf, hrf, hrest⟩ := h
  exact ⟨rf, by rw [hreq, hrf], hrest⟩

/-- A task that waits goes on to do so until it expires. -/
theorem Conn.Moves.waits (h : conn.Moves cfg s s' a i conn')
    (hw : conn.stage.Waits uuid generation) :
    conn'.stage.Waits uuid generation ∨ (a = .expire i ∧
      ∀ {pending : PendingRelay}, s'.peers.get uuid = some pending →
        pending.generation ≠ generation) := by
  have hlate := hw.late
  -- a task that waits is at none of the other points
  have hnot : ∀ {st : Stage}, conn.stage = st → st.Late := fun hst => hst ▸ hlate
  cases h with
  | same => exact Or.inl hw
  | pass h _ =>
    cases h with
    | early h h' => exact absurd hlate h.not_late
    | present h hreq h' => exact absurd hlate h.not_late
    | wake h hconn' =>
      subst hconn'
      obtain ⟨rfl, rfl⟩ := hw.unique (Or.inl ⟨_, h⟩)
      exact Or.inl (Or.inr rfl)
    | turn h hconn' => exact (hnot h).elim
    | stop h hconn' =>
      rcases h with ⟨rf, h⟩ | ⟨peer, session, h⟩
      · exact (hnot h).elim
      · exact (hnot h).elim
  | join ha hstage => exact (hnot hstage).elim
  | wait ha hstage => exact (hnot hstage).elim
  | expire ha hstage hgone =>
    obtain ⟨rfl, rfl⟩ := hw.unique (Or.inr hstage)
    exact Or.inr ⟨ha, hgone⟩

/-- A task that waits has done so before, or has just got the next generation. -/
theorem Conn.Moves.waits_back (h : conn.Moves cfg s s' a i conn')
    (hw : conn'.stage.Waits uuid generation) :
    conn.stage.Waits uuid generation ∨ (a = .pair i ∧ generation = s.nextPendingGeneration ∧
      s'.nextPendingGeneration = s.nextPendingGeneration + 1) := by
  cases h with
  | same => exact Or.inl hw
  | pass h _ =>
    cases h with
    | early h h' =>
      rcases h' with h' | h'
      · exact absurd hw.late h'.not_late
      · have hlive := hw.live
        rw [h'] at hlive
        cases hlive
    | present h hreq h' =>
      have hlate := hw.late
      rw [h'] at hlate
      exact absurd hlate id
    | wake h hconn' =>
      subst hconn'
      obtain ⟨rfl, rfl⟩ := hw.unique (Or.inr rfl)
      exact Or.inl (Or.inl ⟨_, h⟩)
    | turn h hconn' =>
      subst hconn'
      exact absurd hw.late id
    | stop h hconn' =>
      subst hconn'
      cases hw.live
  | join => exact absurd hw.late id
  | wait ha _ _ hgen =>
    obtain ⟨_, rfl⟩ := hw.unique (Or.inl ⟨_, rfl⟩)
    exact Or.inr ⟨ha, rfl, hgen⟩
  | expire => cases hw.live

/-- A task that serves a session has done so before, or has just taken its client out of the
table. -/
theorem Conn.Moves.peer_back (h : conn.Moves cfg s s' a i conn') {peer : Nat}
    (hp : conn'.stage.peer? = some peer) :
    conn'.request = conn.request ∧ (conn.stage.peer? = some peer ∨
      ∃ rf pending, a = .pair i ∧ conn.stage = .pairing rf ∧
        s.peers.get rf.uuid = some pending ∧ s'.peers.get rf.uuid = none ∧
        pending.stream = peer) := by
  cases h with
  | same => exact ⟨rfl, Or.inl hp⟩
  | pass h _ =>
    obtain ⟨session, hstage⟩ := Stage.exists_of_peer? hp
    cases h with
    | early h h' =>
      rw [hstage] at h'
      rcases h' with h' | h' <;> cases h'
    | present h hreq h' =>
      rw [hstage] at h'
      cases h'
    | wake h hconn' =>
      subst hconn'
      cases hp
    | turn h hconn' =>
      subst hconn'
      refine ⟨rfl, Or.inl ?_⟩
      rw [h]
      exact hp
    | stop h hconn' =>
      subst hconn'
      cases hp
  | join ha hstage hget hgone =>
    exact ⟨rfl, Or.inr ⟨_, _, ha, hstage, hget, hgone, Option.some.inj hp⟩⟩
  | wait => cases hp
  | expire => cases hp

/-- A task whose stream was put into the table does not take part in pairing again. -/
theorem Conn.Moves.late (h : conn.Moves cfg s s' a i conn') (hl : conn.stage.Late) :
    conn'.stage.Late ∧ conn'.request = conn.request ∧ conn'.addr = conn.addr := by
  cases h with
  | same => exact ⟨hl, rfl, rfl⟩
  | pass h _ =>
    cases h with
    | early h h' => exact absurd hl h.not_late
    | present h hreq h' => exact absurd hl h.not_late
    | wake h hconn' =>
      subst hconn'
      exact ⟨trivial, rfl, rfl⟩
    | turn h hconn' =>
      rw [h] at hl
      exact absurd hl id
    | stop h hconn' =>
      subst hconn'
      exact ⟨trivial, rfl, rfl⟩
  | join ha hstage =>
    rw [hstage] at hl
    exact absurd hl id
  | wait ha hstage =>
    rw [hstage] at hl
    exact absurd hl id
  | expire => exact ⟨trivial, rfl, rfl⟩

theorem Conn.Moves.keeps (h : conn.Moves cfg s s' a i conn') : conn.Keeps cfg a i conn' := by
  cases h with
  | pass h hkeeps => exact hkeeps
  | _ => exact .same rfl rfl

/-- A task that is about to pair was so before, or has just presented its request. -/
theorem Conn.Moves.pairing_back (h : conn.Moves cfg s s' a i conn') {rf : RequestRelay}
    (hp : conn'.stage = .pairing rf) : conn' = conn ∨ conn'.Presents cfg rf.uuid := by
  cases h with
  | same => exact Or.inl rfl
  | pass h _ =>
    cases h with
    | early h h' =>
      rw [hp] at h'
      rcases h' with h' | h' <;> cases h'
    | present h hreq h' =>
      obtain rfl := Stage.pairing.inj (h'.symm.trans hp)
      exact Or.inr hreq
    | wake h hconn' =>
      subst hconn'
      cases hp
    | turn h hconn' =>
      subst hconn'
      cases hp
    | stop h hconn' =>
      subst hconn'
      cases hp
  | join => cases hp
  | wait => cases hp
  | expire => cases hp

end Tasks

end RemoteServer.Relay
