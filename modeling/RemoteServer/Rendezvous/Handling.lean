import RemoteServer.Rendezvous.Posts

/-!
# The handling of one message

A connection handles its messages one after the other, and the loop of the connection
is left when a handler returns `false`.  What is still on the channel is lost then.

* `Note` is what happens to a handling: it begins, it puts a message on the channel of
  its own connection, it returns.  `handlingNotes` reads that off a step.
* `replied_then_kept` says that a handling that has replied returns `true`, if the
  steps are `SafeToReply`; `test_nat_reply_lost` shows the answer to a
  `TestNatRequest`.
* `crossing_carries_key` says that a handling that sends a request on to a peer is that
  of a message with the key of the server, if the relay requests have it;
  `relay_without_key` shows one that has not.
-/

namespace RemoteServer.Rendezvous

open RustStd Lts

inductive Note where
  | began (c : Nat) (msg : ClientMessage)
  /-- A message of the handling of `c` is on the channel of `c`. -/
  | replied (c : Nat)
  | returned (c : Nat) (keep : Bool)
deriving DecidableEq

/-- What the last handler of a connection has returned. -/
def Status.returned : Status → Option Bool
  | .idle => some true
  | .busy _ => none
  | .ending => some false
  | .ended => none

/-- The notes on a step that the handling of `c` made. -/
def worked (s s' : State) (c : Nat) : List Note :=
  (if (s.queue c).length < (s'.queue c).length then [.replied c] else []) ++
    (((s'.conns[c]?).bind fun conn => conn.status.returned).map (Note.returned c)).toList

def handlingNotes (s : State) (a : Action) (y : State × List Event) : List Note :=
  match a with
  | .message c msg => .began c msg :: worked s y.1 c
  | .handle c _ => worked s y.1 c
  | _ => []

def Note.starts (c : Nat) : Note → Option ClientMessage → Option ClientMessage
  | began c' msg, last => if c' = c then some msg else last
  | replied _, last => last
  | returned _ _, last => last

/-- The message whose handling connection `c` has begun last. -/
def current (c : Nat) (notes : List Note) : Option ClientMessage :=
  notes.foldl (fun last note => note.starts c last) none

/-! ## Reading the notes -/

section Notes

variable {cfg : Config} {s s' : State} {a : Action} {evs : List Event} {c : Nat}

/-- The handling of `c` makes the step. -/
def Action.Works (c : Nat) (a : Action) : Prop :=
  (∃ msg, a = .message c msg) ∨ ∃ ch, a = .handle c ch

/-- What a note says about its step. -/
def Note.Says (s s' : State) (a : Action) : Note → Prop
  | began c msg => a = .message c msg
  | replied c => a.Works c ∧ (s.queue c).length < (s'.queue c).length
  | returned c keep =>
    a.Works c ∧ ∃ conn, s'.conns[c]? = some conn ∧ conn.status.returned = some keep

private theorem says_of_worked {note : Note} (ha : a.Works c) (h : note ∈ worked s s' c) :
    note.Says s s' a := by
  rcases List.mem_append.1 h with h | h
  · split at h
    · rename_i hlt
      obtain rfl := List.mem_singleton.1 h
      exact ⟨ha, hlt⟩
    · cases h
  · obtain ⟨keep, hkeep, rfl⟩ := Option.map_eq_some_iff.1 (Option.mem_toList.1 h)
    obtain ⟨conn, hconn, hret⟩ := Option.bind_eq_some_iff.1 hkeep
    exact ⟨ha, conn, hconn, hret⟩

private theorem began_not_mem_worked {k : Nat} {msg : ClientMessage} :
    .began c msg ∉ worked s s' k := by
  intro h
  rcases List.mem_append.1 h with h | h
  · split at h
    · cases List.mem_singleton.1 h
    · cases h
  · obtain ⟨_, -, heq⟩ := Option.map_eq_some_iff.1 (Option.mem_toList.1 h)
    cases heq

theorem says_of_mem {note : Note} (h : note ∈ handlingNotes s a (s', evs)) : note.Says s s' a := by
  cases a with
  | message k m =>
    rcases List.mem_cons.1 h with rfl | h
    · rfl
    · exact says_of_worked (Or.inl ⟨m, rfl⟩) h
  | handle k ch => exact says_of_worked (Or.inr ⟨ch, rfl⟩) h
  | _ => cases h

theorem current_append {notes rest : List Note} (h : ∀ msg, .began c msg ∉ rest) :
    current c (notes ++ rest) = current c notes := by
  unfold current
  rw [List.foldl_append]
  generalize notes.foldl (fun last note => note.starts c last) none = last
  induction rest generalizing last with
  | nil => rfl
  | cons note rest ih =>
    have hstarts : note.starts c last = last := by
      cases note with
      | began k msg =>
        have hk : k ≠ c := fun hk => h msg (hk ▸ List.mem_cons_self)
        exact if_neg hk
      | replied => rfl
      | returned => rfl
    rw [List.foldl_cons, hstarts]
    exact ih (fun msg hmem => h msg (List.mem_cons_of_mem _ hmem)) last

theorem current_began {notes rest : List Note} {msg : ClientMessage}
    (h : ∀ msg, .began c msg ∉ rest) : current c (notes ++ .began c msg :: rest) = some msg := by
  rw [List.append_cons, current_append h, current, List.foldl_append]
  exact if_pos rfl

/-- A handler that is at work after a step was so before, or the step is its own. -/
theorem step_busy (h : step cfg s a = some (s', evs)) {link : Link} {handler : Handler}
    (hc : s'.conns[c]? = some ⟨link, .busy handler⟩) :
    s.conns[c]? = some ⟨link, .busy handler⟩ ∨
      (∃ msg, a = .message c msg ∧ s.conns[c]? = some ⟨link, .idle⟩ ∧
        (receive cfg s.toShared c link msg).2 = .go handler) ∨
      ∃ h₀ ch, a = .handle c ch ∧ s.conns[c]? = some ⟨link, .busy h₀⟩ ∧
        h₀.Move cfg s.toTables c link ch s'.toTables (.go handler) evs := by
  have hworks : ∀ {conn : Conn} {shared : Shared} {next : Next} {k : Nat},
      s.conns[k]? = some conn → (s.resume k conn shared next).conns[c]? = some ⟨link, .busy handler⟩ →
      s.conns[c]? = some ⟨link, .busy handler⟩ ∨ k = c ∧ conn.link = link ∧ next = .go handler := by
    intro conn shared next k hk hc
    by_cases hkc : k = c
    · subst hkc
      rw [s.resume_conn hk] at hc
      obtain ⟨hlink, hstatus⟩ := Conn.mk.inj (Option.some.inj hc)
      exact Or.inr ⟨rfl, hlink, Next.eq_go_of_status hstatus⟩
    · rw [(s.resume_eq k conn shared next).2.1, List.getElem?_set_ne hkc] at hc
      exact Or.inl hc
  have hm := step_move h
  have hset : ∀ {conn : Conn} {st : Status} {k : Nat}, s'.conns = s.conns.set k ⟨conn.link, st⟩ →
      s.conns[k]? = some conn → st ≠ .busy handler → s.conns[c]? = some ⟨link, .busy handler⟩ := by
    intro conn st k hconns hk hst
    rw [hconns] at hc
    rcases getElem?_set_cases hk hc with hc | ⟨-, heq⟩
    · exact hc
    · cases heq
      exact absurd rfl hst
  cases hm with
  | @message k link' msg _ hk _ _ _ =>
    simp only [step, hk] at h
    cases h
    rcases hworks hk hc with hsame | ⟨rfl, rfl, hnext⟩
    · exact Or.inl hsame
    · exact Or.inr (Or.inl ⟨msg, rfl, hk, hnext⟩)
  | @handle k link' h₀ ch _ _ hk _ _ _ =>
    simp only [step, hk] at h
    obtain ⟨out, hout, hpair⟩ := Option.map_eq_some_iff.1 h
    cases hpair
    rcases hworks hk hc with hsame | ⟨rfl, rfl, hnext⟩
    · exact Or.inl hsame
    · refine Or.inr (Or.inr ⟨h₀, ch, rfl, hk, ?_⟩)
      rw [(s.resume_eq _ _ out.shared out.next).1, ← hnext]
      exact move_of_stepHandler hout
  | @accept link' _ _ hconns _ =>
    rw [hconns, List.getElem?_append] at hc
    split at hc
    · exact Or.inl hc
    · cases List.mem_singleton.1 (List.mem_of_getElem? hc)
  | hangUp hk _ hconns _ => exact Or.inl (hset hconns hk Status.noConfusion)
  | close hk _ hconns _ => exact Or.inl (hset hconns hk Status.noConfusion)
  | tick _ hconns _ => exact Or.inl (hconns ▸ hc)
  | datagram _ _ hconns _ => exact Or.inl (hconns ▸ hc)
  | handleUdp _ _ hconns _ => exact Or.inl (hconns ▸ hc)
  | store _ _ hconns _ => exact Or.inl (hconns ▸ hc)
  | evictTimer _ hconns _ => exact Or.inl (hconns ▸ hc)
  | silent _ _ hconns _ => exact Or.inl (hconns ▸ hc)

end Notes

/-! ## A reply and the end of its connection -/

/-- The condition: no `TestNatRequest` arrives, the second message of a registration has
room, and an answer does not go back to the connection that it came from. -/
def safeToReply (cfg : Config) (s : State) : Action → Bool
  | .message _ (.testNatRequest _) => false
  | .handle c _ =>
    match s.conns[c]? with
    | some ⟨_, .busy (.configure _)⟩ => decide (s.HasRoom c)
    | some ⟨_, .busy (.respond (.reply _ consumed _))⟩ =>
      decide (s.tcpPunch.get (cfg.protocol.tryIntoV4 consumed.requester) ≠ some c)
    | _ => true
  | _ => true

def SafeToReply (cfg : Config) (_ : List Note) (s : State) (a : Action) : Prop :=
  safeToReply cfg s a = true

instance {cfg : Config} {notes : List Note} {s : State} {a : Action} :
    Decidable (SafeToReply cfg notes s a) :=
  inferInstanceAs (Decidable (safeToReply cfg s a = true))

section Replies

variable {cfg : Config} {s s' : State} {a : Action} {evs : List Event} {c : Nat}

/-- A handling that has just replied has returned `true`, or is a registration that has
one more message. -/
theorem status_of_replied (hok : safeToReply cfg s a = true) (h : step cfg s a = some (s', evs))
    (hmem : .replied c ∈ handlingNotes s a (s', evs)) :
    ∃ link st, s'.conns[c]? = some ⟨link, st⟩ ∧ (st = .idle ∨ ∃ cu, st = .busy (.configure cu)) := by
  obtain ⟨hworks, hlt⟩ : a.Works c ∧ _ := says_of_mem hmem
  rcases step_queues h with hsame | ⟨_, _, rfl, -⟩ | ⟨t, msg, hposted, hposts⟩
  · rw [hsame] at hlt
    exact absurd hlt (Nat.lt_irrefl _)
  · rcases hworks with ⟨_, heq⟩ | ⟨_, heq⟩ <;> cases heq
  · -- the message that was put on a channel is on that of `c`
    have htc : c = t := by
      by_contra hne
      rw [hposted.queue, if_neg hne] at hlt
      exact Nat.lt_irrefl _ hlt
    subst htc
    cases hposts with
    | receive _ hc' => exact ⟨_, _, hc', Or.inl rfl⟩
    | testNat => cases hok
    | @handle k link h₀ ch next _ _ hc hc' hp =>
      have hk : k = c := by
        rcases hworks with ⟨_, heq⟩ | ⟨_, heq⟩ <;> cases heq
        rfl
      subst hk
      refine ⟨link, next.status, hc', ?_⟩
      cases hp with
      | own => exact Or.inl rfl
      | registered => exact Or.inr ⟨_, rfl⟩
      | push => exact Or.inl rfl
      | answer => exact Or.inl rfl
      | reply hget =>
        simp only [safeToReply, hc] at hok
        exact absurd hget (of_decide_eq_true hok)
    | handleUdp => rcases hworks with ⟨_, heq⟩ | ⟨_, heq⟩ <;> cases heq
    | keepAlive => rcases hworks with ⟨_, heq⟩ | ⟨_, heq⟩ <;> cases heq

theorem conn_of_handle {ch : Choice} (h : step cfg s (.handle c ch) = some (s', evs)) :
    ∃ link handler, s.conns[c]? = some ⟨link, .busy handler⟩ := by
  simp only [step] at h
  split at h
  · exact ⟨_, _, by assumption⟩
  · cases h

/-- The second message of a registration has room, and its handler returns `true`. -/
theorem idle_of_configure {ch : Choice} {link : Link} {cu : PeerStore.ConfigUpdate}
    (hok : safeToReply cfg s (.handle c ch) = true)
    (h : step cfg s (.handle c ch) = some (s', evs))
    (hc : s.conns[c]? = some ⟨link, .busy (.configure cu)⟩) :
    s'.conns[c]? = some ⟨link, .idle⟩ := by
  simp only [safeToReply, hc] at hok
  simp only [step, hc] at h
  cases h
  rw [s.resume_conn hc]
  rcases s.toShared.sendToSink_cases c (.configureUpdate cu) with ⟨s₁, heq, -⟩ | ⟨-, hfull⟩
  · rw [replyToSink, heq]
    rfl
  · exact absurd (of_decide_eq_true hok) hfull

/-- What holds of the notes of a run and of its state. -/
structure Replies (notes : List Note) (s : State) : Prop where
  /-- A handling that has replied and still works is a registration. -/
  busy : ∀ {c pre post link h}, notes = pre ++ .replied c :: post → (∀ msg, .began c msg ∉ post) →
    s.conns[c]? = some ⟨link, .busy h⟩ → ∃ cu, h = .configure cu
  kept : ∀ {c pre mid post}, notes = pre ++ .replied c :: mid ++ .returned c false :: post →
    ∃ msg, .began c msg ∈ mid

theorem step_replies {notes : List Note} (hr : Replies notes s) (hok : safeToReply cfg s a = true)
    (h : step cfg s a = some (s', evs)) : Replies (notes ++ handlingNotes s a (s', evs)) s' := by
  refine ⟨fun {c pre post link h'} heq hpost hc => ?_, fun {c pre mid post} heq => ?_⟩
  · rcases append_eq_append_cons heq with ⟨mid, hnotes, rfl⟩ | ⟨mid, -, hns⟩
    · have hmid : ∀ msg, .began c msg ∉ mid := fun msg hm => hpost msg (List.mem_append_left _ hm)
      rcases step_busy h hc with hsame | ⟨msg, rfl, -⟩ | ⟨h₀, ch, rfl, hc₀, -⟩
      · exact hr.busy hnotes hmid hsame
      · exact absurd (List.mem_append_right _ List.mem_cons_self) (hpost msg)
      · obtain ⟨cu, rfl⟩ := hr.busy hnotes hmid hc₀
        rw [idle_of_configure hok h hc₀] at hc
        cases hc
    · have hmem : .replied c ∈ handlingNotes s a (s', evs) := by rw [hns]; simp
      obtain ⟨link', st, hc', rfl | ⟨cu, rfl⟩⟩ := status_of_replied hok h hmem
      · rw [hc] at hc'
        cases hc'
      · rw [hc] at hc'
        cases hc'
        exact ⟨cu, rfl⟩
  · rcases append_eq_append_cons heq with ⟨mid', hnotes, -⟩ | ⟨new, hpre, hns⟩
    · exact hr.kept hnotes
    · have hmem : .returned c false ∈ handlingNotes s a (s', evs) := by rw [hns]; simp
      obtain ⟨hworks, conn, hc', hret⟩ : a.Works c ∧ _ := says_of_mem hmem
      rcases append_eq_append_cons hpre.symm with ⟨old, hnotes, rfl⟩ | ⟨new', -, rfl⟩
      · -- the reply is older than the step
        rcases hworks with ⟨msg, rfl⟩ | ⟨ch, rfl⟩
        · cases new with
          | nil => cases hns
          | cons note new =>
            injection hns with hnote
            subst hnote
            exact ⟨msg, List.mem_append_right _ List.mem_cons_self⟩
        · by_contra hno
          have hold : ∀ msg, .began c msg ∉ old :=
            fun msg hm => hno ⟨msg, List.mem_append_left _ hm⟩
          obtain ⟨link, h₀, hc₀⟩ := conn_of_handle h
          obtain ⟨cu, rfl⟩ := hr.busy hnotes hold hc₀
          rw [idle_of_configure hok h hc₀] at hc'
          cases hc'
          cases hret
      · have hmem' : .replied c ∈ handlingNotes s a (s', evs) := by rw [hns]; simp
        obtain ⟨link', st, hst, hst'⟩ := status_of_replied hok h hmem'
        rw [hc'] at hst
        cases hst
        rcases hst' with rfl | ⟨cu, rfl⟩ <;> cases hret

theorem run_replies {now : Nat} {db : Database} {notes : List Note} {s : State}
    (h : Run (observed (step cfg) handlingNotes) (SafeToReply cfg) (State.initial now db) notes s) :
    Replies notes s := by
  refine h.inv (I := Replies) ⟨fun heq => ?_, fun heq => ?_⟩ fun _ hr hok hs => ?_
  · exact absurd heq (by simp)
  · exact absurd heq (by simp)
  · obtain ⟨evs, hstep, rfl⟩ := observed_eq_some hs
    exact step_replies hr hok hstep

end Replies

/-- The `licence_key` of a message. -/
def ClientMessage.licenceKey? : ClientMessage → Option String
  | .punchHoleRequest ph => some ph.licenceKey
  | .requestRelay rf => some rf.licenceKey
  | .httpProxyRequest licenceKey => some licenceKey
  | _ => none

/-- The handler has a request for a peer. -/
def Handler.Asks : Handler → Prop
  | .find _ _ => True
  | .reserve _ => True
  | .forward _ _ => True
  | _ => False

/-- The condition: a `RequestRelay` comes with the key of the server. -/
def keyedRelay (cfg : Config) : Action → Bool
  | .message _ (.requestRelay rf) => decide (rf.licenceKey = cfg.key)
  | _ => true

def KeyedRelay (cfg : Config) (_ : List Note) (_ : State) (a : Action) : Prop :=
  keyedRelay cfg a = true

instance {cfg : Config} {notes : List Note} {s : State} {a : Action} :
    Decidable (KeyedRelay cfg notes s a) :=
  inferInstanceAs (Decidable (keyedRelay cfg a = true))

section Crossing

variable {cfg : Config} {s s' : State} {a : Action} {evs : List Event} {c : Nat}

theorem Handler.Move.asks {t t' : Tables} {link : Link} {ch : Choice} {h h' : Handler}
    (hm : h.Move cfg t c link ch t' (.go h') evs) (hasks : h'.Asks) : h.Asks := by
  generalize hnext : Next.go h' = next at hm
  cases hm with
  | registered _ hclosing | turnDown hclosing | withdraw hclosing | aside _ hclosing =>
    subst hnext
    cases h' <;> first | exact hasks.elim | exact hclosing.elim
  | found => trivial
  | reserve => trivial
  | cacheSink | fail | lookNext | respond =>
    cases hnext
    exact hasks.elim
  | noToken | push | lookedUp | responded => cases hnext

private theorem not_asks_of_response {resp : Response} {h : Handler}
    (hnext : receive.receiveResponse cfg resp = .go h) : ¬ h.Asks := by
  unfold receive.receiveResponse at hnext
  split at hnext
  · cases hnext
    exact id
  · cases hnext

/-- A message that starts a request for a peer brings the key. -/
theorem licenceKey_of_receive {sh : Shared} {link : Link} {msg : ClientMessage} {h : Handler}
    (hkey : cfg.key ≠ "") (hok : keyedRelay cfg (.message c msg) = true)
    (hnext : (receive cfg sh c link msg).2 = .go h) (hasks : h.Asks) :
    msg.licenceKey? = some cfg.key := by
  have hnot : ¬ h.Asks → msg.licenceKey? = some cfg.key := fun hno => absurd hasks hno
  cases msg with
  | punchHoleRequest ph =>
    simp only [receive] at hnext
    split at hnext
    · cases hnext
      exact hnot id
    · split at hnext
      · cases hnext
        exact hnot id
      · rename_i hlicence
        have hne : cfg.key.isEmpty = false := by
          rw [Bool.eq_false_iff, Ne, String.isEmpty_iff]
          exact hkey
        rw [hne, Bool.not_false, Bool.true_and, decide_eq_true_iff, not_not] at hlicence
        exact congrArg some hlicence
  | requestRelay rf => exact congrArg some (of_decide_eq_true hok)
  | registerPeer rp =>
    simp only [receive] at hnext
    split at hnext
    · cases hnext
      exact hnot id
    · cases hnext
  | registerPk rk =>
    cases hnext
    exact hnot id
  | punchHoleSent phs => exact hnot (not_asks_of_response hnext)
  | localAddr la => exact hnot (not_asks_of_response hnext)
  | relayResponse rr => exact hnot (not_asks_of_response hnext)
  | onlineRequest peers =>
    simp only [receive] at hnext
    split at hnext
    · cases hnext
    · split at hnext
      · cases hnext
      · cases hnext
        exact hnot id
  | httpProxyRequest licenceKey =>
    simp only [receive] at hnext
    split at hnext
    · cases hnext
      exact hnot id
    · cases hnext
  | hc token =>
    simp only [receive] at hnext
    split at hnext <;> cases hnext
  | testNatRequest | keyExchange | other => cases hnext

/-- The handlers that have a request for a peer handle a message with the key. -/
def Keyed (cfg : Config) (notes : List Note) (s : State) : Prop :=
  ∀ {c link h}, s.conns[c]? = some ⟨link, .busy h⟩ → h.Asks →
    ∃ msg, current c notes = some msg ∧ msg.licenceKey? = some cfg.key

theorem step_keyed {notes : List Note} (hkey : cfg.key ≠ "") (hkeyed : Keyed cfg notes s)
    (hok : keyedRelay cfg a = true) (h : step cfg s a = some (s', evs)) :
    Keyed cfg (notes ++ handlingNotes s a (s', evs)) s' := by
  intro c link h' hc hasks
  -- a connection that was at work begins nothing
  have hbusy : ∀ {h₀ : Handler}, s.conns[c]? = some ⟨link, .busy h₀⟩ →
      current c (notes ++ handlingNotes s a (s', evs)) = current c notes := by
    intro h₀ hc₀
    refine current_append fun msg hmem => ?_
    obtain rfl : a = .message c msg := says_of_mem hmem
    simp only [step, hc₀] at h
    cases h
  rcases step_busy h hc with hsame | ⟨msg, rfl, -, hnext⟩ | ⟨h₀, ch, rfl, hc₀, hm⟩
  · rw [hbusy hsame]
    exact hkeyed hsame hasks
  · exact ⟨msg, current_began fun _ => began_not_mem_worked,
      licenceKey_of_receive hkey hok hnext hasks⟩
  · rw [hbusy hc₀]
    exact hkeyed hc₀ (hm.asks hasks)

theorem Response.reply_crosses (proto : Protocol) (resp : Response) (addr : SocketAddr)
    (isUdp : Bool) (consumed : ConsumedRendezvous) (pk : Bytes) :
    (resp.reply proto addr isUdp consumed pk).crosses = false := by
  cases resp <;> rfl

/-- A request is put on the channel of a peer by a handler that has one. -/
theorem asks_of_crosses (h : step cfg s a = some (s', evs)) {t : Nat} {out : ServerMessage}
    (hqueue : s'.queue t = s.queue t ++ [out]) (hout : out.crosses = true) :
    ∃ c ch link handler, a = .handle c ch ∧ s.conns[c]? = some ⟨link, .busy handler⟩ ∧
      handler.Asks := by
  rcases step_queues h with hsame | ⟨_, msg, rfl, hfront⟩ | ⟨t', msg, hposted, hposts⟩
  · rw [hsame] at hqueue
    simp at hqueue
  · have hlen := congrArg List.length (hfront t)
    rw [apply_ite List.length, List.length_cons, hqueue, List.length_append,
      List.length_singleton] at hlen
    split at hlen <;> omega
  · -- the message that was put on a channel is `out`
    rw [hposted.queue] at hqueue
    split at hqueue
    · rename_i htt
      subst htt
      obtain rfl : msg = out := by simpa using hqueue
      cases hposts with
      | receive _ _ hmsg => rw [hmsg] at hout; cases hout
      | testNat => cases hout
      | handle hc _ hp =>
        refine ⟨_, _, _, _, rfl, hc, ?_⟩
        cases hp with
        | own hmsg => rw [hmsg] at hout; cases hout
        | push => trivial
        | reply => rw [Response.reply_crosses] at hout; cases hout
        | registered | answer => cases hout
      | handleUdp => rw [Response.reply_crosses] at hout; cases hout
      | keepAlive => cases hout
    · simp at hqueue

theorem run_keyed {now : Nat} {db : Database} {notes : List Note} {s : State}
    (hkey : cfg.key ≠ "")
    (h : Run (observed (step cfg) handlingNotes) (KeyedRelay cfg) (State.initial now db) notes s) :
    Keyed cfg notes s := by
  refine h.inv (I := Keyed cfg) (fun hc => by cases hc) fun _ hkeyed hok hs => ?_
  obtain ⟨evs, hstep, rfl⟩ := observed_eq_some hs
  exact step_keyed hkey hkeyed hok hstep

end Crossing

/-- In every run of a server with a key in which every `RequestRelay` brings it: a step that
puts a request on the channel of a peer is that of a handler, and the message that it
handles brought the key. -/
theorem crossing_carries_key {cfg : Config} {now : Nat} {db : Database} {notes : List Note}
    {s : State} (hkey : cfg.key ≠ "")
    (hrun : Run (observed (step cfg) handlingNotes) (KeyedRelay cfg) (State.initial now db) notes s)
    {a : Action} {s' : State} {evs : List Event} (hstep : step cfg s a = some (s', evs)) {t : Nat}
    {out : ServerMessage} (hqueue : s'.queue t = s.queue t ++ [out]) (hout : out.crosses = true) :
    ∃ c ch msg, a = .handle c ch ∧ current c notes = some msg ∧
      msg.licenceKey? = some cfg.key := by
  obtain ⟨c, ch, link, handler, rfl, hc, hasks⟩ := asks_of_crosses hstep hqueue hout
  obtain ⟨msg, hcurrent, hlicence⟩ := run_keyed hkey hrun hc hasks
  exact ⟨c, ch, msg, rfl, hcurrent, hlicence⟩

/-- Connection 1 has a relay request with `licenceKey`, which is about to be sent on. -/
def relayPending (licenceKey : String) : List Action :=
  registered ++ .accept (sampleLink 2) :: (relayRequested 1 2 licenceKey 7).dropLast

/-- The request that reaches the peer, without the key. -/
def samplePushed : ServerMessage :=
  .requestRelay ({ sampleRelay "" with
    socketAddr := plainMangle (sampleLink 2).addr
    relayServer := "relay.example.com"
    rendezvousToken := (sampleToken 7).toList } : RequestRelay).stripUntrustedMetadata

theorem crossing_carries_key_relay :
    ∃ s notes s' evs, Run (observed (step sampleConfig) handlingNotes) (KeyedRelay sampleConfig)
      (State.initial 0 .empty) notes s ∧
      step sampleConfig s (.handle 1 {}) = some (s', evs) ∧
      s'.queue 0 = s.queue 0 ++ [samplePushed] ∧
      ∃ c ch msg, Action.handle 1 {} = .handle c ch ∧ current c notes = some msg ∧
        msg.licenceKey? = some sampleConfig.key := by
  obtain ⟨s, notes, hrun, hshow⟩ := exists_run_of_exec_guarded
    (observed (step sampleConfig) handlingNotes) (KeyedRelay sampleConfig) (State.initial 0 .empty)
    (relayPending "key")
    (fun x => (step sampleConfig x.1 (.handle 1 {})).map fun (y : State × List Event) =>
      decide (y.1.queue 0 = x.1.queue 0 ++ [samplePushed]))
    (b := some true) (by decide +kernel)
  obtain ⟨⟨s', evs⟩, hstep, hfacts⟩ := Option.map_eq_some_iff.1 hshow
  have hqueue := of_decide_eq_true hfacts
  exact ⟨s, notes, s', evs, hrun, hstep, hqueue,
    crossing_carries_key (by decide) hrun hstep hqueue rfl⟩

/-- A relay request with another key reaches the peer. -/
theorem relay_without_key :
    ∃ s notes s' evs, Run (observed (step sampleConfig) handlingNotes) anything
      (State.initial 0 .empty) notes s ∧
      step sampleConfig s (.handle 1 {}) = some (s', evs) ∧
      s'.queue 0 = s.queue 0 ++ [samplePushed] ∧
      current 1 notes = some (.requestRelay (sampleRelay "wrong")) ∧
      (sampleRelay "wrong").licenceKey ≠ sampleConfig.key := by
  obtain ⟨s, notes, hrun, hshow⟩ := exists_run_of_exec
    (observed (step sampleConfig) handlingNotes) (State.initial 0 .empty) (relayPending "wrong")
    (fun x => (step sampleConfig x.1 (.handle 1 {})).map fun (y : State × List Event) =>
      decide (y.1.queue 0 = x.1.queue 0 ++ [samplePushed] ∧
        current 1 x.2 = some (ClientMessage.requestRelay (sampleRelay "wrong"))))
    (b := some true) (by decide +kernel)
  obtain ⟨⟨s', evs⟩, hstep, hfacts⟩ := Option.map_eq_some_iff.1 hshow
  obtain ⟨hqueue, hcurrent⟩ := of_decide_eq_true hfacts
  exact ⟨s, notes, s', evs, hrun, hstep, hqueue, hcurrent, by decide⟩

end RemoteServer.Rendezvous
