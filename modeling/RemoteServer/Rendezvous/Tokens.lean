import RemoteServer.Lts.Run
import RemoteServer.Lts.Tickets
import RemoteServer.Rendezvous.Posts

/-!
# One-time tokens

The pending rendezvous are tickets: a reservation issues one under its token, an
accepted answer redeems it, a request that could not be forwarded revokes it, and it
lapses after 30 seconds.

* `FreshTokens` is what is assumed of the random number generator: it yields no token
  that was consumed or has expired.  It may yield a live one, and one that was
  withdrawn.
* `Booked` says that the table is the ledger of the trace, and the trace a lawful one.
* `tokens_one_shot` is the result, and `refusal_drops_relay` shows the one case in
  which the relay name of a request is not in the reply.
-/

namespace RemoteServer.Rendezvous

open RustStd Lts

/-- What an event does to the pending rendezvous. -/
def ticket : Event → Option (TicketOp Bytes Reservation)
  | .reserved r => some (.issue r.token r)
  | .accepted resp _ _ => some (.redeem resp.token)
  | .withdrawn _ token => some (.revoke token)
  | .expired token => some (.lapse token)
  | _ => none

/-- The token was not consumed and has not expired. -/
structure Unspent (tr : List Event) (s : Tables) (token : Bytes) : Prop where
  consumed : ∀ {resp consumed now}, Event.accepted resp consumed now ∈ tr → resp.token ≠ token
  expired : Event.expired token ∉ tr
  live : ∀ {entry}, s.pending.get token = some entry → entry.expired s.store.now = false

/-- The assumption about the random number generator. -/
def FreshTokens (tr : List Event) (s : State) : Action → Prop
  | .handle _ ch => ∀ draw ∈ ch.draws, Unspent tr s.toTables draw.toList
  | _ => True

theorem unspent_iff {tr : List Event} {s : Tables} {token : Bytes} :
    Unspent tr s token ↔
      (∀ e ∈ tr, ticket e ≠ some (.redeem token)) ∧ Event.expired token ∉ tr ∧
        ∀ entry ∈ s.pending.get token, entry.expired s.store.now = false := by
  constructor
  · intro h
    refine ⟨fun e he hop => ?_, h.expired, fun entry hget => h.live hget⟩
    cases e with
    | accepted =>
      cases hop
      exact h.consumed he rfl
    | _ => cases hop
  · rintro ⟨hconsumed, hexpired, hlive⟩
    refine ⟨fun he htoken => ?_, hexpired, fun hget => hlive _ hget⟩
    exact hconsumed _ he (congrArg (fun x => some (TicketOp.redeem x)) htoken)

instance {tr : List Event} {s : Tables} {token : Bytes} : Decidable (Unspent tr s token) :=
  decidable_of_iff _ unspent_iff.symm

instance {tr : List Event} {s : State} : ∀ {a : Action}, Decidable (FreshTokens tr s a)
  | .handle _ ch =>
    inferInstanceAs (Decidable (∀ draw ∈ ch.draws, Unspent tr s.toTables draw.toList))
  | .tick _ | .accept _ | .message _ _ | .datagram _ _ | .handleUdp | .store _ _ | .evictTimer
  | .deliver _ | .keepAlive _ | .hangUp _ | .dropReceiver _ | .close _ | .setAlwaysUseRelay _ =>
    inferInstanceAs (Decidable True)

/-! ## The table as a ledger -/

/-- The table is the ledger of the trace. -/
structure Booked (tr : List Event) (pending : PendingTable) : Prop where
  lawful : Lawful ticket tr
  get : ∀ token, pending.get token = (ledger ticket tr token).map Reservation.entry
  len : pending.len ≤ pendingRendezvousCapacity

section Booked

variable {tr evs : List Event} {pending : PendingTable} {token : Bytes} {now : Nat}

theorem Booked.live (h : Booked tr pending) (hget : pending.get token ≠ none) :
    ledger ticket tr token ≠ none := by
  intro hnone
  rw [h.get, hnone] at hget
  exact hget rfl

theorem Booked.same (h : Booked tr pending) (hevs : ∀ e ∈ evs, ticket e = none) :
    Booked (tr ++ evs) pending := by
  refine ⟨h.lawful.append_of_none hevs, fun token => ?_, h.len⟩
  rw [ledger_append_of_none hevs]
  exact h.get token

/-- An operation that frees a token. -/
theorem Booked.remove (h : Booked tr pending) {e : Event} {o : TicketOp Bytes Reservation}
    (he : ticket e = some o) (hkey : o.key = token) (hresult : o.result = none)
    (hallowed : Allowed ticket tr o) : Booked (tr ++ [e]) (pending.remove token) := by
  refine ⟨h.lawful.concat fun o' ho' => ?_, fun token' => ?_,
    (pending.len_remove_le token).trans h.len⟩
  · rw [he] at ho'
    cases ho'
    exact hallowed
  · rw [HashMap.get_remove]
    split
    · rename_i heq
      subst heq
      rw [← hkey, ledger_concat_self he, hresult]
      rfl
    · rename_i hne
      rw [ledger_concat_of_ne he (hkey ▸ hne), h.get]

theorem mem_expiredTokens :
    token ∈ expiredTokens pending now ↔
      ∃ entry, pending.get token = some entry ∧ entry.expired now = true := by
  unfold expiredTokens
  constructor
  · intro h
    obtain ⟨⟨token', entry⟩, hmem, rfl⟩ := List.mem_map.1 h
    obtain ⟨hmem, hexpired⟩ := List.mem_filter.1 hmem
    exact ⟨entry, (pending.get_eq_some_iff _ _).2 hmem, hexpired⟩
  · rintro ⟨entry, hget, hexpired⟩
    exact List.mem_map.2 ⟨(token, entry),
      List.mem_filter.2 ⟨(pending.get_eq_some_iff _ _).1 hget, hexpired⟩, rfl⟩

theorem unexpired_get (pending : PendingTable) (now : Nat) (token : Bytes) :
    (unexpired pending now).get token =
      if token ∈ expiredTokens pending now then none else pending.get token := by
  rw [unexpired, HashMap.get_retain]
  split
  · rename_i hmem
    obtain ⟨entry, hget, hexpired⟩ := mem_expiredTokens.1 hmem
    rw [hget, Option.filter_some, hexpired]
    rfl
  · rename_i hmem
    cases hget : pending.get token with
    | none => rfl
    | some entry =>
      have hlive : entry.expired now = false := by
        by_contra hexpired
        exact hmem (mem_expiredTokens.2 ⟨entry, hget, by simpa using hexpired⟩)
      rw [Option.filter_some, hlive]
      rfl

/-- The expired entries are removed all at once. -/
theorem Booked.expire (h : Booked tr pending) :
    Booked (tr ++ (expiredTokens pending now).map Event.expired) (unexpired pending now) := by
  have hop : ∀ token, ticket (.expired token) = some (.lapse token) := fun _ => rfl
  have hnodup : (expiredTokens pending now).Nodup :=
    pending.nodup.sublist (List.filter_sublist.map _)
  refine ⟨h.lawful.append_lapses hop hnodup fun token hmem => ?_, fun token => ?_,
    (pending.len_retain_le _).trans h.len⟩
  · obtain ⟨entry, hget, -⟩ := mem_expiredTokens.1 hmem
    exact h.live (hget ▸ Option.some_ne_none entry)
  · rw [unexpired_get, ledger_append_lapses hop]
    split
    · rfl
    · exact h.get token

theorem Booked.insert (h : Booked tr pending) (c : Nat) (entry : PendingRendezvous)
    (hfree : pending.get token = none) (hred : Unredeemed ticket tr token)
    (hlap : Unlapsed ticket tr token) (hroom : pending.len < pendingRendezvousCapacity) :
    Booked (tr ++ [.reserved ⟨c, token, entry⟩]) (pending.insert token entry) := by
  have hop : ticket (.reserved ⟨c, token, entry⟩) = some (.issue token ⟨c, token, entry⟩) := rfl
  refine ⟨h.lawful.concat fun o ho => ?_, fun token' => ?_, ?_⟩
  · cases ho
    refine ⟨?_, hred, hlap⟩
    have := h.get token
    rw [hfree] at this
    exact Option.map_eq_none_iff.1 this.symm
  · rw [HashMap.get_insert]
    split
    · rename_i heq
      rw [heq]
      exact (congrArg (Option.map Reservation.entry) (ledger_concat_self hop)).symm
    · rename_i hne
      rw [ledger_concat_of_ne hop hne, h.get]
  · rw [HashMap.len_insert_of_get_eq_none _ _ hfree]
    exact hroom

end Booked

section Step

variable {cfg : Config} {tr evs : List Event}

theorem ticket_eq_redeem {e : Event} {token : Bytes} (h : ticket e = some (.redeem token)) :
    ∃ resp consumed now, e = .accepted resp consumed now ∧ resp.token = token := by
  cases e with
  | accepted resp consumed now =>
    cases h
    exact ⟨resp, consumed, now, rfl, rfl⟩
  | _ => cases h

theorem ticket_eq_lapse {e : Event} {token : Bytes} (h : ticket e = some (.lapse token)) :
    e = .expired token := by
  cases e with
  | expired token' =>
    cases h
    rfl
  | _ => cases h

theorem ticket_eq_revoke {e : Event} {token : Bytes} (h : ticket e = some (.revoke token)) :
    ∃ c, e = .withdrawn c token := by
  cases e with
  | withdrawn c token' =>
    cases h
    exact ⟨c, rfl⟩
  | _ => cases h

theorem Unspent.unredeemed {s : Tables} {token : Bytes} (h : Unspent tr s token) :
    Unredeemed ticket (tr ++ (expiredTokens s.pending s.store.now).map Event.expired) token := by
  intro e he hop
  obtain ⟨resp, consumed, now, rfl, htoken⟩ := ticket_eq_redeem hop
  rcases List.mem_append.1 he with hmem | hmem
  · exact h.consumed hmem htoken
  · obtain ⟨token', -, htoken'⟩ := List.mem_map.1 hmem
    cases htoken'

theorem Unspent.unlapsed {s : Tables} {token : Bytes} (h : Unspent tr s token) :
    Unlapsed ticket (tr ++ (expiredTokens s.pending s.store.now).map Event.expired) token := by
  intro e he hop
  cases ticket_eq_lapse hop
  rcases List.mem_append.1 he with hmem | hmem
  · exact h.expired hmem
  · obtain ⟨token', hexpired, htoken⟩ := List.mem_map.1 hmem
    cases htoken
    obtain ⟨entry, hget, hexpired⟩ := mem_expiredTokens.1 hexpired
    rw [h.live hget] at hexpired
    cases hexpired

theorem Responding.Move.booked {s s' : Tables} {r : Responding} {next : Option Responding}
    (hm : r.Move cfg s s' next evs) (hb : Booked tr s.pending) : Booked (tr ++ evs) s'.pending := by
  cases hm with
  | @accept resp pending consumed h =>
    obtain ⟨-, rfl, addr, entry, -, hget, -⟩ := consumePendingRendezvous_ok h
    have hlive : ledger ticket tr resp.token ≠ none := hb.live (hget ▸ Option.some_ne_none entry)
    exact hb.remove (o := .redeem resp.token) rfl rfl rfl hlive
  | @reject resp pending err h =>
    rcases consumePendingRendezvous_error h with ⟨hne, rfl⟩ | ⟨rfl, rfl, entry, hget, -⟩
    · rw [if_neg hne]
      refine hb.same fun e he => ?_
      cases List.mem_singleton.1 he
      rfl
    · have hlive : ledger ticket tr resp.token ≠ none :=
        hb.live (hget ▸ Option.some_ne_none entry)
      rw [if_pos rfl, ← List.append_assoc]
      refine (hb.remove (o := .lapse resp.token) rfl rfl rfl hlive).same fun e he => ?_
      cases List.mem_singleton.1 he
      rfl
  | key => exact hb.same fun e he => by cases he
  | reply =>
    refine hb.same fun e he => ?_
    cases List.mem_singleton.1 he
    rfl

theorem Handler.Move.booked {s s' : Tables} {c : Nat} {link : Link} {ch : Choice} {h : Handler}
    {next : Next} (hm : h.Move cfg s c link ch s' next evs) (hb : Booked tr s.pending)
    (hfresh : ∀ draw ∈ ch.draws, Unspent tr s draw.toList) : Booked (tr ++ evs) s'.pending := by
  cases hm with
  | reserve hreserve =>
    obtain ⟨hroom, ⟨draw, hmem, rfl⟩, hfree, rfl⟩ := reservePendingRendezvous_ok hreserve
    have hunspent := hfresh draw hmem
    rw [← List.append_assoc]
    exact hb.expire.insert c _ hfree hunspent.unredeemed hunspent.unlapsed hroom
  | noToken => exact hb.expire
  | @withdraw ask token => exact hb.remove (o := .revoke token) rfl rfl rfl trivial
  | respond hm => exact hm.booked hb
  | responded hm => exact hm.booked hb
  | push =>
    refine hb.same fun e he => ?_
    cases List.mem_singleton.1 he
    rfl
  | fail =>
    refine hb.same fun e he => ?_
    cases List.mem_singleton.1 he
    rfl
  | cacheSink => exact hb.same fun e he => by cases he
  | registered => exact hb.same fun e he => by cases he
  | turnDown => exact hb.same fun e he => by cases he
  | found => exact hb.same fun e he => by cases he
  | aside => exact hb.same fun e he => by cases he
  | lookNext => exact hb.same fun e he => by cases he
  | lookedUp => exact hb.same fun e he => by cases he

theorem Receives.pending_eq {s s' : Tables} {next : Next} (h : Receives s s' next) :
    s'.pending = s.pending := by
  cases h <;> rfl

theorem step_booked {s s' : State} {a : Action} (hb : Booked tr s.pending)
    (hfresh : FreshTokens tr s a) (h : step cfg s a = some (s', evs)) :
    Booked (tr ++ evs) s'.pending := by
  -- all but the handlers leave the table as it is
  have hsame : ∀ {t : Tables}, s'.toTables = t → t.pending = s.pending →
      (∀ e ∈ evs, ticket e = none) → Booked (tr ++ evs) s'.pending := by
    intro t ht heq hevs
    rw [ht, heq]
    exact hb.same hevs
  have hnil : ∀ e ∈ ([] : List Event), ticket e = none := fun e he => by cases he
  cases step_move h with
  | handle hc htables => exact htables.booked hb hfresh
  | handleUdp hu htables => exact htables.booked hb
  | message hc htables => exact hsame rfl htables.pending_eq hnil
  | store hstep htables =>
    refine hsame htables rfl fun e he => ?_
    obtain ⟨e', -, rfl⟩ := List.mem_map.1 he
    rfl
  | tick htables => exact hsame htables rfl hnil
  | accept _ htables => exact hsame htables rfl hnil
  | datagram _ htables => exact hsame htables rfl hnil
  | evictTimer htables => exact hsame htables rfl hnil
  | silent _ htables => exact hsame htables rfl hnil
  | hangUp _ htables => exact hsame htables rfl hnil
  | close _ htables => exact hsame htables rfl hnil

theorem run_booked {now : Nat} {db : Database} {s : State}
    (h : Run (step cfg) FreshTokens (State.initial now db) tr s) : Booked tr s.pending := by
  refine h.inv (I := fun tr s => Booked tr s.pending) ?_ fun _ hb hfresh hs => step_booked hb hfresh hs
  exact ⟨.nil, fun _ => rfl, Nat.zero_le _⟩

end Step

/-! ## Handlers -/

/-- The answer and its request, once the answer is accepted. -/
def Responding.accepted? : Responding → Option (Response × ConsumedRendezvous)
  | .consume _ => none
  | .getPk resp consumed _ => some (resp, consumed)
  | .reply resp consumed _ => some (resp, consumed)

/-- What the handlers owe to the events so far. -/
structure Attended (cfg : Config) (tr : List Event) (s : State) : Prop where
  /-- A token is reserved for the canonical address of the connection that asked. -/
  requester : ∀ {r}, Event.reserved r ∈ tr → ∃ conn, s.conns[r.conn]? = some conn ∧
    r.entry.requester = cfg.protocol.tryIntoV4 conn.link.addr
  /-- A request that could not be forwarded is withdrawn next. -/
  withdrawal : ∀ {pre post c token}, tr = pre ++ .undelivered c token :: post →
    .withdrawn c token ∈ post ∨
      ∃ link ask, s.conns[c]? = some ⟨link, .busy (.withdraw ask token)⟩
  accepted : ∀ {r x}, Responds s r → r.accepted? = some x → ∃ t, .accepted x.1 x.2 t ∈ tr

section Attended

variable {cfg : Config} {tr evs : List Event} {s s' : State} {a : Action}

/-- A token is reserved by the handler of a request, with the relay of its route. -/
theorem Move.reserved_route (hm : Move cfg s s' a evs) {r : Reservation}
    (he : Event.reserved r ∈ evs) : ∃ link route,
      s.conns[r.conn]? = some ⟨link, .busy (.reserve route)⟩ ∧
      r.entry.requester = cfg.protocol.tryIntoV4 link.addr ∧
      r.entry.relayServer = route.relayServer := by
  rcases hm.source he with ⟨e', he'⟩ | ⟨c, link, h, ch, next, hc, -, hh⟩ | ⟨addr, r, next, -, hr⟩
  · cases he'
  · generalize s'.toTables = t at hh
    cases hh with
    | reserve =>
      rcases List.mem_append.1 he with he | he
      · obtain ⟨token, -, htoken⟩ := List.mem_map.1 he
        cases htoken
      · cases List.mem_singleton.1 he
        exact ⟨link, _, hc, rfl, rfl⟩
    | noToken =>
      obtain ⟨token, -, htoken⟩ := List.mem_map.1 he
      cases htoken
    | respond hr => exact absurd he (hr.not_mem rfl nofun)
    | responded hr => exact absurd he (hr.not_mem rfl nofun)
    | _ => simp at he
  · exact absurd he (hr.not_mem rfl nofun)

theorem Move.reserved_conn (hm : Move cfg s s' a evs) {r : Reservation}
    (he : Event.reserved r ∈ evs) : ∃ conn, s.conns[r.conn]? = some conn ∧
      r.entry.requester = cfg.protocol.tryIntoV4 conn.link.addr := by
  obtain ⟨link, route, hc, hreq, -⟩ := hm.reserved_route he
  exact ⟨_, hc, hreq⟩

theorem Move.undelivered_conn (hm : Move cfg s s' a evs) {c : Nat} {token : Bytes}
    (he : Event.undelivered c token ∈ evs) : evs = [.undelivered c token] ∧
      ∃ link ask, s'.conns[c]? = some ⟨link, .busy (.withdraw ask token)⟩ := by
  rcases hm.source he with ⟨e', he'⟩ | ⟨c', link, h, ch, next, -, hc', hh⟩ | ⟨addr, r, next, -, hr⟩
  · cases he'
  · generalize s'.toTables = t at hh
    cases hh with
    | fail =>
      cases List.mem_singleton.1 he
      exact ⟨rfl, link, _, hc'⟩
    | reserve =>
      rcases List.mem_append.1 he with he | he
      · obtain ⟨token, -, htoken⟩ := List.mem_map.1 he
        cases htoken
      · cases List.mem_singleton.1 he
    | noToken =>
      obtain ⟨token, -, htoken⟩ := List.mem_map.1 he
      cases htoken
    | respond hr => exact absurd he (hr.not_mem rfl nofun)
    | responded hr => exact absurd he (hr.not_mem rfl nofun)
    | _ => simp at he
  · exact absurd he (hr.not_mem rfl nofun)

theorem Responding.Move.accepted?_cases {t t' : Tables} {r r' : Responding}
    (hm : r.Move cfg t t' (some r') evs) {x : Response × ConsumedRendezvous}
    (hx : r'.accepted? = some x) :
    r.accepted? = some x ∨ ∃ now, Event.accepted x.1 x.2 now ∈ evs := by
  cases hm with
  | accept =>
    cases hx
    exact Or.inr ⟨_, List.mem_singleton_self _⟩
  | key => exact Or.inl hx

/-- A handler that has to withdraw its token does so in its next step. -/
theorem Move.withdraw_next (hm : Move cfg s s' a evs) {c : Nat} {link : Link} {ask : Ask}
    {token : Bytes} (hc : s.conns[c]? = some ⟨link, .busy (.withdraw ask token)⟩) :
    .withdrawn c token ∈ evs ∨ s'.conns[c]? = some ⟨link, .busy (.withdraw ask token)⟩ := by
  obtain ⟨st', hc'⟩ := hm.conn_kept hc
  rcases hm.conn_cases hc' with hold | ⟨link', -, -, -, hlen⟩ | ⟨st, hst, hnext⟩
  · rw [hc'.trans (hold.symm.trans hc)]
    exact Or.inr rfl
  · have := (List.getElem?_eq_some_iff.1 hc).1
    omega
  · rw [hc] at hst
    cases hst
    generalize s'.toTables = t at hnext
    cases hnext with
    | handle hh =>
      cases hh with
      | withdraw => exact Or.inl (List.mem_singleton_self _)
      | aside hh => exact hh.elim

theorem step_attended (ha : Attended cfg tr s) (h : step cfg s a = some (s', evs)) :
    Attended cfg (tr ++ evs) s' := by
  have hm := step_move h
  refine ⟨fun {r} hr => ?_, fun {pre post c token} htr => ?_, fun {r x} hr hx => ?_⟩
  · have hold : ∃ conn, s.conns[r.conn]? = some conn ∧
        r.entry.requester = cfg.protocol.tryIntoV4 conn.link.addr := by
      rcases List.mem_append.1 hr with hr | hr
      · exact ha.requester hr
      · exact hm.reserved_conn hr
    obtain ⟨conn, hconn, hreq⟩ := hold
    obtain ⟨st, hst⟩ := hm.conn_kept hconn
    exact ⟨_, hst, hreq⟩
  · rcases append_eq_append_cons htr with ⟨mid, hold, rfl⟩ | ⟨mid, -, hevs⟩
    · rcases ha.withdrawal hold with hmem | ⟨link, ask, hc⟩
      · exact Or.inl (List.mem_append_left _ hmem)
      · rcases hm.withdraw_next hc with hmem | hc'
        · exact Or.inl (List.mem_append_right _ hmem)
        · exact Or.inr ⟨link, ask, hc'⟩
    · have hmem : Event.undelivered c token ∈ evs := by
        rw [hevs]
        exact List.mem_append_right _ List.mem_cons_self
      exact Or.inr (hm.undelivered_conn hmem).2
  · have hevs : (∃ now, Event.accepted x.1 x.2 now ∈ tr) ∨
        ∃ now, Event.accepted x.1 x.2 now ∈ evs := by
      rcases hm.responds_cases hr with hold | ⟨resp, rfl⟩ | ⟨r₀, hr₀, hmove⟩
      · exact Or.inl (ha.accepted hold hx)
      · cases hx
      · rcases hmove.accepted?_cases hx with hx₀ | hnew
        · exact Or.inl (ha.accepted hr₀ hx₀)
        · exact Or.inr hnew
    rcases hevs with ⟨now, hmem⟩ | ⟨now, hmem⟩
    · exact ⟨now, List.mem_append_left _ hmem⟩
    · exact ⟨now, List.mem_append_right _ hmem⟩

theorem run_attended {ok : List Event → State → Action → Prop} {now : Nat} {db : Database}
    (h : Run (step cfg) ok (State.initial now db) tr s) : Attended cfg tr s := by
  refine h.inv (I := Attended cfg) ?_ fun _ ha _ hs => step_attended ha hs
  refine ⟨fun hr => absurd hr List.not_mem_nil, fun htr => ?_, fun hr _ => ?_⟩
  · exact absurd htr (by simp)
  · rcases hr with ⟨c, link, hc⟩ | ⟨addr, hu⟩
    · cases hc
    · cases hu

end Attended

/-! ## The result -/

/-- The request was made at position `i` of the trace and not withdrawn since. -/
structure StandsAt (tr : List Event) (i : Nat) (r : Reservation) : Prop where
  reserved : tr[i]? = some (.reserved r)
  kept : ∀ {j c}, i < j → tr[j]? ≠ some (.withdrawn c r.token)

/-- The request is the one that the answer belongs to. -/
structure Reservation.Answered (cfg : Config) (r : Reservation) (resp : Response)
    (consumed : ConsumedRendezvous) (now : Nat) : Prop where
  token : r.token = resp.token
  responderId : r.entry.responderId = resp.id
  kind : r.entry.kind = resp.kind
  requester : ∃ addr, cfg.protocol.tryDecode resp.socketAddr = some addr ∧
    r.entry.requester = cfg.protocol.tryIntoV4 addr
  age : now ≤ r.entry.createdAt + Instant.ofSecs pendingRendezvousTtlSecs
  consumed : consumed = ⟨r.entry.requester, r.entry.relayServer⟩

/-- The relay name in a message for a controller. -/
def ServerMessage.relayServer : ServerMessage → String
  | .punchHoleResponse phr => phr.relayServer
  | .relayResponse rr => rr.relayServer
  | _ => ""

/-- The peer refuses the session. -/
def Response.refused : Response → Bool
  | .relay rr => !rr.refuseReason.isEmpty
  | _ => false

theorem Response.reply_relayServer (proto : Protocol) (resp : Response) (addr : SocketAddr)
    (isUdp : Bool) (consumed : ConsumedRendezvous) (pk : Bytes) :
    (resp.reply proto addr isUdp consumed pk).relayServer =
      if resp.refused then "" else consumed.relayServer := by
  cases resp with
  | holeSent => rfl
  | localAddr => rfl
  | relay rr =>
    by_cases hempty : rr.refuseReason.isEmpty = true <;>
      simp [Response.reply, ServerMessage.relayServer, Response.refused, hempty]

section Result

variable {cfg : Config} {tr evs : List Event} {s s' : State} {a : Action}

theorem standsAt_iff {i : Nat} {r : Reservation} :
    StandsAt tr i r ↔ Standing ticket tr i r.token r := by
  constructor
  · intro h
    refine ⟨⟨_, h.reserved, rfl⟩, fun {j e} hij hj hop => ?_⟩
    obtain ⟨c, rfl⟩ := ticket_eq_revoke hop
    exact h.kept hij hj
  · intro h
    obtain ⟨e, he, hop⟩ := h.issued
    cases e with
    | reserved r' =>
      simp only [ticket, Option.some.injEq, TicketOp.issue.injEq] at hop
      obtain ⟨-, rfl⟩ := hop
      exact ⟨he, fun hij hj => h.kept hij hj rfl⟩
    | _ => cases hop

/-- An entry of the table is one request that stands, and only one does. -/
theorem Booked.stands (hb : Booked tr s.pending) {token : Bytes} {entry : PendingRendezvous}
    (hget : s.pending.get token = some entry) :
    ∃ i r, StandsAt tr i r ∧ r.token = token ∧ r.entry = entry ∧
      ∀ {i' r'}, StandsAt tr i' r' → r'.token = token → i' = i := by
  rw [hb.get] at hget
  obtain ⟨r, hledger, hentry⟩ := Option.map_eq_some_iff.1 hget
  obtain ⟨i, hi⟩ := exists_standing hledger
  obtain ⟨e, he, hop⟩ := hi.issued
  have htoken : r.token = token := by
    cases e with
    | reserved r' =>
      cases hop
      rfl
    | _ => cases hop
  subst htoken
  refine ⟨i, r, standsAt_iff.2 hi, rfl, hentry, fun hi' htoken => ?_⟩
  exact hb.lawful.standing_unique (htoken ▸ standsAt_iff.1 hi') hi

theorem Booked.accepted (hb : Booked tr s.pending) (hm : Move cfg s s' a evs) {resp : Response}
    {consumed : ConsumedRendezvous} {now : Nat} (he : Event.accepted resp consumed now ∈ evs) :
    resp.token.length = rendezvousTokenLen ∧
      (∀ {resp' consumed' now'}, Event.accepted resp' consumed' now' ∈ tr →
        resp'.token ≠ resp.token) ∧
      ∃ i r, StandsAt tr i r ∧ r.Answered cfg resp consumed now ∧
        ∀ {i' r'}, StandsAt tr i' r' → r'.token = resp.token → i' = i := by
  obtain ⟨r, next, -, hr⟩ := hm.responding he (by simp [Event.response?])
  generalize s'.toTables = t at hr
  cases hr with
  | accept h =>
    cases List.mem_singleton.1 he
    obtain ⟨hlen, -, addr, entry, haddr, hget, hexpired, hid, hkind, hreq, hconsumed⟩ :=
      consumePendingRendezvous_ok h
    have hunredeemed : Unredeemed ticket tr resp.token :=
      hb.lawful.unredeemed (hb.live (hget ▸ Option.some_ne_none entry))
    obtain ⟨i, r, hstands, htoken, rfl, hunique⟩ := hb.stands hget
    refine ⟨hlen, fun {resp' _ _} hmem htoken' => ?_, i, r, hstands, ?_, hunique⟩
    · exact hunredeemed _ hmem (congrArg (fun x => some (TicketOp.redeem x)) htoken')
    · refine ⟨htoken, hid, hkind, ⟨addr, haddr, hreq⟩, ?_, hconsumed⟩
      rw [PendingRendezvous.expired, decide_eq_false_iff_not, Instant.elapsed] at hexpired
      omega
  | reject =>
    rcases mem_rejection he with heq | heq
    · cases heq
    · cases heq
  | key => cases he
  | reply => cases List.mem_singleton.1 he

theorem Responding.Move.rejected_eq {t t' : Tables} {r : Responding} {next : Option Responding}
    (hm : r.Move cfg t t' next evs) {resp : Response} {err : Rejection}
    (he : Event.rejected resp err ∈ evs) : r = .consume resp := by
  cases hm with
  | accept => cases List.mem_singleton.1 he
  | reject =>
    rcases mem_rejection he with heq | heq
    · cases heq
    · cases heq
      rfl
  | key => cases he
  | reply => cases List.mem_singleton.1 he

/-- A rejected answer leaves everything as it is, apart from its own expired token. -/
theorem Move.rejected (hm : Move cfg s s' a evs) {resp : Response} {err : Rejection}
    (he : Event.rejected resp err ∈ evs) :
    s'.toTables = s.toTables ∨
      s'.toTables = { s.toTables with pending := s.pending.remove resp.token } ∧
        ∃ entry, s.pending.get resp.token = some entry ∧ entry.expired s.store.now = true := by
  obtain ⟨r, next, -, hr⟩ := hm.responding he (by simp [Event.response?])
  cases hr.rejected_eq he
  generalize s'.toTables = t at hr ⊢
  cases hr with
  | accept => cases List.mem_singleton.1 he
  | reject h =>
    rcases consumePendingRendezvous_error h with ⟨-, rfl⟩ | ⟨-, rfl, hexpired⟩
    · exact Or.inl rfl
    · exact Or.inr ⟨rfl, hexpired⟩

/-- The table is looked up before anything is sent. -/
theorem stepResponding_channels {sh sh' : Shared} {addr : SocketAddr} {isUdp : Bool}
    {resp : Response} {next : Option Responding}
    (h : stepResponding cfg sh addr isUdp (.consume resp) = some (sh', next, evs)) :
    sh'.channels = sh.channels := by
  simp only [stepResponding] at h
  split at h <;> cases h <;> rfl

/-- A rejected answer sends nothing. -/
theorem queues_of_rejected (h : step cfg s a = some (s', evs)) {resp : Response} {err : Rejection}
    (he : Event.rejected resp err ∈ evs) (k : Nat) : s'.queue k = s.queue k := by
  cases step_move h with
  | handle hc htables =>
    obtain ⟨r, next', rfl, hr⟩ := htables.responding he (by simp [Event.response?])
    cases hr.rejected_eq he
    simp only [step, hc, stepHandler] at h
    obtain ⟨out, hout, hpair⟩ := Option.map_eq_some_iff.1 h
    cases hpair
    rw [State.resume_queue]
    split at hout
    · rename_i hstep
      cases hout
      exact Shared.queue_congr (stepResponding_channels hstep) k
    · rename_i hstep
      cases hout
      exact Shared.queue_congr (stepResponding_channels hstep) k
    · cases hout
  | handleUdp hu htables =>
    cases htables.rejected_eq he
    simp only [step, hu] at h
    obtain ⟨⟨shared, next', events⟩, hstep, hpair⟩ := Option.map_eq_some_iff.1 h
    cases hpair
    exact Shared.queue_congr (stepResponding_channels hstep) k
  | store =>
    obtain ⟨e', -, heq⟩ := List.mem_map.1 he
    cases heq
  | _ => cases he

/-- The answer that a connection or the UDP socket reads. -/
def Action.response? : Action → Option Response
  | .message _ (.punchHoleSent phs) => some (.holeSent phs)
  | .message _ (.localAddr la) => some (.localAddr la)
  | .message _ (.relayResponse rr) => some (.relay rr)
  | .datagram _ phs => some (.holeSent phs)
  | _ => none

/-- An answer that is read changes nothing yet, also when it is dropped at once because
it is not well formed. -/
theorem unchanged_of_read (h : step cfg s a = some (s', evs)) (ha : a.response? ≠ none) :
    evs = [] ∧ s'.toTables = s.toTables ∧ ∀ k, s'.queue k = s.queue k := by
  cases a with
  | message c msg =>
    simp only [step] at h
    split at h
    · rename_i link hc
      cases h
      have hreceive : (receive cfg s.toShared c link msg).1 = s.toShared := by
        cases msg with
        | punchHoleSent => rfl
        | localAddr => rfl
        | relayResponse => rfl
        | _ => exact absurd rfl ha
      refine ⟨rfl, ?_, fun k => ?_⟩
      · rw [(s.resume_eq _ _ _ _).1, hreceive]
      · rw [State.resume_queue, hreceive]
    · cases h
  | datagram addr phs =>
    simp only [step] at h
    split at h
    · split at h <;> cases h <;> exact ⟨rfl, rfl, fun _ => rfl⟩
    · cases h
  | _ => exact absurd rfl ha

theorem Attended.replied (ha : Attended cfg tr s) (hm : Move cfg s s' a evs) {resp : Response}
    {addr : SocketAddr} {msg : ServerMessage} {target : Option Nat}
    (he : Event.replied resp addr msg target ∈ evs) :
    ∃ consumed now, Event.accepted resp consumed now ∈ tr ∧ addr = consumed.requester ∧
      msg.relayServer = if resp.refused then "" else consumed.relayServer := by
  obtain ⟨r, next, hresponds, hr⟩ := hm.responding he (by simp [Event.response?])
  generalize s'.toTables = t at hr
  cases hr with
  | accept => cases List.mem_singleton.1 he
  | reject =>
    rcases mem_rejection he with heq | heq
    · cases heq
    · cases heq
  | key => cases he
  | @reply resp' consumed pk =>
    cases List.mem_singleton.1 he
    obtain ⟨now, hmem⟩ := ha.accepted hresponds rfl
    exact ⟨consumed, now, hmem, rfl, Response.reply_relayServer ..⟩

/-- In every run in which the generator yields no spent token:

* The table holds at most 10,000 entries, each of them of a request that was not
  withdrawn, and a request that could not be forwarded is withdrawn before its handler
  does anything else.
* An answer that is accepted has a token of 32 bytes that no answer was accepted with
  before.  Exactly one request with that token stands.  It was made at most 30 seconds
  ago, for this responder, for this canonical requester, and is of the kind that the
  message answers.
* An answer that is dropped or rejected changes nothing and sends nothing, except that
  its own token is removed when it has expired.
* A reply is sent to the requester of an answer that was accepted, with the relay name
  of the request, or with none when the peer refuses the session. -/
theorem tokens_one_shot {now : Nat} {db : Database}
    (hrun : Run (step cfg) FreshTokens (State.initial now db) tr s) :
    s.pending.len ≤ pendingRendezvousCapacity ∧
    (∀ {token entry}, s.pending.get token = some entry →
      ∃ i r, StandsAt tr i r ∧ r.token = token ∧ r.entry = entry) ∧
    (∀ {pre post c token}, tr = pre ++ .undelivered c token :: post →
      .withdrawn c token ∈ post ∨
        ∃ link ask, s.conns[c]? = some ⟨link, .busy (.withdraw ask token)⟩) ∧
    ∀ {a s' evs}, step cfg s a = some (s', evs) →
      (a.response? ≠ none → evs = [] ∧ s'.toTables = s.toTables ∧
        ∀ k, s'.queue k = s.queue k) ∧
      (∀ {resp consumed t}, .accepted resp consumed t ∈ evs →
        resp.token.length = rendezvousTokenLen ∧
        (∀ {resp' consumed' t'}, .accepted resp' consumed' t' ∈ tr → resp'.token ≠ resp.token) ∧
        ∃ i r conn, StandsAt tr i r ∧ r.Answered cfg resp consumed t ∧
          s.conns[r.conn]? = some conn ∧
          r.entry.requester = cfg.protocol.tryIntoV4 conn.link.addr ∧
          ∀ {i' r'}, StandsAt tr i' r' → r'.token = resp.token → i' = i) ∧
      (∀ {resp err}, .rejected resp err ∈ evs →
        (∀ k, s'.queue k = s.queue k) ∧
        (s'.toTables = s.toTables ∨
          s'.toTables = { s.toTables with pending := s.pending.remove resp.token } ∧
            ∃ entry, s.pending.get resp.token = some entry ∧
              entry.expired s.store.now = true)) ∧
      ∀ {resp addr msg target}, .replied resp addr msg target ∈ evs →
        ∃ consumed t, .accepted resp consumed t ∈ tr ∧ addr = consumed.requester ∧
          msg.relayServer = if resp.refused then "" else consumed.relayServer := by
  have hb := run_booked hrun
  have ha := run_attended hrun
  refine ⟨hb.len, fun hget => ?_, ha.withdrawal,
    fun hstep => ⟨unchanged_of_read hstep, fun he => ?_, ?_, ?_⟩⟩
  · obtain ⟨i, r, hstands, htoken, hentry, -⟩ := hb.stands hget
    exact ⟨i, r, hstands, htoken, hentry⟩
  · obtain ⟨hlen, hfirst, i, r, hstands, hanswered, hunique⟩ := hb.accepted (step_move hstep) he
    obtain ⟨conn, hconn, hreq⟩ := ha.requester (List.mem_of_getElem? hstands.reserved)
    exact ⟨hlen, hfirst, i, r, conn, hstands, hanswered, hconn, hreq, hunique⟩
  · exact fun he => ⟨queues_of_rejected hstep he, (step_move hstep).rejected he⟩
  · exact ha.replied (step_move hstep)

end Result

/-! ## Concrete runs -/

/-- Connection 0 registers the peer, connection 1 requests a relay for it, and the answer
arrives over connection 2. -/
def relayed (refuseReason : String) : List Action :=
  registered ++ [.accept (sampleLink 2), .accept (sampleLink 3)] ++ relayRequested 1 2 "key" 7 ++
    [.message 2 (.relayResponse (sampleAnswer refuseReason 7))]

/-- The answer to a relay request is accepted, and one request stands for it. -/
theorem tokens_one_shot_relay :
    ∃ s tr s' evs consumed i r, Run (step sampleConfig) FreshTokens (State.initial 0 .empty) tr s ∧
      step sampleConfig s (.handle 2 {}) = some (s', evs) ∧
      Event.accepted (.relay (sampleAnswer "" 7)) consumed 0 ∈ evs ∧ StandsAt tr i r ∧
      r.Answered sampleConfig (.relay (sampleAnswer "" 7)) consumed 0 := by
  let consumed : ConsumedRendezvous := ⟨(sampleLink 2).addr, "relay.example.com"⟩
  obtain ⟨s, tr, hrun, hshow⟩ := exists_run_of_exec_guarded (step sampleConfig) FreshTokens
    (State.initial 0 .empty) (relayed "")
    (fun x => (step sampleConfig x.1 (.handle 2 {})).map fun (y : State × List Event) =>
      decide (Event.accepted (.relay (sampleAnswer "" 7)) consumed 0 ∈ y.2))
    (b := some true) (by decide +kernel)
  obtain ⟨⟨s', evs⟩, hstep, he⟩ := Option.map_eq_some_iff.1 hshow
  have he := of_decide_eq_true he
  obtain ⟨-, -, -, hnext⟩ := tokens_one_shot hrun
  obtain ⟨-, -, i, r, -, hstands, hanswered, -⟩ := (hnext hstep).2.1 he
  exact ⟨s, tr, s', evs, consumed, i, r, hrun, hstep, he, hstands, hanswered⟩

/-- The peer refuses the session, and the name of the relay is not in the reply. -/
theorem refusal_drops_relay :
    ∃ s tr s' evs consumed msg, Run (step sampleConfig) FreshTokens (State.initial 0 .empty) tr s ∧
      step sampleConfig s (.handle 2 {}) = some (s', evs) ∧
      Event.accepted (.relay (sampleAnswer "busy" 7)) consumed 0 ∈ tr ∧
      Event.replied (.relay (sampleAnswer "busy" 7)) consumed.requester msg (some 1) ∈ evs ∧
      consumed.relayServer = "relay.example.com" ∧ msg.relayServer = "" := by
  let consumed : ConsumedRendezvous := ⟨(sampleLink 2).addr, "relay.example.com"⟩
  let resp : Response := .relay (sampleAnswer "busy" 7)
  let msg : ServerMessage := resp.reply .plain (sampleLink 3).addr false consumed []
  obtain ⟨s, tr, hrun, hshow⟩ := exists_run_of_exec_guarded (step sampleConfig) FreshTokens
    (State.initial 0 .empty) (relayed "busy" ++ handles 2 2)
    (fun x => (step sampleConfig x.1 (.handle 2 {})).map fun (y : State × List Event) =>
      decide (Event.accepted resp consumed 0 ∈ x.2 ∧
        Event.replied resp consumed.requester msg (some 1) ∈ y.2))
    (b := some true) (by decide +kernel)
  obtain ⟨⟨s', evs⟩, hstep, he⟩ := Option.map_eq_some_iff.1 hshow
  obtain ⟨haccepted, hreplied⟩ := of_decide_eq_true he
  exact ⟨s, tr, s', evs, consumed, msg, hrun, hstep, haccepted, hreplied, rfl, by decide +kernel⟩

end RemoteServer.Rendezvous
