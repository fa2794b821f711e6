import RemoteServer.Common
import RemoteServer.Rendezvous.Posts

/-!
# The relay lists

The server has the list of relays that was configured last, `relay_servers0`, and a live
list, `relay_servers`.  While more than one relay is configured, a timer starts a probe of
them, and the relays that answer become the live list when the result arrives over the
event queue.  The console replaces both lists, over the same queue.  The task of a
connection works on a copy of the live list from the moment when its socket was accepted.

* `step` is the system of `Rendezvous.Machine` with these lists around it.
* `Note` and `ages` say how many replacements there were when a probe, its result, a task
  or a connection began.
* `configured_relay` says that a handler hands out a configured relay, if no replacement
  came between a probe and the arrival of its result, and none since the task of the
  connection was started (`UpToDate`).
* `stale_relay` shows a relay that was removed and stays in the live list.

The console command `test-geo` only advances the rotation (`rotate`).
-/

namespace RemoteServer.Rendezvous.Relays

open RustStd Lts

structure Config where
  server : Rendezvous.Config
  parseUrl : String → Option Url

def relayPort : UInt16 := 21117
def eventQueueCapacity : Nat := 4096

/-- The `Data` of the event queue. -/
inductive Data where
  | relayServers0 (text : String)
  | relayServers (names : List String)

/-- The task of `check_relay_servers`. -/
inductive Probe where
  /-- The relays that have not answered yet, and those that are up. -/
  | trying (rest up : List String)
  /-- Before `RELAY_CHECK_RUNNING` is reset. -/
  | over

structure State where
  server : Rendezvous.State
  relayServers0 : List String
  relayServers : List String
  /-- There is a probe exactly while `RELAY_CHECK_RUNNING` is set. -/
  probe : Option Probe
  queue : List Data
  /-- The copies of the tasks that `handle_listener` has started; none when a task is
  through its handshake. -/
  tasks : List (Option (List String))

inductive Action where
  /-- An action of the server other than the start of a connection. -/
  | server (a : Rendezvous.Action)
  /-- A socket is accepted and its task started. -/
  | spawn
  /-- The task is through its handshake. -/
  | accept (i : Nat) (addr : SocketAddr) (ws : Bool)
  /-- The console command `relay-servers`. -/
  | console (text : String)
  /-- `timer_check_relay`. -/
  | timer
  /-- A relay of the probe answers, or does not. -/
  | answer (i : Nat) (up : Bool)
  /-- The probe puts its result on the queue. -/
  | report
  | release
  /-- The next event of the queue. -/
  | recv
  | rotate

/-- The relays that `check_relay_servers` tries. -/
def probed (cfg : Config) (rs0 : List String) : List String :=
  rs0.filter fun x => (serverWithDefaultPort cfg.parseUrl "relay-servers" x relayPort).isOk

/-- `parse_relay_servers`. -/
def parseRelayServers (cfg : Config) (s : State) (relayServers : String) : Except String State :=
  (getServers cfg.parseUrl "relay-servers" relayServers).map fun rs =>
    { s with relayServers0 := rs, relayServers := rs }

def opens : Rendezvous.Action → Bool
  | .accept _ => true
  | _ => false

def step (cfg : Config) (s : State) : Action → Option (State × List Event)
  | .server a =>
    if opens a then none
    else (Rendezvous.step cfg.server s.server a).map fun y => ({ s with server := y.1 }, y.2)
  | .spawn => some ({ s with tasks := s.tasks ++ [some s.relayServers] }, [])
  | .accept i addr ws =>
    match s.tasks[i]? with
    | some (some relayServers) =>
      (Rendezvous.step cfg.server s.server (.accept ⟨addr, ws, relayServers⟩)).map fun y =>
        ({ s with server := y.1, tasks := s.tasks.set i none }, y.2)
    | _ => none
  | .console text =>
    match getServers cfg.parseUrl "relay-servers" text with
    | .error _ => some (s, [])
    | .ok _ =>
      if s.queue.length < eventQueueCapacity then
        some ({ s with queue := s.queue ++ [.relayServers0 text] }, [])
      else none
  | .timer =>
    if 1 < s.relayServers0.length ∧ s.probe.isNone then
      some ({ s with probe := some (.trying (probed cfg s.relayServers0) []) }, [])
    else some (s, [])
  | .answer i isUp =>
    match s.probe with
    | some (.trying rest up) =>
      (rest[i]?).map fun x =>
        ({ s with probe := some (.trying (rest.eraseIdx i) (if isUp then up ++ [x] else up)) }, [])
    | _ => none
  | .report =>
    match s.probe with
    | some (.trying [] []) => some ({ s with probe := some .over }, [])
    | some (.trying [] up) =>
      if s.queue.length < eventQueueCapacity then
        some ({ s with probe := some .over, queue := s.queue ++ [.relayServers up] }, [])
      else none
    | _ => none
  | .release =>
    match s.probe with
    | some .over => some ({ s with probe := none }, [])
    | _ => none
  | .recv =>
    match s.queue with
    | .relayServers0 text :: queue =>
      match parseRelayServers cfg { s with queue := queue } text with
      | .ok s' => some (s', [])
      | .error _ => some ({ s with queue := queue }, [])
    | .relayServers names :: queue =>
      some ({ s with queue := queue, relayServers := names }, [])
    | [] => none
  | .rotate =>
    some ({ s with server := { s.server with
      rotation := (s.server.rotation + 1) % 2 ^ 64 } }, [])

/-- The server after its start, with the relay list of its settings. -/
def State.initial (now : Nat) (db : Database) (relayServers : List String) : State where
  server := .initial now db
  relayServers0 := relayServers
  relayServers := relayServers
  probe := none
  queue := []
  tasks := []

/-! ## The age of a list -/

inductive Note where
  /-- `parse_relay_servers` has accepted a new list. -/
  | replaced
  | started
  | reported
  | received
  | spawned
  | opened (i : Nat)
deriving DecidableEq

/-- The notes on a step. -/
def listNotes (cfg : Config) (s : State) (a : Action) (_ : State × List Event) : List Note :=
  match a with
  | .spawn => [.spawned]
  | .accept i _ _ => [.opened i]
  | .timer => if 1 < s.relayServers0.length ∧ s.probe.isNone then [.started] else []
  | .report =>
    match s.probe with
    | some (.trying [] (_ :: _)) => [.reported]
    | _ => []
  | .recv =>
    match s.queue with
    | .relayServers0 text :: _ =>
      if (getServers cfg.parseUrl "relay-servers" text).isOk then [.replaced] else []
    | .relayServers _ :: _ => [.received]
    | [] => []
  | _ => []

/-- How many replacements there were so far, and how many when the probe was started, when
the probe of each result in the queue was, when each task was and when the task of each
connection was. -/
structure Ages where
  replacements : Nat := 0
  probe : Nat := 0
  results : List Nat := []
  tasks : List Nat := []
  conns : List Nat := []

def Ages.after (ages : Ages) : Note → Ages
  | .replaced => { ages with replacements := ages.replacements + 1 }
  | .started => { ages with probe := ages.replacements }
  | .reported => { ages with results := ages.results ++ [ages.probe] }
  | .received => { ages with results := ages.results.tail }
  | .spawned => { ages with tasks := ages.tasks ++ [ages.replacements] }
  | .opened i => { ages with conns := ages.conns ++ [ages.tasks.getD i 0] }

def ages (notes : List Note) : Ages := notes.foldl Ages.after {}

/-- The condition: the result of a probe arrives before the list is replaced again, and a
request is routed on a connection whose task was started after the last replacement. -/
def upToDate (ages : Ages) (s : State) : Action → Bool
  | .recv =>
    match s.queue with
    | .relayServers _ :: _ => ages.results.head? == some ages.replacements
    | _ => true
  | .server (.handle c _) =>
    match s.server.conns[c]? with
    | some ⟨_, .busy (.find _ _)⟩ => ages.conns[c]? == some ages.replacements
    | _ => true
  | _ => true

def UpToDate (notes : List Note) (s : State) (a : Action) : Prop :=
  upToDate (ages notes) s a = true

instance {notes : List Note} {s : State} {a : Action} : Decidable (UpToDate notes s a) :=
  inferInstanceAs (Decidable (upToDate (ages notes) s a = true))

theorem ages_append (notes rest : List Note) :
    ages (notes ++ rest) = rest.foldl Ages.after (ages notes) :=
  List.foldl_append

/-! ## Lists that are part of the configured one -/

/-- A list of that age has only configured relays, if there was no replacement since. -/
def Dated (replacements : Nat) (configured names : List String) (age : Nat) : Prop :=
  age ≤ replacements ∧ (age = replacements → names ⊆ configured)

theorem Dated.mono {n : Nat} {configured names names' : List String} {age : Nat}
    (h : Dated n configured names age) (hsub : names' ⊆ names) : Dated n configured names' age :=
  ⟨h.1, fun hage => List.Subset.trans hsub (h.2 hage)⟩

theorem Dated.replaced {n : Nat} {configured configured' names : List String} {age : Nat}
    (h : Dated n configured names age) : Dated (n + 1) configured' names age :=
  ⟨Nat.le_succ_of_le h.1, fun hage => absurd h.1 (by omega)⟩

def Data.result? : Data → Option (List String)
  | relayServers0 _ => none
  | relayServers names => some names

/-- What is known about the lists of a state. -/
structure Known (ages : Ages) (s : State) : Prop where
  live : s.relayServers ⊆ s.relayServers0
  probe : ∀ {rest up}, s.probe = some (.trying rest up) →
    Dated ages.replacements s.relayServers0 (rest ++ up) ages.probe
  results : List.Forall₂ (Dated ages.replacements s.relayServers0)
    (s.queue.filterMap Data.result?) ages.results
  tasks : List.Forall₂ (fun copy => Dated ages.replacements s.relayServers0 (copy.getD []))
    s.tasks ages.tasks
  conns : List.Forall₂ (fun link => Dated ages.replacements s.relayServers0 link.relayServers)
    (s.server.conns.map Conn.link) ages.conns

private theorem forall₂_set {α β : Type} {R : α → β → Prop} {l : List α} {l' : List β}
    (h : List.Forall₂ R l l') {x : α} (hx : ∀ {a b}, R a b → R x b) (i : Nat) :
    List.Forall₂ R (l.set i x) l' := by
  induction h generalizing i with
  | nil => exact .nil
  | cons hab htail ih =>
    cases i with
    | zero => exact .cons (hx hab) htail
    | succ i => exact .cons hab (ih i)

private theorem forall₂_getElem? {α β : Type} {R : α → β → Prop} {l : List α} {l' : List β}
    (h : List.Forall₂ R l l') {i : Nat} {a : α} (hi : l[i]? = some a) :
    ∃ b, l'[i]? = some b ∧ R a b := by
  induction h generalizing i with
  | nil => cases hi
  | cons hab _ ih =>
    cases i with
    | zero =>
      cases hi
      exact ⟨_, rfl, hab⟩
    | succ i => exact ih hi

section Known

variable {cfg : Config} {s s' : State} {a : Action} {evs : List Event} {ages : Ages}

/-- A replacement. -/
theorem Known.replace (h : Known ages s) {queue : List Data}
    (hqueue : queue.filterMap Data.result? = s.queue.filterMap Data.result?)
    (rs : List String) :
    Known (ages.after .replaced)
      { s with queue := queue, relayServers0 := rs, relayServers := rs } := by
  refine ⟨List.Subset.refl _, fun hp => (h.probe hp).replaced, ?_, ?_, ?_⟩
  · rw [hqueue]
    exact h.results.imp fun _ _ => Dated.replaced
  · exact h.tasks.imp fun _ _ => Dated.replaced
  · exact h.conns.imp fun _ _ => Dated.replaced

/-- The connections keep their links. -/
theorem links_of_step {s s' : Rendezvous.State} {a : Rendezvous.Action} {evs : List Event}
    {cfg : Rendezvous.Config} (h : Rendezvous.step cfg s a = some (s', evs))
    (ha : opens a = false) : s'.conns.map Conn.link = s.conns.map Conn.link := by
  have hset : ∀ {c : Nat} {link : Link} {st st' : Status}, s.conns[c]? = some ⟨link, st⟩ →
      s'.conns = s.conns.set c ⟨link, st'⟩ → s'.conns.map Conn.link = s.conns.map Conn.link := by
    intro c link st st' hc hconns
    have hlink : (s.conns.map Conn.link)[c]? = some link := by rw [List.getElem?_map, hc]; rfl
    obtain ⟨hlt, heq⟩ := List.getElem?_eq_some_iff.1 hlink
    rw [hconns, List.map_set]
    exact heq ▸ List.set_getElem_self hlt
  cases step_move h with
  | accept => cases ha
  | message hc _ hconns => exact hset hc hconns
  | handle hc _ hconns => exact hset hc hconns
  | hangUp hc _ hconns => exact hset hc hconns
  | close hc _ hconns => exact hset hc hconns
  | tick _ hconns | datagram _ _ hconns | handleUdp _ _ hconns | store _ _ hconns
  | evictTimer _ hconns | silent _ _ hconns => rw [hconns]

theorem step_known (h : Known ages s) (hok : upToDate ages s a = true)
    (hstep : step cfg s a = some (s', evs)) :
    Known ((listNotes cfg s a (s', evs)).foldl Ages.after ages) s' := by
  cases a with
  | server a =>
    simp only [step] at hstep
    split at hstep
    · cases hstep
    · rename_i ha
      obtain ⟨⟨server, evs'⟩, hserver, hpair⟩ := Option.map_eq_some_iff.1 hstep
      cases hpair
      refine ⟨h.live, h.probe, h.results, h.tasks, ?_⟩
      rw [links_of_step hserver (Bool.eq_false_iff.2 ha)]
      exact h.conns
  | spawn =>
    cases hstep
    refine ⟨h.live, h.probe, h.results, ?_, h.conns⟩
    exact List.rel_append h.tasks (.cons ⟨Nat.le_refl _, fun _ => h.live⟩ .nil)
  | accept i addr ws =>
    simp only [step] at hstep
    split at hstep
    · rename_i relayServers htask
      obtain ⟨⟨server, evs'⟩, hserver, hpair⟩ := Option.map_eq_some_iff.1 hstep
      cases hpair
      refine ⟨h.live, h.probe, h.results, ?_, ?_⟩
      · exact forall₂_set h.tasks (fun hdated => hdated.mono (List.nil_subset _)) i
      · obtain ⟨age, hage, hdated⟩ := forall₂_getElem? h.tasks htask
        have hopened : ages.tasks.getD i 0 = age := by
          rw [List.getD_eq_getElem?_getD, hage]
          rfl
        cases step_move hserver with
        | accept _ _ hconns =>
          rw [hconns, List.map_append]
          refine List.rel_append h.conns (.cons ?_ .nil)
          rw [hopened]
          exact hdated
        | silent hquiet => exact hquiet.elim
    · cases hstep
  | console text =>
    simp only [step] at hstep
    split at hstep
    · cases hstep
      exact h
    · split at hstep
      · cases hstep
        refine ⟨h.live, h.probe, ?_, h.tasks, h.conns⟩
        rw [List.filterMap_append]
        exact (List.append_nil _).symm ▸ h.results
      · cases hstep
  | timer =>
    simp only [step] at hstep
    split at hstep
    · rename_i hstart
      cases hstep
      simp only [listNotes, if_pos hstart]
      refine ⟨h.live, fun hp => ?_, h.results, h.tasks, h.conns⟩
      cases hp
      refine ⟨Nat.le_refl _, fun _ => ?_⟩
      rw [List.append_nil]
      exact List.filter_subset_self _
    · rename_i hstart
      cases hstep
      simp only [listNotes, if_neg hstart]
      exact h
  | answer i isUp =>
    simp only [step] at hstep
    split at hstep
    · rename_i rest up hp
      obtain ⟨x, hx, hpair⟩ := Option.map_eq_some_iff.1 hstep
      cases hpair
      refine ⟨h.live, fun hp' => ?_, h.results, h.tasks, h.conns⟩
      cases hp'
      refine (h.probe hp).mono (List.append_subset.2 ⟨?_, ?_⟩)
      · exact List.Subset.trans (List.eraseIdx_subset) (List.subset_append_left _ _)
      · split
        · refine List.append_subset.2 ⟨List.subset_append_right _ _, ?_⟩
          intro y hy
          cases List.mem_singleton.1 hy
          exact List.mem_append_left _ (List.mem_of_getElem? hx)
        · exact List.subset_append_right _ _
    · cases hstep
  | report =>
    simp only [step] at hstep
    split at hstep
    · rename_i hp
      cases hstep
      simp only [listNotes, hp]
      exact ⟨h.live, nofun, h.results, h.tasks, h.conns⟩
    · rename_i up hup hp
      split at hstep
      · cases hstep
        cases up with
        | nil => exact absurd rfl hup
        | cons x up =>
          simp only [listNotes, hp]
          refine ⟨h.live, nofun, ?_, h.tasks, h.conns⟩
          rw [List.filterMap_append]
          exact List.rel_append h.results (.cons (h.probe hp) .nil)
      · cases hstep
    · cases hstep
  | release =>
    simp only [step] at hstep
    split at hstep
    · cases hstep
      exact ⟨h.live, nofun, h.results, h.tasks, h.conns⟩
    · cases hstep
  | recv =>
    simp only [step] at hstep
    split at hstep
    · rename_i text queue hq
      have hqueue : queue.filterMap Data.result? = s.queue.filterMap Data.result? := by
        rw [hq]
        rfl
      simp only [listNotes, hq]
      unfold parseRelayServers at hstep
      cases hrs : getServers cfg.parseUrl "relay-servers" text with
      | ok rs =>
        rw [hrs] at hstep
        cases hstep
        exact h.replace hqueue rs
      | error err =>
        rw [hrs] at hstep
        cases hstep
        exact ⟨h.live, h.probe, hqueue ▸ h.results, h.tasks, h.conns⟩
    · rename_i names queue hq
      cases hstep
      simp only [listNotes, hq]
      have hresults := h.results
      rw [hq] at hresults
      obtain ⟨age, rest, hdated, hrest, heq⟩ := List.forall₂_cons_left_iff.1 hresults
      simp only [upToDate, hq, heq, List.head?_cons, beq_iff_eq, Option.some.injEq] at hok
      refine ⟨hdated.2 hok, h.probe, ?_, h.tasks, h.conns⟩
      rw [List.foldl_cons, List.foldl_nil, Ages.after, heq]
      exact hrest
    · cases hstep
  | rotate =>
    cases hstep
    exact ⟨h.live, h.probe, h.results, h.tasks, h.conns⟩

theorem run_known {now : Nat} {db : Database} {rs : List String} {notes : List Note}
    (h : Run (observed (step cfg) (listNotes cfg)) UpToDate (State.initial now db rs) notes s) :
    Known (Relays.ages notes) s := by
  refine h.inv (I := fun notes s => Known (Relays.ages notes) s)
    ⟨List.Subset.refl _, nofun, .nil, .nil, .nil⟩ fun _ hk hok hs => ?_
  obtain ⟨evs, hstep, rfl⟩ := observed_eq_some hs
  rw [ages_append]
  exact step_known hk hok hstep

end Known

/-! ## The relay of a request -/

section Route

variable {cfg : Rendezvous.Config} {s : Shared}

/-- No relay, the one of the local network, or one of a list. -/
def Offered (cfg : Rendezvous.Config) (relayServers : List String) (name : String) : Prop :=
  name = "" ∨ name = cfg.localIp ∨ name ∈ relayServers

/-- The rotation gives a relay of the list, and none if the list is empty. -/
theorem getRelayServer_cases (s : Shared) (relayServers : List String) :
    (s.getRelayServer relayServers).2 = "" ∨
      (s.getRelayServer relayServers).2 ∈ relayServers := by
  unfold Shared.getRelayServer
  split
  · exact Or.inl rfl
  · exact Or.inr (List.mem_singleton_self _)
  · rename_i servers hne _
    have hlt : s.rotation % relayServers.length < relayServers.length :=
      Nat.mod_lt _ (List.length_pos_iff.2 hne)
    rw [List.getD_eq_getElem?_getD, List.getElem?_eq_getElem hlt]
    exact Or.inr (List.getElem_mem hlt)

theorem getRelayServer_offered (s : Shared) (relayServers : List String) :
    Offered cfg relayServers (s.getRelayServer relayServers).2 :=
  (getRelayServer_cases s relayServers).imp_right Or.inr

theorem routePunchHole_offered (relayServers : List String) (ws : Bool)
    (addr peerAddr : SocketAddr) (ph : PunchHoleRequest) :
    Offered cfg relayServers
      (routePunchHole cfg s relayServers ws addr ph peerAddr).2.relayServer := by
  unfold routePunchHole
  dsimp only
  split
  · exact Or.inr (Or.inl rfl)
  · exact getRelayServer_offered s relayServers

theorem routeRelay_offered (relayServers : List String) (rf : RequestRelay)
    (peerAddr : SocketAddr) :
    Offered cfg relayServers (routeRelay cfg s relayServers rf peerAddr).2.relayServer := by
  unfold routeRelay
  split
  · exact Or.inr (Or.inl rfl)
  · exact getRelayServer_offered s relayServers

/-- What is newly given to a request comes from the list of the connection. -/
theorem offered_of_find {c : Nat} {link : Link} {ask : Ask} {route : Route}
    {result : Except String (Option (Bool × SocketAddr))}
    (h : (stepFind cfg s c link ask result).next = .go (.reserve route)) :
    Offered cfg link.relayServers route.relayServer := by
  unfold stepFind at h
  split at h
  · cases h
  · split at h <;> cases h
  · split at h <;> cases h
  · split at h
    · obtain rfl := Handler.reserve.inj (Next.go.inj h)
      exact routePunchHole_offered ..
    · obtain rfl := Handler.reserve.inj (Next.go.inj h)
      exact routeRelay_offered ..

/-- A handler that has found its peer has routed the request. -/
theorem stepFind_of_step {s s' : Rendezvous.State} {c : Nat} {ch : Choice} {evs : List Event}
    {link : Link} {ask : Ask} {j : Nat} {route : Route}
    (hstep : Rendezvous.step cfg s (.handle c ch) = some (s', evs))
    (hfind : s.conns[c]? = some ⟨link, .busy (.find ask j)⟩)
    (hroute : s'.conns[c]? = some ⟨link, .busy (.reserve route)⟩) :
    ∃ result, (stepFind cfg s.toShared c link ask result).next = .go (.reserve route) := by
  simp only [Rendezvous.step, hfind] at hstep
  obtain ⟨out, hout, hpair⟩ := Option.map_eq_some_iff.1 hstep
  cases hpair
  obtain ⟨result, -, rfl⟩ := Option.map_eq_some_iff.1 hout
  rw [Rendezvous.State.resume_conn hfind] at hroute
  obtain ⟨-, hstatus⟩ := Conn.mk.inj (Option.some.inj hroute)
  exact ⟨result, Next.eq_go_of_status hstatus⟩

end Route

/-- In every run whose steps are all up to date: a handler that gives a relay to a request
gives it none, the one of the local network, or one of the list that was accepted last. -/
theorem configured_relay {cfg : Config} {now : Nat} {db : Database} {rs : List String}
    {notes : List Note} {s : State}
    (hrun : Run (observed (step cfg) (listNotes cfg)) UpToDate (State.initial now db rs) notes s)
    {c : Nat} {ch : Choice} {s' : State} {evs : List Event}
    (hok : UpToDate notes s (.server (.handle c ch)))
    (hstep : step cfg s (.server (.handle c ch)) = some (s', evs)) {link : Link} {ask : Ask} {j : Nat}
    {route : Route} (hfind : s.server.conns[c]? = some ⟨link, .busy (.find ask j)⟩)
    (hroute : s'.server.conns[c]? = some ⟨link, .busy (.reserve route)⟩) :
    route.relayServer = "" ∨ route.relayServer = cfg.server.localIp ∨
      route.relayServer ∈ s.relayServers0 := by
  have hlink : (s.server.conns.map Conn.link)[c]? = some link := by
    rw [List.getElem?_map, hfind]
    rfl
  obtain ⟨age, hage, hdated⟩ := forall₂_getElem? (run_known hrun).conns hlink
  have hlast : age = (ages notes).replacements := by
    simpa [UpToDate, upToDate, hfind, hage] using hok
  simp only [step, opens, Bool.false_eq_true, if_false] at hstep
  obtain ⟨y, hy, hpair⟩ := Option.map_eq_some_iff.1 hstep
  cases hpair
  obtain ⟨result, hnext⟩ := stepFind_of_step hy hfind hroute
  rcases offered_of_find hnext with hnone | hlocal | hmem
  · exact Or.inl hnone
  · exact Or.inr (Or.inl hlocal)
  · exact Or.inr (Or.inr (hdated.2 hlast hmem))

/-! ## Concrete runs -/

/-- A parser that takes every entry for a host. -/
def sampleParseUrl (_ : String) : Option Url :=
  some ⟨some "relay.example.com", "", none, none, none, "", none⟩

def sampleConfig : Config := ⟨Rendezvous.sampleConfig, sampleParseUrl⟩

/-- Connection 0 registers a peer, and connection 1 has a relay request for it whose lookup
is done. -/
def relayAsked : List Action :=
  [.spawn, .accept 0 (sampleLink 1).addr false] ++ registered.tail.map .server ++
    [.spawn, .accept 1 (sampleLink 2).addr false] ++
    ((relayRequested 1 2 "key" 7).take 4).map .server

/-- The connection of host 2, with its copy of the list. -/
def sampleAsker (relayServers : List String) (handler : Handler) : Conn :=
  ⟨⟨(sampleLink 2).addr, false, relayServers⟩, .busy handler⟩

def sampleFind : Handler := .find (.relay (sampleRelay "key")) 2

def sampleRoute (relayServer : String) : Route :=
  ⟨.relay (sampleRelay "key"), (sampleLink 1).addr, .relay, relayServer⟩

theorem configured_relay_replaced :
    ∃ s notes s' evs, Run (observed (step sampleConfig) (listNotes sampleConfig)) UpToDate
      (State.initial 0 .empty ["r1", "r2"]) notes s ∧
      step sampleConfig s (.server (.handle 1 {})) = some (s', evs) ∧
      s'.server.conns[1]? = some (sampleAsker ["r3"] (.reserve (sampleRoute "r3"))) ∧
      ((sampleRoute "r3").relayServer = "" ∨
        (sampleRoute "r3").relayServer = sampleConfig.server.localIp ∨
        (sampleRoute "r3").relayServer ∈ s.relayServers0) := by
  obtain ⟨s, notes, hrun, hshow⟩ := exists_run_of_exec_guarded
    (observed (step sampleConfig) (listNotes sampleConfig)) UpToDate
    (State.initial 0 .empty ["r1", "r2"]) ([.console "r3", .recv] ++ relayAsked)
    (fun x => (step sampleConfig x.1 (.server (.handle 1 {}))).map fun (y : State × List Event) =>
      decide (UpToDate x.2 x.1 (.server (.handle 1 {})) ∧
        x.1.server.conns[1]? = some (sampleAsker ["r3"] sampleFind) ∧
        y.1.server.conns[1]? = some (sampleAsker ["r3"] (.reserve (sampleRoute "r3")))))
    (b := some true) (by decide +kernel)
  obtain ⟨⟨s', evs⟩, hstep, hfacts⟩ := Option.map_eq_some_iff.1 hshow
  obtain ⟨hok, hfind, hroute⟩ := of_decide_eq_true hfacts
  exact ⟨s, notes, s', evs, hrun, hstep, hroute, configured_relay hrun hok hstep hfind hroute⟩

/-- A probe is started, the list is replaced, and then the result of the probe arrives.  A
connection that was accepted after all that hands out a relay that was removed. -/
theorem stale_relay :
    ∃ s notes s' evs, Run (observed (step sampleConfig) (listNotes sampleConfig)) anything
      (State.initial 0 .empty ["r1", "r2"]) notes s ∧
      step sampleConfig s (.server (.handle 1 {})) = some (s', evs) ∧
      s.server.conns[1]? = some (sampleAsker ["r1", "r2"] sampleFind) ∧
      s'.server.conns[1]? = some (sampleAsker ["r1", "r2"] (.reserve (sampleRoute "r1"))) ∧
      s.relayServers0 = ["r3"] ∧ "r1" ≠ sampleConfig.server.localIp := by
  obtain ⟨s, notes, hrun, hshow⟩ := exists_run_of_exec
    (observed (step sampleConfig) (listNotes sampleConfig)) (State.initial 0 .empty ["r1", "r2"])
    ([.timer, .answer 0 true, .answer 0 true, .console "r3", .recv, .report, .release, .recv] ++
      relayAsked)
    (fun x => (step sampleConfig x.1 (.server (.handle 1 {}))).map fun (y : State × List Event) =>
      decide (x.1.server.conns[1]? = some (sampleAsker ["r1", "r2"] sampleFind) ∧
        y.1.server.conns[1]? = some (sampleAsker ["r1", "r2"] (.reserve (sampleRoute "r1"))) ∧
        x.1.relayServers0 = ["r3"] ∧ "r1" ≠ sampleConfig.server.localIp))
    (b := some true) (by decide +kernel)
  obtain ⟨⟨s', evs⟩, hstep, hfacts⟩ := Option.map_eq_some_iff.1 hshow
  exact ⟨s, notes, s', evs, hrun, hstep, of_decide_eq_true hfacts⟩

end RemoteServer.Rendezvous.Relays
