import RemoteServer.PeerStore.Phases
import RemoteServer.PeerStore.Coherence

/-!
# Two authorizations of one id

In managed mode the management API decides who an id belongs to, and a registration
that it approved replaces whatever the peer holds.  Nothing orders the stagings of two
approved registrations, so the one that was approved first may be staged last.

* `InOrder` is the condition: the second registration is staged only when the first
  one is not cleared and unstaged, and the id is not evicted while a lookup that read
  its row is about to offer it.
* `Held` says that memory and table show one identity and that nobody is storing
  another one.  No step changes that while no registration is unstaged
  (`Effect.held`).
* `newer_authorization_wins` is the result, and `stale_authorization_wins` a run in
  which the condition is not met.
-/

namespace RemoteServer.PeerStore

open RustStd Lts

/-! ## Offers -/

/-- A peer that is offered without a row is offered by a cleared handler. -/
def Task.OffersOwn (t : Task) : Prop :=
  ∀ id f, t.cargo = some (.fresh id f) → f.loaded = false → t.phase id = .cleared

theorem Call.offersOwn_absent {cfg : Config} (call : Call) (now : Nat) :
    (call.absent cfg now).OffersOwn := by
  intro id f hc _
  cases call with
  | registerPk =>
    cases hc
    exact if_pos rfl
  | _ => cases hc

theorem Task.offersOwn_of_cargo {t : Task} (h : t.cargo = none) : t.OffersOwn := by
  intro id f hc
  rw [h] at hc
  cases hc

/-- Passing an offer on keeps it with its handler. -/
theorem Task.OffersOwn.pass {t u : Task} (h : t.OffersOwn) (hcargo : u.cargo = t.cargo)
    (hphase : ∀ id, u.phase id = t.phase id) : u.OffersOwn := by
  intro id f hc hloaded
  rw [hphase]
  exact h id f (hcargo ▸ hc) hloaded

theorem Move.offersOwn {cfg : Config} {s : State} {i : Nat} {t : Task} {out : Outcome}
    (h : Move cfg s i t out) (ht : t.OffersOwn) : out.task.OffersOwn := by
  cases h with
  | loadAbsent => exact Call.offersOwn_absent _ _
  | loaded =>
    intro id f hc hloaded
    cases hc
    cases hloaded
  | touched => exact Task.offersOwn_of_cargo (Call.cargo_resume _ _)
  | cached => exact Task.offersOwn_of_cargo (Call.cargo_resume _ _)
  | inserted => exact Task.offersOwn_of_cargo (Call.cargo_resume _ _)
  | loadFailed => exact Task.offersOwn_of_cargo (Call.cargo_failed _ _)
  | refuse _ _ hres => exact Task.offersOwn_of_cargo (Task.cargo_of_refused hres)
  | toWrite => exact ht.pass rfl fun _ => rfl
  | toEvict hpc => exact ht.pass (Lookup.cargo_offer hpc).symm fun _ => rfl
  | @noRoom call f =>
    unfold returnNoRoom
    dsimp only
    split
    · exact Call.offersOwn_absent _ _
    · split
      · exact Task.offersOwn_of_cargo rfl
      · exact Call.offersOwn_absent _ _
  | @scan caller =>
    refine ht.pass ?_ fun _ => ?_
    · cases caller <;> rfl
    · cases caller <;> rfl
  | @evicted caller =>
    refine ht.pass (caller.cargo_resume _) fun _ => ?_
    cases caller <;> rfl
  | joined =>
    dsimp only
    split <;> exact fun _ _ hc => by cases hc
  | _ => exact fun _ _ hc => by cases hc

theorem run_offersOwn {cfg : Config} {ok : List Event → State → Action → Prop} {now : Nat}
    {db : Database} {tr : List Event} {s : State}
    (h : Run (step cfg) ok (State.initial now db) tr s) {i : Nat} {t : Task}
    (hi : s.tasks[i]? = some t) : t.OffersOwn := by
  refine run_tasks (P := fun _ _ t => t.OffersOwn) (fun _ ht => ht)
    (fun _ _ r => Task.offersOwn_of_cargo r.cargo_start) (fun hm ht => hm.offersOwn ht) ?_ h hi
  intro tr s i t out hm _ u hu _
  obtain ⟨p, rfl, -⟩ := hm.spawned_eq hu
  exact fun _ _ hc => by cases hc

/-! ## One identity in memory and in the table -/

/-- A peer of the id `id₀` in memory is the whole row; of the others only the `guid`
is compared. -/
def Criterion.focused (cfg : Config) (id₀ : PeerId) : Criterion cfg where
  rel := fun id row x => row.guid = x.guid ∧ (id = id₀ → Matches cfg.infoCodec row x)
  strict := fun _ => false
  stable := fun id => decide (id ≠ id₀)
  claimed := false
  guid_eq := And.left
  of_row := fun _ hinfo => ⟨rfl, fun _ => ⟨rfl, rfl, rfl, hinfo⟩⟩
  of_guid := fun hstable hrel hguid =>
    ⟨hguid.trans hrel.1, fun hid => absurd hid (of_decide_eq_true hstable)⟩

/-- The row has the identity, so has the peer if there is one, and nothing is being
stored for the id. -/
structure Held (v : View) (id : PeerId) (uuid pk : Bytes) : Prop where
  idle : v.busy id = false
  row : ∃ row, v.db.getPeer id = some row ∧ row.uuid = uuid ∧ row.pk = pk
  peer : ∀ {p}, v.cached id = some p → p.uuid = uuid ∧ p.pk = pk

section Held

variable {cfg : Config} {r : Registry} {i : Nat} {c c' : Option Cargo} {v : View}
  {spawned : List Persist} {evs : List Event} {id : PeerId} {uuid pk : Bytes}

/-- A peer with a `uuid` outside a persistence shows its row. -/
theorem Agreement.held (ha : Agreement (Criterion.focused cfg id) r) {p : Peer}
    (hp : r.cached id = some p) (hbusy : p.persistenceInProgress = false) (hne : p.uuid ≠ []) :
    Held r.toView id p.uuid p.pk := by
  refine ⟨by rw [View.busy_of_cached hp, hbusy], ?_, fun {q} hq => ?_⟩
  · rcases ha.peer hp hbusy with ⟨hblank, -⟩ | ⟨row, hrow, -, hmatch⟩
    · exact absurd hblank.uuid hne
    · exact ⟨row, hrow, (hmatch rfl).uuid, (hmatch rfl).pk⟩
  · obtain rfl : p = q := Option.some.inj (hp.symm.trans hq)
    exact ⟨rfl, rfl⟩

/-- A persistence that ends well leaves its identity. -/
theorem Agreement.held_commit {k : Criterion cfg} (ha : Agreement k r) {p : Persist} {guid : Bytes}
    (hc : some (.ended p (some guid)) ∈ r.cargos) {peer : Peer} (hp : r.cached p.id = some peer)
    {managed : Bool} {now : Nat} :
    Held (r.set p.id (peer.commit guid managed now)) p.id p.uuid p.pk := by
  obtain ⟨⟨info, peer', -, hcached, hid⟩, hrow⟩ := ha.cargo hc
  obtain rfl : peer = peer' := Option.some.inj (hp.symm.trans hcached)
  refine ⟨?_, ⟨_, hrow, rfl, rfl⟩, fun {q} hq => ?_⟩
  · rw [View.busy_set, if_pos rfl]
    rfl
  · rw [View.cached_set_self] at hq
    cases hq
    exact ⟨congrArg Peer.Identity.uuid hid, congrArg Peer.Identity.pk hid⟩

/-- No step changes a held identity, except a staging for the id and the offer of a
peer without a row. -/
theorem Effect.held (h : Effect cfg r i c v c' spawned evs) (he : Exclusive r)
    (ha : Agreement (Criterion.focused cfg id) r) (hi : r.cargos[i]? = some c)
    (hspawned : ∀ p ∈ spawned, p.id ≠ id) (hloaded : ∀ f, c = some (.fresh id f) → f.loaded = true)
    (hheld : Held r.toView id uuid pk) : Held v id uuid pk := by
  have hopens : ∀ {d : Option Cargo}, r.cargos[i]? = some d → opens id d = false := by
    intro d hd
    by_contra hopen
    have := he.busy_of_opens hd (by simpa using hopen)
    rw [hheld.idle] at this
    cases this
  have hpending : ∀ {p : Persist}, c.bind Cargo.pending = some p → id ≠ p.id := by
    rintro p hp rfl
    have := hopens hi
    rw [opens_of_pending hp] at this
    cases this
  obtain ⟨row, hrow, huuid, hpk⟩ := hheld.row
  have hrow' : v.db.getPeer id = some row :=
    (h.row_eq_of_idle he ha hi hheld.idle).trans hrow
  refine ⟨?_, ⟨row, hrow', huuid, hpk⟩, fun {q} hq => ?_⟩
  · have hbal := h.balance he hi id
    have hopens' : opens id c' = false := by
      by_contra hopen
      rw [Bool.not_eq_false, opens, decide_eq_true_iff, Option.map_eq_some_iff] at hopen
      obtain ⟨p, hp, hid⟩ := hopen
      exact hpending (h.pending_eq hp) hid.symm
    have hnone : (spawned.map fun p => some (.write p)).countP (opens id) = 0 := by
      refine List.countP_eq_zero.2 fun d hd hopen => ?_
      obtain ⟨p, hp, rfl⟩ := List.mem_map.1 hd
      exact hspawned p hp (Option.some.inj (of_decide_eq_true hopen))
    have hidle : r.busy id = false := hheld.idle
    rw [hopens hi, hopens', hidle, hnone] at hbal
    cases hbusy : v.busy id with
    | false => rfl
    | true =>
      rw [hbusy] at hbal
      cases hbal
  · -- the peer is the old one, or it was loaded from the row
    have hset : ∀ {id' : PeerId} {p₀ p' : Peer}, r.cached id' = some p₀ → p'.uuid = p₀.uuid →
        p'.pk = p₀.pk → (r.set id' p').cached id = some q → q.uuid = uuid ∧ q.pk = pk := by
      intro id' p₀ p' hp₀ hu hk hq
      rcases View.cached_set_cases hq with ⟨rfl, rfl⟩ | ⟨-, hq⟩
      · exact ⟨hu.trans (hheld.peer hp₀).1, hk.trans (hheld.peer hp₀).2⟩
      · exact hheld.peer hq
    have hother : ∀ {id' : PeerId} {p' : Peer}, id ≠ id' → (r.set id' p').cached id = some q →
        q.uuid = uuid ∧ q.pk = pk := by
      intro id' p' hne hq
      rcases View.cached_set_cases hq with ⟨he, -⟩ | ⟨-, hq⟩
      · exact absurd he hne
      · exact hheld.peer hq
    cases h with
    | @insert id' f _ hcached =>
      rcases View.cached_set_cases hq with ⟨rfl, rfl⟩ | ⟨-, hq⟩
      · have hagrees : f.Agrees (Criterion.focused cfg id) r.toView id :=
          ha.cargo (List.mem_of_getElem? hi)
        obtain ⟨row', hr, -, hmatch⟩ := hagrees.loaded (hloaded f rfl) (Or.inl hcached)
        obtain rfl : row = row' := Option.some.inj (hrow.symm.trans hr)
        exact ⟨(hmatch rfl).uuid.symm.trans huuid, (hmatch rfl).pk.symm.trans hpk⟩
      · exact hheld.peer hq
    | evict _ hsub =>
      rcases hsub id with hsame | hgone
      · exact hheld.peer (hsame ▸ hq)
      · rw [hgone] at hq
        cases hq
    | edit hp hedit =>
      exact hset hp (congrArg Peer.Identity.uuid hedit.identity_eq)
        (congrArg Peer.Identity.pk hedit.identity_eq) hq
    | acceptSame hp => exact hset hp (by rfl) (by rfl) hq
    | acceptVerified hp => exact hset hp (by rfl) (by rfl) hq
    | stage => exact hother (fun he => hspawned _ (List.mem_singleton_self _) he.symm) hq
    | commit => exact hother (hpending rfl) hq
    | rollback => exact hother (hpending rfl) hq
    | _ => exact hheld.peer hq

end Held

/-! ## The second registration -/

/-- The `RegisterPk` that a handler has staged, or found unchanged, as long as it may
still be answered `OK`. -/
def Task.staged? : Task → Option RegisterPk
  | .unchanged _ rk _ => some rk
  | .join _ rk _ _ _ => some rk
  | .recordIp _ rk _ => some rk
  | .done (.registerPk _ rk (.ok .ok)) => some rk
  | _ => none

/-- The handler has nothing to wait for but its answer `OK`. -/
inductive Decides (tasks : List Task) : Task → RegisterPk → Prop where
  | unchanged {origin : Origin} {rk : RegisterPk} {o : Nat} :
      Decides tasks (.unchanged origin rk o) rk
  | stored {origin : Origin} {rk : RegisterPk} {o j : Nat} {ipChanged : Bool} {p : Persist}
      (hj : tasks[j]? = some (.done (.persisted p true))) :
      Decides tasks (.join origin rk o ipChanged j) rk
  | recordIp {origin : Origin} {rk : RegisterPk} {o : Nat} :
      Decides tasks (.recordIp origin rk o) rk
  | answered {origin : Origin} {rk : RegisterPk} :
      Decides tasks (.done (.registerPk origin rk (.ok .ok))) rk

theorem Decides.staged? {tasks : List Task} {t : Task} {rk : RegisterPk} (h : Decides tasks t rk) :
    t.staged? = some rk := by
  cases h <;> rfl

theorem Task.phase_of_staged? {t : Task} {rk : RegisterPk} (h : t.staged? = some rk)
    (id : PeerId) : t.phase id = .settled := by
  cases t with
  | unchanged => rfl
  | join => rfl
  | recordIp => rfl
  | done => rfl
  | _ => cases h

section Moves

variable {cfg : Config} {s : State} {i : Nat} {t : Task} {out : Outcome} {rk : RegisterPk}

theorem Call.staged?_resume (call : Call) (o : Nat) : (call.resume o).staged? = none := by
  cases call <;> rfl

theorem Call.staged?_failed (call : Call) (err : String) : (call.failed err).staged? = none := by
  cases call <;> rfl

theorem Call.staged?_absent (call : Call) (now : Nat) : (call.absent cfg now).staged? = none := by
  cases call <;> rfl

theorem returnNoRoom_staged? (store : Store) (call : Call) (f : Fresh) :
    (returnNoRoom cfg store call f).task.staged? = none := by
  unfold returnNoRoom
  dsimp only
  split
  · exact Call.staged?_absent _ _
  · cases call <;> rfl

/-- A handler comes past its staging by staging. -/
theorem Move.staged_cases (h : Move cfg s i t out) (hrk : out.task.staged? = some rk) :
    t.staged? = some rk ∨ ∃ origin managed o, t = .stage origin rk managed o := by
  cases h with
  | stageSame =>
    cases hrk
    exact Or.inr ⟨_, _, _, rfl⟩
  | stageSameManaged =>
    cases hrk
    exact Or.inr ⟨_, _, _, rfl⟩
  | stagePersist =>
    cases hrk
    exact Or.inr ⟨_, _, _, rfl⟩
  | verifiedNow => exact Or.inl hrk
  | @joined origin rk' o j ipChanged =>
    refine Or.inl ?_
    cases ipChanged <;> exact hrk
  | recorded => exact Or.inl hrk
  | @refuse _ _ _ _ res _ _ hres =>
    cases res with
    | error => cases hrk
    | ok r =>
      cases r with
      | ok => exact absurd rfl hres
      | _ => cases hrk
  | touched => rw [returnObject, Call.staged?_resume] at hrk; cases hrk
  | cached => rw [returnObject, Call.staged?_resume] at hrk; cases hrk
  | inserted => rw [returnInserted, returnObject, Call.staged?_resume] at hrk; cases hrk
  | loadFailed => rw [Call.staged?_failed] at hrk; cases hrk
  | loadAbsent => rw [Call.staged?_absent] at hrk; cases hrk
  | noRoom => rw [returnNoRoom_staged?] at hrk; cases hrk
  | @evicted caller => cases caller <;> cases hrk
  | _ => cases hrk

/-- A handler is decided when it finds its registration unchanged, or when its
persistence task is. -/
theorem Move.decides_cases (h : Move cfg s i t out) (hi : s.tasks[i]? = some t)
    (hd : Decides (s.after i out).tasks out.task rk) :
    Decides s.tasks t rk ∨ ∃ origin managed o p, t = .stage origin rk managed o ∧
      out.spawned = [] ∧ stagePeerRegistration cfg.infoCodec (s.peers o) origin.addr rk.uuid rk.pk
        origin.addr.ip.toString managed s.now = (p, .unchanged) := by
  rcases h.staged_cases hd.staged? with hstaged | ⟨origin, managed, o, rfl⟩
  · refine Or.inl ?_
    cases h with
    | verifiedNow =>
      cases hstaged
      exact .unchanged
    | joined hj =>
      cases hstaged
      exact .stored hj
    | joinedFailed => cases hd
    | recorded =>
      cases hstaged
      exact .recordIp
    | refuse hreg =>
      cases t with
      | allowIp => cases hstaged
      | verify => cases hstaged
      | stage => cases hstaged
      | _ => cases hreg
    | _ => cases hstaged
  · refine Or.inr ⟨origin, managed, o, ?_⟩
    cases h with
    | stageSame hstage => exact ⟨_, rfl, rfl, hstage⟩
    | stageSameManaged hstage => exact ⟨_, rfl, rfl, hstage⟩
    | refuse hreg _ hres =>
      cases hreg
      cases hd
      exact absurd rfl hres
    | stagePersist =>
      -- the task that was just spawned is not done
      cases hd with
      | stored hj => cases getElem?_advance_spawned.symm.trans hj

/-- A persistence task ends well by a commit. -/
theorem Move.persisted_eq (h : Move cfg s i t out) {p : Persist}
    (htask : out.task = .done (.persisted p true)) : ∃ guid, t = .persistEnd p (some guid) := by
  cases h with
  | committed =>
    cases htask
    exact ⟨_, rfl⟩
  | @touched call => cases call <;> cases htask
  | @cached call => cases call <;> cases htask
  | @inserted call => cases call <;> cases htask
  | @loadFailed call => cases call <;> cases htask
  | @loadAbsent call => cases call <;> cases htask
  | @noRoom call =>
    unfold returnNoRoom at htask
    cases call <;> dsimp only at htask <;> split at htask <;> cases htask
  | @evicted caller => cases caller <;> cases htask
  | joined =>
    dsimp only at htask
    split at htask <;> cases htask
  | _ => cases htask

end Moves

/-! ## The condition and the invariant -/

/-- The setting: the only `RegisterPk` requests for the id are those of the handlers
`i₁` and `i₂`, and the verification of the second begins after that of the first has
returned. -/
structure TwoRequests (cfg : Config) (id : PeerId) (i₁ i₂ : Nat) (tr : List Event) (s : State)
    (a : Action) : Prop where
  only : ∀ {origin rk}, a = .call (.registerPk origin rk) → rk.id = id →
    s.tasks.length = i₁ ∨ s.tasks.length = i₂
  after : ∀ {s' evs}, step cfg s a = some (s', evs) → Event.verifying i₂ id ∈ evs →
    Event.verified i₁ id ∈ tr

/-- The condition: `i₂` is not staged while `i₁` is between its verification and its
staging, and the id is not removed from the cache while a lookup that read its row is
about to offer it. -/
structure InOrder (id : PeerId) (i₁ i₂ : Nat) (s : State) (a : Action) : Prop where
  staged : ∀ {ch origin rk managed o t}, a = .run i₂ ch →
    s.tasks[i₂]? = some (.stage origin rk managed o) → rk.id = id → s.tasks[i₁]? = some t →
    t.phase id ≠ .cleared
  evict : Evicts s a id → ¬ Offered s id true

/-- No `RegisterPk` for the id is before its staging, and none will come. -/
structure Quiet (id : PeerId) (i₁ : Nat) (tr : List Event) (s : State) : Prop where
  verified : Event.verified i₁ id ∈ tr
  settled : ∀ {k : Nat} {t : Task}, s.tasks[k]? = some t → t.phase id = .settled

structure Sequenced (id : PeerId) (i₁ i₂ : Nat) (tr : List Event) (s : State) : Prop where
  only : ∀ {k : Nat} {t : Task}, s.tasks[k]? = some t → t.phase id ≠ .settled → k = i₁ ∨ k = i₂
  first : Event.verified i₁ id ∈ tr →
    ∃ t, s.tasks[i₁]? = some t ∧ (t.phase id = .cleared ∨ t.phase id = .settled)
  second : ∀ {t : Task}, s.tasks[i₂]? = some t → t.phase id = .verifying ∨ t.phase id = .cleared →
    Event.verified i₁ id ∈ tr
  quiet : ∀ {t : Task} {rk}, s.tasks[i₂]? = some t → t.staged? = some rk → rk.id = id → Quiet id i₁ tr s
  held : ∀ {t rk}, s.tasks[i₂]? = some t → Decides s.tasks t rk → rk.id = id →
    Held s.view id rk.uuid rk.pk

section Step

variable {cfg : Config} {id : PeerId} {i₁ i₂ : Nat} {tr : List Event} {s : State}

theorem InOrder.orderly {s' : State} {a : Action} {evs : List Event} (hok : InOrder id i₁ i₂ s a)
    (h : step cfg s a = some (s', evs)) :
    Orderly (Criterion.focused cfg id) (s.registry cfg) (s'.registry cfg) := by
  refine orderly_of_step h (fun {id' f} hev hoffer => ?_) fun _ _ _ hstrict => by cases hstrict
  obtain ⟨t, ht, hcargo⟩ := hoffer
  unfold Criterion.Tolerates
  split
  · rename_i hloaded
    refine decide_eq_true ?_
    rintro rfl
    exact hok.evict hev ⟨t, ht, f, hcargo, hloaded⟩
  · rfl

/-- A request arrives. -/
theorem Sequenced.call (hs : Sequenced id i₁ i₂ tr s) (r : Request)
    (hok : TwoRequests cfg id i₁ i₂ tr s (.call r)) :
    Sequenced id i₁ i₂ tr { s with tasks := s.tasks ++ [r.start] } := by
  have hcases : ∀ {k : Nat} {t : Task}, (s.tasks ++ [r.start])[k]? = some t →
      s.tasks[k]? = some t ∨ k = s.tasks.length ∧ t = r.start := by
    intro k t hk
    rw [List.getElem?_append] at hk
    split at hk
    · exact Or.inl hk
    · rename_i hge
      have hlt := (List.getElem?_eq_some_iff.1 hk).1
      rw [List.length_singleton] at hlt
      exact Or.inr ⟨by omega, List.mem_singleton.1 (List.mem_of_getElem? hk)⟩
  have hlen : ∀ {k : Nat} {t : Task}, s.tasks[k]? = some t → k < s.tasks.length :=
    fun hk => (List.getElem?_eq_some_iff.1 hk).1
  have hnew : r.start.phase id ≠ .settled → s.tasks.length = i₁ ∨ s.tasks.length = i₂ := by
    intro hphase
    obtain ⟨origin, rk, rfl, hid⟩ := r.phase_start hphase
    exact hok.only rfl hid
  have hstart : ∀ {j : Nat} {p : Persist}, (s.tasks ++ [r.start])[j]? =
      some (.done (.persisted p true)) → s.tasks[j]? = some (.done (.persisted p true)) := by
    intro j p hj
    rcases hcases hj with hj | ⟨-, hj⟩
    · exact hj
    · have := congrArg Task.cargo hj
      rw [r.cargo_start] at this
      cases this
  have hstaged : r.start.staged? = none := by
    cases r with
    | getPk version id' =>
      unfold Request.start
      dsimp only
      split <;> rfl
    | _ => rfl
  refine ⟨fun {k t} hk hphase => ?_, fun hev => ?_, fun {t} hk hphase => ?_,
    fun {t rk} hk hrk hid => ?_, fun {t rk} hk hd hid => ?_⟩
  · rcases hcases hk with hk | ⟨rfl, rfl⟩
    · exact hs.only hk hphase
    · exact hnew hphase
  · obtain ⟨t, ht, hphase⟩ := hs.first hev
    exact ⟨t, by rw [List.getElem?_append_left (hlen ht)]; exact ht, hphase⟩
  · rcases hcases hk with hk | ⟨-, rfl⟩
    · exact hs.second hk hphase
    · -- a request starts before its verification
      exfalso
      have hne : r.start.phase id ≠ .settled := by rcases hphase with h | h <;> simp [h]
      obtain ⟨origin, rk, rfl, hid⟩ := r.phase_start hne
      rcases hphase with h | h <;> simp [Request.start, Task.phase, hid] at h
  · rcases hcases hk with hk | ⟨-, rfl⟩
    · have hq := hs.quiet hk hrk hid
      refine ⟨hq.verified, fun {k t} hk' => ?_⟩
      rcases hcases hk' with hk' | ⟨-, rfl⟩
      · exact hq.settled hk'
      · by_contra hphase
        obtain ⟨t₁, ht₁, -⟩ := hs.first hq.verified
        have h₁ := hlen ht₁
        have h₂ := hlen hk
        rcases hnew hphase with he | he <;> omega
    · rw [hstaged] at hrk
      cases hrk
  · rcases hcases hk with hk | ⟨-, rfl⟩
    · refine hs.held hk ?_ hid
      cases hd with
      | unchanged => exact .unchanged
      | stored hj => exact .stored (hstart hj)
      | recordIp => exact .recordIp
      | answered => exact .answered
    · have := hd.staged?
      rw [hstaged] at this
      cases this

variable {i : Nat} {t : Task} {out : Outcome}

/-- A move keeps what concerns the phases. -/
theorem Sequenced.move_phases (hs : Sequenced id i₁ i₂ tr s) (hm : Move cfg s i t out)
    (hi : s.tasks[i]? = some t) (hmode : cfg.allowUnmanagedDevices = false)
    (hafter : i = i₂ → Event.verifying i₂ id ∈ out.events → Event.verified i₁ id ∈ tr) :
    (∀ {k : Nat} {u : Task}, (s.after i out).tasks[k]? = some u → u.phase id ≠ .settled → k = i₁ ∨ k = i₂) ∧
    (Event.verified i₁ id ∈ tr ++ out.events → ∃ u, (s.after i out).tasks[i₁]? = some u ∧
      (u.phase id = .cleared ∨ u.phase id = .settled)) ∧
    ∀ {u : Task}, (s.after i out).tasks[i₂]? = some u →
      u.phase id = .verifying ∨ u.phase id = .cleared → Event.verified i₁ id ∈ tr ++ out.events := by
  have hnext : Phase.Next i id out.events (t.phase id) (out.task.phase id) := hm.phase hmode
  have hspawned : ∀ {u : Task}, u ∈ out.spawned → u.phase id = .settled := by
    intro u hu
    obtain ⟨p, rfl, -⟩ := hm.spawned_eq hu
    rfl
  refine ⟨fun {k u} hk hphase => ?_, fun hev => ?_, fun {u} hk hphase => ?_⟩
  · rcases getElem?_advance hk with ⟨rfl, rfl⟩ | ⟨-, hk⟩ | ⟨-, hk⟩
    · refine hs.only hi fun hsettled => hphase ?_
      rw [hsettled] at hnext
      generalize out.task.phase id = q at hnext
      cases hnext <;> rfl
    · exact hs.only hk hphase
    · exact absurd (hspawned (List.mem_of_getElem? hk)) hphase
  · rcases List.mem_append.1 hev with hev | hev
    · obtain ⟨t₁, ht₁, hphase⟩ := hs.first hev
      by_cases h₁ : i₁ = i
      · subst h₁
        obtain rfl : t = t₁ := Option.some.inj (hi.symm.trans ht₁)
        refine ⟨out.task, getElem?_advance_self hi, ?_⟩
        rcases hphase with hp | hp
        · rw [hp] at hnext
          generalize out.task.phase id = q at hnext ⊢
          cases hnext
          · exact Or.inl rfl
          · exact Or.inr rfl
        · rw [hp] at hnext
          generalize out.task.phase id = q at hnext ⊢
          cases hnext <;> exact Or.inr rfl
      · exact ⟨t₁, getElem?_advance_of_ne h₁ ht₁, hphase⟩
    · obtain ⟨rfl, hphase⟩ := hm.phase_of_verified hev
      exact ⟨out.task, getElem?_advance_self hi, Or.inl hphase⟩
  · refine List.mem_append_left _ ?_
    rcases getElem?_advance hk with ⟨rfl, rfl⟩ | ⟨-, hk⟩ | ⟨-, hk⟩
    · generalize hq : out.task.phase id = q at hnext hphase
      generalize hp : t.phase id = p at hnext
      cases hnext with
      | stay => exact hs.second hi (hp ▸ hphase)
      | ask hev => exact hafter rfl hev
      | clear => exact hs.second hi (Or.inl hp)
      | leave => rcases hphase with h | h <;> cases h
    · exact hs.second hk hphase
    · rw [hspawned (List.mem_of_getElem? hk)] at hphase
      rcases hphase with h | h <;> cases h

/-- No move brings a registration back before its staging. -/
theorem Quiet.move (hq : Quiet id i₁ tr s) (hm : Move cfg s i t out)
    (hi : s.tasks[i]? = some t) (hmode : cfg.allowUnmanagedDevices = false) :
    Quiet id i₁ (tr ++ out.events) (s.after i out) := by
  refine ⟨List.mem_append_left _ hq.verified, fun {k u} hk => ?_⟩
  rcases getElem?_advance hk with ⟨rfl, rfl⟩ | ⟨-, hk⟩ | ⟨-, hk⟩
  · have hnext : Phase.Next k id out.events (t.phase id) (out.task.phase id) := hm.phase hmode
    rw [hq.settled hi] at hnext
    generalize out.task.phase id = q at hnext ⊢
    cases hnext <;> rfl
  · exact hq.settled hk
  · obtain ⟨p, rfl, -⟩ := hm.spawned_eq (List.mem_of_getElem? hk)
    rfl

/-- The staging of the second registration leaves none before its staging. -/
theorem Sequenced.quiet_of_stage (hs : Sequenced id i₁ i₂ tr s) (hm : Move cfg s i₂ t out)
    (hi : s.tasks[i₂]? = some t) {origin : Origin} {rk : RegisterPk} {managed : Bool} {o : Nat}
    (ht : t = .stage origin rk managed o) (hid : rk.id = id)
    (hfirst : ∀ {u : Task}, s.tasks[i₁]? = some u → u.phase id ≠ .cleared)
    (hsettled : out.task.phase id = .settled) : Quiet id i₁ (tr ++ out.events) (s.after i₂ out) := by
  have hev : Event.verified i₁ id ∈ tr := by
    refine hs.second hi (Or.inr ?_)
    rw [ht]
    exact if_pos hid
  obtain ⟨t₁, ht₁, hphase₁⟩ := hs.first hev
  refine ⟨List.mem_append_left _ hev, fun {k u} hk => ?_⟩
  rcases getElem?_advance hk with ⟨rfl, rfl⟩ | ⟨hne, hk⟩ | ⟨-, hk⟩
  · exact hsettled
  · by_contra hphase
    rcases hs.only hk hphase with rfl | rfl
    · obtain rfl : u = t₁ := Option.some.inj (hk.symm.trans ht₁)
      rcases hphase₁ with hc | ho
      · exact hfirst hk hc
      · exact hphase ho
    · exact hne rfl
  · obtain ⟨p, rfl, -⟩ := hm.spawned_eq (List.mem_of_getElem? hk)
    rfl

/-- What is known of every state of a run under the condition. -/
structure Reached (cfg : Config) (id : PeerId) (s : State) : Prop where
  wellFormed : WellFormed s
  handled : Handled cfg s
  exclusive : Exclusive (s.registry cfg)
  agreement : Agreement (Criterion.focused cfg id) (s.registry cfg)
  offersOwn : ∀ {k : Nat} {t : Task}, s.tasks[k]? = some t → t.OffersOwn

theorem Move.held (hm : Move cfg s i t out) (hr : Reached cfg id s) (hi : s.tasks[i]? = some t)
    {uuid pk : Bytes} (hspawned : ∀ p, Task.persistWrite p ∈ out.spawned → p.id ≠ id)
    (hloaded : ∀ f, t.cargo = some (.fresh id f) → f.loaded = true)
    (hheld : Held s.view id uuid pk) : Held out.store.view id uuid pk := by
  obtain ⟨spawned, hsp, heff⟩ := hm.effect hr.wellFormed hr.handled hi
  refine heff.held hr.exclusive hr.agreement (registry_getElem? hi) (fun p hp => ?_) hloaded hheld
  have hmem : some (Cargo.write p) ∈ out.spawned.map Task.cargo := by
    rw [hsp]
    exact List.mem_map.2 ⟨p, hp, rfl⟩
  obtain ⟨u, hu, hcargo⟩ := List.mem_map.1 hmem
  obtain ⟨p', rfl, -⟩ := hm.spawned_eq hu
  cases hcargo
  exact hspawned p hu

/-- The same when the task that moves is not before a staging for the id. -/
theorem Move.held_of_settled (hm : Move cfg s i t out) (hr : Reached cfg id s)
    (hi : s.tasks[i]? = some t) {uuid pk : Bytes} (hsettled : t.phase id = .settled)
    (hheld : Held s.view id uuid pk) : Held out.store.view id uuid pk := by
  refine hm.held hr hi (fun p hp hid => ?_) (fun f hf => ?_) hheld
  · obtain ⟨p', he, hphase⟩ := hm.spawned_eq hp
    cases he
    rw [hid, hsettled] at hphase
    cases hphase
  · by_contra hloaded
    have := hr.offersOwn hi id f hf (by simpa using hloaded)
    rw [hsettled] at this
    cases this

/-- The commit of a persistence task puts its identity in place. -/
theorem Reached.held_commit (hr : Reached cfg id s) {p : Persist} {guid : Bytes}
    (hm : Move cfg s i (.persistEnd p (some guid)) out)
    (hi : s.tasks[i]? = some (.persistEnd p (some guid))) :
    Held out.store.view p.id p.uuid p.pk := by
  have hget : s.map.get p.id = some p.obj :=
    hr.wellFormed.held _ (List.mem_of_getElem? hi) (p.id, p.obj) List.mem_cons_self
  cases hm with
  | refuse hreg => cases hreg
  | committed =>
    rw [view_setPeer hr.wellFormed hget]
    exact hr.agreement.held_commit (List.mem_of_getElem? (registry_getElem? hi)) (cached_of_get hget)

/-- An unchanged registration is the one of the row. -/
theorem Reached.held_unchanged (hr : Reached cfg id s) {origin : Origin} {rk : RegisterPk}
    {managed : Bool} {o : Nat} {p : Peer} (hi : s.tasks[i]? = some (.stage origin rk managed o))
    (hid : rk.id = id)
    (hstage : stagePeerRegistration cfg.infoCodec (s.peers o) origin.addr rk.uuid rk.pk
      origin.addr.ip.toString managed s.now = (p, .unchanged)) :
    Held s.view id rk.uuid rk.pk := by
  obtain ⟨hbusy, hne, huuid, hpk, -, -⟩ := stage_unchanged hstage
  have hget : s.map.get id = some o :=
    hr.wellFormed.held _ (List.mem_of_getElem? hi) (id, o) (by rw [← hid]; exact List.mem_cons_self)
  rw [← huuid, ← hpk]
  exact hr.agreement.held (cached_of_get hget) hbusy hne

/-- A decided registration stays in place. -/
theorem Sequenced.move_held (hs : Sequenced id i₁ i₂ tr s) (hr : Reached cfg id s)
    (hm : Move cfg s i t out) (hi : s.tasks[i]? = some t) {u : Task} {rk : RegisterPk}
    (hk : (s.after i out).tasks[i₂]? = some u) (hd : Decides (s.after i out).tasks u rk)
    (hid : rk.id = id) : Held out.store.view id rk.uuid rk.pk := by
  rcases getElem?_advance hk with ⟨rfl, rfl⟩ | ⟨-, hold⟩ | ⟨-, hnew⟩
  · rcases hm.decides_cases hi hd with hd | ⟨origin, managed, o, p, rfl, hspawn, hstage⟩
    · exact hm.held_of_settled hr hi ((hs.quiet hi hd.staged? hid).settled hi) (hs.held hi hd hid)
    · refine hm.held hr hi (fun p hp => ?_) (fun f hf => by cases hf)
        (hr.held_unchanged hi hid hstage)
      rw [hspawn] at hp
      cases hp
  · have hsettled := (hs.quiet hold hd.staged? hid).settled hi
    -- it was decided before, or its persistence task has just ended
    have hcases : Decides s.tasks u rk ∨ Held out.store.view id rk.uuid rk.pk := by
      cases hd with
      | unchanged => exact Or.inl .unchanged
      | recordIp => exact Or.inl .recordIp
      | answered => exact Or.inl .answered
      | @stored origin _ o j ipChanged p hj =>
        rcases getElem?_advance hj with ⟨rfl, htask⟩ | ⟨-, hj⟩ | ⟨-, hj⟩
        · obtain ⟨guid, rfl⟩ := hm.persisted_eq htask.symm
          obtain ⟨u, p', hu, hp', hfor⟩ := hr.handled.joins _ _ _ _ _ _ hold
          rw [hi] at hu
          cases hu
          cases hp'
          have hheld := hr.held_commit hm hi
          rw [hfor.id, hid, hfor.uuid, hfor.pk] at hheld
          exact Or.inr hheld
        · exact Or.inl (.stored hj)
        · obtain ⟨p', he, -⟩ := hm.spawned_eq (List.mem_of_getElem? hj)
          cases he
    rcases hcases with hd | hheld
    · exact hm.held_of_settled hr hi hsettled (hs.held hold hd hid)
    · exact hheld
  · obtain ⟨p, rfl, -⟩ := hm.spawned_eq (List.mem_of_getElem? hnew)
    cases hd

theorem step_sequenced {s' : State} {a : Action} {evs : List Event}
    (hmode : cfg.allowUnmanagedDevices = false) (hr : Reached cfg id s)
    (hs : Sequenced id i₁ i₂ tr s) (htwo : TwoRequests cfg id i₁ i₂ tr s a)
    (hord : InOrder id i₁ i₂ s a) (h : step cfg s a = some (s', evs)) :
    Sequenced id i₁ i₂ (tr ++ evs) s' := by
  rcases step_cases h with ⟨d, -, rfl, rfl⟩ | ⟨r, rfl, rfl, rfl⟩ |
    ⟨i, ch, t, out, rfl, hi, -, hm, rfl, rfl⟩
  · rw [List.append_nil]
    exact ⟨hs.only, hs.first, hs.second,
      fun hk hrk hid => ⟨(hs.quiet hk hrk hid).verified, (hs.quiet hk hrk hid).settled⟩, hs.held⟩
  · rw [List.append_nil]
    exact hs.call r htwo
  · obtain ⟨honly, hfirst, hsecond⟩ := hs.move_phases hm hi hmode fun _ hev => htwo.after h hev
    refine ⟨honly, hfirst, hsecond, fun {u rk} hk hrk hid => ?_,
      fun hk hd hid => hs.move_held hr hm hi hk hd hid⟩
    rcases getElem?_advance hk with ⟨rfl, rfl⟩ | ⟨-, hk⟩ | ⟨-, hk⟩
    · rcases hm.staged_cases hrk with hrk' | ⟨origin, managed, o, rfl⟩
      · exact (hs.quiet hi hrk' hid).move hm hi hmode
      · exact hs.quiet_of_stage hm hi rfl hid (fun hu => hord.staged rfl hi hid hu)
          (Task.phase_of_staged? hrk id)
    · exact (hs.quiet hk hrk hid).move hm hi hmode
    · obtain ⟨p, rfl, -⟩ := hm.spawned_eq (List.mem_of_getElem? hk)
      cases hrk

end Step

/-! ## The result -/

/-- In managed mode, with two `RegisterPk` requests for an id of which the second is
verified after the first: in every run whose steps are in order, once the second one is
answered `OK` the row has its identity, and so has the cached peer if there is one. -/
theorem newer_authorization_wins {cfg : Config} (hmode : cfg.allowUnmanagedDevices = false)
    {now : Nat} {db : Database} {id : PeerId} {i₁ i₂ : Nat} {tr : List Event} {s : State}
    (h : Run (step cfg) (fun tr s a => TwoRequests cfg id i₁ i₂ tr s a ∧ InOrder id i₁ i₂ s a)
      (State.initial now db) tr s)
    {origin₂ : Origin} {rk₂ : RegisterPk} (hid : rk₂.id = id)
    (hdone : s.tasks[i₂]? = some (.done (.registerPk origin₂ rk₂ (.ok .ok)))) :
    (∃ row, s.db.getPeer id = some row ∧ row.uuid = rk₂.uuid ∧ row.pk = rk₂.pk) ∧
      ∀ {o}, s.map.get id = some o → (s.peers o).uuid = rk₂.uuid ∧ (s.peers o).pk = rk₂.pk := by
  have hseq : Sequenced id i₁ i₂ tr s := by
    refine h.inv (I := Sequenced id i₁ i₂) ?_ fun {tr s a s' evs} hr hs hok hstep => ?_
    · refine ⟨fun hk => ?_, fun hev => absurd hev List.not_mem_nil, fun hk => ?_, fun hk => ?_,
        fun hk => ?_⟩ <;> cases hk
    · have hreached : Reached cfg id s := {
        wellFormed := run_wellFormed hr
        handled := run_handled hr
        exclusive := run_exclusive hr
        agreement := run_agreement (fun hcl => by cases hcl) (fun _ hok hs => hok.2.orderly hs) hr
        offersOwn := fun hk => run_offersOwn hr hk }
      exact step_sequenced hmode hreached hs hok.1 hok.2 hstep
  have hheld := hseq.held hdone .answered hid
  exact ⟨hheld.row, fun hget => hheld.peer (cached_of_get hget)⟩

/-! ## Two requests for one id

Task 0 is the first request and task 1 the second one.  The verification of the second
begins when the first is at its lookup. -/

/-- A check that implies `TwoRequests`: a registration is one of the first two tasks, and
task 1 leaves its first point when task 0 is cleared. -/
private def secondAfterFirst (s : State) : Action → Bool
  | .call (.registerPk _ _) => decide (s.tasks.length < 2)
  | .run i _ =>
    match s.tasks[i]? with
    | some (.allowIp _ _) =>
      decide (i = 1 → (s.tasks[0]?.map fun t => t.phase sampleId) = some .cleared)
    | _ => true
  | _ => true

private theorem twoRequests_of_check {cfg : Config} {ok : List Event → State → Action → Prop}
    (hmode : cfg.allowUnmanagedDevices = false) {now : Nat} {db : Database} {tr : List Event}
    {s : State} {a : Action} (hrun : Run (step cfg) ok (State.initial now db) tr s)
    (h : secondAfterFirst s a = true) : TwoRequests cfg sampleId 0 1 tr s a := by
  refine ⟨fun ha _ => ?_, fun {s' evs} hstep hev => ?_⟩
  · subst ha
    have hlt : s.tasks.length < 2 := of_decide_eq_true h
    omega
  · rcases step_cases hstep with ⟨d, -, -, rfl⟩ | ⟨r, -, -, rfl⟩ |
      ⟨i, ch, t, out, rfl, hi, -, hm, -, rfl⟩
    · cases hev
    · cases hev
    · obtain ⟨rfl, origin, rk, rfl, -⟩ := hm.allowIp_of_verifying hev
      simp only [secondAfterFirst, hi, decide_eq_true_eq, forall_const] at h
      obtain ⟨t₀, ht₀, hphase⟩ := Option.map_eq_some_iff.1 h
      exact run_cleared hmode hrun ht₀ sampleId hphase

/-- A check that implies `InOrder`: no pass is being ended, and task 1 is staged when
task 0 is not cleared. -/
private def stagedInOrder (s : State) : Action → Bool
  | .run i _ =>
    match s.tasks[i]? with
    | some (.evict _ _) => false
    | some (.stage _ _ _ _) =>
      decide (i = 1 → (s.tasks[0]?.map fun t => t.phase sampleId) ≠ some .cleared)
    | _ => true
  | _ => true

private theorem inOrder_of_check {s : State} {a : Action} (h : stagedInOrder s a = true) :
    InOrder sampleId 0 1 s a := by
  refine ⟨fun ha hi _ ht₀ hphase => ?_, fun hev => ?_⟩
  · subst ha
    simp [stagedInOrder, hi, ht₀, hphase] at h
  · unfold Evicts at hev
    split at hev
    · obtain ⟨caller, snap, candidates, hi, -⟩ := hev
      simp [stagedInOrder, hi] at h
    · exact hev.elim

/-- Both requests, up to the point where they are approved. -/
private def bothApproved : List Action :=
  .call (.registerPk (sampleOrigin 0) (sampleRequest 1 2)) :: runs 0 2 ++
    .call (.registerPk (sampleOrigin 1) (sampleRequest 3 4)) :: runs 1 2

/-- The handler of a sample request that was answered `OK`. -/
def answeredOk (conn : Nat) (uuid pk : UInt8) : Task :=
  .done (.registerPk (sampleOrigin conn) (sampleRequest uuid pk) (.ok .ok))

/-- The first request is stored before the second one is staged. -/
theorem newer_authorization_wins_in_turn :
    ∃ (s : State) (tr : List Event),
      Run (step (sampleConfig false)) (fun tr s a =>
          TwoRequests (sampleConfig false) sampleId 0 1 tr s a ∧ InOrder sampleId 0 1 s a)
        (State.initial sampleStart .empty) tr s ∧
      s.tasks[0]? = some (answeredOk 0 1 2) ∧ s.tasks[1]? = some (answeredOk 1 3 4) ∧
      ∃ row, s.db.getPeer sampleId = some row ∧ row.uuid = [3] := by
  obtain ⟨s, tr, hrun, hshow⟩ := exists_run_of_exec
    (guarded (step (sampleConfig false)) fun s a => secondAfterFirst s a && stagedInOrder s a)
    (State.initial sampleStart .empty)
    (bothApproved ++ runs 0 5 ++ runs 2 2 ++ runs 0 1 ++ runs 1 3 ++ runs 3 2 ++ runs 1 1)
    (fun x => (x.1.tasks[0]?, x.1.tasks[1]?))
    (b := (some (answeredOk 0 1 2), some (answeredOk 1 3 4))) (by decide +kernel)
  obtain ⟨hfirst, hsecond⟩ := Prod.ext_iff.1 hshow
  have hrun' : Run (step (sampleConfig false)) (fun tr s a =>
        TwoRequests (sampleConfig false) sampleId 0 1 tr s a ∧ InOrder sampleId 0 1 s a)
      (State.initial sampleStart .empty) tr s := by
    refine hrun.of_guarded.mono fun hr hok => ?_
    obtain ⟨hsecond, horder⟩ := Bool.and_eq_true_iff.1 hok
    exact ⟨twoRequests_of_check rfl hr hsecond, inOrder_of_check horder⟩
  obtain ⟨⟨row, hrow, huuid, -⟩, -⟩ := newer_authorization_wins rfl hrun' rfl hsecond
  exact ⟨s, tr, hrun', hfirst, hsecond, row, hrow, huuid⟩

/-- The first request is approved, and then the second one is approved, staged and stored.
The first one is staged after that, and its identity replaces the newer one. -/
theorem stale_authorization_wins :
    ∃ (s : State) (tr : List Event),
      Run (step (sampleConfig false)) (TwoRequests (sampleConfig false) sampleId 0 1)
        (State.initial sampleStart .empty) tr s ∧
      s.tasks[0]? = some (answeredOk 0 1 2) ∧ s.tasks[1]? = some (answeredOk 1 3 4) ∧
      Event.verified 1 sampleId ∈ tr ∧
      (s.db.getPeer sampleId).map (fun row => (row.uuid, row.pk)) =
        some ([1], List.replicate 32 2) ∧
      s.map.get sampleId = some 0 ∧
      ((s.peers 0).uuid, (s.peers 0).pk) = ([1], List.replicate 32 2) := by
  obtain ⟨s, tr, hrun, hshow⟩ := exists_run_of_exec
    (guarded (step (sampleConfig false)) secondAfterFirst) (State.initial sampleStart .empty)
    (bothApproved ++ runs 1 5 ++ runs 2 2 ++ runs 1 1 ++ runs 0 3 ++ runs 3 2 ++ runs 0 1)
    (fun x => decide (x.1.tasks[0]? = some (answeredOk 0 1 2) ∧
      x.1.tasks[1]? = some (answeredOk 1 3 4) ∧ Event.verified 1 sampleId ∈ x.2 ∧
      (x.1.db.getPeer sampleId).map (fun row => (row.uuid, row.pk)) =
        some ([1], List.replicate 32 2) ∧
      x.1.map.get sampleId = some 0 ∧
      ((x.1.peers 0).uuid, (x.1.peers 0).pk) = ([1], List.replicate 32 2)))
    (b := true) (by decide +kernel)
  exact ⟨s, tr, hrun.of_guarded.mono fun hr hok => twoRequests_of_check rfl hr hok,
    of_decide_eq_true hshow⟩

end RemoteServer.PeerStore
