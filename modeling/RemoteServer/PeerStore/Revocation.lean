import RemoteServer.PeerStore.Phases
import RemoteServer.PeerStore.Provenance

/-!
# How long a revoked device stays online

In managed mode a heartbeat is accepted while the last verification is less than
30 seconds old, and a peer counts as online for 30 seconds after its last accepted
heartbeat.  The two windows chain, and a rollback may bring back an older time.

* `recency` is the provenance of the two times of a peer: a time of verification is
  the end of a registration, and a registration time is that of a staging, follows a
  verification by less than 30 seconds, or is an hour old.
* `run_approved` says that the handler of every staging and every completion was
  approved by the management API before.
* `run_succeeds` says that a registration that was completed is answered `OK` and
  nothing else.
* `revocation_bounded` is the result.
-/

namespace RemoteServer.PeerStore

open RustStd Lts

/-! ## The times of a peer -/

/-- What a registration time goes back to. -/
inductive Justified (tr : List Event) (now : Nat) (id : PeerId) (time : Nat) : Prop where
  | staged {i : Nat} {origin : Origin} (hev : Event.staged i origin id time ∈ tr)
  | beat {i : Nat} {origin : Origin} {d : Nat} (hev : Event.completed i origin id d ∈ tr)
      (hle : d ≤ time) (hlt : time < d + Instant.ofSecs deploymentVerificationCacheSecs)
  | expired (hle : time + Instant.ofSecs 3600 ≤ now)

structure Recent (tr : List Event) (now : Nat) (id : PeerId) (x : PeerRegistrationRollback) :
    Prop where
  verified : ∀ {d}, x.deploymentVerifiedAt = some d →
    d ≤ now ∧ ∃ i origin, Event.completed i origin id d ∈ tr
  lastRegTime_le : x.lastRegTime ≤ now
  lastRegTime : Justified tr now id x.lastRegTime

theorem Justified.mono {tr : List Event} {now : Nat} {id : PeerId} {time : Nat}
    (h : Justified tr now id time) (evs : List Event) (d : Nat) :
    Justified (tr ++ evs) (now + d) id time := by
  cases h with
  | staged hev => exact .staged (List.mem_append_left _ hev)
  | beat hev hle hlt => exact .beat (List.mem_append_left _ hev) hle hlt
  | expired hle => exact .expired (Nat.le_add_right_of_le hle)

theorem Recent.mono {tr : List Event} {now : Nat} {id : PeerId} {x : PeerRegistrationRollback}
    (h : Recent tr now id x) (evs : List Event) (d : Nat) : Recent (tr ++ evs) (now + d) id x := by
  refine ⟨fun hd => ?_, Nat.le_add_right_of_le h.lastRegTime_le, h.lastRegTime.mono evs d⟩
  obtain ⟨hle, i, origin, hev⟩ := h.verified hd
  exact ⟨Nat.le_add_right_of_le hle, i, origin, List.mem_append_left _ hev⟩

/-- A peer that was just loaded counts as not seen for an hour. -/
theorem recent_fresh {tr : List Event} {now : Nat} {id : PeerId} (hclock : Instant.ofSecs 3600 ≤ now)
    {x : PeerRegistrationRollback} (hverified : x.deploymentVerifiedAt = none)
    (htime : x.lastRegTime = getExpiredTime now) : Recent tr now id x := by
  rw [getExpiredTime, if_pos hclock] at htime
  refine ⟨fun hd => ?_, by omega, .expired (by omega)⟩
  rw [hverified] at hd
  cases hd

/-- In managed mode a heartbeat is accepted within 30 seconds of a verification. -/
theorem Recent.beat {tr : List Event} {now : Nat} {id : PeerId} {p : Peer}
    (h : Recent tr now id p.snapshot) (origin : Origin) :
    Recent (tr ++ [.beat origin id (heartbeat false p origin.addr now).2]) now id
      (heartbeat false p origin.addr now).1.snapshot := by
  rcases heartbeat_cases false p origin.addr now with hsame | ⟨hnew, -, -, hexpired⟩
  · rw [hsame]
    exact h.mono _ 0
  · rw [hnew]
    have hmono := h.mono [.beat origin id false] 0
    refine ⟨hmono.verified, Nat.le_refl now, ?_⟩
    rw [deploymentVerificationExpired, Bool.not_false, Bool.true_and] at hexpired
    split at hexpired
    · cases hexpired
    · rename_i d hd
      obtain ⟨hle, i, origin', hev⟩ := hmono.verified hd
      refine .beat hev hle ?_
      -- whole seconds below the bound are nanoseconds below it
      rw [decide_eq_false_iff_not, Nat.not_le, Instant.elapsedSecs] at hexpired
      have hlt := Nat.lt_mul_of_div_lt hexpired (by decide)
      change now < d + Instant.ofSecs deploymentVerificationCacheSecs
      unfold Instant.ofSecs
      omega

/-- The times of a peer in managed mode, on a clock that allows `get_expired_time` to
go back an hour. -/
def recency (cfg : Config) (hmode : cfg.allowUnmanagedDevices = false) {now : Nat}
    (hclock : Instant.ofSecs 3600 ≤ now) : Provenance cfg now where
  peer := Recent
  row := fun _ _ _ => True
  peer_mono := fun evs d h => h.mono evs d
  row_mono := fun _ _ => trivial
  blank := fun hnow => recent_fresh (hclock.trans hnow) rfl rfl
  loaded := fun hnow _ _ => recent_fresh (hclock.trans hnow) rfl rfl
  beat := by
    intro tr now id p origin h
    rw [hmode]
    exact h.beat origin
  staged := by
    intro tr now id p i origin uuid pk h
    have hmono := h.mono [.staged i origin id now] 0
    exact ⟨hmono.verified, Nat.le_refl now,
      .staged (List.mem_append_right _ (List.mem_singleton_self _))⟩
  stagedRow := fun _ _ _ => trivial
  verified := by
    intro tr now id p i origin h
    have hmono := h.mono [.completed i origin id now] 0
    refine ⟨fun hd => ?_, hmono.lastRegTime_le, hmono.lastRegTime⟩
    cases hd
    exact ⟨Nat.le_refl now, i, origin, List.mem_append_right _ (List.mem_singleton_self _)⟩

/-! ## Approval -/

/-- The handler of a registration that is staged, `i` or the owner of the persistence
task, was approved. -/
def Task.Approved (tr : List Event) (i : Nat) : Task → Prop
  | .unchanged _ rk _ => Event.verified i rk.id ∈ tr
  | .persistWrite p => Event.verified p.owner p.id ∈ tr
  | .persistEnd p _ => Event.verified p.owner p.id ∈ tr
  | _ => True

section Approval

variable {cfg : Config} {tr : List Event} {s : State} {i : Nat} {t : Task} {out : Outcome}

theorem Task.Approved.append (h : t.Approved tr i) (evs : List Event) :
    t.Approved (tr ++ evs) i := by
  cases t with
  | unchanged => exact List.mem_append_left _ h
  | persistWrite => exact List.mem_append_left _ h
  | persistEnd => exact List.mem_append_left _ h
  | _ => trivial

theorem Call.approved_absent (call : Call) (now : Nat) : (call.absent cfg now).Approved tr i := by
  cases call <;> trivial

theorem Request.approved_start (r : Request) : r.start.Approved tr i := by
  cases r with
  | getPk version id =>
    unfold Request.start
    dsimp only
    split <;> trivial
  | _ => trivial

theorem Move.approved (h : Move cfg s i t out) (hcleared : t.Cleared tr i) (ht : t.Approved tr i) :
    out.task.Approved (tr ++ out.events) i := by
  have hresume : ∀ (call : Call) (o : Nat) (tr : List Event), (call.resume o).Approved tr i := by
    intro call o tr
    cases call <;> trivial
  cases h with
  | stageSameManaged => exact List.mem_append_left _ (hcleared _ (if_pos rfl))
  | written => exact ht.append _
  | writeFailed => exact ht.append _
  | touched => exact hresume _ _ _
  | cached => exact hresume _ _ _
  | inserted => exact hresume _ _ _
  | @loadFailed call err => cases call <;> trivial
  | loadAbsent => exact Call.approved_absent _ _
  | noRoom =>
    change Task.Approved _ i (returnNoRoom ..).task
    unfold returnNoRoom
    dsimp only
    split
    · exact Call.approved_absent _ _
    · split
      · trivial
      · exact Call.approved_absent _ _
  | @evicted caller => cases caller <;> trivial
  | joined =>
    dsimp only
    split <;> trivial
  | _ => trivial

theorem Move.approved_spawned (h : Move cfg s i t out) (hcleared : t.Cleared tr i) {u : Task}
    (hu : u ∈ out.spawned) (j : Nat) : u.Approved (tr ++ out.events) j := by
  cases h with
  | stagePersist =>
    cases List.mem_singleton.1 hu
    exact List.mem_append_left _ (hcleared _ (if_pos rfl))
  | _ => cases hu

/-- A staging or a completion is one of an approved handler. -/
theorem Move.approved_events (h : Move cfg s i t out) (hcleared : t.Cleared tr i)
    (ht : t.Approved tr i) {j : Nat} {origin : Origin} {id : PeerId} {d : Nat}
    (hev : Event.staged j origin id d ∈ out.events ∨ Event.completed j origin id d ∈ out.events) :
    Event.verified j id ∈ tr := by
  -- a lookup emits neither
  have hgot : ∀ {store : Store} {call : Call} {viaGet : Bool} {o : Nat},
      ¬ (Event.staged j origin id d ∈ (returnObject store call viaGet o).events ∨
        Event.completed j origin id d ∈ (returnObject store call viaGet o).events) := by
    rintro store call viaGet o (h | h) <;>
      rcases mem_returnObject_events h with he | he <;> cases he
  cases h with
  | touched => exact absurd hev hgot
  | cached => exact absurd hev hgot
  | inserted => exact absurd hev hgot
  | noRoom => rcases hev with hev | hev <;> cases (mem_returnNoRoom_events hev).2
  | stageSame =>
    simp only [List.mem_singleton, reduceCtorEq, Event.completed.injEq, false_or] at hev
    obtain ⟨rfl, -, rfl, -⟩ := hev
    exact hcleared _ (if_pos rfl)
  | stagePersist =>
    simp only [List.mem_singleton, reduceCtorEq, Event.staged.injEq, or_false] at hev
    obtain ⟨rfl, -, rfl, -⟩ := hev
    exact hcleared _ (if_pos rfl)
  | verifiedNow =>
    simp only [List.mem_singleton, reduceCtorEq, Event.completed.injEq, false_or] at hev
    obtain ⟨rfl, -, rfl, -⟩ := hev
    exact ht
  | committed =>
    simp only [List.mem_singleton, reduceCtorEq, Event.completed.injEq, false_or] at hev
    obtain ⟨rfl, -, rfl, -⟩ := hev
    exact ht
  | _ => simp at hev

end Approval

/-- In managed mode every staging and every completion is one of a handler that the
management API approved before. -/
theorem run_approved {cfg : Config} (hmode : cfg.allowUnmanagedDevices = false)
    {ok : List Event → State → Action → Prop} {now : Nat} {db : Database} {tr : List Event}
    {s : State} (h : Run (step cfg) ok (State.initial now db) tr s) {i : Nat} {origin : Origin}
    {id : PeerId} {d : Nat}
    (hev : Event.staged i origin id d ∈ tr ∨ Event.completed i origin id d ∈ tr) :
    Event.verified i id ∈ tr := by
  have hmove : ∀ {pre s a s' evs}, Run (step cfg) ok (State.initial now db) pre s →
      step cfg s a = some (s', evs) →
      Event.staged i origin id d ∈ evs ∨ Event.completed i origin id d ∈ evs →
      Event.verified i id ∈ pre := by
    intro pre s a s' evs hr hs hevs
    rcases step_cases hs with ⟨_, -, -, rfl⟩ | ⟨_, -, -, rfl⟩ |
      ⟨k, ch, t, out, -, hk, -, hm, -, rfl⟩
    · simp at hevs
    · simp at hevs
    · have happ : t.Cleared pre k ∧ t.Approved pre k :=
        run_tasks (P := fun tr i t => t.Cleared tr i ∧ t.Approved tr i)
          (fun evs ht => ⟨ht.1.append evs, ht.2.append evs⟩)
          (fun tr i r => ⟨r.cleared_start tr i, r.approved_start⟩)
          (fun hm ht => ⟨hm.cleared hmode ht.1, hm.approved ht.1 ht.2⟩)
          (fun hm ht u hu j => ⟨hm.cleared_spawned hu _ j, hm.approved_spawned ht.1 hu j⟩) hr hk
      exact hm.approved_events happ.1 happ.2 hevs
  rcases hev with hev | hev
  · obtain ⟨pre, evs, post, s₁, a, s₂, hr, -, hs, he, rfl⟩ := h.event hev
    exact List.mem_append_left _ (List.mem_append_left _ (hmove hr hs (Or.inl he)))
  · obtain ⟨pre, evs, post, s₁, a, s₂, hr, -, hs, he, rfl⟩ := h.event hev
    exact List.mem_append_left _ (List.mem_append_left _ (hmove hr hs (Or.inr he)))

/-! ## The answer to a completed registration -/

/-- The handler `i` of a `RegisterPk` is answered `OK`, or has nothing left to wait
for and will be. -/
inductive Succeeds (tasks : List Task) (i : Nat) (origin : Origin) (id : PeerId) : Prop where
  | joins {rk : RegisterPk} {o j : Nat} {ipChanged : Bool} {p : Persist} (hid : rk.id = id)
      (hi : tasks[i]? = some (.join origin rk o ipChanged j))
      (hj : tasks[j]? = some (.done (.persisted p true)))
  | records {rk : RegisterPk} {o : Nat} (hid : rk.id = id)
      (hi : tasks[i]? = some (.recordIp origin rk o))
  | answered {rk : RegisterPk} (hid : rk.id = id)
      (hi : tasks[i]? = some (.done (.registerPk origin rk (.ok .ok))))

/-- The owner of an open persistence waits for it. -/
def Awaited (tasks : List Task) : Prop :=
  ∀ (j : Nat) (u : Task) (p : Persist), tasks[j]? = some u → u.cargo.bind Cargo.pending = some p →
    ∃ rk o ipChanged, tasks[p.owner]? = some (.join p.origin rk o ipChanged j) ∧ rk.id = p.id

section Answer

variable {cfg : Config} {s : State} {i : Nat} {t : Task} {out : Outcome}

theorem not_move_done {answer : Answer} : ¬ Move cfg s i (.done answer) out := by
  intro h
  cases h with
  | refuse hreg => cases hreg

theorem Succeeds.append {tasks : List Task} {origin : Origin} {id : PeerId}
    (h : Succeeds tasks i origin id) (new : List Task) : Succeeds (tasks ++ new) i origin id := by
  have hleft : ∀ {k : Nat} {u : Task}, tasks[k]? = some u → (tasks ++ new)[k]? = some u := by
    intro k u hk
    rw [List.getElem?_append_left (List.getElem?_eq_some_iff.1 hk).1]
    exact hk
  cases h with
  | joins hid hi hj => exact .joins hid (hleft hi) (hleft hj)
  | records hid hi => exact .records hid (hleft hi)
  | answered hid hi => exact .answered hid (hleft hi)

/-- A handler that succeeds goes on to its answer `OK`. -/
theorem Move.succeeds (h : Move cfg s i t out) (hi : s.tasks[i]? = some t) {k : Nat}
    {origin : Origin} {id : PeerId} (hk : Succeeds s.tasks k origin id) :
    Succeeds (s.after i out).tasks k origin id := by
  -- a task that is done stays
  have hdone : ∀ {j : Nat} {answer : Answer}, s.tasks[j]? = some (.done answer) →
      (s.after i out).tasks[j]? = some (.done answer) := by
    intro j answer hj
    refine getElem?_advance_of_ne (fun he => ?_) hj
    rw [he, hi] at hj
    cases hj
    exact not_move_done h
  have hmoved : (s.after i out).tasks[i]? = some out.task := getElem?_advance_self hi
  cases hk with
  | @joins rk o j ipChanged p hid hk hj =>
    by_cases hik : k = i
    · subst hik
      rw [hi] at hk
      cases hk
      cases h with
      | refuse hreg => cases hreg
      | joined =>
        cases ipChanged with
        | true => exact .records hid hmoved
        | false => exact .answered hid hmoved
      | joinedFailed hj' =>
        rw [hj] at hj'
        cases hj'
    · exact .joins hid (getElem?_advance_of_ne hik hk) (hdone hj)
  | records hid hk =>
    by_cases hik : k = i
    · subst hik
      rw [hi] at hk
      cases hk
      cases h with
      | refuse hreg => cases hreg
      | recorded => exact .answered hid hmoved
    · exact .records hid (getElem?_advance_of_ne hik hk)
  | answered hid hk => exact .answered hid (hdone hk)

/-- Only the end of its persistence task lets a handler go on. -/
theorem Move.awaited (h : Move cfg s i t out) (hwf : WellFormed s) (hh : Handled cfg s)
    (hi : s.tasks[i]? = some t) (ha : Awaited s.tasks) : Awaited (s.after i out).tasks := by
  -- the owner still waits when another task than it moves
  have hkeep : ∀ {j : Nat} {u : Task} {p : Persist}, s.tasks[j]? = some u →
      u.cargo.bind Cargo.pending = some p → ∃ rk o ipChanged,
        (s.after i out).tasks[p.owner]? = some (.join p.origin rk o ipChanged j) ∧ rk.id = p.id := by
    intro j u p hj hp
    obtain ⟨rk, o, ipChanged, howner, hid⟩ := ha j u p hj hp
    refine ⟨rk, o, ipChanged, getElem?_advance_of_ne (fun he => ?_) howner, hid⟩
    rw [he, hi] at howner
    cases howner
    -- a persistence that has ended is not open
    cases h with
    | refuse hreg => cases hreg
    | joined hj' =>
      rw [hj] at hj'
      cases hj'
      cases hp
    | joinedFailed hj' =>
      rw [hj] at hj'
      cases hj'
      cases hp
  intro j u p hj hp
  rcases getElem?_advance hj with ⟨rfl, rfl⟩ | ⟨-, hj⟩ | ⟨hlen, hspawned⟩
  · obtain ⟨spawned, -, heff⟩ := h.effect hwf hh hi
    exact hkeep hi (heff.pending_eq hp)
  · exact hkeep hj hp
  · cases h with
    | @stagePersist origin rk managed o p' pending hstage =>
      obtain ⟨hzero, rfl⟩ : j - s.tasks.length = 0 ∧ u = _ := by
        cases hn : j - s.tasks.length with
        | zero =>
          rw [hn] at hspawned
          exact ⟨rfl, (Option.some.inj hspawned).symm⟩
        | succ n =>
          rw [hn] at hspawned
          cases hspawned
      obtain rfl : j = s.tasks.length := by omega
      cases hp
      exact ⟨rk, o, pending.ipChanged, getElem?_advance_self hi, rfl⟩
    | _ => cases hspawned

/-- A completion is the last thing that a handler waits for. -/
theorem Move.succeeds_of_completed (h : Move cfg s i t out) (hi : s.tasks[i]? = some t)
    (ha : Awaited s.tasks) {k : Nat} {origin : Origin} {id : PeerId} {d : Nat}
    (hev : Event.completed k origin id d ∈ out.events) :
    Succeeds (s.after i out).tasks k origin id := by
  have hmoved : (s.after i out).tasks[i]? = some out.task := getElem?_advance_self hi
  cases h with
  | touched => rcases mem_returnObject_events hev with he | he <;> cases he
  | cached => rcases mem_returnObject_events hev with he | he <;> cases he
  | inserted => rcases mem_returnObject_events hev with he | he <;> cases he
  | noRoom => cases (mem_returnNoRoom_events hev).2
  | stageSame =>
    cases List.mem_singleton.1 hev
    exact .answered rfl hmoved
  | verifiedNow =>
    cases List.mem_singleton.1 hev
    exact .answered rfl hmoved
  | @committed p guid =>
    cases List.mem_singleton.1 hev
    obtain ⟨rk, o, ipChanged, howner, hid⟩ := ha i _ p hi rfl
    refine .joins hid (getElem?_advance_of_ne (fun he => ?_) howner) hmoved
    rw [he, hi] at howner
    cases howner
  | _ => simp at hev

end Answer

theorem run_awaited {cfg : Config} {ok : List Event → State → Action → Prop} {now : Nat}
    {db : Database} {tr : List Event} {s : State}
    (h : Run (step cfg) ok (State.initial now db) tr s) : Awaited s.tasks := by
  refine h.inv (I := fun _ s => Awaited s.tasks) (fun j u p hj => by cases hj) ?_
  intro tr s a s' evs hr ha _ hs
  rcases step_cases hs with ⟨_, -, rfl, -⟩ | ⟨r, -, rfl, -⟩ | ⟨i, ch, t, out, -, hi, -, hm, rfl, -⟩
  · exact ha
  · intro j u p hj hp
    change (s.tasks ++ [r.start])[j]? = some u at hj
    rw [List.getElem?_append] at hj
    split at hj
    · obtain ⟨rk, o, ipChanged, howner, hid⟩ := ha j u p hj hp
      refine ⟨rk, o, ipChanged, ?_, hid⟩
      change (s.tasks ++ [r.start])[p.owner]? = _
      rw [List.getElem?_append_left (List.getElem?_eq_some_iff.1 howner).1, howner]
    · rw [List.mem_singleton.1 (List.mem_of_getElem? hj), r.cargo_start] at hp
      cases hp
  · exact hm.awaited (run_wellFormed hr) (run_handled hr) hi ha

/-- A completed registration is answered `OK` if it is answered. -/
theorem run_succeeds {cfg : Config} {ok : List Event → State → Action → Prop} {now : Nat}
    {db : Database} {tr : List Event} {s : State}
    (h : Run (step cfg) ok (State.initial now db) tr s) {i : Nat} {origin : Origin} {id : PeerId}
    {d : Nat} (hev : Event.completed i origin id d ∈ tr) : Succeeds s.tasks i origin id := by
  refine h.inv (I := fun tr s => ∀ i origin id d, Event.completed i origin id d ∈ tr →
    Succeeds s.tasks i origin id) (fun _ _ _ _ hmem => absurd hmem List.not_mem_nil) ?_
    i origin id d hev
  intro tr s a s' evs hr hI _ hs i origin id d hmem
  rcases step_cases hs with ⟨_, -, rfl, rfl⟩ | ⟨r, -, rfl, rfl⟩ |
    ⟨k, ch, t, out, -, hk, -, hm, rfl, rfl⟩
  · rw [List.append_nil] at hmem
    exact hI i origin id d hmem
  · rw [List.append_nil] at hmem
    exact (hI i origin id d hmem).append _
  · rcases List.mem_append.1 hmem with hmem | hmem
    · exact hm.succeeds hk (hI i origin id d hmem)
    · exact hm.succeeds_of_completed hk (run_awaited hr) hmem

/-! ## The result -/

/-- In managed mode, on a clock that allows `get_expired_time` to go back an hour: a
cached peer that counts as online has a `RegisterPk` that the management API approved
and that was staged, or completed with `OK`, less than 60 seconds ago. -/
theorem revocation_bounded {cfg : Config} (hmode : cfg.allowUnmanagedDevices = false) {now : Nat}
    (hclock : Instant.ofSecs 3600 ≤ now) {db : Database} {tr : List Event} {s : State}
    (h : Run (step cfg) anything (State.initial now db) tr s) {id : PeerId} {o : Nat}
    (hget : s.map.get id = some o) (honline : (s.peers o).online s.now = true) :
    ∃ i origin d, Event.verified i id ∈ tr ∧
      (Event.staged i origin id d ∈ tr ∨
        Event.completed i origin id d ∈ tr ∧ Succeeds s.tasks i origin id) ∧
      d ≤ s.now ∧ s.now < d + Instant.ofSecs 60 := by
  have hrecent : Recent tr s.now id (s.peers o).snapshot :=
    (run_provenance (recency cfg hmode hclock) (fun _ => trivial) h).peer (cached_of_get hget)
  have hle : (s.peers o).lastRegTime ≤ s.now := hrecent.lastRegTime_le
  have hlt : s.now < (s.peers o).lastRegTime + Instant.ofSecs 30 := by
    rw [Peer.online, decide_eq_true_iff, Instant.elapsedMillis] at honline
    have hnanos := Nat.lt_mul_of_div_lt honline (by decide)
    rw [Peer.regTimeout] at hnanos
    unfold Instant.ofSecs
    omega
  have hj : Justified tr s.now id (s.peers o).lastRegTime := hrecent.lastRegTime
  simp only [Instant.ofSecs] at hlt ⊢
  cases hj with
  | @staged i origin hev =>
    exact ⟨i, origin, _, run_approved hmode h (Or.inl hev), Or.inl hev, hle, by omega⟩
  | @beat i origin d hev hd hd' =>
    simp only [Instant.ofSecs, deploymentVerificationCacheSecs] at hd'
    exact ⟨i, origin, d, run_approved hmode h (Or.inr hev), Or.inr ⟨hev, run_succeeds h hev⟩,
      hd.trans hle, by omega⟩
  | expired hold =>
    simp only [Instant.ofSecs] at hold
    omega

/-- A registration in managed mode, a heartbeat 20 seconds later, and 29 seconds more. -/
theorem revocation_bounded_registered :
    ∃ (s : State) (tr : List Event),
      Run (step (sampleConfig false)) anything (State.initial sampleStart .empty) tr s ∧
      s.map.get sampleId = some 0 ∧ (s.peers 0).online s.now = true ∧
      ∃ i origin d, Event.verified i sampleId ∈ tr ∧
        (Event.staged i origin sampleId d ∈ tr ∨
          Event.completed i origin sampleId d ∈ tr ∧ Succeeds s.tasks i origin sampleId) ∧
        d ≤ s.now ∧ s.now < d + Instant.ofSecs 60 := by
  obtain ⟨s, tr, hrun, hshow⟩ := exists_run_of_exec (step (sampleConfig false))
    (State.initial sampleStart .empty)
    (.call (.registerPk (sampleOrigin 0) (sampleRequest 1 2)) :: runs 0 7 ++ runs 1 2 ++ runs 0 1 ++
      .tick (Instant.ofSecs 20) :: .call (.registerPeer (sampleOrigin 0) ⟨sampleId, 0⟩) ::
      runs 2 3 ++ [.tick (Instant.ofSecs 29)])
    (fun x => (x.1.map.get sampleId, (x.1.peers 0).online x.1.now, x.1.now - sampleStart))
    (b := (some 0, true, Instant.ofSecs 49)) (by decide +kernel)
  obtain ⟨hget, hrest⟩ := Prod.ext_iff.1 hshow
  obtain ⟨honline, -⟩ := Prod.ext_iff.1 hrest
  exact ⟨s, tr, hrun, hget, honline,
    revocation_bounded rfl (by decide) hrun hget honline⟩

end RemoteServer.PeerStore
