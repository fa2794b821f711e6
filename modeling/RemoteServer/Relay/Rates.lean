import RemoteServer.Relay.Tuning

/-!
# The rates of the relay

* `speeds_consistent`: the speed of a slowed down connection is not above that of a single one,
  in every run in which a command that sets one of them is checked only when no command that sets
  the other is between its check and its store (`Serialised`).  `speeds_crossed` is a run with
  two commands that overlap.
* `rates_usable`: no limiter gets the rate zero, in every run in which no bandwidth is below half
  a bit per second (`tooSmall`).  `rate_zero` is a run with a smaller one.
-/

namespace RemoteServer.Relay.Tuning

open RustStd Lts

/-! ## One speed is not above the other -/

def Stage.storesLimitSpeed : Stage → Bool
  | storeLimitSpeed _ => true
  | _ => false

def Stage.storesSingleBandwidth : Stage → Bool
  | storeSingleBandwidth _ => true
  | _ => false

/-- The condition: a command that sets one speed is not checked while one that sets the other is
about to store it. -/
def serialised (s : State) : Action → Bool
  | .run i =>
    match s.tasks[i]? with
    | some (.received cmd) =>
      match tuningCommand cmd with
      | some (.limitSpeed, some _) => !s.tasks.any Stage.storesSingleBandwidth
      | some (.singleBandwidth, some _) => !s.tasks.any Stage.storesLimitSpeed
      | _ => true
    | _ => true
  | _ => true

def Serialised (_ : List Event) (s : State) (a : Action) : Prop := serialised s a = true

instance {tr : List Event} {s : State} {a : Action} : Decidable (Serialised tr s a) :=
  inferInstanceAs (Decidable (serialised s a = true))

/-- A value that is about to be stored fits the other speed. -/
def Stage.Fits (s : Settings) : Stage → Prop
  | storeLimitSpeed value => value ≤ s.singleBandwidth
  | storeSingleBandwidth value => s.limitSpeed ≤ value
  | _ => True

theorem Stage.Fits.congr {s s' : Settings} {stage : Stage} (h : stage.Fits s)
    (hlimit : s'.limitSpeed = s.limitSpeed) (hsingle : s'.singleBandwidth = s.singleBandwidth) :
    stage.Fits s' := by
  cases stage with
  | storeLimitSpeed value => exact Nat.le_trans h (Nat.le_of_eq hsingle.symm)
  | storeSingleBandwidth value => exact Nat.le_trans (Nat.le_of_eq hlimit) h
  | received | setSpeedLimit | replied => trivial

structure Consistent (s : State) : Prop where
  le : s.settings.limitSpeed ≤ s.settings.singleBandwidth
  fits : ∀ stage ∈ s.tasks, stage.Fits s.settings
  /-- Only one of the two speeds is about to be stored. -/
  one : ∀ stage ∈ s.tasks, ∀ stage' ∈ s.tasks, stage.storesLimitSpeed = true →
    stage'.storesSingleBandwidth = false

namespace Consistent

variable {s s' : State} {a : Action} {evs : List Event} {i : Nat} {next : Next}

/-- A task goes on. -/
theorem advance (h : Consistent s)
    (hle : next.settings.limitSpeed ≤ next.settings.singleBandwidth)
    (hothers : ∀ other ∈ s.tasks, other.Fits next.settings)
    (hstage : next.stage.Fits next.settings)
    (hlimit : next.stage.storesLimitSpeed = true →
      ∀ other ∈ s.tasks, other.storesSingleBandwidth = false)
    (hsingle : next.stage.storesSingleBandwidth = true →
      ∀ other ∈ s.tasks, other.storesLimitSpeed = false) :
    Consistent ⟨next.settings, s.tasks.set i next.stage⟩ where
  le := hle
  fits other hmem := by
    rcases List.mem_or_eq_of_mem_set hmem with hmem | rfl
    · exact hothers other hmem
    · exact hstage
  one stage hmem stage' hmem' hstores := by
    rcases List.mem_or_eq_of_mem_set hmem with hmem | rfl
    · rcases List.mem_or_eq_of_mem_set hmem' with hmem' | rfl
      · exact h.one stage hmem stage' hmem' hstores
      · by_contra hclash
        rw [hsingle (Bool.eq_true_of_not_eq_false hclash) stage hmem] at hstores
        cases hstores
    · rcases List.mem_or_eq_of_mem_set hmem' with hmem' | rfl
      · exact hlimit hstores stage' hmem'
      · -- a task stores one value
        generalize next.stage = stage at hstores
        cases stage <;> first | rfl | cases hstores

/-- A task goes on without a change to the speeds, and is not about to store one. -/
theorem advance_idle (h : Consistent s)
    (hlimit : next.settings.limitSpeed = s.settings.limitSpeed)
    (hsingle : next.settings.singleBandwidth = s.settings.singleBandwidth)
    (hstage : next.stage.storesLimitSpeed = false ∧ next.stage.storesSingleBandwidth = false) :
    Consistent ⟨next.settings, s.tasks.set i next.stage⟩ := by
  refine h.advance (by rw [hlimit, hsingle]; exact h.le)
    (fun other hmem => (h.fits other hmem).congr hlimit hsingle) ?_ (fun hs => ?_) fun hs => ?_
  · obtain ⟨hno, hno'⟩ := hstage
    generalize next.stage = stage at hno hno'
    cases stage <;> trivial
  · rw [hstage.1] at hs
    cases hs
  · rw [hstage.2] at hs
    cases hs

theorem step (h : Consistent s) (hok : serialised s a = true)
    (hstep : step s a = some (s', evs)) : Consistent s' := by
  cases a with
  | connect cmd =>
    cases hstep
    have hnew : ∀ {stage}, stage ∈ s.tasks ++ [.received cmd] →
        stage ∈ s.tasks ∨ stage = .received cmd := fun hmem =>
      (List.mem_append.1 hmem).imp_right List.mem_singleton.1
    refine ⟨h.le, fun stage hmem => ?_, fun stage hmem stage' hmem' hstores => ?_⟩
    · rcases hnew hmem with hmem | rfl
      · exact h.fits stage hmem
      · trivial
    · rcases hnew hmem with hmem | rfl
      · rcases hnew hmem' with hmem' | rfl
        · exact h.one stage hmem stage' hmem' hstores
        · rfl
      · cases hstores
  | run i =>
    obtain ⟨stage, hi, hnext⟩ := Option.bind_eq_some_iff.1 hstep
    obtain ⟨next, hcheck, hpair⟩ := Option.map_eq_some_iff.1 hnext
    cases hpair
    have hmem := List.mem_of_getElem? hi
    cases checkCmd_effect hcheck with
    | reply => exact h.advance_idle rfl rfl ⟨rfl, rfl⟩
    | threshold => exact h.advance_idle rfl rfl ⟨rfl, rfl⟩
    | start => exact h.advance_idle rfl rfl ⟨rfl, rfl⟩
    | total => exact h.advance_idle rfl rfl ⟨rfl, rfl⟩
    | limiter => exact h.advance_idle rfl rfl ⟨rfl, rfl⟩
    | checkedLimit v hcmd hparse hle =>
      simp only [serialised, hi, hcmd, Bool.not_eq_true', List.any_eq_false] at hok
      exact h.advance h.le h.fits hle (fun _ other hother => by simpa using hok other hother) nofun
    | checkedSingle v hcmd hparse hle =>
      simp only [serialised, hi, hcmd, Bool.not_eq_true', List.any_eq_false] at hok
      exact h.advance h.le h.fits hle nofun fun _ other hother => by simpa using hok other hother
    | limit =>
      -- no task is about to store the other speed
      refine h.advance (h.fits _ hmem) (fun other hother => ?_) trivial nofun nofun
      have hclash := h.one _ hmem other hother rfl
      cases other with
      | storeLimitSpeed value => exact h.fits _ hother
      | storeSingleBandwidth value => cases hclash
      | received | setSpeedLimit | replied => trivial
    | single =>
      refine h.advance (h.fits _ hmem) (fun other hother => ?_) trivial nofun nofun
      cases other with
      | storeLimitSpeed value => cases h.one _ hother _ hmem rfl
      | storeSingleBandwidth value => exact h.fits _ hother
      | received | setSpeedLimit | replied => trivial
  | ioLoop =>
    cases hstep
    exact h
  | limiter =>
    cases hstep
    exact h
  | blacklistLimiter =>
    cases hstep
    exact h

end Consistent

/-- A start that fails changes no setting.  After a start that succeeds, in every run whose
commands are all serialised, one speed is never above the other. -/
theorem speeds_consistent (args : String → Option String) (settings settings' : Settings) :
    (∀ err, (checkParams args).exec settings = (.error err, settings') → settings' = settings) ∧
      ((checkParams args).exec settings = (.ok (), settings') →
        ∀ tr s, Run step Serialised ⟨settings', []⟩ tr s →
          s.settings.limitSpeed ≤ s.settings.singleBandwidth) := by
  refine ⟨fun err h => ?_, fun h tr s hrun => ?_⟩
  · rcases exec_checkParams args settings with ⟨err', hexec⟩ | ⟨s', hexec, -⟩
    · rw [hexec] at h
      exact (congrArg Prod.snd h).symm
    · rw [hexec] at h
      cases congrArg Prod.fst h
  · rcases exec_checkParams args settings with ⟨err', hexec⟩ | ⟨s', hexec, -, -, -, -, -, hle⟩
    · rw [hexec] at h
      cases congrArg Prod.fst h
    · rw [hexec] at h
      obtain rfl : s' = settings' := congrArg Prod.snd h
      have hinv : Consistent s :=
        hrun.inv_state ⟨hle, nofun, nofun⟩ fun hinv hok hstep => hinv.step hok hstep
      exact hinv.le

def noArgs : String → Option String := fun _ => none

/-- Two commands, one after the other. -/
theorem speeds_consistent_raised :
    ∃ tr s, (checkParams noArgs).exec {} = (.ok (), {}) ∧ Run step Serialised ⟨{}, []⟩ tr s ∧
      s.settings.limitSpeed = 200 * 1024 * 1024 ∧
      s.settings.limitSpeed ≤ s.settings.singleBandwidth := by
  have hstart : (checkParams noArgs).exec {} = (.ok (), {}) := by decide +kernel
  obtain ⟨s, tr, hrun, hlimit⟩ := exists_run_of_exec_guarded step Serialised ⟨{}, []⟩
    [.connect "sb 256", .connect "ls 200", .run 0, .run 0, .run 1, .run 1]
    (fun (y : State × List Event) => y.1.settings.limitSpeed) (b := 200 * 1024 * 1024)
    (by decide +kernel)
  exact ⟨tr, s, hstart, hrun, hlimit, (speeds_consistent _ _ _).2 hstart tr s hrun⟩

/-- Each command is checked before the other one stores its value. -/
theorem speeds_crossed :
    ∃ tr s, (checkParams noArgs).exec {} = (.ok (), {}) ∧ Run step anything ⟨{}, []⟩ tr s ∧
      s.settings.limitSpeed = 100 * 1024 * 1024 ∧
      s.settings.singleBandwidth = 50 * 1024 * 1024 := by
  obtain ⟨s, tr, hrun, hspeeds⟩ := exists_run_of_exec step ⟨{}, []⟩
    [.connect "limit-speed 100", .connect "single-bandwidth 50", .run 0, .run 1, .run 0, .run 1]
    (fun (y : State × List Event) => (y.1.settings.limitSpeed, y.1.settings.singleBandwidth))
    (b := (100 * 1024 * 1024, 50 * 1024 * 1024)) (by decide +kernel)
  exact ⟨tr, s, by decide +kernel, hrun, congrArg Prod.fst hspeeds, congrArg Prod.snd hspeeds⟩

/-! ## No rate is zero -/

/-- A positive bandwidth below half a bit per second. -/
def tooSmall (value : String) : Bool :=
  match parseF64 value with
  | some (.finite megabits) => decide (0 < megabits ∧ megabits * 1024 * 1024 < 1 / 2)
  | _ => false

/-- A command with such a bandwidth. -/
def setsTooSmall (cmd : String) : Bool :=
  match tuningCommand cmd with
  | some (.limitSpeed, some v) | some (.totalBandwidth, some v)
  | some (.singleBandwidth, some v) => tooSmall v
  | _ => false

/-- The condition: no console command has such a bandwidth. -/
def LargeEnough (_ : List Event) (_ : State) : Action → Prop
  | .connect cmd => setsTooSmall cmd = false
  | _ => True

instance {tr : List Event} {s : State} : {a : Action} → Decidable (LargeEnough tr s a)
  | .connect cmd => inferInstanceAs (Decidable (setsTooSmall cmd = false))
  | .run _ | .ioLoop | .limiter | .blacklistLimiter => inferInstanceAs (Decidable True)

theorem parseDowngradeThreshold_range {value : String} {n : Nat}
    (h : parseDowngradeThreshold value = .ok n) : 1 ≤ n ∧ n ≤ 1000000 := by
  unfold parseDowngradeThreshold at h
  split at h
  · cases h
  · rename_i q _
    split at h
    · cases h
    · rename_i hrange
      obtain ⟨hpos, hone⟩ := not_not.1 hrange
      dsimp only at h
      split at h
      · cases h
      · rename_i hscaled
        obtain rfl := Except.ok.inj h
        refine ⟨Nat.one_le_iff_ne_zero.2 hscaled, asUsize_roundAway_le ?_ ?_⟩
        · rw [downgradeThresholdScale]
          positivity
        · rw [downgradeThresholdScale]
          push_cast
          linarith
  · cases h

theorem parseDowngradeStart_multiple {value : String} {n : Nat}
    (h : parseDowngradeStart value = .ok n) :
    ∃ seconds, parseUsize value = some seconds ∧ 0 < seconds ∧ n = seconds * 1000 ∧
      n ≤ usizeMax := by
  unfold parseDowngradeStart at h
  split at h
  · cases h
  · rename_i seconds hparse
    split at h
    · cases h
    · rename_i hzero
      split at h
      · cases h
      · rename_i milliseconds hmul
        obtain rfl := Except.ok.inj h
        obtain ⟨heq, hle⟩ := checkedMul_eq_some hmul
        exact ⟨seconds, hparse, Nat.pos_of_ne_zero hzero, heq, hle⟩

theorem parseBandwidth_pos {name value : String} {n : Nat} (hlarge : tooSmall value = false)
    (h : parseBandwidth name value = .ok n) : 1 ≤ n := by
  unfold parseBandwidth at h
  split at h
  · cases h
  · rename_i megabits hparse
    simp only [tooSmall, hparse, decide_eq_false_iff_not, not_and, not_lt] at hlarge
    dsimp only at h
    split at h
    · cases h
    · rename_i hrange
      obtain rfl := Except.ok.inj h
      exact one_le_asUsize_roundAway (hlarge (not_le.1 fun hle => hrange (Or.inl hle)))
  · cases h

/-- A value that is on its way into a setting or a limiter will not be zero. -/
def Stage.NonZero : Stage → Prop
  | received cmd => setsTooSmall cmd = false
  | storeLimitSpeed value | storeSingleBandwidth value | setSpeedLimit value => 1 ≤ value
  | replied _ => True

structure Settings.NonZero (s : Settings) : Prop where
  limitSpeed : 1 ≤ s.limitSpeed
  totalBandwidth : 1 ≤ s.totalBandwidth
  singleBandwidth : 1 ≤ s.singleBandwidth

/-- What a step of a task leaves. -/
theorem Effect.nonZero {s : Settings} {stage : Stage} {next : Next} (h : Effect s stage next)
    (hs : s.NonZero) (hstage : stage.NonZero) :
    next.settings.NonZero ∧ next.stage.NonZero ∧ ∀ n, Event.rate n ∈ next.events → 1 ≤ n := by
  cases h with
  | reply => exact ⟨hs, trivial, nofun⟩
  | threshold => exact ⟨⟨hs.1, hs.2, hs.3⟩, trivial, nofun⟩
  | start => exact ⟨⟨hs.1, hs.2, hs.3⟩, trivial, nofun⟩
  | total v hcmd hparse =>
    simp only [Stage.NonZero, setsTooSmall, hcmd] at hstage
    have hpos := parseBandwidth_pos hstage hparse
    exact ⟨⟨hs.1, hpos, hs.3⟩, hpos, nofun⟩
  | checkedLimit v hcmd hparse hle =>
    simp only [Stage.NonZero, setsTooSmall, hcmd] at hstage
    exact ⟨hs, parseBandwidth_pos hstage hparse, nofun⟩
  | checkedSingle v hcmd hparse hle =>
    simp only [Stage.NonZero, setsTooSmall, hcmd] at hstage
    exact ⟨hs, parseBandwidth_pos hstage hparse, nofun⟩
  | limit => exact ⟨⟨hstage, hs.2, hs.3⟩, trivial, nofun⟩
  | single => exact ⟨⟨hs.1, hs.2, hstage⟩, trivial, nofun⟩
  | limiter =>
    refine ⟨hs, trivial, fun n hmem => ?_⟩
    cases List.mem_singleton.1 hmem
    exact hstage

structure Usable (tr : List Event) (s : State) : Prop where
  settings : s.settings.NonZero
  tasks : ∀ stage ∈ s.tasks, stage.NonZero
  rates : ∀ n, Event.rate n ∈ tr → 1 ≤ n

/-- A new limiter gets one of the settings. -/
theorem Usable.limiter {s : State} {tr : List Event} (h : Usable tr s) {n : Nat} (hn : 1 ≤ n) :
    Usable (tr ++ [.rate n]) s := by
  refine ⟨h.settings, h.tasks, fun m hmem => ?_⟩
  rcases List.mem_append.1 hmem with hmem | hmem
  · exact h.rates m hmem
  · cases List.mem_singleton.1 hmem
    exact hn

theorem Usable.step {s s' : State} {a : Action} {tr evs : List Event} (h : Usable tr s)
    (hok : LargeEnough tr s a) (hstep : step s a = some (s', evs)) : Usable (tr ++ evs) s' := by
  cases a with
  | connect cmd =>
    cases hstep
    rw [List.append_nil]
    refine ⟨h.settings, fun stage hmem => ?_, h.rates⟩
    rcases List.mem_append.1 hmem with hmem | hmem
    · exact h.tasks stage hmem
    · cases List.mem_singleton.1 hmem
      exact hok
  | run i =>
    obtain ⟨stage, hi, hnext⟩ := Option.bind_eq_some_iff.1 hstep
    obtain ⟨next, hcheck, hpair⟩ := Option.map_eq_some_iff.1 hnext
    cases hpair
    obtain ⟨hsettings, hstage, hrates⟩ :=
      (checkCmd_effect hcheck).nonZero h.settings (h.tasks stage (List.mem_of_getElem? hi))
    refine ⟨hsettings, fun other hmem => ?_, fun n hmem => ?_⟩
    · rcases List.mem_or_eq_of_mem_set hmem with hmem | rfl
      · exact h.tasks other hmem
      · exact hstage
    · exact (List.mem_append.1 hmem).elim (h.rates n) (hrates n)
  | ioLoop =>
    cases hstep
    exact h.limiter h.settings.totalBandwidth
  | limiter =>
    cases hstep
    exact h.limiter h.settings.singleBandwidth
  | blacklistLimiter =>
    cases hstep
    exact h.limiter h.settings.limitSpeed

/-- The arguments of the three bandwidths. -/
def bandwidthArgs : List String := ["LIMIT_SPEED", "TOTAL_BANDWIDTH", "SINGLE_BANDWIDTH"]

theorem argumentValue_pos {args : String → Option String} {name label : String} {default n : Nat}
    (hlarge : ∀ value, args name = some value → tooSmall value = false) (hdefault : 1 ≤ default)
    (h : argumentValue args name (parseBandwidth label) default = .ok n) : 1 ≤ n := by
  unfold argumentValue at h
  split at h
  · rename_i value hvalue
    exact parseBandwidth_pos (hlarge value (Option.filter_eq_some_iff.1 hvalue).1) h
  · obtain rfl := Except.ok.inj h
    exact hdefault

theorem checkParams_nonZero {args : String → Option String}
    (hlarge : ∀ name ∈ bandwidthArgs, ∀ value, args name = some value → tooSmall value = false)
    {s s' : Settings} (hs : s.NonZero) (h : (checkParams args).exec s = (.ok (), s')) :
    s'.NonZero := by
  rcases exec_checkParams args s with ⟨err, hexec⟩ | ⟨s'', hexec, -, -, hlimit, htotal, hsingle, -⟩
  · rw [hexec] at h
    cases congrArg Prod.fst h
  · rw [hexec] at h
    obtain rfl : s'' = s' := congrArg Prod.snd h
    exact ⟨argumentValue_pos (hlarge _ (by decide)) hs.limitSpeed hlimit,
      argumentValue_pos (hlarge _ (by decide)) hs.totalBandwidth htotal,
      argumentValue_pos (hlarge _ (by decide)) hs.singleBandwidth hsingle⟩

/-- A threshold that is accepted is between 1 and 1,000,000, and a start is a positive number of
seconds in milliseconds, without an overflow.  A bandwidth that is accepted is at least one bit
per second if it is not below one half; so when the relay starts with such arguments, in every
run whose commands are all such, no speed is zero and no limiter gets the rate zero. -/
theorem rates_usable {args : String → Option String} {settings : Settings}
    (hargs : ∀ name ∈ bandwidthArgs, ∀ value, args name = some value → tooSmall value = false)
    (hstart : (checkParams args).exec {} = (.ok (), settings)) {tr : List Event} {s : State}
    (hrun : Run step LargeEnough ⟨settings, []⟩ tr s) :
    (∀ value n, parseDowngradeThreshold value = .ok n → 1 ≤ n ∧ n ≤ 1000000) ∧
    (∀ value n, parseDowngradeStart value = .ok n →
      ∃ seconds, parseUsize value = some seconds ∧ 0 < seconds ∧ n = seconds * 1000 ∧
        n ≤ usizeMax) ∧
    (∀ name value n, tooSmall value = false → parseBandwidth name value = .ok n → 1 ≤ n) ∧
    s.settings.limitSpeed ≠ 0 ∧ s.settings.singleBandwidth ≠ 0 ∧ s.settings.totalBandwidth ≠ 0 ∧
    ∀ n, Event.rate n ∈ tr → n ≠ 0 := by
  have hdefault : Settings.NonZero {} := ⟨by decide, by decide, by decide⟩
  have hinit : settings.NonZero := checkParams_nonZero hargs hdefault hstart
  have hinv : Usable tr s := hrun.inv ⟨hinit, nofun, nofun⟩ fun _ h hok hstep => h.step hok hstep
  exact ⟨fun _ _ => parseDowngradeThreshold_range, fun _ _ => parseDowngradeStart_multiple,
    fun _ _ _ => parseBandwidth_pos, Nat.one_le_iff_ne_zero.1 hinv.settings.limitSpeed,
    Nat.one_le_iff_ne_zero.1 hinv.settings.singleBandwidth,
    Nat.one_le_iff_ne_zero.1 hinv.settings.totalBandwidth,
    fun n hmem => Nat.one_le_iff_ne_zero.1 (hinv.rates n hmem)⟩

/-- About one bit per second. -/
def smallArgs (name : String) : Option String :=
  if name = "LIMIT_SPEED" then some "0.000001" else none

theorem rates_usable_one :
    ∃ tr s, (checkParams smallArgs).exec {} = (.ok (), { limitSpeed := 1 }) ∧
      Run step LargeEnough ⟨{ limitSpeed := 1 }, []⟩ tr s ∧ tr = [.rate 2, .rate 1] ∧
      s.settings.totalBandwidth ≠ 0 ∧ ∀ n, Event.rate n ∈ tr → n ≠ 0 := by
  have hargs : ∀ name ∈ bandwidthArgs, ∀ value, smallArgs name = some value →
      tooSmall value = false := by
    intro name _ value hvalue
    unfold smallArgs at hvalue
    split at hvalue
    · obtain rfl := Option.some.inj hvalue
      decide +kernel
    · cases hvalue
  have hstart : (checkParams smallArgs).exec {} = (.ok (), { limitSpeed := 1 }) := by
    decide +kernel
  obtain ⟨s, tr, hrun, htr⟩ := exists_run_of_exec_guarded step LargeEnough
    ⟨{ limitSpeed := 1 }, []⟩ [.connect "tb 2e-6", .run 0, .run 0, .blacklistLimiter]
    (fun (y : State × List Event) => y.2) (b := [.rate 2, .rate 1]) (by decide +kernel)
  obtain ⟨-, -, -, -, -, htotal, hrates⟩ := rates_usable hargs hstart hrun
  exact ⟨tr, s, hstart, hrun, htr, htotal, hrates⟩

/-- A smaller bandwidth is accepted and rounded to zero, and the relay makes a limiter with it. -/
theorem rate_zero :
    parseBandwidth "LIMIT_SPEED" "0.0000001" = .ok 0 ∧
    ∃ tr s, (checkParams noArgs).exec {} = (.ok (), {}) ∧ Run step anything ⟨{}, []⟩ tr s ∧
      s.settings.limitSpeed = 0 ∧ Event.rate 0 ∈ tr := by
  obtain ⟨s, tr, hrun, hzero⟩ := exists_run_of_exec step ⟨{}, []⟩
    [.connect "limit-speed 0.0000001", .run 0, .run 0, .blacklistLimiter]
    (fun (y : State × List Event) => (y.1.settings.limitSpeed, y.2)) (b := (0, [.rate 0]))
    (by decide +kernel)
  have hrate : Event.rate 0 ∈ tr := by
    have htr : tr = [.rate 0] := congrArg Prod.snd hzero
    rw [htr]
    exact List.mem_singleton_self _
  exact ⟨by decide +kernel, tr, s, by decide +kernel, hrun, congrArg Prod.fst hzero, hrate⟩

end RemoteServer.Relay.Tuning
