import RemoteServer.Fallible
import RemoteServer.Lts.Run
import RemoteServer.RustStd.Numbers

/-!
# The tuning of the relay

Five settings say how fast the relay may be and when a connection is slowed down.  They are
atomics: `check_params` sets them when the relay starts, and each console connection is a task
of its own that can read and write them.

* `parseDowngradeThreshold`, `parseDowngradeStart` and `parseBandwidth` read the values.
* `checkParams` is a program that loads and stores the settings and can fail.
* `Stage` is where the task of a console command is between two accesses to an atomic, and
  `step` lets one task go on.  The relay reads the settings when it makes a limiter.
* `Effect` lists what a task does in one step.

The console commands on the address lists are in `Relay.Lists`, and do not use the settings.
The texts of the errors of libraries are not modelled, and a number that the console shows is
the value of the setting here.
-/

namespace RemoteServer.Relay.Tuning

open RustStd Fallible

structure Settings where
  downgradeThresholdScaled : Nat := 660000
  downgradeStartCheck : Nat := 1800000
  limitSpeed : Nat := 32 * 1024 * 1024
  totalBandwidth : Nat := 1024 * 1024 * 1024
  singleBandwidth : Nat := 128 * 1024 * 1024
deriving DecidableEq

/-! ## Values -/

def downgradeThresholdScale : Nat := 1000000

def parseDowngradeThreshold (value : String) : Except String Nat :=
  match parseF64 value with
  | none => .error "invalid float literal"
  | some (.finite value) =>
    if ¬(0 < value ∧ value ≤ 1) then
      .error "DOWNGRADE_THRESHOLD must be greater than 0 and at most 1"
    else
      let scaled := asUsize (roundAway (value * downgradeThresholdScale))
      if scaled = 0 then .error "DOWNGRADE_THRESHOLD must be at least 0.000001" else .ok scaled
  | some _ => .error "DOWNGRADE_THRESHOLD must be greater than 0 and at most 1"

def parseDowngradeStart (value : String) : Except String Nat :=
  match parseUsize value with
  | none => .error "invalid digit found in string"
  | some seconds =>
    if seconds = 0 then .error "DOWNGRADE_START_CHECK must be greater than 0"
    else
      match checkedMul seconds 1000 with
      | none => .error "DOWNGRADE_START_CHECK is too large"
      | some milliseconds => .ok milliseconds

/-- `usize::MAX as f64`, which is rounded to a power of two. -/
def usizeMaxAsF64 : ℚ := 2 ^ 64

def parseBandwidth (name value : String) : Except String Nat :=
  match parseF64 value with
  | none => .error "invalid float literal"
  | some (.finite megabits) =>
    let bits := megabits * 1024 * 1024
    if megabits ≤ 0 ∨ usizeMaxAsF64 < bits then
      .error (name ++ " must be a positive bandwidth supported by this architecture")
    else .ok (asUsize (roundAway bits))
  | some _ => .error (name ++ " must be a positive bandwidth supported by this architecture")

/-! ## The start -/

/-- A program on the settings that can fail. -/
abbrev Program := ExceptT String (StateM Settings)

def Program.exec {α : Type} (program : Program α) (s : Settings) : Except String α × Settings :=
  StateT.run (ExceptT.run program) s

/-- An argument that is not blank is parsed, and otherwise the setting is loaded. -/
def argument (args : String → Option String) (name : String) (parse : String → Except String Nat)
    (load : Settings → Nat) : Program Nat := do
  match (args name).filter fun value => !(Str.trim value).isEmpty with
  | some value => liftExcept (parse value)
  | none => return load (← get)
where
  liftExcept (result : Except String Nat) : Program Nat := ExceptT.mk (pure result)

/-- `check_params`. -/
def checkParams (args : String → Option String) : Program Unit := do
  let downgradeThreshold ← argument args "DOWNGRADE_THRESHOLD" parseDowngradeThreshold
    Settings.downgradeThresholdScaled
  let downgradeStart ← argument args "DOWNGRADE_START_CHECK" parseDowngradeStart
    Settings.downgradeStartCheck
  let limitSpeed ← argument args "LIMIT_SPEED" (parseBandwidth "LIMIT_SPEED") Settings.limitSpeed
  let totalBandwidth ← argument args "TOTAL_BANDWIDTH" (parseBandwidth "TOTAL_BANDWIDTH")
    Settings.totalBandwidth
  let singleBandwidth ← argument args "SINGLE_BANDWIDTH" (parseBandwidth "SINGLE_BANDWIDTH")
    Settings.singleBandwidth
  if singleBandwidth < limitSpeed then throw "LIMIT_SPEED must not exceed SINGLE_BANDWIDTH"
  modify fun s => { s with downgradeThresholdScaled := downgradeThreshold }
  modify fun s => { s with downgradeStartCheck := downgradeStart }
  modify fun s => { s with limitSpeed := limitSpeed }
  modify fun s => { s with totalBandwidth := totalBandwidth }
  modify fun s => { s with singleBandwidth := singleBandwidth }

/-- The value that `argument` gives. -/
def argumentValue (args : String → Option String) (name : String)
    (parse : String → Except String Nat) (default : Nat) : Except String Nat :=
  match (args name).filter fun value => !(Str.trim value).isEmpty with
  | some value => parse value
  | none => .ok default

section CheckParams

variable {args : String → Option String} {s s' : Settings} {α : Type}

theorem exec_argument_bind (args : String → Option String) (name : String)
    (parse : String → Except String Nat) (load : Settings → Nat) (f : Nat → Program α)
    (s : Settings) :
    (argument args name parse load >>= f).exec s =
      match argumentValue args name parse (load s) with
      | .ok value => (f value).exec s
      | .error err => (.error err, s) := by
  unfold argument argumentValue
  cases (args name).filter fun value => !(Str.trim value).isEmpty with
  | none => rfl
  | some value =>
    show (argument.liftExcept (parse value) >>= f).exec s = match parse value with
      | .ok value => (f value).exec s
      | .error err => (.error err, s)
    cases parse value <;> rfl

/-- The program comes to its end and stores the values, or it fails and stores nothing. -/
theorem exec_checkParams (args : String → Option String) (s : Settings) :
    (∃ err, (checkParams args).exec s = (.error err, s)) ∨
      ∃ s', (checkParams args).exec s = (.ok (), s') ∧
        argumentValue args "DOWNGRADE_THRESHOLD" parseDowngradeThreshold
          s.downgradeThresholdScaled = .ok s'.downgradeThresholdScaled ∧
        argumentValue args "DOWNGRADE_START_CHECK" parseDowngradeStart
          s.downgradeStartCheck = .ok s'.downgradeStartCheck ∧
        argumentValue args "LIMIT_SPEED" (parseBandwidth "LIMIT_SPEED") s.limitSpeed =
          .ok s'.limitSpeed ∧
        argumentValue args "TOTAL_BANDWIDTH" (parseBandwidth "TOTAL_BANDWIDTH")
          s.totalBandwidth = .ok s'.totalBandwidth ∧
        argumentValue args "SINGLE_BANDWIDTH" (parseBandwidth "SINGLE_BANDWIDTH")
          s.singleBandwidth = .ok s'.singleBandwidth ∧
        s'.limitSpeed ≤ s'.singleBandwidth := by
  unfold checkParams
  rw [exec_argument_bind]
  split
  · rename_i threshold hthreshold
    rw [exec_argument_bind]
    split
    · rename_i start hstart
      rw [exec_argument_bind]
      split
      · rename_i limit hlimit
        rw [exec_argument_bind]
        split
        · rename_i total htotal
          rw [exec_argument_bind]
          split
          · rename_i single hsingle
            by_cases hle : single < limit
            · rw [if_pos hle]
              exact Or.inl ⟨_, rfl⟩
            · rw [if_neg hle]
              exact Or.inr ⟨⟨threshold, start, limit, total, single⟩, rfl, hthreshold, hstart,
                hlimit, htotal, hsingle, Nat.not_lt.1 hle⟩
          · exact Or.inl ⟨_, rfl⟩
        · exact Or.inl ⟨_, rfl⟩
      · exact Or.inl ⟨_, rfl⟩
    · exact Or.inl ⟨_, rfl⟩
  · exact Or.inl ⟨_, rfl⟩

end CheckParams

/-! ## The console -/

inductive Field where
  | downgradeThreshold
  | downgradeStartCheck
  | limitSpeed
  | totalBandwidth
  | singleBandwidth
deriving DecidableEq

/-- The setting that a command is about. -/
def field (word : String) : Option Field :=
  if word = "downgrade-threshold" ∨ word = "dt" then some .downgradeThreshold
  else if word = "downgrade-start-check" ∨ word = "t" then some .downgradeStartCheck
  else if word = "limit-speed" ∨ word = "ls" then some .limitSpeed
  else if word = "total-bandwidth" ∨ word = "tb" then some .totalBandwidth
  else if word = "single-bandwidth" ∨ word = "sb" then some .singleBandwidth
  else none

/-- A command on the settings, and its value if it has one. -/
def tuningCommand (cmd : String) : Option (Field × Option String) :=
  let fds := Str.split ' ' (Str.trim cmd)
  (fds.head?.bind field).map fun f => (f, fds[1]?)

inductive Reply where
  | text (res : String)
  /-- The value of a setting. -/
  | shown (field : Field) (value : Nat)
  /-- The reply to a command that is not about the settings. -/
  | other
deriving DecidableEq

/-- Where the task of a console connection is. -/
inductive Stage where
  | received (cmd : String)
  | storeLimitSpeed (value : Nat)
  | storeSingleBandwidth (value : Nat)
  | setSpeedLimit (value : Nat)
  | replied (res : Reply)
deriving DecidableEq

inductive Event where
  /-- A limiter is given this rate. -/
  | rate (bitsPerSecond : Nat)
deriving DecidableEq

/-- What is left after a step of a task. -/
structure Next where
  settings : Settings
  stage : Stage
  events : List Event := []

def Settings.load (s : Settings) : Field → Nat
  | .downgradeThreshold => s.downgradeThresholdScaled
  | .downgradeStartCheck => s.downgradeStartCheck
  | .limitSpeed => s.limitSpeed
  | .totalBandwidth => s.totalBandwidth
  | .singleBandwidth => s.singleBandwidth

/-- A command that has a value, up to its first access to a setting. -/
def setCommand (s : Settings) (f : Field) (v : String) : Next :=
  match f with
  | .downgradeThreshold =>
    match parseDowngradeThreshold v with
    | .ok value => ⟨{ s with downgradeThresholdScaled := value }, .replied (.text ""), []⟩
    | .error err => ⟨s, .replied (.text ("Invalid downgrade threshold: " ++ err ++ "\n")), []⟩
  | .downgradeStartCheck =>
    match parseDowngradeStart v with
    | .ok value => ⟨{ s with downgradeStartCheck := value }, .replied (.text ""), []⟩
    | .error err => ⟨s, .replied (.text ("Invalid downgrade start: " ++ err ++ "\n")), []⟩
  | .limitSpeed =>
    match parseBandwidth "LIMIT_SPEED" v with
    | .ok value =>
      if s.singleBandwidth < value then
        ⟨s, .replied (.text "LIMIT_SPEED must not exceed SINGLE_BANDWIDTH\n"), []⟩
      else ⟨s, .storeLimitSpeed value, []⟩
    | .error err => ⟨s, .replied (.text ("Invalid limit speed: " ++ err ++ "\n")), []⟩
  | .totalBandwidth =>
    match parseBandwidth "TOTAL_BANDWIDTH" v with
    | .ok value => ⟨{ s with totalBandwidth := value }, .setSpeedLimit value, []⟩
    | .error err => ⟨s, .replied (.text ("Invalid total bandwidth: " ++ err ++ "\n")), []⟩
  | .singleBandwidth =>
    match parseBandwidth "SINGLE_BANDWIDTH" v with
    | .ok value =>
      if value < s.limitSpeed then
        ⟨s, .replied (.text "SINGLE_BANDWIDTH must not be below LIMIT_SPEED\n"), []⟩
      else ⟨s, .storeSingleBandwidth value, []⟩
    | .error err => ⟨s, .replied (.text ("Invalid single bandwidth: " ++ err ++ "\n")), []⟩

/-- The next step of `check_cmd`; none when it has returned. -/
def checkCmd (s : Settings) : Stage → Option Next
  | .received cmd =>
    match tuningCommand cmd with
    | none => some ⟨s, .replied .other, []⟩
    | some (f, none) => some ⟨s, .replied (.shown f (s.load f)), []⟩
    | some (f, some v) => some (setCommand s f v)
  | .storeLimitSpeed value => some ⟨{ s with limitSpeed := value }, .replied (.text ""), []⟩
  | .storeSingleBandwidth value =>
    some ⟨{ s with singleBandwidth := value }, .replied (.text ""), []⟩
  | .setSpeedLimit value => some ⟨s, .replied (.text ""), [.rate value]⟩
  | .replied _ => none

/-! ## The system -/

structure State where
  settings : Settings
  tasks : List Stage

inductive Action where
  /-- A console connection has sent its command. -/
  | connect (cmd : String)
  | run (task : Nat)
  /-- `io_loop` starts, with a new limiter for the whole relay. -/
  | ioLoop
  /-- `relay` makes the limiter of a connection. -/
  | limiter
  /-- `relay` makes the limiter for the blacklist. -/
  | blacklistLimiter
deriving DecidableEq

def step (s : State) : Action → Option (State × List Event)
  | .connect cmd => some ({ s with tasks := s.tasks ++ [.received cmd] }, [])
  | .run i =>
    (s.tasks[i]?).bind fun stage =>
      (checkCmd s.settings stage).map fun next =>
        (⟨next.settings, s.tasks.set i next.stage⟩, next.events)
  | .ioLoop => some (s, [.rate s.settings.totalBandwidth])
  | .limiter => some (s, [.rate s.settings.singleBandwidth])
  | .blacklistLimiter => some (s, [.rate s.settings.limitSpeed])

/-- What a task does in one step: each store has the value that was parsed before. -/
inductive Effect (s : Settings) : Stage → Next → Prop where
  | reply {stage res} : Effect s stage ⟨s, .replied res, []⟩
  | threshold {cmd value} (v : String) (h : parseDowngradeThreshold v = .ok value) :
    Effect s (.received cmd) ⟨{ s with downgradeThresholdScaled := value }, .replied (.text ""), []⟩
  | start {cmd value} (v : String) (h : parseDowngradeStart v = .ok value) :
    Effect s (.received cmd) ⟨{ s with downgradeStartCheck := value }, .replied (.text ""), []⟩
  | total {cmd value} (v : String) (hcmd : tuningCommand cmd = some (.totalBandwidth, some v))
    (h : parseBandwidth "TOTAL_BANDWIDTH" v = .ok value) :
    Effect s (.received cmd) ⟨{ s with totalBandwidth := value }, .setSpeedLimit value, []⟩
  | checkedLimit {cmd value} (v : String) (hcmd : tuningCommand cmd = some (.limitSpeed, some v))
    (h : parseBandwidth "LIMIT_SPEED" v = .ok value) (hle : value ≤ s.singleBandwidth) :
    Effect s (.received cmd) ⟨s, .storeLimitSpeed value, []⟩
  | checkedSingle {cmd value} (v : String)
    (hcmd : tuningCommand cmd = some (.singleBandwidth, some v))
    (h : parseBandwidth "SINGLE_BANDWIDTH" v = .ok value) (hle : s.limitSpeed ≤ value) :
    Effect s (.received cmd) ⟨s, .storeSingleBandwidth value, []⟩
  | limit {value} :
    Effect s (.storeLimitSpeed value) ⟨{ s with limitSpeed := value }, .replied (.text ""), []⟩
  | single {value} :
    Effect s (.storeSingleBandwidth value)
      ⟨{ s with singleBandwidth := value }, .replied (.text ""), []⟩
  | limiter {value} :
    Effect s (.setSpeedLimit value) ⟨s, .replied (.text ""), [.rate value]⟩

theorem setCommand_effect {s : Settings} {cmd v : String} {f : Field}
    (hcmd : tuningCommand cmd = some (f, some v)) :
    Effect s (.received cmd) (setCommand s f v) := by
  unfold setCommand
  split
  · split
    · rename_i hparse
      exact .threshold v hparse
    · exact .reply
  · split
    · rename_i hparse
      exact .start v hparse
    · exact .reply
  · split
    · rename_i hparse
      split
      · exact .reply
      · rename_i hle
        exact .checkedLimit v hcmd hparse (Nat.not_lt.1 hle)
    · exact .reply
  · split
    · rename_i hparse
      exact .total v hcmd hparse
    · exact .reply
  · split
    · rename_i hparse
      split
      · exact .reply
      · rename_i hle
        exact .checkedSingle v hcmd hparse (Nat.not_lt.1 hle)
    · exact .reply

theorem checkCmd_effect {s : Settings} {stage : Stage} {next : Next}
    (h : checkCmd s stage = some next) : Effect s stage next := by
  cases stage with
  | received cmd =>
    simp only [checkCmd] at h
    split at h
    · cases h
      exact .reply
    · cases h
      exact .reply
    · rename_i f v hcmd
      cases h
      exact setCommand_effect hcmd
  | storeLimitSpeed value =>
    cases h
    exact .limit
  | storeSingleBandwidth value =>
    cases h
    exact .single
  | setSpeedLimit value =>
    cases h
    exact .limiter
  | replied res => cases h

end RemoteServer.Relay.Tuning
