import Mathlib
import RemoteServer.Lts.Run
import RemoteServer.Relay.Machine
import RemoteServer.Relay.Tuning

/-!
# The traffic of a relay session

`relay` copies what one client sends to the other one, makes it wait for its limiters, counts
it, and once a second publishes the counts in the table `USAGE`.  A session that has been too
fast for too long is downgraded: it goes on with the limiter of the blacklist.

A session loses control at every `.await`.  Its `Phase` is the next one after which it looks at
something that other tasks change: the clock, the two address lists and the settings.  They
change in any way between two of its steps.

* `Meter` has the variables of the loop, `Meter.arrive` is one arrival, `Meter.window` the
  check of every second and `Meter.reset` what follows the publication.
* `Ledger` is what a session is for, without its loop: which message, publication or downgrade
  may follow what it has done so far.  `run_ledger` is the refinement.
* `session_copies`, `session_published` and `session_downgraded` are read off the ledger.
* `turn_eq_turnAlone`: a turn of the loop that nothing interrupts is the one of the relay
  machine, which has no traffic.

The counters have 64 bits in the source and are natural numbers here, and the comparison of
the downgrade is exact where the source compares two `f64`.
-/

namespace RemoteServer.Relay.Traffic

open RustStd Lts

/-! ## The loop -/

/-- What is published: the milliseconds, the bits, the highest speed and the last one. -/
structure Usage where
  elapsed : Nat
  total : Nat
  highest : Nat
  speed : Nat
deriving DecidableEq

/-- The limiter that a message waits for before the one of the whole relay. -/
inductive Limiter where
  | single
  | blacklist
deriving DecidableEq

/-- The variables of `relay`, and what it has loaded of the settings. -/
structure Meter extends Session where
  elapsed : Nat
  total : Nat
  totalS : Nat
  highestS : Nat
  downgrade : Bool
  blacked : Bool
  sb : Nat
  downgradeThresholdScaled : Nat

/-- What a session does. -/
inductive Note where
  /-- A message of the client that has waited, which is the `peer`, or of the other one. -/
  | received (fromPeer : Bool) (bytes : Bytes) (limiter : Limiter)
  /-- A message of that side was sent to the other side. -/
  | sent (fromPeer : Bool) (bytes : Bytes)
  | published (usage : Usage)
  | downgraded (elapsed : Nat)
deriving DecidableEq

inductive Phase where
  /-- In `select!`. -/
  | select (m : Meter)
  /-- After `select!`; the limiters and the send may have taken their time. -/
  | check (m : Meter)
  /-- Before the read of `BLOCKLIST`, `n` milliseconds after the last check. -/
  | inspect (m : Meter) (n : Nat)
  /-- Before the read of `BLACKLIST`. -/
  | blacken (m : Meter) (n : Nat)
  /-- Before the lock of `USAGE`. -/
  | publish (m : Meter) (speed : Nat)
  | returned

/-- What `select!` answers. -/
inductive Arrival where
  /-- A message, and whether the other side takes it. -/
  | data (fromPeer : Bool) (bytes : Bytes) (sent : Bool)
  | closed
  | timer

namespace Meter

def start (now : Nat) (settings : Tuning.Settings) : Meter where
  tm := now
  lastRecvTime := now
  elapsed := 0
  total := 0
  totalS := 0
  highestS := 0
  downgrade := false
  blacked := false
  sb := settings.singleBandwidth
  downgradeThresholdScaled := settings.downgradeThresholdScaled

def limiter (m : Meter) : Limiter := if m.blacked || m.downgrade then .blacklist else .single

/-- A message of `bits` has been counted. -/
def count (m : Meter) (now bits : Nat) : Meter :=
  { m with lastRecvTime := now, total := m.total + bits, totalS := m.totalS + bits }

/-- A branch of `select!`. -/
def arrive (now : Nat) (m : Meter) : Arrival → Phase × List Note
  | .data fromPeer bytes sent =>
    let counted := m.count now (bytes.length * 8)
    let received := Note.received fromPeer bytes m.limiter
    if bytes.isEmpty then (.check counted, [received])
    else if sent then (.check counted, [received, .sent fromPeer bytes])
    else (.returned, [received])
  | .closed => (.returned, [])
  | .timer =>
    if 30 < Instant.elapsedSecs now m.lastRecvTime then (.returned, []) else (.check m, [])

/-- The speed of the last `n` milliseconds. -/
def speed (m : Meter) (n : Nat) : Nat := m.totalS / n

/-- The check of every second, after the two lists have been read. -/
def window (m : Meter) (now : Nat) (blacked : Bool) (n : Nat) : Meter :=
  { m with
    blacked, tm := now
    highestS := if m.highestS < m.speed n then m.speed n else m.highestS
    elapsed := m.elapsed + n }

def usage (m : Meter) (speed : Nat) : Usage := ⟨m.elapsed, m.total, m.highestS, speed⟩

/-- The session has carried more than the threshold allows. -/
def exceeds (m : Meter) : Bool :=
  decide ((m.elapsed : ℚ) * m.sb / 1000 *
    ((m.downgradeThresholdScaled : ℚ) / Tuning.downgradeThresholdScale) < m.total)

/-- The session is downgraded now. -/
def downgrades (m : Meter) (downgradeStartCheck : Nat) : Bool :=
  decide (downgradeStartCheck < m.elapsed) && !m.downgrade && m.exceeds

/-- What follows the publication. -/
def reset (m : Meter) (downgradeStartCheck : Nat) : Meter :=
  { m with totalS := 0, downgrade := m.downgrade || m.downgrades downgradeStartCheck }

end Meter

structure State where
  now : Nat
  phase : Phase
  lists : Lists
  settings : Tuning.Settings

/-- The start of `relay`. -/
def State.start (now : Nat) (lists : Lists) (settings : Tuning.Settings) : State :=
  ⟨now, .select (.start now settings), lists, settings⟩

/-- The next step of a session of `addr` that is not in `select!`. -/
def next (addr : SocketAddr) (s : State) : Phase → Option (Phase × List Note)
  | .check m =>
    let n := Instant.elapsedMillis s.now m.tm
    some (if 1000 ≤ n then .inspect m n else .select m, [])
  | .inspect m n =>
    some (if periodicCheck s.lists.blocklist addr then .returned else .blacken m n, [])
  | .blacken m n =>
    some (.publish (m.window s.now (s.lists.blacklist.contains addr.ip.toString) n) (m.speed n), [])
  | .publish m speed =>
    some (.select (m.reset s.settings.downgradeStartCheck), .published (m.usage speed) ::
      if m.downgrades s.settings.downgradeStartCheck then [.downgraded m.elapsed] else [])
  | _ => none

inductive Action where
  | tick (d : Nat)
  /-- The `select!` returns. -/
  | arrive (arrival : Arrival)
  /-- The session goes on. -/
  | go
  /-- The console has edited the lists or the settings. -/
  | console (lists : Lists) (settings : Tuning.Settings)

def step (addr : SocketAddr) (s : State) : Action → Option (State × List Note)
  | .tick d => some ({ s with now := s.now + d }, [])
  | .arrive arrival =>
    match s.phase with
    | .select m => some ({ s with phase := (m.arrive s.now arrival).1 }, (m.arrive s.now arrival).2)
    | _ => none
  | .go => (next addr s s.phase).map fun out => ({ s with phase := out.1 }, out.2)
  | .console lists settings => some ({ s with lists, settings }, [])

/-! ## What a session is for -/

/-- The books of a session that has loaded its settings at the `start`. -/
structure Ledger where
  /-- The bits of all messages, and of those since the last publication. -/
  total : Nat := 0
  unpublished : Nat := 0
  /-- The milliseconds and the highest speed that were published last. -/
  elapsed : Nat := 0
  highest : Nat := 0
  downgraded : Bool := false
  /-- The message that has to be sent on before anything else. -/
  outstanding : Option (Bool × Bytes) := none

/-- What may be noted next. -/
def Ledger.note (start : Tuning.Settings) (l : Ledger) : Note → Option Ledger
  | .received fromPeer bytes limiter =>
    if l.outstanding = none ∧ (limiter = .single → l.downgraded = false) then
      some { l with
        total := l.total + bytes.length * 8
        unpublished := l.unpublished + bytes.length * 8
        outstanding := if bytes.isEmpty then none else some (fromPeer, bytes) }
    else none
  | .sent fromPeer bytes =>
    if l.outstanding = some (fromPeer, bytes) then some { l with outstanding := none } else none
  | .published u =>
    if l.outstanding = none ∧ l.elapsed + 1000 ≤ u.elapsed ∧ u.total = l.total ∧
        u.speed = l.unpublished / (u.elapsed - l.elapsed) ∧ u.highest = max l.highest u.speed then
      some { l with unpublished := 0, elapsed := u.elapsed, highest := u.highest }
    else none
  | .downgraded elapsed =>
    if l.outstanding = none ∧ l.downgraded = false ∧ elapsed = l.elapsed ∧
        elapsed * start.singleBandwidth * start.downgradeThresholdScaled <
          l.total * 1000000000 then
      some { l with downgraded := true }
    else none

/-- The ledger as a system: each note is an action. -/
def Ledger.step (start : Tuning.Settings) (l : Ledger) (note : Note) :
    Option (Ledger × List Note) :=
  (l.note start note).map fun l' => (l', [note])

/-! ## The loop keeps the ledger -/

def Meter.ledger (m : Meter) : Ledger where
  total := m.total
  unpublished := m.totalS
  elapsed := m.elapsed
  highest := m.highestS
  downgraded := m.downgrade

/-- The loop has the settings of the start, and the variables of the ledger. -/
structure Meter.Keeps (m : Meter) (start : Tuning.Settings) (l : Ledger) : Prop where
  sb : m.sb = start.singleBandwidth
  threshold : m.downgradeThresholdScaled = start.downgradeThresholdScaled
  ledger : l = m.ledger

/-- What a phase knows of the ledger.  Before a publication the variables are those after it. -/
def Phase.Keeps (start : Tuning.Settings) (l : Ledger) : Phase → Prop
  | .select m => m.Keeps start l
  | .check m => m.Keeps start l
  | .inspect m n => m.Keeps start l ∧ 1000 ≤ n
  | .blacken m n => m.Keeps start l ∧ 1000 ≤ n
  | .publish m speed => ∃ (m₀ : Meter) (now : Nat) (blacked : Bool) (n : Nat),
      m₀.Keeps start l ∧ 1000 ≤ n ∧ m = m₀.window now blacked n ∧ speed = m₀.speed n
  | .returned => True

section Refinement

variable {start : Tuning.Settings} {tr : List Note} {l l' : Ledger} {m : Meter}

theorem Ledger.run_note {note : Note} (h : Run (Ledger.step start) anything {} tr l)
    (hnote : l.note start note = some l') :
    Run (Ledger.step start) anything {} (tr ++ [note]) l' := by
  refine .step h (a := note) trivial ?_
  rw [Ledger.step, hnote]
  rfl

/-- The limiter of the blacklist is the one of a downgraded session. -/
theorem Meter.limiter_single (h : m.limiter = .single) : m.downgrade = false := by
  unfold Meter.limiter at h
  cases hd : m.downgrade with
  | false => rfl
  | true => simp [hd] at h

theorem Meter.exceeds_iff (m : Meter) : m.exceeds = true ↔
    m.elapsed * m.sb * m.downgradeThresholdScaled < m.total * 1000000000 := by
  have hscale : (m.elapsed : ℚ) * m.sb / 1000 *
      ((m.downgradeThresholdScaled : ℚ) / Tuning.downgradeThresholdScale) =
      (m.elapsed * m.sb * m.downgradeThresholdScaled : ℕ) / 1000000000 := by
    rw [Tuning.downgradeThresholdScale]
    push_cast
    ring
  rw [Meter.exceeds, decide_eq_true_iff, hscale, div_lt_iff₀ (by norm_num)]
  exact_mod_cast Iff.rfl

theorem arrive_ledger (hrun : Run (Ledger.step start) anything {} tr l) (hm : m.Keeps start l)
    (now : Nat) (arrival : Arrival) :
    ∃ l', Run (Ledger.step start) anything {} (tr ++ (m.arrive now arrival).2) l' ∧
      (m.arrive now arrival).1.Keeps start l' := by
  obtain ⟨hsb, hthreshold, rfl⟩ := hm
  have hkeep : ∃ l', Run (Ledger.step start) anything {} (tr ++ []) l' ∧ l' = m.ledger :=
    ⟨_, by rwa [List.append_nil], rfl⟩
  cases arrival with
  | data fromPeer bytes sent =>
    have hnote : m.ledger.note start (.received fromPeer bytes m.limiter) =
        some { (m.count now (bytes.length * 8)).ledger with
          outstanding := if bytes.isEmpty then none else some (fromPeer, bytes) } :=
      if_pos ⟨rfl, m.limiter_single⟩
    have hreceived := Ledger.run_note hrun hnote
    cases bytes with
    | nil => exact ⟨_, hreceived, hsb, hthreshold, rfl⟩
    | cons b bytes =>
      cases sent with
      | false => exact ⟨_, hreceived, trivial⟩
      | true =>
        have hnote : Ledger.note start { (m.count now ((b :: bytes).length * 8)).ledger with
            outstanding := some (fromPeer, b :: bytes) } (.sent fromPeer (b :: bytes)) =
            some (m.count now ((b :: bytes).length * 8)).ledger := if_pos rfl
        have hsent := Ledger.run_note hreceived hnote
        rw [List.append_assoc] at hsent
        exact ⟨_, hsent, hsb, hthreshold, rfl⟩
  | closed => exact hkeep.imp fun _ h => ⟨h.1, trivial⟩
  | timer =>
    simp only [Meter.arrive]
    split
    · exact hkeep.imp fun _ h => ⟨h.1, trivial⟩
    · exact hkeep.imp fun _ h => ⟨h.1, hsb, hthreshold, h.2⟩

/-- The publication, and the downgrade that may follow it. -/
theorem publish_ledger (hrun : Run (Ledger.step start) anything {} tr l) (hm : m.Keeps start l)
    {n : Nat} (hn : 1000 ≤ n) (now : Nat) (blacked : Bool) (downgradeStartCheck : Nat) :
    ∃ l', Run (Ledger.step start) anything {}
        (tr ++ .published ((m.window now blacked n).usage (m.speed n)) ::
          if (m.window now blacked n).downgrades downgradeStartCheck then
            [.downgraded (m.window now blacked n).elapsed] else []) l' ∧
      ((m.window now blacked n).reset downgradeStartCheck).Keeps start l' := by
  obtain ⟨hsb, hthreshold, rfl⟩ := hm
  generalize hw : m.window now blacked n = w
  have hnote : m.ledger.note start (.published (w.usage (m.speed n))) =
      some { w.ledger with unpublished := 0 } := by
    subst hw
    refine if_pos ⟨rfl, Nat.add_le_add_left hn _, rfl, ?_, ?_⟩
    · show m.totalS / n = m.totalS / (m.elapsed + n - m.elapsed)
      rw [Nat.add_sub_cancel_left]
    · show (if m.highestS < m.speed n then m.speed n else m.highestS) = max m.highestS (m.speed n)
      split <;> omega
  have hpublished := Ledger.run_note hrun hnote
  have hsb' : w.sb = start.singleBandwidth := hw ▸ hsb
  have hthreshold' : w.downgradeThresholdScaled = start.downgradeThresholdScaled :=
    hw ▸ hthreshold
  cases hd : w.downgrades downgradeStartCheck with
  | false =>
    refine ⟨_, hpublished, hsb', hthreshold', ?_⟩
    simp [Meter.ledger, Meter.reset, hd]
  | true =>
    have hdowngrades : w.downgrade = false ∧
        w.elapsed * w.sb * w.downgradeThresholdScaled < w.total * 1000000000 := by
      rw [Meter.downgrades, Bool.and_eq_true, Bool.and_eq_true, w.exceeds_iff,
        Bool.not_eq_true'] at hd
      exact ⟨hd.1.2, hd.2⟩
    have hnote : Ledger.note start { w.ledger with unpublished := 0 } (.downgraded w.elapsed) =
        some { w.ledger with unpublished := 0, downgraded := true } := by
      rw [hsb', hthreshold'] at hdowngrades
      exact if_pos ⟨rfl, hdowngrades.1, rfl, hdowngrades.2⟩
    have hdowngraded := Ledger.run_note hpublished hnote
    rw [List.append_assoc] at hdowngraded
    refine ⟨_, hdowngraded, hsb', hthreshold', ?_⟩
    simp [Meter.ledger, Meter.reset, hd]

variable {addr : SocketAddr} {s s' : State} {a : Action} {evs : List Note}

theorem step_ledger (hrun : Run (Ledger.step start) anything {} tr l)
    (hkeeps : s.phase.Keeps start l) (hs : step addr s a = some (s', evs)) :
    ∃ l', Run (Ledger.step start) anything {} (tr ++ evs) l' ∧ s'.phase.Keeps start l' := by
  have hquiet : Run (Ledger.step start) anything {} (tr ++ []) l := by rwa [List.append_nil]
  cases a with
  | tick d =>
    cases hs
    exact ⟨l, hquiet, hkeeps⟩
  | console lists settings =>
    cases hs
    exact ⟨l, hquiet, hkeeps⟩
  | arrive arrival =>
    simp only [step] at hs
    split at hs
    · rename_i m hphase
      cases hs
      rw [hphase] at hkeeps
      exact arrive_ledger hrun hkeeps s.now arrival
    · cases hs
  | go =>
    obtain ⟨⟨phase, notes⟩, hnext, hpair⟩ := Option.map_eq_some_iff.1 hs
    cases hpair
    cases hphase : s.phase with
    | select m | returned =>
      rw [hphase] at hnext
      cases hnext
    | check m =>
      rw [hphase] at hnext hkeeps
      cases hnext
      refine ⟨l, hquiet, ?_⟩
      dsimp only
      split
      · rename_i hn
        exact ⟨hkeeps, hn⟩
      · exact hkeeps
    | inspect m n =>
      rw [hphase] at hnext hkeeps
      cases hnext
      refine ⟨l, hquiet, ?_⟩
      dsimp only
      split
      · trivial
      · exact hkeeps
    | blacken m n =>
      rw [hphase] at hnext hkeeps
      cases hnext
      exact ⟨l, hquiet, m, _, _, n, hkeeps.1, hkeeps.2, rfl, rfl⟩
    | publish m speed =>
      rw [hphase] at hnext hkeeps
      cases hnext
      obtain ⟨m₀, now, blacked, n, hm, hn, rfl, rfl⟩ := hkeeps
      exact publish_ledger hrun hm hn now blacked _

/-- Whatever arrives and whatever others do, a session only does what its ledger allows. -/
theorem run_ledger {now : Nat} {lists : Lists} {ok : List Note → State → Action → Prop}
    (h : Run (step addr) ok (State.start now lists start) tr s) :
    ∃ l, Run (Ledger.step start) anything {} tr l ∧ s.phase.Keeps start l := by
  refine h.inv (I := fun tr s => ∃ l, Run (Ledger.step start) anything {} tr l ∧
    s.phase.Keeps start l) ⟨{}, .start, rfl, rfl, rfl⟩ ?_
  rintro tr s a s' evs _ ⟨l, hrun, hkeeps⟩ _ hs
  exact step_ledger hrun hkeeps hs

end Refinement

/-! ## What the ledger says -/

/-- The messages with data that a session has received from a side, in their order. -/
def receivedFrom (side : Bool) (notes : List Note) : List Bytes :=
  notes.filterMap fun
    | .received fromPeer bytes _ => if fromPeer = side ∧ bytes ≠ [] then some bytes else none
    | _ => none

/-- The messages of a side that were sent to the other one, in their order. -/
def sentFrom (side : Bool) (notes : List Note) : List Bytes :=
  notes.filterMap fun
    | .sent fromPeer bytes => if fromPeer = side then some bytes else none
    | _ => none

/-- A message, if there is one and it is of that side. -/
def lostFrom (side : Bool) : Option (Bool × Bytes) → List Bytes
  | some (fromPeer, bytes) => if fromPeer = side then [bytes] else []
  | none => []

def Note.bits : Note → Nat
  | .received _ bytes _ => bytes.length * 8
  | _ => 0

/-- The bits of all messages that a session has received. -/
def bitsOf (notes : List Note) : Nat := (notes.map Note.bits).sum

/-- What the ledger knows of the notes so far. -/
structure Ledger.Tells (notes : List Note) (l : Ledger) : Prop where
  streams : ∀ side, receivedFrom side notes = sentFrom side notes ++ lostFrom side l.outstanding
  total : l.total = bitsOf notes
  /-- What was published was not faster than the highest speed. -/
  rate : l.total ≤ l.unpublished + (l.highest + 1) * l.elapsed
  published : ∀ u, .published u ∈ notes →
    u.elapsed ≤ l.elapsed ∧ u.total ≤ l.total ∧ u.highest ≤ l.highest
  downgraded : ∀ elapsed, .downgraded elapsed ∈ notes → l.downgraded = true

section Ledgers

variable {start : Tuning.Settings} {tr pre post : List Note} {l l' : Ledger} {note : Note}

/-- The bits of one window, at its speed. -/
theorem window_rate {total unpublished highest elapsed elapsed' speed : Nat}
    (h : total ≤ unpublished + (highest + 1) * elapsed) (hn : elapsed + 1000 ≤ elapsed')
    (hspeed : speed = unpublished / (elapsed' - elapsed)) :
    total < (max highest speed + 1) * elapsed' := by
  have hwindow : unpublished < (max highest speed + 1) * (elapsed' - elapsed) := by
    rw [← Nat.div_lt_iff_lt_mul (by omega), ← hspeed]
    omega
  have hbefore : (highest + 1) * elapsed ≤ (max highest speed + 1) * elapsed :=
    Nat.mul_le_mul_right _ (by omega)
  have hsplit : (max highest speed + 1) * elapsed' =
      (max highest speed + 1) * elapsed + (max highest speed + 1) * (elapsed' - elapsed) := by
    rw [← Nat.mul_add, Nat.add_sub_cancel' (by omega)]
  omega

theorem Ledger.Tells.step (h : l.Tells tr) (hnote : l.note start note = some l') :
    l'.Tells (tr ++ [note]) := by
  have hreceived : ∀ side, receivedFrom side (tr ++ [note]) =
      receivedFrom side tr ++ receivedFrom side [note] := fun _ => List.filterMap_append
  have hsent : ∀ side, sentFrom side (tr ++ [note]) = sentFrom side tr ++ sentFrom side [note] :=
    fun _ => List.filterMap_append
  have hbits : bitsOf (tr ++ [note]) = bitsOf tr + note.bits := by simp [bitsOf]
  cases note with
  | received fromPeer bytes limiter =>
    obtain ⟨⟨hnone, -⟩, ⟨⟩⟩ := Option.ite_none_right_eq_some.1 hnote
    refine ⟨fun side => ?_, ?_, ?_, ?_, ?_⟩
    · rw [hreceived, hsent, h.streams side, hnone]
      cases bytes with
      | nil => simp [receivedFrom, sentFrom, lostFrom]
      | cons b bytes =>
        by_cases hside : fromPeer = side <;> simp [receivedFrom, sentFrom, lostFrom, hside]
    · rw [hbits, ← h.total]
      rfl
    · have := h.rate
      dsimp only
      omega
    · intro u hu
      have := h.published u (by simpa using hu)
      exact ⟨this.1, this.2.1.trans (Nat.le_add_right _ _), this.2.2⟩
    · exact fun elapsed he => h.downgraded elapsed (by simpa using he)
  | sent fromPeer bytes =>
    obtain ⟨hwaits, ⟨⟩⟩ := Option.ite_none_right_eq_some.1 hnote
    refine ⟨fun side => ?_, hbits ▸ h.total, h.rate, ?_, ?_⟩
    · rw [hreceived, hsent, h.streams side, hwaits]
      by_cases hside : fromPeer = side <;> simp [receivedFrom, sentFrom, lostFrom, hside]
    · exact fun u hu => h.published u (by simpa using hu)
    · exact fun elapsed he => h.downgraded elapsed (by simpa using he)
  | published u =>
    obtain ⟨⟨hnone, hn, htotal, hspeed, hhighest⟩, ⟨⟩⟩ := Option.ite_none_right_eq_some.1 hnote
    refine ⟨fun side => ?_, hbits ▸ h.total, ?_, ?_, ?_⟩
    · rw [hreceived, hsent, h.streams side]
      simp [receivedFrom, sentFrom]
    · have := window_rate h.rate hn hspeed
      dsimp only
      rw [hhighest]
      omega
    · intro v hv
      rcases List.mem_append.1 hv with hv | hv
      · have := h.published v hv
        dsimp only
        omega
      · cases List.mem_singleton.1 hv
        exact ⟨Nat.le_refl _, Nat.le_of_eq htotal, Nat.le_refl _⟩
    · exact fun elapsed he => h.downgraded elapsed (by simpa using he)
  | downgraded elapsed =>
    obtain ⟨-, ⟨⟩⟩ := Option.ite_none_right_eq_some.1 hnote
    refine ⟨fun side => ?_, hbits ▸ h.total, h.rate, ?_, fun _ _ => rfl⟩
    · rw [hreceived, hsent, h.streams side]
      simp [receivedFrom, sentFrom]
    · exact fun u hu => h.published u (by simpa using hu)

theorem Ledger.run_tells (h : Run (Ledger.step start) anything {} tr l) : l.Tells tr := by
  refine h.inv (I := fun tr l => l.Tells tr) ?_ ?_
  · exact ⟨fun side => rfl, rfl, Nat.le_refl _, by simp, by simp⟩
  · intro tr l note l' evs _ ih _ hs
    obtain ⟨l₁, hnote, hpair⟩ := Option.map_eq_some_iff.1 hs
    cases hpair
    exact ih.step hnote

/-- Before each note the ledger has told what it knew, and has allowed it. -/
theorem Ledger.run_before (h : Run (Ledger.step start) anything {} tr l)
    (heq : tr = pre ++ note :: post) :
    ∃ l₁ l₂, Ledger.Tells pre l₁ ∧ l₁.note start note = some l₂ := by
  induction h generalizing post with
  | start => simp at heq
  | step hr _ hs ih =>
    obtain ⟨l', hnote, hpair⟩ := Option.map_eq_some_iff.1 hs
    cases hpair
    rcases append_eq_append_cons heq with ⟨mid, htr, -⟩ | ⟨mid, hpre, hnew⟩
    · exact ih htr
    · cases mid with
      | nil =>
        cases hnew
        rw [hpre, List.append_nil]
        exact ⟨_, _, Ledger.run_tells hr, hnote⟩
      | cons e mid =>
        have hlen := congrArg List.length hnew
        simp at hlen

end Ledgers

/-! ## Whole runs -/

/-- A session that goes on has sent everything on. -/
theorem Phase.Keeps.outstanding {start : Tuning.Settings} {l : Ledger} {phase : Phase}
    (h : phase.Keeps start l) (hp : phase ≠ .returned) : l.outstanding = none := by
  cases phase with
  | select m | check m => exact congrArg Ledger.outstanding h.ledger
  | inspect m n | blacken m n => exact congrArg Ledger.outstanding h.1.ledger
  | publish m speed =>
    obtain ⟨m₀, now, blacked, n, hm, -⟩ := h
    exact congrArg Ledger.outstanding hm.ledger
  | returned => exact absurd rfl hp

/-- A relay that downgrades early. -/
def sampleSettings : Tuning.Settings :=
  { downgradeThresholdScaled := 500000, downgradeStartCheck := 999, singleBandwidth := 16 }

def sampleSession : State := .start 0 ⟨HashMap.empty, HashMap.empty⟩ sampleSettings

def sampleBefore : List Note := [.received true [1, 2] .single, .sent true [1, 2]]

def sampleAfter : List Note :=
  [.received false [3] .blacklist, .sent false [3], .received true [4] .blacklist]

/-- A session copies a message, is downgraded, copies another one and loses a third one. -/
theorem sample_session : ∃ s, Run (step (sampleAddr 1)) anything sampleSession
    (sampleBefore ++ .published ⟨1000, 16, 0, 0⟩ :: .downgraded 1000 :: sampleAfter) s := by
  obtain ⟨s, tr, hrun, rfl⟩ := exists_run_of_exec (step (sampleAddr 1)) sampleSession
    [.arrive (.data true [1, 2] true), .tick (Instant.ofSecs 1), .go, .go, .go, .go,
      .arrive (.data false [3] true), .go, .arrive (.data true [4] false)] Prod.snd
    (b := sampleBefore ++ .published ⟨1000, 16, 0, 0⟩ :: .downgraded 1000 :: sampleAfter)
    (by decide +kernel)
  exact ⟨s, hrun⟩

section Runs

variable {addr : SocketAddr} {now : Nat} {lists : Lists} {settings : Tuning.Settings}
  {tr pre post : List Note} {s : State} {ok : List Note → State → Action → Prop}

/-- A session sends on what it receives from each side, in its order; at most the message with
which it ends is lost. -/
theorem session_copies (h : Run (step addr) ok (State.start now lists settings) tr s) :
    ∃ lost, (∀ side, receivedFrom side tr = sentFrom side tr ++ lostFrom side lost) ∧
      (s.phase ≠ .returned → lost = none) := by
  obtain ⟨l, hrun, hkeeps⟩ := run_ledger h
  exact ⟨l.outstanding, (Ledger.run_tells hrun).streams, hkeeps.outstanding⟩

theorem session_copies_sample : ∃ tr s, Run (step (sampleAddr 1)) anything sampleSession tr s ∧
    ∃ lost, ∀ side, receivedFrom side tr = sentFrom side tr ++ lostFrom side lost := by
  obtain ⟨s, hrun⟩ := sample_session
  obtain ⟨lost, hstreams, -⟩ := session_copies hrun
  exact ⟨_, s, hrun, lost, hstreams⟩

end Runs

/-! ## The turn of the relay machine -/

/-- What the relay machine knows of an arrival. -/
def Arrival.ready : Arrival → Ready
  | .data _ bytes sent => .data (bytes.isEmpty || sent)
  | .closed => .closed
  | .timer => .timer

/-- The next phase, if the session is not in `select!` and has not returned. -/
def Phase.go (addr : SocketAddr) (s : State) (phase : Phase) : Phase :=
  (next addr s phase).elim phase Prod.fst

/-- One turn of the loop in which nothing else happens. -/
def turnAlone (addr : SocketAddr) (s : State) (m : Meter) (arrival : Arrival) : Phase :=
  (((m.arrive s.now arrival).1.go addr s).go addr s).go addr s |>.go addr s

/-- What the relay machine knows of a session that goes on. -/
def Phase.session : Phase → Option Session
  | .select m => some m.toSession
  | _ => none

/-- What follows the `select!` of a turn. -/
theorem session_check (addr : SocketAddr) (s : State) (m : Meter) :
    ((((Phase.check m).go addr s).go addr s).go addr s |>.go addr s).session =
      if 1000 ≤ Instant.elapsedMillis s.now m.tm then
        if periodicCheck s.lists.blocklist addr then none
        else some { m.toSession with tm := s.now }
      else some m.toSession := by
  by_cases hn : 1000 ≤ Instant.elapsedMillis s.now m.tm
  · by_cases hb : periodicCheck s.lists.blocklist addr = true
    · simp [Phase.go, next, hn, hb, Phase.session]
    · simp [Phase.go, next, hn, hb, Phase.session, Meter.reset, Meter.window]
  · simp [Phase.go, next, hn, Phase.session]

/-- A turn that nothing interrupts is the turn of the relay machine, with the traffic. -/
theorem turn_eq_turnAlone (r : Relay.State) (i : Nat) (conn : Conn) (peer : Nat) (s : State)
    (hnow : s.now = r.now) (hlists : s.lists = r.lists) (m : Meter) (arrival : Arrival) :
    Relay.turn r i conn peer m.toSession arrival.ready =
      ((turnAlone conn.addr s m arrival).session.elim (r.finish i conn) fun session =>
        r.advance i { conn with stage := .relaying peer session }) := by
  have helim : ∀ {p q : Prop} [Decidable p] [Decidable q] {x y : Session},
      (if p then if q then none else some x else some y).elim (r.finish i conn)
          (fun session => r.advance i { conn with stage := .relaying peer session }) =
        if p then if q then r.finish i conn
          else r.advance i { conn with stage := .relaying peer x }
        else r.advance i { conn with stage := .relaying peer y } := by
    intro p q _ _ x y
    by_cases hp : p <;> by_cases hq : q <;> simp [hp, hq]
  unfold Relay.turn turnAlone
  rw [← hnow, ← hlists]
  cases arrival with
  | data fromPeer bytes sent =>
    cases bytes with
    | nil => exact (session_check conn.addr s (m.count s.now 0) ▸ helim).symm
    | cons b bytes =>
      cases sent with
      | true => exact (session_check conn.addr s (m.count s.now _) ▸ helim).symm
      | false => rfl
  | closed => rfl
  | timer =>
    by_cases hidle : 30 < Instant.elapsedSecs s.now m.lastRecvTime
    · simp only [Arrival.ready, received, Meter.arrive, if_pos hidle]
      rfl
    · simp only [Arrival.ready, received, Meter.arrive, if_neg hidle]
      rw [session_check, helim]

end RemoteServer.Relay.Traffic
