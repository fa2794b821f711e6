import RemoteServer.Lts.Run
import RemoteServer.Lts.Window
import RemoteServer.Peer.IpTables

/-!
# The registration limiter over whole runs

`IP_BLOCKER` is one table for all source addresses and drops entries to stay
small.  What it is for is stated per address and without a table: `plainLimiter`
is a quota of requests per minute, and behind it a quota of different ids per
day.

`Limiter.step` is the table with everything that happens to it: a request, the
pruning of the periodic cleanup and the pruning of the console listing.  Its
clock never goes back, as all three read it under the lock of the table.

* `countRequest_eq`: the code on one entry is the plain limiter.
* `Limiter.Refines` relates the table to the plain limiters: an entry is the state
  of the limiter of its address, and an address without an entry has a limiter
  that answers as a new one from now on.
* `Limiter.step_refines` and `run_refines`: every step and every run keep it.
-/

namespace RemoteServer

open RustStd Lts

/-! ## The plain limiter of one address -/

/-- The windows of one address: the requests of a minute and the ids of a day. -/
abbrev Windows := Option (Window Nat) × Option (Window (Finset String))

def requestQuota : Quota String Nat :=
  .counting ipRequestLimit (Instant.ofSecs ipBlockDur)

def idQuota : Quota String (Finset String) :=
  .distinct ipDistinctIdLimit (Instant.ofSecs daySeconds)

/-- At most `IP_REQUEST_LIMIT` requests per window of `IP_BLOCK_DUR`, and behind it at
most `IP_DISTINCT_ID_LIMIT` ids per window of a day.  A request that only the second
quota refuses has used up one of the first, and the windows of the second one start
with requests that the first one passed. -/
def plainLimiter : Windows → Nat × String → Windows × Bool :=
  Quota.series requestQuota idQuota

/-- The limiter of an address that was never seen. -/
def Windows.unseen : Windows := (none, none)

/-- The two windows of an entry. -/
def IpBlockEntry.windows (entry : IpBlockEntry) : Windows :=
  (some ⟨entry.requests.1, entry.requests.2⟩, some ⟨entry.ids.1, entry.ids.2⟩)

theorem windowExpired_iff (now startedAt : Nat) {seconds : Nat} (h : 0 < seconds) :
    windowExpired now startedAt seconds = true ↔ startedAt + Instant.ofSecs seconds ≤ now := by
  rw [windowExpired, decide_eq_true_iff]
  show seconds * 1000000000 ≤ now - startedAt ↔ startedAt + seconds * 1000000000 ≤ now
  omega

/-- `window_expired` decides which window a call falls into. -/
theorem window_eq_of_windowExpired {β : Type} (q : Quota String β) {seconds : Nat}
    (h : 0 < seconds) (hdur : q.dur = Instant.ofSecs seconds) {now : Nat} {w w' : β × Nat}
    (hw : (if windowExpired now w.2 seconds then (q.unused, now) else w) = w') :
    q.window now (some ⟨w.1, w.2⟩) = ⟨w'.1, w'.2⟩ := by
  have hiff := windowExpired_iff now w.2 h
  rw [← hdur] at hiff
  by_cases hexp : windowExpired now w.2 seconds = true
  · rw [if_pos hexp] at hw
    rw [← hw]
    exact q.window_of_expired (hiff.1 hexp)
  · rw [if_neg hexp] at hw
    rw [← hw]
    exact q.window_of_open (Nat.lt_of_not_le (mt hiff.2 hexp))

/-- The code on the entry of an address is the plain limiter on its windows. -/
theorem countRequest_eq (entry : IpBlockEntry) (id : String) (now : Nat) :
    plainLimiter entry.windows (now, id) =
      ((countRequest entry id now).1.windows, (countRequest entry id now).2) := by
  unfold countRequest
  generalize hr : (if windowExpired now entry.requests.2 ipBlockDur then (0, now)
    else entry.requests) = requests
  generalize hi : (if windowExpired now entry.ids.2 daySeconds then (∅, now)
    else entry.ids) = ids
  have hrequests : requestQuota.window now entry.windows.1 = ⟨requests.1, requests.2⟩ :=
    window_eq_of_windowExpired requestQuota (by decide) rfl hr
  have hids : idQuota.window now entry.windows.2 = ⟨ids.1, ids.2⟩ :=
    window_eq_of_windowExpired idQuota (by decide) rfl hi
  by_cases hfull : ipRequestLimit ≤ requests.1
  · have hstep : requestQuota.step entry.windows.1 (now, id) = _ :=
      Quota.step_eq_of_refused (if_neg (by rw [hrequests]; exact Nat.not_lt.2 hfull))
    rw [plainLimiter, Quota.series_eq_of_refused hstep, hrequests, if_pos hfull]
    rfl
  have hstep : requestQuota.step entry.windows.1 (now, id) = _ :=
    Quota.step_eq_of_take (if_pos (by rw [hrequests]; exact Nat.lt_of_not_le hfull))
  rw [plainLimiter, Quota.series_eq_of_pass hstep, hrequests, if_neg hfull]
  by_cases hknown : id ∈ ids.1
  · have htake : idQuota.take ids.1 id = some ids.1 := if_pos hknown
    rw [Quota.step_eq_of_take (by rw [hids]; exact htake), hids]
    simp only [hknown, if_true]
    rfl
  by_cases hmany : ipDistinctIdLimit ≤ ids.1.card
  · have htake : idQuota.take ids.1 id = none := by
      show (if id ∈ ids.1 then _ else _) = none
      rw [if_neg hknown, if_neg (Nat.not_lt.2 hmany)]
    rw [Quota.step_eq_of_refused (by rw [hids]; exact htake), hids]
    simp only [hknown, hmany, if_true, if_false]
    rfl
  · have htake : idQuota.take ids.1 id = some (insert id ids.1) := by
      show (if id ∈ ids.1 then _ else _) = some (insert id ids.1)
      rw [if_neg hknown, if_pos (Nat.lt_of_not_le hmany)]
    rw [Quota.step_eq_of_take (by rw [hids]; exact htake), hids]
    simp only [hknown, hmany, if_false]
    rfl

/-- The entry that `allow_ip_request_in` makes for a new address. -/
def IpBlockEntry.fresh (now : Nat) : IpBlockEntry := ⟨(0, now), (∅, now)⟩

/-- No count is over its limit. -/
structure IpBlockEntry.Bounded (entry : IpBlockEntry) : Prop where
  requests : entry.requests.1 ≤ ipRequestLimit
  ids : entry.ids.1.card ≤ ipDistinctIdLimit

theorem IpBlockEntry.fresh_bounded (now : Nat) : (IpBlockEntry.fresh now).Bounded :=
  ⟨Nat.zero_le _, Nat.zero_le _⟩

theorem countRequest_bounded {entry : IpBlockEntry} (h : entry.Bounded) (id : String) (now : Nat) :
    (countRequest entry id now).1.Bounded := by
  have hrequests : (if windowExpired now entry.requests.2 ipBlockDur then (0, now)
      else entry.requests).1 ≤ ipRequestLimit := by
    split
    · exact Nat.zero_le _
    · exact h.requests
  have hids : (if windowExpired now entry.ids.2 daySeconds then (∅, now)
      else entry.ids).1.card ≤ ipDistinctIdLimit := by
    split
    · exact Nat.zero_le _
    · exact h.ids
  unfold countRequest
  generalize (if windowExpired now entry.requests.2 ipBlockDur then (0, now)
    else entry.requests) = requests at hrequests ⊢
  generalize (if windowExpired now entry.ids.2 daySeconds then (∅, now)
    else entry.ids) = ids at hids ⊢
  by_cases hfull : ipRequestLimit ≤ requests.1
  · rw [if_pos hfull]
    exact ⟨hrequests, h.ids⟩
  have hroom : requests.1 + 1 ≤ ipRequestLimit := Nat.lt_of_not_le hfull
  rw [if_neg hfull]
  dsimp only
  split
  · exact ⟨hroom, hids⟩
  · split
    · exact ⟨hroom, hids⟩
    · rename_i hmany
      refine ⟨hroom, (Finset.card_insert_le _ _).trans ?_⟩
      exact Nat.lt_of_not_le hmany

/-- A new address starts with whole quotas. -/
theorem plainLimiter_fresh (now : Nat) (id : String) :
    plainLimiter (IpBlockEntry.fresh now).windows (now, id) =
      plainLimiter Windows.unseen (now, id) :=
  Quota.series_of_new requestQuota idQuota (by decide) (by decide) rfl

/-- An entry whose windows are both over is as good as none. -/
theorem plainLimiter_of_expired {entry : IpBlockEntry} {now : Nat} (id : String)
    (hrequests : entry.requests.2 + Instant.ofSecs ipBlockDur ≤ now)
    (hids : entry.ids.2 + Instant.ofSecs daySeconds ≤ now) :
    plainLimiter entry.windows (now, id) = plainLimiter Windows.unseen (now, id) :=
  Quota.series_of_expired requestQuota idQuota hrequests hids rfl

/-! ## Everything that happens to the table -/

/-- `IP_BLOCKER`, and the clock when its lock was last released. -/
structure Limiter where
  blockers : IpBlockMap
  clock : Nat

namespace Limiter

def start : Limiter := ⟨.empty, 0⟩

/-- An answered request.  It is not `tracked` when the table had no room for it. -/
structure Answer where
  ip : String
  id : String
  now : Nat
  tracked : Bool
  verdict : Bool
deriving DecidableEq, Repr

inductive Action where
  | request (ip id : String) (now : Nat)
  | cleanup (now : Nat)
  /-- The console command is done at `now`, and read the clock for the two windows
  of the entry of `ip` at `readings ip`. -/
  | listing (readings : String → Nat × Nat) (now : Nat)

/-- The clock is read under the lock. -/
def readUnderLock (s : Limiter) (now reading : Nat) : Bool :=
  decide (s.clock ≤ reading) && decide (reading ≤ now)

def step (maxTrackedIps : Nat) (s : Limiter) : Action → Option (Limiter × List Answer)
  | .request ip id now =>
    if s.clock ≤ now then
      let (blockers, verdict) := allowIpRequestIn s.blockers ip id now maxTrackedIps
      some (⟨blockers, now⟩,
        [⟨ip, id, now, (trackIp s.blockers ip now maxTrackedIps).2, verdict⟩])
    else none
  | .cleanup now =>
    if s.clock ≤ now then some (⟨(cleanupIpBlockers s.blockers now).1, now⟩, []) else none
  | .listing readings now =>
    if s.clock ≤ now && s.blockers.entries.all fun e =>
        s.readUnderLock now (readings e.1).1 && s.readUnderLock now (readings e.1).2 then
      some (⟨(listIpBlockers s.blockers readings).1, now⟩, [])
    else none

/-- The requests of `ip` that the table had room for, with their times. -/
def calls (ip : String) (tr : List Answer) : List (Nat × String) :=
  tr.filterMap fun a => if a.ip = ip ∧ a.tracked then some (a.now, a.id) else none

/-- The same requests with the verdicts they got. -/
def answered (ip : String) (tr : List Answer) : List ((Nat × String) × Bool) :=
  tr.filterMap fun a => if a.ip = ip ∧ a.tracked then some ((a.now, a.id), a.verdict) else none

/-- The state of the plain limiter of `ip` after the requests of `tr`. -/
def plain (ip : String) (tr : List Answer) : Windows :=
  after plainLimiter Windows.unseen (calls ip tr)

theorem calls_append_of_tracked {ip : String} {tr : List Answer} {a : Answer} (hip : a.ip = ip)
    (ht : a.tracked = true) : calls ip (tr ++ [a]) = calls ip tr ++ [(a.now, a.id)] := by
  simp [calls, hip, ht]

theorem answered_append_of_tracked {ip : String} {tr : List Answer} {a : Answer} (hip : a.ip = ip)
    (ht : a.tracked = true) :
    answered ip (tr ++ [a]) = answered ip tr ++ [((a.now, a.id), a.verdict)] := by
  simp [answered, hip, ht]

/-- A request of another address, or one without room, is not a call of `ip`. -/
theorem calls_append_of_not {ip : String} {tr : List Answer} {a : Answer}
    (h : ¬(a.ip = ip ∧ a.tracked = true)) :
    calls ip (tr ++ [a]) = calls ip tr ∧ answered ip (tr ++ [a]) = answered ip tr := by
  simp [calls, answered, h]

/-! ## What one request does to the table -/

/-- The table a request works on: the old one, or the old one after the pruning for room. -/
def Base (blockers : IpBlockMap) (now : Nat) (base : IpBlockMap) : Prop :=
  base = blockers ∨ base = blockers.retain fun _ entry => entry.active now

/-- `trackIp` finds the entry, finds no room, or makes the entry. -/
theorem trackIp_cases (blockers : IpBlockMap) (ip : String) (now maxTrackedIps : Nat) :
    ∃ base, Base blockers now base ∧
      (trackIp blockers ip now maxTrackedIps = (base, false) ∨
        (∃ entry, base.get ip = some entry ∧
          trackIp blockers ip now maxTrackedIps = (base, true)) ∨
        base.get ip = none ∧ base.len < maxTrackedIps ∧
          trackIp blockers ip now maxTrackedIps = (base.insert ip (.fresh now), true)) := by
  unfold trackIp
  cases hget : blockers.get ip with
  | some entry =>
    have hkey : blockers.containsKey ip = true := by simp [HashMap.containsKey, hget]
    exact ⟨blockers, .inl rfl, .inr (.inl ⟨entry, hget, if_pos hkey⟩)⟩
  | none =>
    have hkey : blockers.containsKey ip = false := (HashMap.containsKey_eq_false_iff _ _).2 hget
    simp only [hkey, Bool.false_eq_true, if_false]
    have hbase : Base blockers now (if maxTrackedIps ≤ blockers.len then
        blockers.retain fun _ entry => entry.active now else blockers) := by
      split
      · exact .inr rfl
      · exact .inl rfl
    have hnone : (if maxTrackedIps ≤ blockers.len then
        blockers.retain fun _ entry => entry.active now else blockers).get ip = none := by
      split
      · rw [HashMap.get_retain, hget]
        rfl
      · exact hget
    refine ⟨_, hbase, ?_⟩
    generalize (if maxTrackedIps ≤ blockers.len then
      blockers.retain fun _ entry => entry.active now else blockers) = base at hnone
    by_cases hfull : maxTrackedIps ≤ base.len
    · exact .inl (if_pos hfull)
    · exact .inr (.inr ⟨hnone, Nat.lt_of_not_le hfull, if_neg hfull⟩)

/-- A request without room leaves the pruned table.  Any other one leaves the table in
which the entry of its address is counted, where an address that had none got a fresh one. -/
theorem allowIpRequestIn_cases (blockers : IpBlockMap) (ip id : String) (now maxTrackedIps : Nat) :
    ∃ base, Base blockers now base ∧
      ((trackIp blockers ip now maxTrackedIps).2 = false ∧
          allowIpRequestIn blockers ip id now maxTrackedIps = (base, false) ∨
        (trackIp blockers ip now maxTrackedIps).2 = true ∧
          ∃ entry table, allowIpRequestIn blockers ip id now maxTrackedIps =
              (table, (countRequest entry id now).2) ∧
            (∀ ip', table.get ip' =
              if ip' = ip then some (countRequest entry id now).1 else base.get ip') ∧
            (base.get ip = some entry ∧ table.len = base.len ∨
              base.get ip = none ∧ entry = .fresh now ∧ table.len = base.len + 1 ∧
                base.len < maxTrackedIps)) := by
  obtain ⟨base, hbase, htrack | ⟨entry, hget, htrack⟩ | ⟨hget, hroom, htrack⟩⟩ :=
    trackIp_cases blockers ip now maxTrackedIps
  · refine ⟨base, hbase, .inl ⟨by rw [htrack], ?_⟩⟩
    simp only [allowIpRequestIn, htrack, Bool.false_eq_true, if_false]
  · refine ⟨base, hbase, .inr ⟨by rw [htrack], entry, base.insert ip (countRequest entry id now).1,
      ?_, fun ip' => HashMap.get_insert .., .inl ⟨hget, ?_⟩⟩⟩
    · simp only [allowIpRequestIn, htrack, if_true, hget]
    · exact HashMap.len_insert_of_get_eq_some _ _ hget
  · have hfresh : (base.insert ip (.fresh now)).get ip = some (.fresh now) :=
      HashMap.get_insert_self ..
    refine ⟨base, hbase, .inr ⟨by rw [htrack], .fresh now,
      (base.insert ip (.fresh now)).insert ip (countRequest (.fresh now) id now).1, ?_, fun ip' => ?_,
      .inr ⟨hget, rfl, ?_, hroom⟩⟩⟩
    · simp only [allowIpRequestIn, htrack, if_true, hfresh]
    · rw [HashMap.get_insert, HashMap.get_insert]
      split <;> rfl
    · rw [HashMap.len_insert_of_get_eq_some _ _ hfresh,
        HashMap.len_insert_of_get_eq_none _ _ hget]

/-! ## The table refines the plain limiters -/

/-- The answers so far are in the order of their times, and those without room refuse. -/
structure History (clock : Nat) (tr : List Answer) : Prop where
  refused : ∀ a ∈ tr, a.tracked = false → a.verdict = false
  past : ∀ a ∈ tr, a.now ≤ clock
  ordered : tr.Pairwise fun a b => a.now ≤ b.now

theorem History.append {clock : Nat} {tr : List Answer} (h : History clock tr) {a : Answer}
    (hnow : a.now = clock) (hrefused : a.tracked = false → a.verdict = false) :
    History clock (tr ++ [a]) := by
  refine ⟨fun b hb => ?_, fun b hb => ?_, ?_⟩
  · rcases List.mem_append.1 hb with hb | hb
    · exact h.refused b hb
    · obtain rfl := List.mem_singleton.1 hb
      exact hrefused
  · rcases List.mem_append.1 hb with hb | hb
    · exact h.past b hb
    · obtain rfl := List.mem_singleton.1 hb
      exact hnow.le
  · rw [List.pairwise_append]
    refine ⟨h.ordered, List.pairwise_singleton _ _, fun b hb c hc => ?_⟩
    obtain rfl := List.mem_singleton.1 hc
    exact (h.past b hb).trans hnow.ge

/-- The table against the plain limiters of all addresses, after the answers `tr`. -/
structure Refines (maxTrackedIps : Nat) (tr : List Answer) (s : Limiter) : Prop where
  len_le : s.blockers.len ≤ maxTrackedIps
  bounded : ∀ ip entry, s.blockers.get ip = some entry → entry.Bounded
  tracked : ∀ ip entry, s.blockers.get ip = some entry → plain ip tr = entry.windows
  /-- An address without an entry was never seen, or what it used has expired. -/
  forgotten : ∀ ip, s.blockers.get ip = none → ∀ now id, s.clock ≤ now →
    plainLimiter (plain ip tr) (now, id) = plainLimiter Windows.unseen (now, id)
  answers : ∀ ip, answered ip tr = answers plainLimiter Windows.unseen (calls ip tr)
  history : History s.clock tr

variable {maxTrackedIps : Nat} {tr : List Answer} {s : Limiter}

theorem Refines.wait (h : Refines maxTrackedIps tr s) {now : Nat} (hnow : s.clock ≤ now) :
    Refines maxTrackedIps tr ⟨s.blockers, now⟩ :=
  { h with
    forgotten := fun ip hip later id hlater => h.forgotten ip hip later id (hnow.trans hlater)
    history := { h.history with past := fun a ha => (h.history.past a ha).trans hnow } }

/-- A pruning that only drops entries whose windows are both over by `now`. -/
theorem Refines.prune (h : Refines maxTrackedIps tr s) {now : Nat} (hnow : s.clock ≤ now)
    {keep : String → IpBlockEntry → Bool}
    (hdrop : ∀ ip entry, s.blockers.get ip = some entry → keep ip entry = false →
      entry.requests.2 + Instant.ofSecs ipBlockDur ≤ now ∧
        entry.ids.2 + Instant.ofSecs daySeconds ≤ now) :
    Refines maxTrackedIps tr ⟨s.blockers.retain keep, now⟩ := by
  have hkept : ∀ ip entry, (s.blockers.retain keep).get ip = some entry →
      s.blockers.get ip = some entry := by
    intro ip entry hget
    rw [HashMap.get_retain, Option.filter_eq_some_iff] at hget
    exact hget.1
  refine { h.wait hnow with
    len_le := (HashMap.len_retain_le _ _).trans h.len_le
    bounded := fun ip entry hget => h.bounded ip entry (hkept ip entry hget)
    tracked := fun ip entry hget => h.tracked ip entry (hkept ip entry hget)
    forgotten := ?_ }
  intro ip hip later id hlater
  have hlater : now ≤ later := hlater
  cases hget : s.blockers.get ip with
  | none => exact h.forgotten ip hget later id (hnow.trans hlater)
  | some entry =>
    have hgone : keep ip entry = false := by
      have hip : (s.blockers.retain keep).get ip = none := hip
      simpa [HashMap.get_retain, hget, Option.filter] using hip
    obtain ⟨hrequests, hids⟩ := hdrop ip entry hget hgone
    rw [h.tracked ip entry hget]
    exact plainLimiter_of_expired id (hrequests.trans hlater) (hids.trans hlater)

/-- The two windows of an inactive entry are over. -/
theorem expired_of_inactive {entry : IpBlockEntry} {now : Nat} (h : entry.active now = false) :
    entry.requests.2 + Instant.ofSecs ipBlockDur ≤ now ∧
      entry.ids.2 + Instant.ofSecs daySeconds ≤ now := by
  have hboth : windowExpired now entry.requests.2 ipBlockDur = true ∧
      windowExpired now entry.ids.2 daySeconds = true := by
    simpa [IpBlockEntry.active] using h
  exact ⟨(windowExpired_iff _ _ (by decide)).1 hboth.1, (windowExpired_iff _ _ (by decide)).1 hboth.2⟩

/-- The listing waits a whole second longer, so what it drops is over as well. -/
theorem expired_of_unlisted {entry : IpBlockEntry} {readings : Nat × Nat} {now : Nat}
    (h : entry.listed readings = false) (h₁ : readings.1 ≤ now) (h₂ : readings.2 ≤ now) :
    entry.requests.2 + Instant.ofSecs ipBlockDur ≤ now ∧
      entry.ids.2 + Instant.ofSecs daySeconds ≤ now := by
  have hboth : ipBlockDur < Instant.elapsedSecs readings.1 entry.requests.2 ∧
      daySeconds < Instant.elapsedSecs readings.2 entry.ids.2 := by
    simpa [IpBlockEntry.listed] using h
  obtain ⟨hrequests, hids⟩ := hboth
  simp only [Instant.elapsedSecs] at hrequests hids
  simp only [Instant.ofSecs]
  omega

theorem Refines.base (h : Refines maxTrackedIps tr s) {now : Nat} (hnow : s.clock ≤ now)
    {base : IpBlockMap} (hbase : Base s.blockers now base) :
    Refines maxTrackedIps tr ⟨base, now⟩ := by
  rcases hbase with rfl | rfl
  · exact h.wait hnow
  · exact h.prune hnow fun _ _ _ => expired_of_inactive

/-- A refusal for lack of room changes no plain limiter. -/
theorem Refines.turnAway (h : Refines maxTrackedIps tr s) (ip id : String) :
    Refines maxTrackedIps (tr ++ [⟨ip, id, s.clock, false, false⟩]) s := by
  have hnot : ∀ ip', calls ip' (tr ++ [⟨ip, id, s.clock, false, false⟩]) = calls ip' tr ∧
      answered ip' (tr ++ [⟨ip, id, s.clock, false, false⟩]) = answered ip' tr :=
    fun ip' => calls_append_of_not (by simp)
  refine { h with
    tracked := fun ip' entry hget => ?_
    forgotten := fun ip' hip' => ?_
    answers := fun ip' => ?_
    history := h.history.append rfl fun _ => rfl }
  · rw [plain, (hnot ip').1]
    exact h.tracked ip' entry hget
  · rw [plain, (hnot ip').1]
    exact h.forgotten ip' hip'
  · rw [(hnot ip').1, (hnot ip').2]
    exact h.answers ip'

/-- A request is counted in the entry of its address, which agrees with the plain limiter
of that address about this request. -/
theorem Refines.count (h : Refines maxTrackedIps tr s) {ip id : String} {entry : IpBlockEntry}
    (hentry : plainLimiter (plain ip tr) (s.clock, id) = plainLimiter entry.windows (s.clock, id))
    (hbounded : entry.Bounded) {table : IpBlockMap} (hlen : table.len ≤ maxTrackedIps)
    (htable : ∀ ip', table.get ip' =
      if ip' = ip then some (countRequest entry id s.clock).1 else s.blockers.get ip') :
    Refines maxTrackedIps
      (tr ++ [⟨ip, id, s.clock, true, (countRequest entry id s.clock).2⟩]) ⟨table, s.clock⟩ := by
  rw [countRequest_eq] at hentry
  generalize ha : (⟨ip, id, s.clock, true, (countRequest entry id s.clock).2⟩ : Answer) = a
  have hcall : calls ip (tr ++ [a]) = calls ip tr ++ [(s.clock, id)] := by
    subst ha
    exact calls_append_of_tracked rfl rfl
  have hplain : plain ip (tr ++ [a]) = (countRequest entry id s.clock).1.windows := by
    rw [plain, hcall, after_append]
    exact congrArg Prod.fst hentry
  have hother : ∀ ip', ip' ≠ ip → calls ip' (tr ++ [a]) = calls ip' tr ∧
      answered ip' (tr ++ [a]) = answered ip' tr := by
    intro ip' hne
    subst ha
    exact calls_append_of_not fun hip => hne hip.1.symm
  refine ⟨hlen, fun ip' e hget => ?_, fun ip' e hget => ?_, fun ip' hget => ?_, fun ip' => ?_,
    by subst ha; exact h.history.append rfl nofun⟩
  · rw [htable] at hget
    by_cases hip : ip' = ip
    · rw [if_pos hip] at hget
      cases hget
      exact countRequest_bounded hbounded id s.clock
    · rw [if_neg hip] at hget
      exact h.bounded ip' e hget
  · rw [htable] at hget
    by_cases hip : ip' = ip
    · rw [if_pos hip] at hget
      cases hget
      rw [hip, hplain]
    · rw [if_neg hip] at hget
      rw [plain, (hother ip' hip).1]
      exact h.tracked ip' e hget
  · rw [htable] at hget
    by_cases hip : ip' = ip
    · rw [if_pos hip] at hget
      cases hget
    · rw [if_neg hip] at hget
      rw [plain, (hother ip' hip).1]
      exact h.forgotten ip' hget
  · by_cases hip : ip' = ip
    · have hanswer : answered ip (tr ++ [a]) =
          answered ip tr ++ [((s.clock, id), (countRequest entry id s.clock).2)] := by
        subst ha
        exact answered_append_of_tracked rfl rfl
      rw [hip, hcall, answers_append, hanswer, h.answers ip]
      have hverdict : (plainLimiter (plain ip tr) (s.clock, id)).2 =
          (countRequest entry id s.clock).2 := congrArg Prod.snd hentry
      rw [← hverdict]
      rfl
    · rw [(hother ip' hip).1, (hother ip' hip).2]
      exact h.answers ip'

/-- Every step keeps the table in step with the plain limiters. -/
theorem step_refines {a : Action} {s' : Limiter} {evs : List Answer}
    (h : Refines maxTrackedIps tr s) (hs : step maxTrackedIps s a = some (s', evs)) :
    Refines maxTrackedIps (tr ++ evs) s' := by
  cases a with
  | request ip id now =>
    by_cases hnow : s.clock ≤ now
    · simp only [step, if_pos hnow] at hs
      obtain ⟨base, hbase, ⟨htracked, hallow⟩ | ⟨htracked, entry, table, hallow, htable, hentry⟩⟩ :=
        allowIpRequestIn_cases s.blockers ip id now maxTrackedIps
      · rw [hallow, htracked] at hs
        cases hs
        exact (h.base hnow hbase).turnAway ip id
      · rw [hallow, htracked] at hs
        cases hs
        have hb := h.base hnow hbase
        rcases hentry with ⟨hget, hlen⟩ | ⟨hget, rfl, hlen, hroom⟩
        · exact hb.count (by rw [hb.tracked ip entry hget]) (hb.bounded ip entry hget)
            (hlen.trans_le hb.len_le) htable
        · refine hb.count ?_ (IpBlockEntry.fresh_bounded now)
            (hlen.trans_le hroom) htable
          rw [plainLimiter_fresh]
          exact hb.forgotten ip hget now id (le_refl now)
    · simp only [step, if_neg hnow] at hs
      cases hs
  | cleanup now =>
    by_cases hnow : s.clock ≤ now
    · simp only [step, if_pos hnow] at hs
      cases hs
      rw [List.append_nil]
      exact h.prune hnow fun _ _ _ => expired_of_inactive
    · simp only [step, if_neg hnow] at hs
      cases hs
  | listing readings now =>
    simp only [step] at hs
    split at hs
    · rename_i hguard
      cases hs
      rw [Bool.and_eq_true, decide_eq_true_iff, List.all_eq_true] at hguard
      obtain ⟨hnow, hreads⟩ := hguard
      rw [List.append_nil]
      show Refines maxTrackedIps tr
        ⟨s.blockers.retain fun ip entry => entry.listed (readings ip), now⟩
      refine h.prune hnow fun ip entry hget hgone => ?_
      have hread := hreads (ip, entry) ((HashMap.get_eq_some_iff _ _ _).1 hget)
      simp only [readUnderLock, Bool.and_eq_true, decide_eq_true_eq] at hread
      exact expired_of_unlisted hgone hread.1.2 hread.2.2
    · cases hs

theorem start_refines (maxTrackedIps : Nat) : Refines maxTrackedIps [] start where
  len_le := Nat.zero_le _
  bounded := nofun
  tracked := nofun
  forgotten := fun _ _ _ _ _ => rfl
  answers := fun _ => rfl
  history := ⟨nofun, nofun, List.Pairwise.nil⟩

theorem run_refines (h : Run (step maxTrackedIps) anything start tr s) :
    Refines maxTrackedIps tr s :=
  h.inv (start_refines maxTrackedIps) fun _ hr _ hs => step_refines hr hs

/-! ## The main result -/

/-- The accepted requests of `ip` from `t` to `t + d`, both ends included. -/
def accepted (ip : String) (t d : Nat) (tr : List Answer) : Nat :=
  tr.countP fun a =>
    decide (a.ip = ip) && a.verdict && decide (t ≤ a.now) && decide (a.now ≤ t + d)

/-- An accepted request had room. -/
theorem accepted_eq (h : ∀ a ∈ tr, a.tracked = false → a.verdict = false) (ip : String)
    (t d : Nat) : accepted ip t d tr = Quota.acceptedIn t d (answered ip tr) := by
  rw [accepted, Quota.acceptedIn, answered, List.countP_filterMap]
  refine List.countP_congr fun a ha => ?_
  by_cases hip : a.ip = ip
  · cases htracked : a.tracked with
    | true => simp [hip]
    | false => simp [h a ha htracked]
  · simp [hip]

theorem calls_ordered (h : tr.Pairwise fun a b => a.now ≤ b.now) (ip : String) :
    (calls ip tr).Pairwise fun c d => c.1 ≤ d.1 := by
  refine List.Pairwise.filterMap _ (fun a b hab c hc d hd => ?_) h
  split at hc
  · split at hd
    · cases hc
      cases hd
      exact hab
    · cases hd
  · cases hc

end Limiter

end RemoteServer
