import Mathlib
import RemoteServer.RustStd.Basic
import RemoteServer.RustStd.HashMap

/-!
# The per-address tables of `peer.rs`

`IP_BLOCKER` counts the registration attempts of one source address: how many
in the current minute, and for how many different ids in the current day.
`IP_CHANGES` counts the addresses one id was seen at.  Both are global tables
behind one lock, so every function below is one critical section: it takes the
table and returns it with the verdict.

`allowIpRequestIn` is split as its source is.  `trackIp` finds or makes the
entry of the address, and `countRequest` moves the two windows of that entry.
A refusal may still have moved them.
-/

namespace RemoteServer

open RustStd

def ipChangeDur : Nat := 180
def ipChangeDurX2 : Nat := ipChangeDur * 2
def daySeconds : Nat := 3600 * 24
def ipBlockDur : Nat := 60
def ipRequestLimit : Nat := 30
def ipDistinctIdLimit : Nat := 300
def maxTrackedIpBlockers : Nat := 65536
def maxTrackedIpChanges : Nat := 100000
def maxIpsPerChangeEntry : Nat := 512

/-- `now.saturating_duration_since(started_at) >= Duration::from_secs(seconds)`. -/
def windowExpired (now startedAt : Nat) (seconds : Nat) : Bool :=
  decide (Instant.ofSecs seconds ≤ Instant.elapsed now startedAt)

/-! ## `IP_BLOCKER` -/

/-- The request count of the minute window and the ids of the day window, each
with the instant its window started. -/
structure IpBlockEntry where
  requests : Nat × Nat
  ids : Finset String × Nat

abbrev IpBlockMap := HashMap String IpBlockEntry

/-- The entries a pruning keeps: one of the two windows is still open. -/
def IpBlockEntry.active (now : Nat) (entry : IpBlockEntry) : Bool :=
  !windowExpired now entry.requests.2 ipBlockDur || !windowExpired now entry.ids.2 daySeconds

/-- The first block of `allow_ip_request_in`: the entry of `ip` exists
afterwards, unless the table is full of active entries. -/
def trackIp (blockers : IpBlockMap) (ip : String) (now : Nat) (maxTrackedIps : Nat) :
    IpBlockMap × Bool :=
  if blockers.containsKey ip then (blockers, true)
  else
    let blockers :=
      if maxTrackedIps ≤ blockers.len then blockers.retain fun _ entry => entry.active now
      else blockers
    if maxTrackedIps ≤ blockers.len then (blockers, false)
    else (blockers.insert ip ⟨(0, now), (∅, now)⟩, true)

/-- The rest of `allow_ip_request_in` on the entry of the address.  The request
is counted even when the id check then refuses it. -/
def countRequest (entry : IpBlockEntry) (id : String) (now : Nat) : IpBlockEntry × Bool :=
  let requests := if windowExpired now entry.requests.2 ipBlockDur then (0, now) else entry.requests
  if ipRequestLimit ≤ requests.1 then (⟨requests, entry.ids⟩, false)
  else
    let requests := (requests.1 + 1, requests.2)
    let ids := if windowExpired now entry.ids.2 daySeconds then (∅, now) else entry.ids
    if id ∈ ids.1 then (⟨requests, ids⟩, true)
    else if ipDistinctIdLimit ≤ ids.1.card then (⟨requests, ids⟩, false)
    else (⟨requests, (insert id ids.1, ids.2)⟩, true)

def allowIpRequestIn (blockers : IpBlockMap) (ip id : String) (now : Nat)
    (maxTrackedIps : Nat) : IpBlockMap × Bool :=
  let (blockers, tracked) := trackIp blockers ip now maxTrackedIps
  if tracked then
    match blockers.get ip with
    | none => (blockers, false)
    | some entry =>
      let (entry, verdict) := countRequest entry id now
      (blockers.insert ip entry, verdict)
  else (blockers, false)

/-- `allow_ip_request`: the limit on the global table. -/
def allowIpRequest (blockers : IpBlockMap) (ip id : String) (now : Nat) : IpBlockMap × Bool :=
  allowIpRequestIn blockers ip id now maxTrackedIpBlockers

/-- The first half of `cleanup_transient_state`, under the lock of this table. -/
def cleanupIpBlockers (blockers : IpBlockMap) (now : Nat) : IpBlockMap × Nat :=
  let kept := blockers.retain fun _ entry => entry.active now
  (kept, blockers.len - kept.len)

/-- The entries that the console command `ip-blocker` keeps.  It reads the clock
once for each window of each entry, and compares whole seconds. -/
def IpBlockEntry.listed (readings : Nat × Nat) (entry : IpBlockEntry) : Bool :=
  decide (Instant.elapsedSecs readings.1 entry.requests.2 ≤ ipBlockDur) ||
    decide (Instant.elapsedSecs readings.2 entry.ids.2 ≤ daySeconds)

/-- The pruning of `ip-blocker`, with the number of entries it prints first. -/
def listIpBlockers (lock : IpBlockMap) (readings : String → Nat × Nat) : IpBlockMap × Nat :=
  let lock := lock.retain fun ip entry => entry.listed (readings ip)
  (lock, lock.len)

/-! ## `IP_CHANGES` -/

/-- When the window of an id started, and how often it was seen at each
address.  The count is an `i32` and saturates. -/
abbrev IpChangesMap := HashMap String (Nat × HashMap String Nat)

def recordIpChangeIn (changes : IpChangesMap) (id ip : String) (now : Nat)
    (maxTrackedIds : Nat) : IpChangesMap × Bool :=
  let pruned :=
    if !changes.containsKey id && decide (maxTrackedIds ≤ changes.len) then
      changes.retain fun _ entry => !windowExpired now entry.1 ipChangeDurX2
    else changes
  if !pruned.containsKey id && decide (maxTrackedIds ≤ pruned.len) then (pruned, false)
  else
    let entry := (pruned.get id).getD (now, .empty)
    let entry := if windowExpired now entry.1 ipChangeDur then (now, .empty) else entry
    match entry.2.get ip with
    | some count =>
      (pruned.insert id (entry.1, entry.2.insert ip (min (count + 1) (2 ^ 31 - 1))), true)
    | none =>
      if maxIpsPerChangeEntry ≤ entry.2.len then (pruned.insert id entry, false)
      else (pruned.insert id (entry.1, entry.2.insert ip 1), true)

/-- `record_ip_change`: the record in the global table. -/
def recordIpChange (changes : IpChangesMap) (id ip : String) (now : Nat) :
    IpChangesMap × Bool :=
  recordIpChangeIn changes id ip now maxTrackedIpChanges

/-- `cleanup_transient_state`: both tables are pruned at one instant, and the
numbers of dropped entries are returned. -/
def cleanupTransientState (blockers : IpBlockMap) (changes : IpChangesMap) (now : Nat) :
    IpBlockMap × IpChangesMap × Nat × Nat :=
  let (blockers, blockersRemoved) := cleanupIpBlockers blockers now
  let kept := changes.retain fun _ entry => !windowExpired now entry.1 ipChangeDurX2
  (blockers, kept, blockersRemoved, changes.len - kept.len)

end RemoteServer
