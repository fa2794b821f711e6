import Mathlib
import RemoteServer.Lts.Run
import RemoteServer.RustStd.Basic

/-!
# The log of punch-hole requests

`PUNCH_REQS` is what the console command `punch-requests` prints.  A request that goes on to a peer
is put at the end of the log, unless the same client has asked for the same peer a short time ago.
Only the end of the log is searched for that, and a full log loses its first entry.

* `recordPunch` is the block of `handle_punch_hole_request` that keeps the log.  It holds the lock,
  so requests and commands take turns in any order.
* `LogInv` is what it keeps: the entries are in the order of their times, and two of the same
  client and peer that are near each other in the log are not near in time.
* `punch_log` is the result for all runs.  The log has nothing but requests since it was cleared,
  and as long as it is not full each of them has an entry.
-/

namespace RemoteServer.Rendezvous.PunchLog

open RustStd Lts

def punchReqDedupeSec : Nat := 60
def punchRequestLogCapacity : Nat := 10000

/-- How far back the log is searched. -/
def punchReqTail : Nat := 30

structure PunchReqEntry where
  tm : Nat
  fromIp : String
  toIp : String
  toId : String
deriving DecidableEq

/-- The entries of one client and one peer. -/
def PunchReqEntry.repeats (e x : PunchReqEntry) : Bool :=
  decide (x.fromIp = e.fromIp) && decide (x.toId = e.toId)

/-- Whether the last entry of the same client and peer, if it is near the end, is a recent one. -/
def isRepeated (log : List PunchReqEntry) (e : PunchReqEntry) : Bool :=
  ((log.reverse.take punchReqTail).find? e.repeats).any fun x =>
    decide (Instant.elapsedSecs e.tm x.tm < punchReqDedupeSec)

/-- The record of a request that goes on to a peer. -/
def recordPunch (log : List PunchReqEntry) (e : PunchReqEntry) : List PunchReqEntry :=
  if isRepeated log e then log
  else (if punchRequestLogCapacity ≤ log.length then log.tail else log) ++ [e]

/-! ## One record -/

/-- Entries of the same client and peer within `punchReqTail` places of each other. -/
def Apart (log : List PunchReqEntry) : Prop :=
  ∀ i j x e, i < j → j ≤ i + punchReqTail → log[i]? = some x → log[j]? = some e →
    e.repeats x = true → punchReqDedupeSec ≤ Instant.elapsedSecs e.tm x.tm

/-- The log at the time `now`. -/
structure LogInv (now : Nat) (log : List PunchReqEntry) : Prop where
  len_le : log.length ≤ punchRequestLogCapacity
  past : ∀ e ∈ log, e.tm ≤ now
  ordered : log.Pairwise fun x e => x.tm ≤ e.tm
  apart : Apart log

/-- The entry `x` stands for the request `e`. -/
structure Covers (x e : PunchReqEntry) : Prop where
  repeats : e.repeats x = true
  recent : Instant.elapsedSecs e.tm x.tm < punchReqDedupeSec

section Record

variable {log : List PunchReqEntry} {e x : PunchReqEntry} {now : Nat}

/-- An entry that is not repeated is apart from every entry near the end. -/
theorem apart_of_not_isRepeated (hordered : log.Pairwise fun x e => x.tm ≤ e.tm)
    (hnew : isRepeated log e = false) {i : Nat} (hi : log[i]? = some x)
    (hnear : log.length ≤ i + punchReqTail) (hrepeats : e.repeats x = true) :
    punchReqDedupeSec ≤ Instant.elapsedSecs e.tm x.tm := by
  obtain ⟨hlt, hx⟩ := List.getElem?_eq_some_iff.1 hi
  -- the entry is searched
  have hmem : x ∈ log.reverse.take punchReqTail := by
    rw [List.mem_take_iff_getElem]
    refine ⟨log.length - 1 - i, ?_, ?_⟩
    · rw [List.length_reverse]
      omega
    · rw [List.getElem_reverse, ← hx]
      congr 1
      omega
  unfold isRepeated at hnew
  cases hfind : (log.reverse.take punchReqTail).find? e.repeats with
  | none => exact absurd hrepeats (List.find?_eq_none.1 hfind x hmem)
  | some y =>
    rw [hfind, Option.any_some, decide_eq_false_iff_not, Nat.not_lt] at hnew
    -- the first one that is found is the latest
    obtain ⟨-, before, after, htake, hbefore⟩ := List.find?_eq_some_iff_append.1 hfind
    have hle : x.tm ≤ y.tm := by
      have hsorted : (before ++ y :: after).Pairwise fun a b => b.tm ≤ a.tm := by
        rw [← htake]
        exact (List.pairwise_reverse.2 hordered).sublist (List.take_sublist _ _)
      rw [htake, List.mem_append, List.mem_cons] at hmem
      rcases hmem with hmem | rfl | hmem
      · exact absurd hrepeats (by simpa using hbefore x hmem)
      · exact Nat.le_refl _
      · exact (List.pairwise_cons.1 (List.pairwise_append.1 hsorted).2.1).1 x hmem
    exact hnew.trans (Nat.div_le_div_right (Nat.sub_le_sub_left hle e.tm))

theorem Apart.tail (h : Apart log) : Apart log.tail := by
  intro i j x e hij hnear hi hj
  rw [List.getElem?_tail] at hi hj
  exact h _ _ x e (Nat.add_lt_add_right hij 1) (by omega) hi hj

/-- A new entry. -/
theorem Apart.append (h : Apart log) (hordered : log.Pairwise fun x e => x.tm ≤ e.tm)
    (hnew : isRepeated log e = false) : Apart (log ++ [e]) := by
  intro i j x e' hij hnear hi hj hrepeats
  rcases Nat.lt_trichotomy j log.length with hlt | rfl | hgt
  · rw [List.getElem?_append_left hlt] at hj
    rw [List.getElem?_append_left (hij.trans hlt)] at hi
    exact h i j x e' hij hnear hi hj hrepeats
  · rw [List.getElem?_concat_length] at hj
    cases hj
    rw [List.getElem?_append_left hij] at hi
    exact apart_of_not_isRepeated hordered hnew hi hnear hrepeats
  · rw [List.getElem?_eq_none (by simpa using hgt)] at hj
    cases hj

/-- What a record does to the log: the request has an entry already, or gets one at the end, and
then a full log loses its first entry. -/
theorem recordPunch_cases (log : List PunchReqEntry) (e : PunchReqEntry) :
    (recordPunch log e = log ∧ ∃ x ∈ log, Covers x e) ∨
    isRepeated log e = false ∧ (recordPunch log e = log ++ [e] ∧
        log.length < punchRequestLogCapacity ∨
      recordPunch log e = (log ++ [e]).tail ∧ punchRequestLogCapacity ≤ log.length) := by
  unfold recordPunch
  cases hnew : isRepeated log e with
  | true =>
    obtain ⟨x, hfind, hrecent⟩ := (Option.any_eq_true _ _).1 hnew
    have hmem : x ∈ log := List.mem_reverse.1 (List.mem_of_mem_take (List.mem_of_find?_eq_some hfind))
    exact Or.inl ⟨rfl, x, hmem, List.find?_some hfind, of_decide_eq_true hrecent⟩
  | false =>
    refine Or.inr ⟨rfl, ?_⟩
    rw [if_neg Bool.false_ne_true]
    by_cases hfull : punchRequestLogCapacity ≤ log.length
    · cases log with
      | nil => exact absurd hfull (by decide)
      | cons x log => exact Or.inr ⟨if_pos hfull ▸ rfl, hfull⟩
    · exact Or.inl ⟨by rw [if_neg hfull], Nat.lt_of_not_le hfull⟩

theorem recordPunch_inv (h : LogInv now log) (htm : e.tm = now) :
    LogInv now (recordPunch log e) := by
  have hpast : ∀ x ∈ log ++ [e], x.tm ≤ now := by
    intro x hx
    rcases List.mem_append.1 hx with hx | hx
    · exact h.past x hx
    · rw [List.mem_singleton.1 hx, htm]
  have hordered : (log ++ [e]).Pairwise fun x e => x.tm ≤ e.tm := by
    refine List.pairwise_append.2 ⟨h.ordered, List.pairwise_singleton _ _, ?_⟩
    intro x hx y hy
    rw [List.mem_singleton.1 hy, htm]
    exact h.past x hx
  rcases recordPunch_cases log e with ⟨hsame, -⟩ | ⟨hnew, ⟨hrecord, hlt⟩ | ⟨hrecord, hfull⟩⟩
  · rwa [hsame]
  · rw [hrecord]
    refine ⟨?_, hpast, hordered, h.apart.append h.ordered hnew⟩
    rw [List.length_append]
    exact hlt
  · rw [hrecord]
    refine ⟨?_, fun x hx => hpast x (List.mem_of_mem_tail hx),
      hordered.sublist (List.tail_sublist _), (h.apart.append h.ordered hnew).tail⟩
    rw [List.length_tail, List.length_append]
    exact h.len_le

end Record

/-! ## Requests and commands -/

structure State where
  now : Nat
  log : List PunchReqEntry

inductive Action where
  | tick (d : Nat)
  /-- A request has found its peer. -/
  | request (fromIp toIp toId : String)
  /-- The console command `punch-requests -`. -/
  | clear

inductive Note where
  | requested (e : PunchReqEntry)
  | cleared
deriving DecidableEq

def step (s : State) : Action → Option (State × List Note)
  | .tick d => some ({ s with now := s.now + d }, [])
  | .request fromIp toIp toId =>
    let e := ⟨s.now, fromIp, toIp, toId⟩
    some ({ s with log := recordPunch s.log e }, [.requested e])
  | .clear => some ({ s with log := [] }, [.cleared])

/-- The requests since the log was cleared. -/
def asked (notes : List Note) : List PunchReqEntry :=
  notes.foldl (fun es note => match note with
    | .requested e => es ++ [e]
    | .cleared => []) []

/-- What is logged of the requests. -/
structure Logged (tr : List Note) (s : State) : Prop where
  inv : LogInv s.now s.log
  sound : ∀ x ∈ s.log, x ∈ asked tr
  complete : ∀ e ∈ asked tr, (∃ x ∈ s.log, Covers x e) ∨ s.log.length = punchRequestLogCapacity

theorem covers_self (e : PunchReqEntry) : Covers e e where
  repeats := by simp [PunchReqEntry.repeats]
  recent := by
    show (e.tm - e.tm) / 1000000000 < 60
    omega

/-- The requests that had an entry have one after a record, or the log is full. -/
theorem Logged.record {tr : List Note} {s : State} (h : Logged tr s) {e : PunchReqEntry}
    (htm : e.tm = s.now) :
    Logged (tr ++ [.requested e]) { s with log := recordPunch s.log e } := by
  have hasked : asked (tr ++ [.requested e]) = asked tr ++ [e] := by simp [asked]
  have hsound : ∀ x ∈ s.log ++ [e], x ∈ asked tr ++ [e] := by
    intro x hx
    rcases List.mem_append.1 hx with hx | hx
    · exact List.mem_append_left _ (h.sound x hx)
    · exact List.mem_append_right _ hx
  have hinv := recordPunch_inv h.inv htm
  refine ⟨hinv, ?_, ?_⟩
  · rw [hasked]
    rcases recordPunch_cases s.log e with ⟨hsame, -⟩ | ⟨-, ⟨hrecord, -⟩ | ⟨hrecord, -⟩⟩
    · exact fun x hx => hsound x (List.mem_append_left _ (hsame ▸ hx))
    · exact fun x hx => hsound x (hrecord ▸ hx)
    · exact fun x hx => hsound x (List.mem_of_mem_tail (hrecord ▸ hx))
  · rw [hasked]
    intro e' he'
    dsimp only
    rcases recordPunch_cases s.log e with ⟨hsame, hcovered⟩ | ⟨-, ⟨hrecord, hlt⟩ | ⟨hrecord, hfull⟩⟩
    · rw [hsame]
      rcases List.mem_append.1 he' with he' | he'
      · exact h.complete e' he'
      · exact Or.inl (List.mem_singleton.1 he' ▸ hcovered)
    · rw [hrecord]
      rcases List.mem_append.1 he' with he' | he'
      · rcases h.complete e' he' with ⟨x, hx, hcovers⟩ | hlen
        · exact Or.inl ⟨x, List.mem_append_left _ hx, hcovers⟩
        · omega
      · exact Or.inl ⟨e', List.mem_append_right _ he', covers_self e'⟩
    · refine Or.inr (Nat.le_antisymm hinv.len_le ?_)
      rw [hrecord, List.length_tail, List.length_append]
      exact hfull

theorem step_logged {tr evs : List Note} {s s' : State} {a : Action} (h : Logged tr s)
    (hs : step s a = some (s', evs)) : Logged (tr ++ evs) s' := by
  cases a with
  | tick d =>
    cases hs
    rw [List.append_nil]
    refine ⟨⟨h.inv.len_le, fun e he => ?_, h.inv.ordered, h.inv.apart⟩, h.sound, h.complete⟩
    exact (h.inv.past e he).trans (Nat.le_add_right _ _)
  | request fromIp toIp toId =>
    cases hs
    exact h.record rfl
  | clear =>
    cases hs
    have hasked : asked (tr ++ [.cleared]) = [] := by simp [asked]
    refine ⟨⟨Nat.zero_le _, by simp, .nil, by simp [Apart]⟩, by simp, ?_⟩
    rw [hasked]
    simp

/-- Whatever is asked and whenever the console clears the log: it stays small, in the order of
time and without near repetitions.  Its entries are requests since it was cleared, and each of
these has an entry of the same client and peer that was not older than `punchReqDedupeSec`, unless
the log is full. -/
theorem punch_log {ok : List Note → State → Action → Prop} {now : Nat} {tr : List Note} {s : State}
    (h : Run step ok ⟨now, []⟩ tr s) :
    s.log.length ≤ punchRequestLogCapacity ∧ (s.log.Pairwise fun x e => x.tm ≤ e.tm) ∧
      Apart s.log ∧ (∀ x ∈ s.log, x ∈ asked tr) ∧
      ∀ e ∈ asked tr, (∃ x ∈ s.log, Covers x e) ∨ s.log.length = punchRequestLogCapacity := by
  have hlogged : Logged tr s := by
    refine h.inv (I := Logged) ⟨⟨Nat.zero_le _, by simp, .nil, by simp [Apart]⟩, by simp, ?_⟩ ?_
    · simp [asked]
    · exact fun _ ih _ hs => step_logged ih hs
  exact ⟨hlogged.inv.len_le, hlogged.inv.ordered, hlogged.inv.apart, hlogged.sound,
    hlogged.complete⟩

/-- A client asks for a peer twice in a second, and for another one. -/
theorem punch_log_repeated : ∃ s tr, Run step anything ⟨0, []⟩ tr s ∧
    s.log = [⟨0, "192.0.2.1", "192.0.2.9", "peer1"⟩, ⟨1000000000, "192.0.2.1", "192.0.2.9", "peer2"⟩] ∧
    (asked tr).length = 3 ∧ ∀ e ∈ asked tr, (∃ x ∈ s.log, Covers x e) ∨
      s.log.length = punchRequestLogCapacity := by
  obtain ⟨s, tr, hrun, hshow⟩ := exists_run_of_exec step ⟨0, []⟩
    [.request "192.0.2.1" "192.0.2.9" "peer1", .tick 1000000000,
      .request "192.0.2.1" "192.0.2.9" "peer1", .request "192.0.2.1" "192.0.2.9" "peer2"]
    (fun x => (x.1.log, (asked x.2).length))
    (b := ([⟨0, "192.0.2.1", "192.0.2.9", "peer1"⟩,
      ⟨1000000000, "192.0.2.1", "192.0.2.9", "peer2"⟩], 3)) (by decide +kernel)
  obtain ⟨-, -, -, -, hcomplete⟩ := punch_log hrun
  exact ⟨s, tr, hrun, congrArg Prod.fst hshow, congrArg Prod.snd hshow, hcomplete⟩

end RemoteServer.Rendezvous.PunchLog
