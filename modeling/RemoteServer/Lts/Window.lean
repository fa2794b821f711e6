import Mathlib.Data.Finset.Card
import Mathlib.Data.List.Basic

/-!
# Quotas over windows

A machine that answers takes a call and says yes or no.  `answers` is the list
of its calls with what it said.

A `Quota` is such a machine for calls with a time: it has an amount that calls
use up, and the amount is whole again when a new window starts.  The first call
starts a window, and so does the first call at or after the end of one, so
windows do not overlap but are not aligned to anything either.

* `Quota.series` puts two quotas behind each other.  The second one only sees the
  calls that the first one passes.
* `Quota.step_of_expired` and `Quota.series_of_expired`: a quota whose window is
  over answers as one that was never asked, so its state may be thrown away.
* `acceptedIn_counting_le`: a quota of `limit` calls per window passes at most
  `2 * limit` calls in any interval of a window's length.  An interval can meet
  the end of one window and the start of the next, but no third one.
-/

namespace Lts

variable {σ α β γ : Type}

/-! ## Machines that answer -/

/-- The state after the calls `xs`. -/
def after (step : σ → α → σ × Bool) (s : σ) (xs : List α) : σ :=
  xs.foldl (fun s x => (step s x).1) s

/-- The calls `xs` with their answers. -/
def answers (step : σ → α → σ × Bool) : σ → List α → List (α × Bool)
  | _, [] => []
  | s, x :: xs => (x, (step s x).2) :: answers step (step s x).1 xs

theorem after_append (step : σ → α → σ × Bool) (s : σ) (xs : List α) (x : α) :
    after step s (xs ++ [x]) = (step (after step s xs) x).1 := by
  simp [after]

theorem answers_append (step : σ → α → σ × Bool) (xs : List α) (x : α) :
    ∀ s, answers step s (xs ++ [x]) = answers step s xs ++ [(x, (step (after step s xs) x).2)] := by
  induction xs with
  | nil => intro s; rfl
  | cons y ys ih =>
    intro s
    show (y, (step s y).2) :: answers step (step s y).1 (ys ++ [x]) = _
    rw [ih]
    rfl

/-! ## Quotas -/

/-- What is used of a quota, and when the window of that use started. -/
structure Window (β : Type) where
  used : β
  start : Nat

/-- An amount per window of length `dur`.  `take` uses some of it up for a call,
or refuses. -/
structure Quota (α β : Type) where
  dur : Nat
  unused : β
  take : β → α → Option β

namespace Quota

/-- The window that a call at `now` falls into. -/
def window (q : Quota α β) (now : Nat) : Option (Window β) → Window β
  | none => ⟨q.unused, now⟩
  | some w => if w.start + q.dur ≤ now then ⟨q.unused, now⟩ else w

def step (q : Quota α β) (w : Option (Window β)) (call : Nat × α) : Option (Window β) × Bool :=
  let w := q.window call.1 w
  match q.take w.used call.2 with
  | some used => (some ⟨used, w.start⟩, true)
  | none => (some w, false)

/-- Two quotas in series. -/
def series (q₁ : Quota α β) (q₂ : Quota α γ) (s : Option (Window β) × Option (Window γ))
    (call : Nat × α) : (Option (Window β) × Option (Window γ)) × Bool :=
  let (w₁, pass) := q₁.step s.1 call
  if pass then
    let (w₂, pass) := q₂.step s.2 call
    ((w₁, w₂), pass)
  else ((w₁, s.2), false)

/-- At most `limit` calls per window. -/
def counting (limit dur : Nat) : Quota α Nat where
  dur := dur
  unused := 0
  take used _ := if used < limit then some (used + 1) else none

/-- Calls for at most `limit` different values per window. -/
def distinct [DecidableEq α] (limit dur : Nat) : Quota α (Finset α) where
  dur := dur
  unused := ∅
  take used x :=
    if x ∈ used then some used
    else if used.card < limit then some (insert x used)
    else none

theorem window_of_expired (q : Quota α β) {w : Window β} {now : Nat} (h : w.start + q.dur ≤ now) :
    q.window now (some w) = ⟨q.unused, now⟩ :=
  if_pos h

theorem window_of_open (q : Quota α β) {w : Window β} {now : Nat} (h : now < w.start + q.dur) :
    q.window now (some w) = w :=
  if_neg (Nat.not_le.2 h)

theorem step_eq_of_take {q : Quota α β} {w : Option (Window β)} {call : Nat × α} {used : β}
    (h : q.take (q.window call.1 w).used call.2 = some used) :
    q.step w call = (some ⟨used, (q.window call.1 w).start⟩, true) := by
  simp only [step, h]

theorem step_eq_of_refused {q : Quota α β} {w : Option (Window β)} {call : Nat × α}
    (h : q.take (q.window call.1 w).used call.2 = none) :
    q.step w call = (some (q.window call.1 w), false) := by
  simp only [step, h]

theorem series_eq_of_pass {q₁ : Quota α β} {q₂ : Quota α γ}
    {s : Option (Window β) × Option (Window γ)} {call : Nat × α} {w : Option (Window β)}
    (h : q₁.step s.1 call = (w, true)) :
    series q₁ q₂ s call = ((w, (q₂.step s.2 call).1), (q₂.step s.2 call).2) := by
  simp only [series, h, if_true]

theorem series_eq_of_refused {q₁ : Quota α β} {q₂ : Quota α γ}
    {s : Option (Window β) × Option (Window γ)} {call : Nat × α} {w : Option (Window β)}
    (h : q₁.step s.1 call = (w, false)) : series q₁ q₂ s call = ((w, s.2), false) := by
  simp only [series, h, Bool.false_eq_true, if_false]

/-! ## Windows that are over -/

theorem step_of_expired (q : Quota α β) {w : Window β} {call : Nat × α}
    (h : w.start + q.dur ≤ call.1) : q.step (some w) call = q.step none call := by
  have hwindow : q.window call.1 (some w) = q.window call.1 none := q.window_of_expired h
  simp only [step, hwindow]

/-- A window that starts with the call. -/
theorem step_of_new (q : Quota α β) (hdur : 0 < q.dur) (call : Nat × α) :
    q.step (some ⟨q.unused, call.1⟩) call = q.step none call := by
  have hwindow : q.window call.1 (some ⟨q.unused, call.1⟩) = q.window call.1 none :=
    q.window_of_open (Nat.lt_add_of_pos_right hdur)
  simp only [step, hwindow]

theorem series_of_new (q₁ : Quota α β) (q₂ : Quota α γ) (h₁ : 0 < q₁.dur) (h₂ : 0 < q₂.dur)
    {call : Nat × α} (hfirst : (q₁.take q₁.unused call.2).isSome) :
    series q₁ q₂ (some ⟨q₁.unused, call.1⟩, some ⟨q₂.unused, call.1⟩) call =
      series q₁ q₂ (none, none) call := by
  obtain ⟨used, hused⟩ := Option.isSome_iff_exists.1 hfirst
  have hpass : q₁.step none call = (some ⟨used, call.1⟩, true) := step_eq_of_take hused
  rw [series_eq_of_pass (s := (none, none)) hpass,
    series_eq_of_pass (s := (some _, some _)) ((step_of_new q₁ h₁ call).trans hpass),
    step_of_new q₂ h₂ call]

/-- A series whose windows are both over may be forgotten.  The first quota has
to pass the first call of a window, or the second would keep its old one. -/
theorem series_of_expired (q₁ : Quota α β) (q₂ : Quota α γ) {w₁ : Window β} {w₂ : Window γ}
    {call : Nat × α} (h₁ : w₁.start + q₁.dur ≤ call.1) (h₂ : w₂.start + q₂.dur ≤ call.1)
    (hfirst : (q₁.take q₁.unused call.2).isSome) :
    series q₁ q₂ (some w₁, some w₂) call = series q₁ q₂ (none, none) call := by
  obtain ⟨used, hused⟩ := Option.isSome_iff_exists.1 hfirst
  have hpass : q₁.step none call = (some ⟨used, call.1⟩, true) := step_eq_of_take hused
  rw [series_eq_of_pass (s := (none, none)) hpass,
    series_eq_of_pass (s := (some w₁, some w₂)) ((step_of_expired q₁ h₁).trans hpass),
    step_of_expired q₂ h₂]

/-! ## How much is passed in an interval -/

/-- The number of passed calls from `t` to `t + d`, both ends included. -/
def acceptedIn (t d : Nat) (log : List ((Nat × α) × Bool)) : Nat :=
  log.countP fun e => e.2 && decide (t ≤ e.1.1) && decide (e.1.1 ≤ t + d)

theorem acceptedIn_cons (t d : Nat) (e : (Nat × α) × Bool) (log : List ((Nat × α) × Bool)) :
    acceptedIn t d (e :: log) = acceptedIn t d log +
      if e.2 && decide (t ≤ e.1.1) && decide (e.1.1 ≤ t + d) then 1 else 0 :=
  List.countP_cons

/-- What is known of the window of a counting quota when `acc` of the calls so far were
passed in the interval from `t`, and none of them was later than `last`. -/
structure Passed (limit dur t : Nat) (w : Window Nat) (acc last : Nat) : Prop where
  start_le : w.start ≤ last
  used_le : w.used ≤ limit
  recent : 0 < acc → t < w.start + dur
  one : w.start ≤ t → acc ≤ w.used
  two : w.start ≤ t + dur → acc ≤ limit + w.used
  all : acc ≤ 2 * limit

variable {limit dur t acc last now : Nat} {w : Window Nat}

theorem lt_window_end (hdur : 0 < dur) (w : Option (Window Nat)) :
    now < ((counting (α := α) limit dur).window now w).start + dur := by
  cases w with
  | none => exact Nat.lt_add_of_pos_right hdur
  | some w =>
    rcases Nat.lt_or_ge now (w.start + dur) with hopen | hexp
    · rw [(counting (α := α) limit dur).window_of_open hopen]
      exact hopen
    · rw [(counting (α := α) limit dur).window_of_expired hexp]
      exact Nat.lt_add_of_pos_right hdur

/-- A new window starts after every passed call of the old one. -/
theorem Passed.window (h : Passed limit dur t w acc last) (hlast : last ≤ now) :
    Passed limit dur t ((counting (α := α) limit dur).window now (some w)) acc now := by
  obtain ⟨hstart, hused, hrecent, hone, htwo, hall⟩ := h
  rcases Nat.lt_or_ge now (w.start + dur) with hopen | hexp
  · rw [(counting (α := α) limit dur).window_of_open hopen]
    exact ⟨hstart.trans hlast, hused, hrecent, hone, htwo, hall⟩
  · rw [(counting (α := α) limit dur).window_of_expired hexp]
    refine ⟨le_refl now, Nat.zero_le limit, ?_, ?_, ?_, hall⟩
    · intro hacc
      show t < now + dur
      have := hrecent hacc
      omega
    · intro (hle : now ≤ t)
      show acc ≤ 0
      by_contra hacc
      have := hrecent (by omega)
      omega
    · intro (hle : now ≤ t + dur)
      show acc ≤ limit + 0
      have := hone (by omega)
      omega

/-- A call that the window passes is counted in it, whether or not it is in the interval. -/
theorem Passed.take (h : Passed limit dur t w acc now) (hroom : w.used < limit)
    (hend : now < w.start + dur) :
    Passed limit dur t ⟨w.used + 1, w.start⟩
      (acc + if decide (t ≤ now) && decide (now ≤ t + dur) then 1 else 0) now := by
  obtain ⟨hstart, hused, hrecent, hone, htwo, hall⟩ := h
  by_cases hin : t ≤ now ∧ now ≤ t + dur
  · have htwo := htwo (by omega)
    simp only [hin.1, hin.2, decide_true, Bool.and_self, if_true]
    refine ⟨hstart, hroom, fun _ => ?_, fun hle => ?_, fun hle => ?_, ?_⟩
    · show t < w.start + dur
      omega
    · show acc + 1 ≤ w.used + 1
      have := hone hle
      omega
    · show acc + 1 ≤ limit + (w.used + 1)
      omega
    · omega
  · have hout : (decide (t ≤ now) && decide (now ≤ t + dur)) = false := by
      simpa using hin
    simp only [hout, Bool.false_eq_true, if_false, Nat.add_zero]
    refine ⟨hstart, hroom, hrecent, fun hle => ?_, fun hle => ?_, hall⟩
    · show acc ≤ w.used + 1
      have := hone hle
      omega
    · show acc ≤ limit + (w.used + 1)
      have := htwo hle
      omega

/-- The bound from a state in which `acc` calls were passed in the interval. -/
private theorem Passed.answers (hdur : 0 < dur) (cs : List (Nat × α)) :
    ∀ {w : Option (Window Nat)} {acc last : Nat},
      (∀ w', w = some w' → Passed limit dur t w' acc last) → (w = none → acc = 0) →
      (∀ c ∈ cs, last ≤ c.1) → cs.Pairwise (fun c d => c.1 ≤ d.1) → acc ≤ 2 * limit →
      acc + acceptedIn t dur (Lts.answers (counting limit dur).step w cs) ≤ 2 * limit := by
  induction cs with
  | nil => intro w acc last _ _ _ _ hacc; simpa [Lts.answers, acceptedIn] using hacc
  | cons c cs ih =>
    intro w acc last hw hnone hlast hmono hacc
    obtain ⟨now, x⟩ := c
    rw [List.pairwise_cons] at hmono
    -- the window of the call, with what was passed before
    have hbefore : Passed limit dur t ((counting (α := α) limit dur).window now w) acc now := by
      cases w with
      | none =>
        obtain rfl := hnone rfl
        exact ⟨le_refl now, Nat.zero_le _, by simp, by simp, by simp, Nat.zero_le _⟩
      | some w => exact (hw w rfl).window (hlast (now, x) (List.mem_cons_self ..))
    have hend : now < ((counting (α := α) limit dur).window now w).start + dur :=
      lt_window_end hdur w
    rw [Lts.answers, acceptedIn_cons, Nat.add_comm (acceptedIn _ _ _), ← Nat.add_assoc]
    by_cases hroom : ((counting (α := α) limit dur).window now w).used < limit
    · have hstep : (counting limit dur).step w (now, x) =
          (some ⟨((counting (α := α) limit dur).window now w).used + 1,
            ((counting (α := α) limit dur).window now w).start⟩, true) :=
        step_eq_of_take (if_pos hroom)
      have hafter := hbefore.take hroom hend
      rw [hstep]
      refine ih ?_ nofun hmono.1 hmono.2 hafter.all
      rintro w' ⟨⟩
      exact hafter
    · have hstep : (counting limit dur).step w (now, x) =
          (some ((counting (α := α) limit dur).window now w), false) :=
        step_eq_of_refused (if_neg hroom)
      rw [hstep]
      refine ih ?_ nofun hmono.1 hmono.2 hacc
      rintro w' ⟨⟩
      exact hbefore

/-- A quota of `limit` calls per window passes at most twice as many in any interval of
a window's length. -/
theorem acceptedIn_counting_le (hdur : 0 < dur) {cs : List (Nat × α)}
    (hmono : cs.Pairwise fun c d => c.1 ≤ d.1) (t : Nat) :
    acceptedIn t dur (answers (counting limit dur).step none cs) ≤ 2 * limit := by
  have h : 0 + acceptedIn t dur (answers (counting limit dur).step none cs) ≤ 2 * limit :=
    Passed.answers hdur cs nofun (fun _ => rfl) (fun c _ => Nat.zero_le c.1) hmono (Nat.zero_le _)
  omega

/-- A series passes no call that its first quota does not pass. -/
theorem acceptedIn_series_le (q₁ : Quota α β) (q₂ : Quota α γ) (t d : Nat) (cs : List (Nat × α)) :
    ∀ s, acceptedIn t d (answers (series q₁ q₂) s cs) ≤
      acceptedIn t d (answers q₁.step s.1 cs) := by
  induction cs with
  | nil => intro s; exact Nat.le_refl _
  | cons c cs ih =>
    intro s
    have hstate : (series q₁ q₂ s c).1.1 = (q₁.step s.1 c).1 := by
      simp only [series]
      split <;> rfl
    have hanswer : (series q₁ q₂ s c).2 = true → (q₁.step s.1 c).2 = true := by
      simp only [series]
      split
      · rename_i hpass
        exact fun _ => hpass
      · nofun
    rw [answers, answers, acceptedIn_cons, acceptedIn_cons]
    have hrest := ih (series q₁ q₂ s c).1
    rw [hstate] at hrest
    refine Nat.add_le_add hrest ?_
    cases hc : (series q₁ q₂ s c).2 with
    | false => simp
    | true => simp [hanswer hc]

end Quota

end Lts
