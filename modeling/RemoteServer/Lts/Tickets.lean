import Mathlib.Data.List.Induction
import Mathlib.Logic.Function.Basic

/-!
# One-shot tickets

A system issues tickets under keys, and a ticket is later redeemed, revoked by
its issuer, or lapses.  The trace tells which: `op` reads the operation of an
event, and events without one say nothing about tickets.  `ledger` is the content
of the system that the trace implies.

A trace is `Lawful` if a key is issued only when it is free and was neither
redeemed nor lapsed before, and if only tickets of the ledger are redeemed or
lapse.  A key that was revoked may be issued again.

* `Lawful.unredeemed`: a key of the ledger was not redeemed before, so no key is
  redeemed twice.
* `exists_standing`: what the ledger holds was issued and not revoked since.
* `Lawful.standing_unique`: a key has at most one such issue.
-/

namespace Lts

/-- What an event does to a ticket. -/
inductive TicketOp (κ ρ : Type) where
  | issue (k : κ) (r : ρ)
  | redeem (k : κ)
  | revoke (k : κ)
  | lapse (k : κ)
deriving DecidableEq

namespace TicketOp

variable {κ ρ : Type}

def key : TicketOp κ ρ → κ
  | issue k _ => k
  | redeem k => k
  | revoke k => k
  | lapse k => k

/-- What the operation leaves under its key. -/
def result : TicketOp κ ρ → Option ρ
  | issue _ r => some r
  | _ => none

end TicketOp

variable {κ ρ ε : Type} [DecidableEq κ] (op : ε → Option (TicketOp κ ρ))

/-- The tickets after one more event. -/
def recorded (m : κ → Option ρ) (e : ε) : κ → Option ρ :=
  match op e with
  | some o => Function.update m o.key o.result
  | none => m

/-- The tickets that the trace leaves. -/
def ledger (tr : List ε) : κ → Option ρ := tr.foldl (recorded op) fun _ => none

/-- No event of the trace redeems the key. -/
def Unredeemed (tr : List ε) (k : κ) : Prop := ∀ e ∈ tr, op e ≠ some (.redeem k)

def Unlapsed (tr : List ε) (k : κ) : Prop := ∀ e ∈ tr, op e ≠ some (.lapse k)

/-- Whether the operation may follow the trace. -/
def Allowed (tr : List ε) : TicketOp κ ρ → Prop
  | .issue k _ => ledger op tr k = none ∧ Unredeemed op tr k ∧ Unlapsed op tr k
  | .redeem k => ledger op tr k ≠ none
  | .revoke _ => True
  | .lapse k => ledger op tr k ≠ none

inductive Lawful : List ε → Prop where
  | nil : Lawful []
  | concat {tr : List ε} {e : ε} (h : Lawful tr) (he : ∀ o, op e = some o → Allowed op tr o) :
      Lawful (tr ++ [e])

/-- The key was issued at position `i` and not revoked since. -/
structure Standing (tr : List ε) (i : Nat) (k : κ) (r : ρ) : Prop where
  issued : ∃ e, tr[i]? = some e ∧ op e = some (.issue k r)
  kept : ∀ {j e}, i < j → tr[j]? = some e → op e ≠ some (.revoke k)

variable {op} {tr evs : List ε} {e : ε} {k : κ} {r : ρ} {o : TicketOp κ ρ}

/-! ## The ledger of a longer trace -/

theorem ledger_concat : ledger op (tr ++ [e]) = recorded op (ledger op tr) e := by
  rw [ledger, ledger, List.foldl_append]
  rfl

theorem ledger_concat_of_none (he : op e = none) : ledger op (tr ++ [e]) = ledger op tr := by
  rw [ledger_concat, recorded, he]

theorem ledger_concat_self (he : op e = some o) : ledger op (tr ++ [e]) o.key = o.result := by
  rw [ledger_concat, recorded, he]
  exact Function.update_self ..

theorem ledger_concat_of_ne (he : op e = some o) (hk : k ≠ o.key) :
    ledger op (tr ++ [e]) k = ledger op tr k := by
  rw [ledger_concat, recorded, he]
  exact Function.update_of_ne hk ..

/-- A key of the ledger that was free before the last event was issued by it. -/
theorem ledger_concat_cases (h : ledger op (tr ++ [e]) k = some r) :
    op e = some (.issue k r) ∨ ledger op tr k = some r ∧ ∀ o, op e = some o → o.key ≠ k := by
  cases he : op e with
  | none =>
    rw [ledger_concat_of_none he] at h
    exact Or.inr ⟨h, fun o ho => by cases ho⟩
  | some o =>
    by_cases hk : k = o.key
    · subst hk
      rw [ledger_concat_self he] at h
      cases o with
      | issue k r' =>
        cases h
        exact Or.inl rfl
      | redeem => cases h
      | revoke => cases h
      | lapse => cases h
    · rw [ledger_concat_of_ne he hk] at h
      refine Or.inr ⟨h, fun o' ho' => ?_⟩
      cases ho'
      exact fun hkey => hk hkey.symm

/-! ## Issues -/

omit [DecidableEq κ] in
theorem Standing.of_concat {i : Nat} (h : Standing op (tr ++ [e]) i k r) :
    Standing op tr i k r ∧ op e ≠ some (.revoke k) ∨
      i = tr.length ∧ op e = some (.issue k r) := by
  obtain ⟨e', he', hop⟩ := h.issued
  have hlen : i < (tr ++ [e]).length := (List.getElem?_eq_some_iff.1 he').1
  rw [List.length_append, List.length_singleton] at hlen
  by_cases hi : i < tr.length
  · rw [List.getElem?_append_left hi] at he'
    refine Or.inl ⟨⟨⟨e', he', hop⟩, fun hij hj => ?_⟩, ?_⟩
    · refine h.kept hij ?_
      rw [List.getElem?_append_left (List.getElem?_eq_some_iff.1 hj).1]
      exact hj
    · exact h.kept hi List.getElem?_concat_length
  · have hi : i = tr.length := by omega
    subst hi
    rw [List.getElem?_concat_length] at he'
    cases he'
    exact Or.inr ⟨rfl, hop⟩

/-- What the ledger holds was issued and not revoked since. -/
theorem exists_standing (h : ledger op tr k = some r) : ∃ i, Standing op tr i k r := by
  induction tr using List.reverseRecOn with
  | nil => cases h
  | append_singleton tr e ih =>
    rcases ledger_concat_cases h with hissue | ⟨hold, hother⟩
    · refine ⟨tr.length, ⟨e, List.getElem?_concat_length, hissue⟩, fun hij hj => ?_⟩
      have := (List.getElem?_eq_some_iff.1 hj).1
      rw [List.length_append, List.length_singleton] at this
      omega
    · obtain ⟨i, ⟨e', he', hop⟩, hkept⟩ := ih hold
      have hi : i < tr.length := (List.getElem?_eq_some_iff.1 he').1
      refine ⟨i, ⟨e', by rw [List.getElem?_append_left hi]; exact he', hop⟩, fun {j e''} hij hj => ?_⟩
      rw [List.getElem?_append] at hj
      split at hj
      · exact hkept hij hj
      · cases List.mem_singleton.1 (List.mem_of_getElem? hj)
        exact fun hrevoke => hother _ hrevoke rfl

/-- An issue that was neither revoked nor redeemed and that has not lapsed is in the
ledger. -/
theorem Standing.ledger_ne_none {i : Nat} (h : Standing op tr i k r) (hred : Unredeemed op tr k)
    (hlap : Unlapsed op tr k) : ledger op tr k ≠ none := by
  induction tr using List.reverseRecOn with
  | nil =>
    obtain ⟨e, he, -⟩ := h.issued
    cases he
  | append_singleton tr e ih =>
    rcases h.of_concat with ⟨hold, hkept⟩ | ⟨-, hissue⟩
    · have hlive := ih hold (fun e' he' => hred e' (List.mem_append_left _ he'))
        fun e' he' => hlap e' (List.mem_append_left _ he')
      have hlast : e ∈ tr ++ [e] := List.mem_append_right _ (List.mem_singleton_self e)
      cases he : op e with
      | none => rwa [ledger_concat_of_none he]
      | some o =>
        by_cases hk : k = o.key
        · subst hk
          rw [ledger_concat_self he]
          cases o with
          | issue => exact Option.some_ne_none _
          | redeem => exact absurd he (hred e hlast)
          | revoke => exact absurd he hkept
          | lapse => exact absurd he (hlap e hlast)
        · rwa [ledger_concat_of_ne he hk]
    · have hself : ledger op (tr ++ [e]) k = some r := ledger_concat_self hissue
      rw [hself]
      exact Option.some_ne_none r

/-! ## Lawful traces -/

/-- A ticket of the ledger was never redeemed. -/
theorem Lawful.unredeemed (h : Lawful op tr) (hk : ledger op tr k ≠ none) : Unredeemed op tr k := by
  induction h with
  | nil => exact absurd rfl hk
  | @concat tr e _ he ih =>
    obtain ⟨r, hr⟩ := Option.ne_none_iff_exists'.1 hk
    have hold : Unredeemed op tr k := by
      rcases ledger_concat_cases hr with hissue | ⟨hlive, -⟩
      · exact (he _ hissue).2.1
      · exact ih (hlive ▸ Option.some_ne_none r)
    intro e' he' hredeem
    rcases List.mem_append.1 he' with hmem | hmem
    · exact hold e' hmem hredeem
    · cases List.mem_singleton.1 hmem
      exact hk (ledger_concat_self hredeem)

/-- A key has at most one issue that was not revoked. -/
theorem Lawful.standing_unique {i i' : Nat} {r' : ρ} (h : Lawful op tr) (hi : Standing op tr i k r)
    (hi' : Standing op tr i' k r') : i = i' := by
  induction h with
  | nil =>
    obtain ⟨e, he, -⟩ := hi.issued
    cases he
  | @concat tr e _ he ih =>
    -- the key of a second issue is free, and then the first one was revoked
    have hlast : ∀ {j : Nat} {x y : ρ}, Standing op tr j k x → op e ≠ some (.issue k y) := by
      intro j x y hj hissue
      obtain ⟨hfree, hred, hlap⟩ := he _ hissue
      exact hj.ledger_ne_none hred hlap hfree
    rcases hi.of_concat with ⟨hold, -⟩ | ⟨hi, hissue⟩
    · rcases hi'.of_concat with ⟨hold', -⟩ | ⟨-, hissue'⟩
      · exact ih hold hold'
      · exact absurd hissue' (hlast hold)
    · rcases hi'.of_concat with ⟨hold', -⟩ | ⟨hi', -⟩
      · exact absurd hissue (hlast hold')
      · exact hi.trans hi'.symm

/-! ## Several events at once -/

/-- Events without an operation leave the tickets as they are. -/
theorem ledger_append_of_none (h : ∀ e ∈ evs, op e = none) :
    ledger op (tr ++ evs) = ledger op tr := by
  induction evs generalizing tr with
  | nil => rw [List.append_nil]
  | cons e rest ih =>
    rw [List.append_cons, ih fun e' he' => h e' (List.mem_cons_of_mem _ he'),
      ledger_concat_of_none (h e List.mem_cons_self)]

theorem Lawful.append_of_none (h : Lawful op tr) (hevs : ∀ e ∈ evs, op e = none) :
    Lawful op (tr ++ evs) := by
  induction evs generalizing tr with
  | nil => rwa [List.append_nil]
  | cons e rest ih =>
    rw [List.append_cons]
    refine ih (h.concat fun o ho => ?_) fun e' he' => hevs e' (List.mem_cons_of_mem _ he')
    rw [hevs e List.mem_cons_self] at ho
    cases ho

section Lapses

variable {lapse : κ → ε} (hop : ∀ k, op (lapse k) = some (.lapse k)) {ks : List κ}

include hop

theorem ledger_append_lapses :
    ledger op (tr ++ ks.map lapse) k = if k ∈ ks then none else ledger op tr k := by
  induction ks generalizing tr with
  | nil => simp
  | cons k' rest ih =>
    rw [List.map_cons, List.append_cons, ih]
    by_cases hrest : k ∈ rest
    · rw [if_pos hrest, if_pos (List.mem_cons_of_mem _ hrest)]
    · rw [if_neg hrest]
      by_cases hk : k = k'
      · subst hk
        rw [if_pos List.mem_cons_self]
        exact ledger_concat_self (hop k)
      · rw [if_neg (List.not_mem_cons_of_ne_of_not_mem hk hrest)]
        exact ledger_concat_of_ne (hop k') hk

/-- Several tickets may lapse at once. -/
theorem Lawful.append_lapses (h : Lawful op tr) (hnodup : ks.Nodup)
    (hlive : ∀ k ∈ ks, ledger op tr k ≠ none) : Lawful op (tr ++ ks.map lapse) := by
  induction ks generalizing tr with
  | nil => simpa using h
  | cons k rest ih =>
    obtain ⟨hk, hrest⟩ := List.nodup_cons.1 hnodup
    rw [List.map_cons, List.append_cons]
    refine ih (h.concat fun o ho => ?_) hrest fun k' hk' => ?_
    · rw [hop k] at ho
      cases ho
      exact hlive k List.mem_cons_self
    · have hne : k' ≠ k := fun he => hk (he ▸ hk')
      rw [ledger_concat_of_ne (hop k) hne]
      exact hlive k' (List.mem_cons_of_mem _ hk')

end Lapses

end Lts
