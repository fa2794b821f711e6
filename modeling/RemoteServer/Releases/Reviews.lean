import Mathlib.Data.Prod.Lex
import Mathlib.Data.String.Basic
import RemoteServer.Fallible
import RemoteServer.PyStd.Dict

/-!
# The reviews of a Release pull request

A Release pull request is merged when a person with write access has approved its head and nobody
with write access asks for changes.  A later review of the same person replaces an earlier one.

* `flattenPages` puts the pages of the answer of GitHub together.
* `authorizedReviewState` goes over the reviews and keeps the last one of every person.
* `LastWord` says which review this is, with no order of the reviews.
* `review_state_exact` is the result.
-/

namespace RemoteServer.Releases

open PyStd

/-- `user` of a review. -/
structure Account where
  login : Option String
  type : Option String
deriving DecidableEq

inductive ReviewState where
  | approved
  | changesRequested
  | dismissed
  /-- `COMMENTED`, `PENDING` and every other text. -/
  | other (text : String)
deriving DecidableEq

structure Review where
  user : Option Account
  state : ReviewState
  /-- The text of the time, in the order of texts. -/
  submittedAt : String
  id : Nat
  commitId : Option String
deriving DecidableEq

/-- An element of the answer: a page, or a review of an answer without pages. -/
inductive Entry where
  | page (reviews : List Review)
  | item (review : Review)

namespace Entry

def page? : Entry → Option (List Review)
  | page reviews => some reviews
  | item _ => none

def item? : Entry → Option Review
  | page _ => none
  | item review => some review

end Entry

/-- `flatten_pages`. -/
def flattenPages (entries : List Entry) : Except String (List Review) :=
  match entries.mapM Entry.page? with
  | some pages => .ok pages.flatten
  | none =>
    match entries.mapM Entry.item? with
    | some reviews => .ok reviews
    | none => .error "GitHub pagination response contains an invalid item"

/-- A state that replaces the earlier reviews of its author. -/
def ReviewState.counts : ReviewState → Bool
  | approved | changesRequested | dismissed => true
  | other _ => false

/-- The login of a person. -/
def Review.person (review : Review) : Option String := do
  let user ← review.user
  let login ← user.login
  if login == "" || user.type == some "Bot" || "[bot]".toList.isSuffixOf login.toList then none
  else some login

/-- The person whose review this is, if it counts. -/
def Review.reviewer (review : Review) : Option String :=
  if review.state.counts then review.person else none

/-- `(submitted_at, id)`. -/
def Review.ordering (review : Review) : String ×ₗ Nat := toLex (review.submittedAt, review.id)

/-- `latest`: the last review of every person. -/
def latestReviews (reviews : List Review) : AList fun _ : String => Review :=
  greatest Review.reviewer Review.ordering reviews

/-- The permission of a login allows it to write. -/
def canWrite (permission : String → Option String) (login : String) : Bool :=
  permission login == some "write" || permission login == some "admin"

/-- `authorized_review_state`: approved and blocked. -/
def authorizedReviewState (permission : String → Option String) (headSha : String)
    (entries : List Entry) : Except String (Bool × Bool) := do
  let reviews ← flattenPages entries
  let authorized := (latestReviews reviews).entries.filter fun entry => canWrite permission entry.1
  let approved := authorized.any fun entry =>
    entry.2.state == .approved && entry.2.commitId == some headSha
  let blocked := authorized.any fun entry => entry.2.state == .changesRequested
  return (approved, blocked)

/-! ## The last word of a person -/

/-- The greatest review of a person by time and identity among those that count. -/
structure LastWord (reviews : List Review) (login : String) (review : Review) : Prop where
  mem : review ∈ reviews
  person : review.person = some login
  counts : review.state.counts = true
  last : ∀ other ∈ reviews, other.person = some login → other.state.counts = true →
    other.ordering ≤ review.ordering

variable {reviews reviews' : List Review} {login : String} {review : Review}

theorem reviewer_eq_some :
    review.reviewer = some login ↔ review.person = some login ∧ review.state.counts = true := by
  rw [Review.reviewer]
  split
  next hcounts => exact ⟨fun h => ⟨h, hcounts⟩, fun h => h.1⟩
  next hcounts => exact ⟨fun h => (nomatch h), fun h => absurd h.2 hcounts⟩

theorem lastWord_iff :
    LastWord reviews login review ↔
      IsGreatest Review.reviewer Review.ordering reviews login review := by
  constructor
  · intro h
    refine ⟨h.mem, reviewer_eq_some.2 ⟨h.person, h.counts⟩, fun other hother hlogin => ?_⟩
    obtain ⟨hperson, hcounts⟩ := reviewer_eq_some.1 hlogin
    exact h.last other hother hperson hcounts
  · intro h
    obtain ⟨hperson, hcounts⟩ := reviewer_eq_some.1 h.owned
    exact ⟨h.mem, hperson, hcounts, fun other hother hlogin hother' =>
      h.le other hother (reviewer_eq_some.2 ⟨hlogin, hother'⟩)⟩

/-- Reviews with different identities have different places in the order. -/
theorem ordering_injOn (hids : (reviews.map Review.id).Nodup) :
    ∀ a ∈ reviews, ∀ b ∈ reviews, a.ordering = b.ordering → a = b := by
  intro a ha b hb heq
  have hid : a.id = b.id := congrArg (fun key => (ofLex key).2) heq
  exact List.inj_on_of_nodup_map hids ha hb hid

theorem mem_latestReviews (hids : (reviews.map Review.id).Nodup) :
    ⟨login, review⟩ ∈ (latestReviews reviews).entries ↔ LastWord reviews login review := by
  rw [← AList.mem_lookup_iff, Option.mem_def, latestReviews, lookup_greatest (ordering_injOn hids),
    lastWord_iff]

theorem LastWord.perm (h : LastWord reviews login review) (hperm : reviews.Perm reviews') :
    LastWord reviews' login review :=
  lastWord_iff.2 ((lastWord_iff.1 h).perm hperm)

theorem flattenPages_pages (pages : List (List Review)) :
    flattenPages (pages.map .page) = .ok pages.flatten := by
  have hpages : (pages.map Entry.page).mapM Entry.page? = some pages :=
    Fallible.mapM_map_eq_some (f := Entry.page?) (fun _ => rfl) pages
  rw [flattenPages, hpages]

/-- A loop over the last words with a test. -/
theorem any_latestReviews (hids : (reviews.map Review.id).Nodup)
    (permission : String → Option String) (test : Review → Bool) :
    (((latestReviews reviews).entries.filter fun entry => canWrite permission entry.1).any
      fun entry => test entry.2) = true ↔
      ∃ login review, canWrite permission login = true ∧ LastWord reviews login review ∧
        test review = true := by
  rw [List.any_eq_true]
  constructor
  · rintro ⟨⟨login, review⟩, hmem, htest⟩
    obtain ⟨hmem, hwrite⟩ := List.mem_filter.1 hmem
    exact ⟨login, review, hwrite, (mem_latestReviews hids).1 hmem, htest⟩
  · rintro ⟨login, review, hwrite, hlast, htest⟩
    exact ⟨⟨login, review⟩, List.mem_filter.2 ⟨(mem_latestReviews hids).2 hlast, hwrite⟩, htest⟩

theorem authorizedReviewState_eq (permission : String → Option String) (headSha : String)
    (pages : List (List Review)) :
    authorizedReviewState permission headSha (pages.map .page) = .ok
      (((latestReviews pages.flatten).entries.filter fun entry => canWrite permission entry.1).any
        (fun entry => entry.2.state == .approved && entry.2.commitId == some headSha),
      ((latestReviews pages.flatten).entries.filter fun entry => canWrite permission entry.1).any
        fun entry => entry.2.state == .changesRequested) := by
  rw [authorizedReviewState, flattenPages_pages]
  rfl

/-- The review state depends on the last word of every person with write access, and on nothing
else: neither on the order of the reviews nor on the pages. -/
theorem review_state_exact (permission : String → Option String) (headSha : String)
    (pages : List (List Review)) (hids : (pages.flatten.map Review.id).Nodup) :
    ∃ approved blocked,
      authorizedReviewState permission headSha (pages.map .page) = .ok (approved, blocked) ∧
      (approved = true ↔ ∃ login review, canWrite permission login = true ∧
        LastWord pages.flatten login review ∧ review.state = .approved ∧
        review.commitId = some headSha) ∧
      (blocked = true ↔ ∃ login review, canWrite permission login = true ∧
        LastWord pages.flatten login review ∧ review.state = .changesRequested) ∧
      ∀ pages' : List (List Review), pages'.flatten.Perm pages.flatten →
        authorizedReviewState permission headSha (pages'.map .page) = .ok (approved, blocked) := by
  refine ⟨_, _, authorizedReviewState_eq permission headSha pages, ?_, ?_, fun pages' hperm => ?_⟩
  · rw [any_latestReviews hids permission fun review =>
      review.state == .approved && review.commitId == some headSha]
    simp only [Bool.and_eq_true, beq_iff_eq]
  · rw [any_latestReviews hids permission fun review => review.state == .changesRequested]
    simp only [beq_iff_eq]
  · have hids' : (pages'.flatten.map Review.id).Nodup := (hperm.map _).nodup_iff.2 hids
    have hsame : ∀ test : Review → Bool,
        (((latestReviews pages'.flatten).entries.filter fun entry =>
          canWrite permission entry.1).any fun entry => test entry.2) =
        (((latestReviews pages.flatten).entries.filter fun entry =>
          canWrite permission entry.1).any fun entry => test entry.2) := by
      intro test
      rw [Bool.eq_iff_iff, any_latestReviews hids', any_latestReviews hids]
      constructor
      · rintro ⟨login, review, hwrite, hlast, htest⟩
        exact ⟨login, review, hwrite, hlast.perm hperm, htest⟩
      · rintro ⟨login, review, hwrite, hlast, htest⟩
        exact ⟨login, review, hwrite, hlast.perm hperm.symm, htest⟩
    rw [authorizedReviewState_eq, hsame fun review => review.state == .changesRequested,
      hsame fun review => review.state == .approved && review.commitId == some headSha]

/-! ## A second look -/

/-- A review of a maintainer. -/
def sampleReview (id : Nat) (time : String) (state : ReviewState) : Review where
  user := some ⟨some "maintainer", some "User"⟩
  state := state
  submittedAt := time
  id := id
  commitId := some "head"

/-- The maintainer asks for changes, and approves the same head an hour later. -/
def samplePages : List (List Review) :=
  [[sampleReview 2 "2026-07-01T11:00:00Z" .approved],
    [sampleReview 1 "2026-07-01T10:00:00Z" .changesRequested]]

theorem review_state_exact_approved :
    LastWord samplePages.flatten "maintainer" (sampleReview 2 "2026-07-01T11:00:00Z" .approved) ∧
      ∃ blocked, authorizedReviewState (fun _ => some "write") "head" (samplePages.map .page) =
        .ok (true, blocked) := by
  have hlast : LastWord samplePages.flatten "maintainer"
      (sampleReview 2 "2026-07-01T11:00:00Z" .approved) := by
    refine ⟨by decide +kernel, by decide +kernel, rfl, fun other hother _ _ => ?_⟩
    revert other
    decide +kernel
  obtain ⟨approved, blocked, hstate, happroved, -⟩ :=
    review_state_exact (fun _ => some "write") "head" samplePages (by decide +kernel)
  obtain rfl := happroved.2 ⟨"maintainer", _, rfl, hlast, rfl, rfl⟩
  exact ⟨hlast, blocked, hstate⟩

end RemoteServer.Releases
