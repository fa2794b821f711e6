import RemoteServer.Fallible
import RemoteServer.Releases.Record

/-!
# The completed Releases in order

`completed_releases` collects the completed Releases and sorts them by their versions.
`mem_completedReleases` says which they are, and `completedReleases_last` that the last one has
the highest version.
-/

namespace RemoteServer.Releases

open Fallible

theorem mem_collectCompleted {releases : List Release} {seen : List String}
    {found result : List (Version × Release)}
    (h : collectCompleted seen found releases = .ok result) (entry : Version × Release) :
    entry ∈ result ↔ entry ∈ found ∨ entry.2 ∈ releases ∧ isCompleted entry.2 = true ∧
      parseTag entry.2.tagName = some entry.1 := by
  induction releases generalizing seen found with
  | nil =>
    cases h
    simp
  | cons release rest ih =>
    rw [collectCompleted] at h
    cases htag : parseTag release.tagName with
    | none =>
      rw [htag] at h
      rw [ih h, List.mem_cons]
      refine or_congr_right (and_congr_left fun ⟨_, htag'⟩ => ⟨Or.inr, ?_⟩)
      rintro (rfl | hmem)
      · exact (nomatch htag.symm.trans htag')
      · exact hmem
    | some version =>
      rw [htag] at h
      obtain ⟨-, h⟩ := ite_error_eq_ok.1 h
      rw [ih h, List.mem_cons]
      by_cases hcompleted : isCompleted release = true
      · rw [if_pos hcompleted, List.mem_append, List.mem_singleton, or_assoc]
        refine or_congr_right ?_
        constructor
        · rintro (rfl | ⟨hmem, hrest⟩)
          · exact ⟨Or.inl rfl, hcompleted, htag⟩
          · exact ⟨Or.inr hmem, hrest⟩
        · rintro ⟨heq | hmem, hrest⟩
          · refine Or.inl (Prod.ext ?_ heq)
            rw [heq, htag] at hrest
            exact (Option.some.inj hrest.2).symm
          · exact Or.inr ⟨hmem, hrest⟩
      · rw [if_neg hcompleted]
        refine or_congr_right (and_congr_left fun ⟨hdone, _⟩ => ⟨Or.inr, ?_⟩)
        rintro (rfl | hmem)
        · exact absurd hdone hcompleted
        · exact hmem

variable {releases : List Release} {completed : List (Version × Release)}

theorem completedReleases_eq (h : completedReleases releases = .ok completed) :
    ∃ found, collectCompleted [] [] releases = .ok found ∧
      completed = found.insertionSort fun a b => a.1 ≤ b.1 := by
  rw [completedReleases] at h
  cases hfound : collectCompleted [] [] releases with
  | error e => rw [hfound] at h; cases h
  | ok found =>
    rw [hfound] at h
    exact ⟨found, rfl, (Except.ok.inj h).symm⟩

theorem mem_completedReleases (h : completedReleases releases = .ok completed)
    (entry : Version × Release) :
    entry ∈ completed ↔ entry.2 ∈ releases ∧ isCompleted entry.2 = true ∧
      parseTag entry.2.tagName = some entry.1 := by
  obtain ⟨found, hfound, rfl⟩ := completedReleases_eq h
  rw [List.mem_insertionSort, mem_collectCompleted hfound entry]
  exact ⟨fun hmem => hmem.resolve_left List.not_mem_nil, Or.inr⟩

theorem completedReleases_sorted (h : completedReleases releases = .ok completed) :
    completed.Pairwise fun a b => a.1 ≤ b.1 := by
  obtain ⟨found, -, rfl⟩ := completedReleases_eq h
  have htotal : Std.Total fun a b : Version × Release => a.1 ≤ b.1 :=
    ⟨fun a b => le_total a.1 b.1⟩
  have htrans : IsTrans (Version × Release) fun a b => a.1 ≤ b.1 := ⟨fun a b c => le_trans⟩
  exact List.pairwise_insertionSort _ found

/-- The last of the completed Releases is one of the highest version. -/
theorem completedReleases_last {version : Version} {highest : Release}
    (h : completedReleases releases = .ok completed)
    (hlast : completed.getLast? = some (version, highest)) :
    (version, highest) ∈ completed ∧ ∀ entry ∈ completed, entry.1 ≤ version := by
  obtain ⟨init, rfl⟩ := List.getLast?_eq_some_iff.1 hlast
  have hsorted := completedReleases_sorted h
  refine ⟨List.mem_append_right _ List.mem_cons_self, fun entry hentry => ?_⟩
  rcases List.mem_append.1 hentry with hentry | hentry
  · exact (List.pairwise_append.1 hsorted).2.2 _ hentry _ List.mem_cons_self
  · rw [List.mem_singleton.1 hentry]

end RemoteServer.Releases
