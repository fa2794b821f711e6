import RemoteServer.PeerStore.Routing

/-!
# The rows of the table

`update_identity` finds its row by the `guid` that a cached peer has and writes every other column,
the id as well.  A cache that has evicted, reloaded or blanked a peer could have the `guid` of
another row, and the statement would take that row away from its id.  `run_tied` says that it never
has, and so `rows_permanent`: rows are not removed, renamed or replaced, and only a registration of
the id changes what else is in them.
-/

namespace RemoteServer.PeerStore

open RustStd Lts

/-- One step keeps the row of an id, with its `guid`, and the rest unless a persistence of the id
is open. -/
theorem Registry.Step.row_kept {cfg : Config} {r r' : Registry} {evs : List Event}
    (h : r.Step cfg evs r') (ha : Agreement (Criterion.tied cfg) r) {id : PeerId} {row : Row}
    (hrow : r.db.getPeer id = some row) :
    ∃ row', r'.db.getPeer id = some row' ∧ row'.guid = row.guid ∧
      (row' = row ∨ ∃ c ∈ r.cargos, ∃ p, c.bind Cargo.pending = some p ∧ p.id = id) := by
  cases h with
  | tick d => exact ⟨row, hrow, rfl, Or.inl rfl⟩
  | call => exact ⟨row, hrow, rfl, Or.inl rfl⟩
  | @move i c _ v _ _ _ hi heff =>
    obtain ⟨row', hrow', hguid⟩ := heff.guid_kept ha hi hrow
    refine ⟨row', hrow', hguid, ?_⟩
    by_cases hid : ∃ p, c = some (.write p) ∧ p.id = id
    · obtain ⟨p, rfl, hid⟩ := hid
      exact Or.inr ⟨_, List.mem_of_getElem? hi, p, rfl, hid⟩
    · have hsame := heff.row_eq ha hi fun p hp he => hid ⟨p, hp, he⟩
      exact Or.inl (Option.some.inj (hrow'.symm.trans (hsame.trans hrow)))

/-- Between two states of a run a row stays, with its `guid`, whatever is evicted, reloaded or
fails to be written meanwhile.  The rest of it changes only after a registration of its id has
passed the checks. -/
theorem rows_permanent {cfg : Config} {now : Nat} {db : Database} {tr tr' : List Event}
    {s s' : State} (h : Run (step cfg) anything (State.initial now db) tr s)
    (h' : Run (step cfg) anything s tr' s') {id : PeerId} {row : Row}
    (hrow : s.db.getPeer id = some row) :
    ∃ row', s'.db.getPeer id = some row' ∧ row'.guid = row.guid ∧
      (row' = row ∨ ∃ i origin at', Event.staged i origin id at' ∈ tr ++ tr') := by
  -- the second run goes on from the first one, so that what holds along it can be used
  suffices hboth : Run (step cfg) anything (State.initial now db) (tr ++ tr') s' ∧
      ∃ row', s'.db.getPeer id = some row' ∧ row'.guid = row.guid ∧
        (row' = row ∨ ∃ i origin at', Event.staged i origin id at' ∈ tr ++ tr') from hboth.2
  induction h' with
  | start => exact ⟨by rwa [List.append_nil], row, hrow, rfl, Or.inl rfl⟩
  | step _ _ hs ih =>
    obtain ⟨hrun, row₁, hrow₁, hguid₁, hsame₁⟩ := ih
    rw [← List.append_assoc]
    obtain ⟨row₂, hrow₂, hguid₂, hsame₂⟩ :=
      (step_registry (run_wellFormed hrun) (run_handled hrun) hs).row_kept (run_tied hrun) hrow₁
    refine ⟨hrun.step trivial hs, row₂, hrow₂, hguid₂.trans hguid₁, ?_⟩
    rcases hsame₂ with rfl | ⟨c, hc, p, hp, rfl⟩
    · rcases hsame₁ with rfl | ⟨i, origin, at', hstaged⟩
      · exact Or.inl rfl
      · exact Or.inr ⟨i, origin, at', List.mem_append_left _ hstaged⟩
    · obtain ⟨at', hstaged⟩ := run_staged hrun c hc p hp
      exact Or.inr ⟨_, _, at', List.mem_append_left _ hstaged⟩

/-- A device registers twice.  The new key is stored under the `guid` of the first
registration. -/
theorem rows_permanent_newKey : ∃ s tr row s' tr' row',
    Run (step (sampleConfig true)) anything (State.initial sampleStart .empty) tr s ∧
      s.db.getPeer sampleId = some row ∧ Run (step (sampleConfig true)) anything s tr' s' ∧
      s'.db.getPeer sampleId = some row' ∧ row'.pk ≠ row.pk ∧ row'.guid = row.guid := by
  have hexec : ((exec (step (sampleConfig true)) (State.initial sampleStart .empty)
      (.call (.registerPk (sampleOrigin 0) (sampleRequest 1 2)) ::
        runs 0 6 ++ runs 1 2 ++ runs 0 1)).bind fun x =>
      (exec (step (sampleConfig true)) x.1
        (.call (.registerPk (sampleOrigin 1) (sampleRequest 1 3)) :: runs 2 4 ++ runs 3 2)).map
        fun y => ((x.1.db.getPeer sampleId).map Row.pk, (y.1.db.getPeer sampleId).map Row.pk)) =
      some (some (List.replicate 32 2), some (List.replicate 32 3)) := by decide +kernel
  obtain ⟨x, hx, hexec⟩ := Option.bind_eq_some_iff.1 hexec
  obtain ⟨y, hy, hkeys⟩ := Option.map_eq_some_iff.1 hexec
  obtain ⟨hbefore, hafter⟩ := Prod.mk.inj hkeys
  obtain ⟨row, hrow, hpk⟩ := Option.map_eq_some_iff.1 hbefore
  obtain ⟨row', hrow', hguid, -⟩ := rows_permanent (run_of_exec hx) (run_of_exec hy) hrow
  refine ⟨x.1, x.2, row, y.1, y.2, row', run_of_exec hx, hrow, run_of_exec hy, hrow', ?_, hguid⟩
  rw [hrow'] at hafter
  rw [hpk, Option.some.inj hafter]
  decide

end RemoteServer.PeerStore
