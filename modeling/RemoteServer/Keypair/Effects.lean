import RemoteServer.Keypair.Machine
import RemoteServer.Lts.Pool

/-!
# What a start does to the directory

* `Effect` lists what a step of one call can do to the directory, and `stepStage_effect` says
  that it does nothing else.  The lemmas after it say what is left as it was.
* `Owned` is the invariant for files that are being written: nobody else can see such a file, so
  what can be seen does not change.
-/

namespace RemoteServer.Keypair

open RustStd

variable {cr : Crypto} {path : String}

/-! ## What a step does to the directory -/

/-- The file that is being written. -/
def Stage.draft : Stage → Option Nat
  | .writeSecret _ fd | .writePublic _ fd => some fd
  | _ => none

/-- The file that is open. -/
def Stage.fd : Stage → Option Nat
  | .readSecret _ fd | .writeSecret _ fd | .comparePublic _ fd | .writePublic _ fd
  | .compareTurn _ _ fd => some fd
  | _ => none

theorem Stage.fd_of_draft {stage : Stage} {fd : Nat} (h : stage.draft = some fd) :
    stage.fd = some fd := by
  cases stage <;> first | exact h | cases h

/-- The name that the call gives to its file next. -/
def Stage.links : Stage → Option Part
  | .linkSecret => some .secret
  | .linkPublic _ _ => some .pub
  | _ => none

/-- The public key file is removed next. -/
def Stage.removes : Stage → Bool
  | .removeTurn _ _ => true
  | _ => false

theorem Stage.draft_of_fd {stage : Stage} (h : stage.fd = none) : stage.draft = none := by
  cases stage <;> first | rfl | cases h

/-- The call has returned its keys. -/
def Stage.succeeded : Stage → Bool
  | .done (.ok _) => true
  | _ => false

theorem Stage.exists_of_succeeded {stage : Stage} (h : stage.succeeded = true) :
    ∃ pair, stage = .done (.ok pair) := by
  unfold Stage.succeeded at h
  split at h
  · exact ⟨_, rfl⟩
  · cases h

/-- What call `c` can do to the directory in one step. -/
inductive Effect (c : Nat) (stage : Stage) (fs : Fs Name) : Fs Name → Stage → Prop where
  | same {stage'} (hfd : ∀ fd, stage'.fd = some fd → ∃ part, fs.entry (.key part) = some fd)
      (hdraft : stage'.draft = none) : Effect c stage fs fs stage'
  | created {part fs' fd stage'} (h : fs.createNew (.temp c part) = .ok (fs', fd))
      (hfd : stage'.fd = some fd) : Effect c stage fs fs' stage'
  | wrote {fd bytes stage'} (h : stage.draft = some fd) (hfd : stage'.fd = none) :
      Effect c stage fs (fs.writeAll fd bytes) stage'
  | linked {part fs' stage'} (h : fs.hardLink (.temp c part) (.key part) = .ok fs')
      (hlinks : stage.links = some part) (hfd : stage'.fd = none) : Effect c stage fs fs' stage'
  | removed {name fs' stage'} (h : fs.removeFile name = .ok fs')
      (hname : name = .key .pub ∧ stage.removes = true ∨ ∃ part, name = .temp c part)
      (hfd : stage'.fd = none) :
      Effect c stage fs fs' stage'

/-- A step that leaves the directory and has no open file. -/
theorem effect_idle {c : Nat} {stage stage' : Stage} {fs : Fs Name} (hfd : stage'.fd = none) :
    Effect c stage fs fs stage' := by
  refine .same (fun fd h => ?_) (Stage.draft_of_fd hfd)
  rw [hfd] at h
  cases h

theorem effect_removeTemp {a : Action} {stage stage' : Stage} {fs : Fs Name} (part : Part)
    (hfd : stage'.fd = none) : Effect a.call stage fs (removeTemp fs a part) stage' := by
  unfold removeTemp
  split
  · rename_i fs' _ hremove
    exact .removed hremove (Or.inr ⟨part, rfl⟩) hfd
  · exact effect_idle hfd

theorem effect_opened {c : Nat} {stage stage' : Stage} {fs : Fs Name} {part : Part} {fd : Nat}
    (h : fs.openNoFollow (.key part) = .ok fd) (hfd : stage'.fd = some fd)
    (hdraft : stage'.draft = none) : Effect c stage fs fs stage' := by
  refine .same (fun fd' h' => ⟨part, ?_⟩) hdraft
  rw [hfd] at h'
  cases h'
  exact Fs.openNoFollow_ok h

theorem stepStage_effect {fs fs' : Fs Name} {a : Action} {stage stage' : Stage}
    (h : stepStage cr path fs a stage = some (fs', stage')) :
    Effect a.call stage fs fs' stage' := by
  cases stage with
  | openSecret again =>
    simp only [stepStage] at h
    split at h
    · rename_i hopen
      cases h
      exact effect_opened hopen rfl rfl
    · split at h <;> cases h <;> exact effect_idle rfl
    · cases h
      exact effect_idle rfl
  | readSecret again fd =>
    simp only [stepStage] at h
    split at h
    · split at h
      · cases h
        exact effect_idle rfl
      · cases again <;> cases h <;> exact effect_idle rfl
    · cases h
      exact effect_idle rfl
  | generate =>
    simp only [stepStage] at h
    split at h <;> cases h <;> exact effect_idle rfl
  | createSecret key =>
    simp only [stepStage] at h
    split at h
    · rename_i hcreate
      cases h
      exact .created hcreate rfl
    · cases h
      exact effect_idle rfl
  | writeSecret key fd =>
    simp only [stepStage] at h
    split at h
    · cases h
      exact .wrote rfl rfl
    · cases h
      exact effect_idle rfl
  | linkSecret =>
    simp only [stepStage] at h
    split at h
    · rename_i hlink
      cases h
      exact .linked hlink rfl rfl
    · cases h
      exact effect_idle rfl
    · cases h
      exact effect_idle rfl
  | cleanSecret result =>
    simp only [stepStage] at h
    cases h
    refine effect_removeTemp .secret ?_
    cases result <;> rfl
  | inspectPublic key =>
    simp only [stepStage] at h
    split at h <;> cases h <;> exact effect_idle rfl
  | openPublic key =>
    simp only [stepStage] at h
    split at h
    · rename_i hopen
      cases h
      exact effect_opened hopen rfl rfl
    · cases h
      exact effect_idle rfl
  | comparePublic key fd =>
    simp only [stepStage] at h
    split at h <;> cases h <;> exact effect_idle rfl
  | createPublic key =>
    simp only [stepStage] at h
    split at h
    · rename_i hcreate
      cases h
      exact .created hcreate rfl
    · cases h
      exact effect_idle rfl
  | writePublic key fd =>
    simp only [stepStage] at h
    split at h
    · cases h
      exact .wrote rfl rfl
    · cases h
      exact effect_idle rfl
  | linkPublic key turns =>
    cases turns with
    | zero =>
      simp only [stepStage] at h
      cases h
      exact effect_idle rfl
    | succ turns =>
      simp only [stepStage] at h
      split at h
      · rename_i hlink
        cases h
        exact .linked hlink rfl rfl
      · cases h
        exact effect_idle rfl
      · cases h
        exact effect_idle rfl
  | inspectTurn key turns =>
    simp only [stepStage] at h
    split at h <;> cases h <;> exact effect_idle rfl
  | openTurn key turns =>
    simp only [stepStage] at h
    split at h
    · rename_i hopen
      cases h
      exact effect_opened hopen rfl rfl
    · cases h
      exact effect_idle rfl
  | compareTurn key turns fd =>
    simp only [stepStage] at h
    split at h <;> cases h <;> exact effect_idle rfl
  | removeTurn key turns =>
    simp only [stepStage] at h
    split at h
    · rename_i hremove
      cases h
      refine .removed hremove (Or.inl ⟨rfl, rfl⟩) ?_
      split <;> rfl
    · cases h
      exact effect_idle rfl
    · cases h
      exact effect_idle rfl
  | cleanPublic key result =>
    simp only [stepStage] at h
    cases h
    exact effect_removeTemp .pub rfl
  | done result => cases h


section Effects

variable {c : Nat} {stage stage' : Stage} {fs fs' : Fs Name}

theorem Effect.length_le (h : Effect c stage fs fs' stage') :
    fs.nodes.length ≤ fs'.nodes.length := by
  cases h with
  | same => exact Nat.le_refl _
  | created h =>
    rw [(Fs.createNew_ok h).2.2.1, List.length_append]
    omega
  | wrote => exact Nat.le_of_eq List.length_set.symm
  | linked h =>
    obtain ⟨i, -, -, hnodes, -⟩ := Fs.hardLink_ok h
    rw [hnodes]
  | removed h => rw [(Fs.removeFile_ok h).1]

/-- Only the file that the call is writing changes. -/
theorem Effect.node_kept (h : Effect c stage fs fs' stage') {i : Nat} (hi : i < fs.nodes.length)
    (hdraft : stage.draft ≠ some i) : fs'.nodes[i]? = fs.nodes[i]? := by
  cases h with
  | same => rfl
  | created h =>
    rw [(Fs.createNew_ok h).2.2.1]
    exact List.getElem?_append_left hi
  | @wrote fd bytes _ hwriting =>
    refine List.getElem?_set_ne ?_
    rintro rfl
    exact hdraft hwriting
  | linked h =>
    obtain ⟨j, -, -, hnodes, -⟩ := Fs.hardLink_ok h
    rw [hnodes]
  | removed h => rw [(Fs.removeFile_ok h).1]

/-- The private key file keeps its name. -/
theorem Effect.secret_kept (h : Effect c stage fs fs' stage') {i : Nat}
    (hi : fs.entry (.key .secret) = some i) : fs'.entry (.key .secret) = some i := by
  cases h with
  | same => exact hi
  | created h =>
    rw [(Fs.createNew_ok h).2.2.2, Function.update_of_ne (by simp)]
    exact hi
  | wrote => exact hi
  | @linked part _ _ h =>
    obtain ⟨j, -, hfree, -, hentry⟩ := Fs.hardLink_ok h
    cases part with
    | secret =>
      rw [hi] at hfree
      cases hfree
    | pub =>
      rw [hentry, Function.update_of_ne (by simp)]
      exact hi
  | removed h hname =>
    rw [(Fs.removeFile_ok h).2]
    rcases hname with ⟨rfl, -⟩ | ⟨part, rfl⟩
    · rw [Function.update_of_ne (by simp)]
      exact hi
    · rw [Function.update_of_ne (by simp)]
      exact hi

/-- The temporary names of the other calls stay. -/
theorem Effect.temp_kept (h : Effect c stage fs fs' stage') {c' : Nat} (hne : c' ≠ c)
    (part : Part) : fs'.entry (.temp c' part) = fs.entry (.temp c' part) := by
  cases h with
  | same => rfl
  | created h => rw [(Fs.createNew_ok h).2.2.2, Function.update_of_ne (by simp [hne])]
  | wrote => rfl
  | linked h =>
    obtain ⟨j, -, -, -, hentry⟩ := Fs.hardLink_ok h
    rw [hentry, Function.update_of_ne (by simp)]
  | removed h hname =>
    rw [(Fs.removeFile_ok h).2]
    rcases hname with ⟨rfl, -⟩ | ⟨part', rfl⟩
    · rw [Function.update_of_ne (by simp)]
    · rw [Function.update_of_ne (by simp [hne])]

/-- A name that stands for a file stood for it before, or the file is new, or the call gave the
name to its file. -/
theorem Effect.entry_cases (h : Effect c stage fs fs' stage') {name : Name} {i : Nat}
    (hi : fs'.entry name = some i) :
    fs.entry name = some i ∨ i = fs.nodes.length ∧ (∃ part, name = .temp c part) ∨
      ∃ part, name = .key part ∧ stage.links = some part ∧ fs.entry (.temp c part) = some i ∧
        fs'.nodes = fs.nodes := by
  cases h with
  | same => exact Or.inl hi
  | @created part _ _ _ h =>
    obtain ⟨-, hfd, -, hentry⟩ := Fs.createNew_ok h
    rw [hentry] at hi
    rcases eq_or_ne name (.temp c part) with rfl | hne
    · rw [Function.update_self] at hi
      cases hi
      exact Or.inr (Or.inl ⟨hfd, part, rfl⟩)
    · rw [Function.update_of_ne hne] at hi
      exact Or.inl hi
  | wrote => exact Or.inl hi
  | @linked part _ _ h hlinks =>
    obtain ⟨j, hj, -, hnodes, hentry⟩ := Fs.hardLink_ok h
    rw [hentry] at hi
    rcases eq_or_ne name (.key part) with rfl | hne
    · rw [Function.update_self] at hi
      cases hi
      exact Or.inr (Or.inr ⟨part, rfl, hlinks, hj, hnodes⟩)
    · rw [Function.update_of_ne hne] at hi
      exact Or.inl hi
  | @removed name' _ _ h =>
    rw [(Fs.removeFile_ok h).2] at hi
    rcases eq_or_ne name name' with rfl | hne
    · rw [Function.update_self] at hi
      cases hi
    · rw [Function.update_of_ne hne] at hi
      exact Or.inl hi

/-- A file that is open after the step was there under one of the two names, or it is new. -/
theorem Effect.fd_cases (h : Effect c stage fs fs' stage') {fd : Nat} (hfd : stage'.fd = some fd) :
    (fs' = fs ∧ stage'.draft = none ∧ ∃ part, fs.entry (.key part) = some fd) ∨
      fd = fs.nodes.length ∧ fs'.nodes.length = fd + 1 := by
  cases h with
  | same hopen hdraft => exact Or.inl ⟨rfl, hdraft, hopen fd hfd⟩
  | created h hnew =>
    obtain ⟨-, hlength, hnodes, -⟩ := Fs.createNew_ok h
    rw [hfd] at hnew
    cases hnew
    rw [hnodes, List.length_append, List.length_singleton]
    exact Or.inr ⟨hlength, by omega⟩
  | wrote _ hnone =>
    rw [hfd] at hnone
    cases hnone
  | linked _ _ hnone =>
    rw [hfd] at hnone
    cases hnone
  | removed _ _ hnone =>
    rw [hfd] at hnone
    cases hnone

end Effects

/-! ## Who has a file that is being written -/

/-- A file that is being written has no name but the temporary one, and no other call has it
open. -/
structure Owned (s : State) : Prop where
  fd_lt : ∀ {c : Nat} {stage : Stage} {fd : Nat}, s.calls[c]? = some stage →
    stage.fd = some fd → fd < s.fs.nodes.length
  named : ∀ {c : Nat} {stage : Stage} {fd : Nat} {name : Name}, s.calls[c]? = some stage →
    stage.draft = some fd → s.fs.entry name = some fd → ∃ part, name = .temp c part
  alone : ∀ {c c' : Nat} {stage stage' : Stage} {fd : Nat}, c ≠ c' → s.calls[c]? = some stage →
    stage.draft = some fd → s.calls[c']? = some stage' → stage'.fd ≠ some fd

/-- The parts of a step of the system. -/
theorem step_cases {s s' : State} {a : Action} {evs : List Event}
    (h : step cr path s a = some (s', evs)) :
    ∃ stage stage', s.calls[a.call]? = some stage ∧
      stepStage cr path s.fs a stage = some (s'.fs, stage') ∧
      s'.calls = s.calls.set a.call stage' ∧
      evs = if a.io && a.sync then [] else [.failed a.call] := by
  obtain ⟨stage, hstage, h⟩ := Option.bind_eq_some_iff.1 h
  obtain ⟨⟨fs', stage'⟩, hnext, h⟩ := Option.map_eq_some_iff.1 h
  cases h
  exact ⟨stage, stage', hstage, hnext, rfl, rfl⟩

theorem init_stage {fs : Fs Name} {n c : Nat} {stage : Stage}
    (h : (init fs n).calls[c]? = some stage) : stage = .openSecret false := by
  rw [init, List.getElem?_replicate] at h
  split at h
  · exact (Option.some.inj h).symm
  · cases h

theorem owned_init (fs : Fs Name) (n : Nat) : Owned (init fs n) := by
  refine ⟨fun h hfd => ?_, fun h hdraft _ => ?_, fun _ h hdraft _ => ?_⟩
  · rw [init_stage h] at hfd
    cases hfd
  · rw [init_stage h] at hdraft
    cases hdraft
  · rw [init_stage h] at hdraft
    cases hdraft

theorem step_owned {s s' : State} {a : Action} {evs : List Event} (ho : Owned s)
    (h : step cr path s a = some (s', evs)) : Owned s' := by
  obtain ⟨old, new, hold, hnext, hcalls, -⟩ := step_cases h
  have heffect := stepStage_effect hnext
  have hlength := heffect.length_le
  refine ⟨fun {c stage fd} hc hfd => ?_, fun {c stage fd name} hc hdraft hname => ?_,
    fun {c c' stage stage' fd} hne hc hdraft hc' hfd => ?_⟩
  · rw [hcalls] at hc
    rcases Lts.getElem?_set_cases hc with ⟨rfl, rfl⟩ | ⟨-, hc⟩
    · rcases heffect.fd_cases hfd with ⟨-, -, part, hentry⟩ | ⟨-, hlt⟩
      · exact Nat.lt_of_lt_of_le (s.fs.entry_lt _ _ hentry) hlength
      · omega
    · exact Nat.lt_of_lt_of_le (ho.fd_lt hc hfd) hlength
  · rw [hcalls] at hc
    rcases Lts.getElem?_set_cases hc with ⟨rfl, rfl⟩ | ⟨hother, hc⟩
    · rcases heffect.fd_cases (Stage.fd_of_draft hdraft) with ⟨-, hnone, -⟩ | ⟨hfresh, -⟩
      · rw [hnone] at hdraft
        cases hdraft
      · rcases heffect.entry_cases hname with hentry | ⟨-, htemp⟩ | ⟨part, -, -, hentry, -⟩
        · have hlt := s.fs.entry_lt _ _ hentry
          omega
        · exact htemp
        · have hlt := s.fs.entry_lt _ _ hentry
          omega
    · rcases heffect.entry_cases hname with hentry | ⟨hfresh, -⟩ | ⟨part, -, -, hentry, -⟩
      · exact ho.named hc hdraft hentry
      · have hlt := ho.fd_lt hc (Stage.fd_of_draft hdraft)
        omega
      · obtain ⟨part', htemp⟩ := ho.named hc hdraft hentry
        cases htemp
        exact absurd rfl hother
  · rw [hcalls] at hc hc'
    rcases Lts.getElem?_set_cases hc with ⟨rfl, rfl⟩ | ⟨hother, hwriter⟩
    · rcases Lts.getElem?_set_cases hc' with ⟨rfl, -⟩ | ⟨-, hc'⟩
      · exact hne rfl
      · rcases heffect.fd_cases (Stage.fd_of_draft hdraft) with ⟨-, hnone, -⟩ | ⟨hfresh, -⟩
        · rw [hnone] at hdraft
          cases hdraft
        · have hlt := ho.fd_lt hc' hfd
          omega
    · rcases Lts.getElem?_set_cases hc' with ⟨rfl, rfl⟩ | ⟨-, hc'⟩
      · rcases heffect.fd_cases hfd with ⟨-, -, part, hentry⟩ | ⟨hfresh, -⟩
        · obtain ⟨part', htemp⟩ := ho.named hwriter hdraft hentry
          cases htemp
        · have hlt := ho.fd_lt hwriter (Stage.fd_of_draft hdraft)
          omega
      · exact ho.alone hne hwriter hdraft hc' hfd

end RemoteServer.Keypair
