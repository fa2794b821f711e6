import RemoteServer.Keypair.Secret

/-!
# The public key file

A call that finds another public key removes the file, and it can remove a file that another
call has put there in the meantime.  But then it has to put its own there before it returns.

A call vouches for the public key from when it opens a file with it, or gives its own file the
name.  At this moment the public key is in its place, and a call that removes the file does not
vouch.  So the public key is in its place whenever all calls vouch: `run_vouched`.
-/

namespace RemoteServer.Keypair

open RustStd

variable {cr : Crypto} {path : String}

/-! ## The public key -/

section Public

variable (cr)

/-- The public key file has the public key of this key. -/
def Published (fs : Fs Name) (key : Bytes) : Prop :=
  fs.symlinkMetadata (.key .pub) = some (.file (utf8 (publicKey cr key)))

/-- The call has seen the public key in its place, or put it there. -/
def Vouches (fs : Fs Name) : Stage → Prop
  | .comparePublic key fd | .compareTurn key _ fd => fs.read fd = utf8 (publicKey cr key)
  | .cleanPublic _ (.ok _) | .done (.ok _) => True
  | _ => False

end Public

theorem read_of_hasPublicKey {fs : Fs Name} {fd : Nat} {key : Bytes}
    (h : hasPublicKey cr path fs fd key = true) : fs.read fd = utf8 (publicKey cr key) := by
  simp only [hasPublicKey] at h
  split at h
  · rename_i existing hread
    unfold readBoundedOpenFile at hread
    split at hread
    · cases hread
    · cases hread
      exact beq_iff_eq.1 h
  · cases h

theorem hasPublicKey_of_read {fs : Fs Name} {fd : Nat} {key : Bytes}
    (h : fs.read fd = utf8 (publicKey cr key)) : hasPublicKey cr path fs fd key = true := by
  simp [hasPublicKey, readBoundedOpenFile, h]

/-- The name and its file are the same. -/
theorem Published.kept {fs fs' : Fs Name} {key : Bytes} (h : Published cr fs key)
    (hentry : fs'.entry (.key .pub) = fs.entry (.key .pub)) (hnodes : fs'.nodes = fs.nodes) :
    Published cr fs' key := by
  rw [Published, Fs.symlinkMetadata, hentry, hnodes]
  exact h

theorem entry_removeTemp (fs : Fs Name) (a : Action) (part : Part) :
    (removeTemp fs a part).entry (.key .pub) = fs.entry (.key .pub) ∧
      (removeTemp fs a part).nodes = fs.nodes := by
  unfold removeTemp
  split
  · rename_i fs' _ hremove
    obtain ⟨hnodes, hentry⟩ := Fs.removeFile_ok hremove
    rw [hentry, Function.update_of_ne (by simp)]
    exact ⟨rfl, hnodes⟩
  · exact ⟨rfl, rfl⟩

theorem published_hardLink {fs fs' : Fs Name} {c : Nat} {key : Bytes}
    (h : fs.hardLink (.temp c .pub) (.key .pub) = .ok fs')
    (hdraft : Drafted fs c .pub (utf8 (publicKey cr key))) : Published cr fs' key := by
  obtain ⟨i, htemp, -, hnodes, hentry⟩ := Fs.hardLink_ok h
  obtain ⟨j, hj, hnode⟩ := hdraft
  rw [htemp] at hj
  cases hj
  rw [Published, Fs.symlinkMetadata, hentry, Function.update_self, Option.bind_some, hnodes]
  exact hnode

/-- A call that vouches after its step did so before and left the public key file, or the public
key is in its place now. -/
theorem stepStage_vouches {fs fs' : Fs Name} {a : Action} {stage stage' : Stage}
    (h : stepStage cr path fs a stage = some (fs', stage')) (hgood : Good cr path a.call fs stage)
    (hsecret : SecretKept fs fs') (hv : Vouches cr fs' stage') :
    (Vouches cr fs stage ∧ ∀ key, Published cr fs key → Published cr fs' key) ∨
      ∃ key, secretKey? cr path fs' = some key ∧ Published cr fs' key := by
  cases stage with
  | openSecret again =>
    simp only [stepStage] at h
    split at h
    · cases h
      cases hv
    · split at h <;> cases h <;> cases hv
    · cases h
      cases hv
  | readSecret again fd =>
    simp only [stepStage] at h
    split at h
    · split at h
      · cases h
        cases hv
      · cases again <;> cases h <;> cases hv
    · cases h
      cases hv
  | generate =>
    simp only [stepStage] at h
    split at h <;> cases h <;> cases hv
  | createSecret key =>
    simp only [stepStage] at h
    split at h <;> cases h <;> cases hv
  | writeSecret key fd =>
    simp only [stepStage] at h
    split at h <;> cases h <;> cases hv
  | linkSecret =>
    simp only [stepStage] at h
    split at h <;> cases h <;> cases hv
  | cleanSecret result =>
    simp only [stepStage] at h
    cases h
    cases result <;> cases hv
  | inspectPublic key =>
    simp only [stepStage] at h
    split at h <;> cases h <;> cases hv
  | openPublic key =>
    simp only [stepStage] at h
    split at h
    · rename_i fd hio hopen
      cases h
      refine Or.inr ⟨key, hgood, ?_⟩
      rw [Published, Fs.symlinkMetadata_of_openNoFollow hopen, hv]
    · cases h
      cases hv
  | comparePublic key fd =>
    simp only [stepStage] at h
    split at h
    · rename_i hsame
      cases h
      rw [Bool.and_eq_true] at hsame
      exact Or.inl ⟨read_of_hasPublicKey hsame.2, fun _ hp => hp⟩
    · cases h
      cases hv
  | createPublic key =>
    simp only [stepStage] at h
    split at h <;> cases h <;> cases hv
  | writePublic key fd =>
    simp only [stepStage] at h
    split at h <;> cases h <;> cases hv
  | linkPublic key turns =>
    cases turns with
    | zero =>
      simp only [stepStage] at h
      cases h
      cases hv
    | succ turns =>
      simp only [stepStage] at h
      split at h
      · rename_i hlink
        cases h
        exact Or.inr ⟨key, hsecret.key hgood.1, published_hardLink hlink hgood.2⟩
      · cases h
        cases hv
      · cases h
        cases hv
  | inspectTurn key turns =>
    simp only [stepStage] at h
    split at h <;> cases h <;> cases hv
  | openTurn key turns =>
    simp only [stepStage] at h
    split at h
    · rename_i fd hio hopen
      cases h
      refine Or.inr ⟨key, hgood.1, ?_⟩
      rw [Published, Fs.symlinkMetadata_of_openNoFollow hopen, hv]
    · cases h
      cases hv
  | compareTurn key turns fd =>
    simp only [stepStage] at h
    split at h
    · rename_i hsame
      cases h
      rw [Bool.and_eq_true] at hsame
      exact Or.inl ⟨read_of_hasPublicKey hsame.2, fun _ hp => hp⟩
    · cases h
      cases hv
  | removeTurn key turns =>
    simp only [stepStage] at h
    split at h
    · cases h
      split at hv <;> cases hv
    · cases h
      cases hv
    · cases h
      cases hv
  | cleanPublic key result =>
    simp only [stepStage] at h
    cases h
    cases result with
    | ok =>
      obtain ⟨hentry, hnodes⟩ := entry_removeTemp fs a .pub
      exact Or.inl ⟨trivial, fun _ hp => hp.kept hentry hnodes⟩
    | error => cases hv
  | done result => cases h

/-- If every call vouches for the public key, it is in its place. -/
def Vouched (cr : Crypto) (path : String) (s : State) : Prop :=
  (∀ (c : Nat) (stage : Stage), s.calls[c]? = some stage → Vouches cr s.fs stage) →
    ∃ key, secretKey? cr path s.fs = some key ∧ Published cr s.fs key

/-- The file that a call has open is the same after the step of another one. -/
theorem Vouches.before {s : State} {c c' : Nat} {stage old new : Stage} {fs' : Fs Name}
    (ho : Owned s) (hold : s.calls[c]? = some old) (heffect : Effect c old s.fs fs' new)
    (hne : c' ≠ c) (hc : s.calls[c']? = some stage) (hv : Vouches cr fs' stage) :
    Vouches cr s.fs stage := by
  have hread : ∀ {fd}, stage.fd = some fd → fs'.read fd = s.fs.read fd := by
    intro fd hfd
    refine Fs.read_congr (heffect.node_kept (ho.fd_lt hc hfd) fun hdraft => ?_)
    exact ho.alone (Ne.symm hne) hold hdraft hc hfd
  cases stage with
  | comparePublic key fd => exact (hread rfl).symm.trans hv
  | compareTurn key turns fd => exact (hread rfl).symm.trans hv
  | cleanPublic key result => cases result <;> exact hv
  | done result => cases result <;> exact hv
  | _ => cases hv

theorem step_vouched {s s' : State} {a : Action} {evs : List Event} (hk : Keyed cr path s)
    (hvouched : Vouched cr path s) (h : step cr path s a = some (s', evs)) :
    Vouched cr path s' := by
  intro hall
  obtain ⟨old, new, hold, hnext, hcalls, -⟩ := step_cases h
  have heffect := stepStage_effect hnext
  have hsecret := hk.owned.secret_kept hold heffect
  have hlt := (List.getElem?_eq_some_iff.1 hold).1
  have hnew : Vouches cr s'.fs new := by
    refine hall a.call new ?_
    rw [hcalls]
    exact List.getElem?_set_self hlt
  rcases stepStage_vouches hnext (hk.good hold) hsecret hnew with ⟨hbefore, hkept⟩ | hnow
  · -- the call vouched before, and so did the others
    obtain ⟨key, hkey, hpublished⟩ := hvouched fun c stage hc => by
      rcases eq_or_ne c a.call with rfl | hne
      · rw [hold] at hc
        cases hc
        exact hbefore
      · refine Vouches.before hk.owned hold heffect hne hc (hall c stage ?_)
        rw [hcalls, List.getElem?_set_ne (Ne.symm hne)]
        exact hc
    exact ⟨key, hsecret.key hkey, hkept key hpublished⟩
  · exact hnow

theorem run_vouched {fs : Fs Name} (hvalid : SecretValid cr path fs) {n : Nat} (hn : 0 < n)
    {tr : List Event} {s : State} (h : Run cr path fs n tr s) : Vouched cr path s := by
  have hboth : Keyed cr path s ∧ Vouched cr path s := by
    refine Lts.Run.inv_state (I := fun s => Keyed cr path s ∧ Vouched cr path s) h ?_ ?_
    · refine ⟨keyed_init hvalid n, fun hall => ?_⟩
      have hfirst : (init fs n).calls[0]? = some (.openSecret false) := by
        rw [init, List.getElem?_replicate, if_pos hn]
      cases hall 0 _ hfirst
    · intro tr s a s' evs hinv _ hs
      exact ⟨step_keyed hinv.1 hs, step_vouched hinv.1 hinv.2 hs⟩
  exact hboth.2

end RemoteServer.Keypair
