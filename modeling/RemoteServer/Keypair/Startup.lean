import RemoteServer.Keypair.Publish

/-!
# Servers that start together

* `Fresh` is what a call knows besides when there was no public key file at the start: no call
  finds another public key, so none removes the file, and none has to try again.
* `startups_agree` is the result for any number of calls and every order of their steps.
-/

namespace RemoteServer.Keypair

open RustStd

variable {cr : Crypto} {path : String}

/-! ## No public key at the start -/

/-- What a call knows besides when there was no public key file and the file system does not
fail: it never finds another public key, and never fails. -/
def Fresh (c : Nat) (fs : Fs Name) : Stage → Prop
  | .openSecret false | .readSecret false _ | .generate | .createSecret _ =>
    fs.entry (.temp c .secret) = none ∧ fs.entry (.temp c .pub) = none
  | .openSecret true | .readSecret true _ | .writeSecret _ _ | .linkSecret | .cleanSecret (.ok _)
  | .inspectPublic _ | .openPublic _ | .comparePublic _ _ | .createPublic _ =>
    fs.entry (.temp c .pub) = none
  | .writePublic _ _ | .cleanPublic _ (.ok _) | .done (.ok _) => True
  | .linkPublic _ turns => turns = 3
  | .inspectTurn _ _ | .openTurn _ _ => (fs.entry (.key .pub)).isSome = true
  | .compareTurn _ _ fd => fs.entry (.key .pub) = some fd
  | .removeTurn _ _ | .cleanSecret (.error _) | .cleanPublic _ (.error _)
  | .done (.error _) => False

/-- The public key file has the public key. -/
def PublicValid (cr : Crypto) (path : String) (fs : Fs Name) : Prop :=
  ∀ i, fs.entry (.key .pub) = some i → ∃ key, secretKey? cr path fs = some key ∧
    fs.nodes[i]? = some (.file (utf8 (publicKey cr key)))

section Fresh

variable {fs fs' : Fs Name} {a : Action} {stage stage' : Stage}

theorem entry_createNew_ne {name name' : Name} {fd : Nat}
    (h : fs.createNew name = .ok (fs', fd)) (hne : name' ≠ name) :
    fs'.entry name' = fs.entry name' := by
  rw [(Fs.createNew_ok h).2.2.2, Function.update_of_ne hne]

theorem entry_removeTemp_ne {part : Part} {name : Name} (hne : name ≠ .temp a.call part) :
    (removeTemp fs a part).entry name = fs.entry name := by
  unfold removeTemp
  split
  · rename_i fs' _ hremove
    rw [(Fs.removeFile_ok hremove).2, Function.update_of_ne hne]
  · rfl

theorem stepStage_fresh (h : stepStage cr path fs a stage = some (fs', stage')) (hio : a.io = true)
    (hsync : a.sync = true) (hgood : Good cr path a.call fs stage)
    (hvalid : SecretValid cr path fs) (hpublic : PublicValid cr path fs)
    (hfresh : Fresh a.call fs stage) : Fresh a.call fs' stage' := by
  cases stage with
  | openSecret again =>
    cases hentry : fs.entry (.key .secret) with
    | none =>
      cases again with
      | true =>
        have hsome : (fs.entry (.key .secret)).isSome = true := hgood
        rw [hentry] at hsome
        cases hsome
      | false =>
        simp only [stepStage, hio, Fs.openNoFollow_of_none hentry] at h
        cases h
        exact hfresh
    | some i =>
      obtain ⟨bytes, key, hnode, -⟩ := hvalid i hentry
      simp only [stepStage, hio, Fs.openNoFollow_of_file hentry hnode] at h
      cases h
      cases again <;> exact hfresh
  | readSecret again fd =>
    obtain ⟨bytes, key, hnode, hread⟩ := hvalid fd hgood
    simp only [stepStage, hio, Fs.read_of_file hnode, hread, if_true] at h
    cases again with
    | true =>
      cases h
      exact hfresh
    | false =>
      cases h
      exact hfresh.2
  | generate =>
    simp only [stepStage] at h
    split at h <;> cases h <;> exact hfresh
  | createSecret key =>
    obtain ⟨⟨created, fd⟩, hcreate⟩ := Fs.createNew_of_none hfresh.1
    simp only [stepStage, hio, hcreate] at h
    cases h
    exact (entry_createNew_ne hcreate (by simp)).trans hfresh.2
  | writeSecret key fd =>
    simp only [stepStage, hio, if_true] at h
    cases h
    exact hfresh
  | linkSecret =>
    obtain ⟨seed, i, htemp, -⟩ := hgood
    rcases Fs.hardLink_of_some htemp (.key .secret) with ⟨linked, hlink⟩ | hlink
    · simp only [stepStage, hio, hlink, Action.synced, hsync, if_true] at h
      cases h
      obtain ⟨j, -, -, -, hentry⟩ := Fs.hardLink_ok hlink
      show fs'.entry (.temp a.call .pub) = none
      rw [hentry, Function.update_of_ne (by simp)]
      exact hfresh
    · simp only [stepStage, hio, hlink] at h
      cases h
      exact hfresh
  | cleanSecret result =>
    cases result with
    | ok =>
      simp only [stepStage] at h
      cases h
      exact (entry_removeTemp_ne (by simp)).trans hfresh
    | error => cases hfresh
  | inspectPublic key =>
    simp only [stepStage, hio] at h
    split at h
    · rename_i hsymlink
      obtain ⟨i, hentry, hnode⟩ := Option.bind_eq_some_iff.1 hsymlink
      obtain ⟨key', -, hfile⟩ := hpublic i hentry
      rw [hnode] at hfile
      cases hfile
    · cases h
      exact hfresh
  | openPublic key =>
    simp only [stepStage, hio] at h
    split at h <;> cases h <;> exact hfresh
  | comparePublic key fd =>
    simp only [stepStage, hio] at h
    split at h
    · cases h
      trivial
    · cases h
      exact hfresh
  | createPublic key =>
    obtain ⟨⟨created, fd⟩, hcreate⟩ := Fs.createNew_of_none hfresh
    simp only [stepStage, hio, hcreate] at h
    cases h
    trivial
  | writePublic key fd =>
    simp only [stepStage, hio, if_true] at h
    cases h
    rfl
  | linkPublic key turns =>
    cases (hfresh : turns = 3)
    obtain ⟨-, i, htemp, -⟩ := hgood
    rcases Fs.hardLink_of_some htemp (.key .pub) with ⟨linked, hlink⟩ | hlink
    · simp only [stepStage, hio, hlink, Action.synced, hsync, if_true] at h
      cases h
      trivial
    · simp only [stepStage, hio, hlink] at h
      cases h
      exact Fs.hardLink_alreadyExists hlink
  | inspectTurn key turns =>
    obtain ⟨i, hentry⟩ := Option.isSome_iff_exists.1 hfresh
    obtain ⟨key', -, hfile⟩ := hpublic i hentry
    simp only [stepStage, hio, Fs.symlinkMetadata_of_entry hentry, hfile] at h
    cases h
    exact hfresh
  | openTurn key turns =>
    obtain ⟨i, hentry⟩ := Option.isSome_iff_exists.1 hfresh
    obtain ⟨key', -, hfile⟩ := hpublic i hentry
    simp only [stepStage, hio, Fs.openNoFollow_of_file hentry hfile] at h
    cases h
    exact hentry
  | compareTurn key turns fd =>
    obtain ⟨key', hkey', hfile⟩ := hpublic fd hfresh
    rw [hgood.1] at hkey'
    cases hkey'
    simp only [stepStage, hio, hasPublicKey_of_read (Fs.read_of_file hfile), Bool.and_self,
      if_true] at h
    cases h
    trivial
  | removeTurn key turns => cases hfresh
  | cleanPublic key result =>
    simp only [stepStage] at h
    cases h
    cases result with
    | ok => trivial
    | error => cases hfresh
  | done result => cases h

theorem Effect.public_kept {c : Nat} (h : Effect c stage fs fs' stage')
    (hremoves : stage.removes = false) {i : Nat} (hi : fs.entry (.key .pub) = some i) :
    fs'.entry (.key .pub) = some i := by
  cases h with
  | same => exact hi
  | created h => exact (entry_createNew_ne h (by simp)).trans hi
  | wrote => exact hi
  | @linked part _ _ h =>
    obtain ⟨j, -, hfree, -, hentry⟩ := Fs.hardLink_ok h
    cases part with
    | secret =>
      rw [hentry, Function.update_of_ne (by simp)]
      exact hi
    | pub =>
      rw [hi] at hfree
      cases hfree
  | removed h hname =>
    rcases hname with ⟨-, hremoving⟩ | ⟨part, rfl⟩
    · rw [hremoves] at hremoving
      cases hremoving
    · rw [(Fs.removeFile_ok h).2, Function.update_of_ne (by simp)]
      exact hi

theorem Fresh.kept {c : Nat} (hfresh : Fresh c fs stage)
    (hentry : ∀ part, fs'.entry (.temp c part) = fs.entry (.temp c part))
    (hpublic : ∀ i, fs.entry (.key .pub) = some i → fs'.entry (.key .pub) = some i) :
    Fresh c fs' stage := by
  have hboth : fs.entry (.temp c .secret) = none ∧ fs.entry (.temp c .pub) = none →
      fs'.entry (.temp c .secret) = none ∧ fs'.entry (.temp c .pub) = none :=
    fun h => ⟨(hentry _).trans h.1, (hentry _).trans h.2⟩
  have hsome : (fs.entry (.key .pub)).isSome = true → (fs'.entry (.key .pub)).isSome = true := by
    intro h
    obtain ⟨i, hi⟩ := Option.isSome_iff_exists.1 h
    rw [hpublic i hi]
    rfl
  cases stage with
  | openSecret again =>
    cases again with
    | false => exact hboth hfresh
    | true => exact (hentry _).trans hfresh
  | readSecret again fd =>
    cases again with
    | false => exact hboth hfresh
    | true => exact (hentry _).trans hfresh
  | generate => exact hboth hfresh
  | createSecret key => exact hboth hfresh
  | writeSecret key fd => exact (hentry _).trans hfresh
  | linkSecret => exact (hentry _).trans hfresh
  | cleanSecret result =>
    cases result with
    | ok => exact (hentry _).trans hfresh
    | error => exact hfresh
  | inspectPublic key => exact (hentry _).trans hfresh
  | openPublic key => exact (hentry _).trans hfresh
  | comparePublic key fd => exact (hentry _).trans hfresh
  | createPublic key => exact (hentry _).trans hfresh
  | writePublic key fd => trivial
  | linkPublic key turns => exact hfresh
  | inspectTurn key turns => exact hsome hfresh
  | openTurn key turns => exact hsome hfresh
  | compareTurn key turns fd => exact hpublic fd hfresh
  | removeTurn key turns => exact hfresh
  | cleanPublic key result => cases result <;> exact hfresh
  | done result => cases result <;> exact hfresh

end Fresh

/-- There was no public key file, and the file system has not failed. -/
structure Smooth (cr : Crypto) (path : String) (s : State) : Prop where
  keyed : Keyed cr path s
  valid : PublicValid cr path s.fs
  fresh : ∀ {c : Nat} {stage : Stage}, s.calls[c]? = some stage → Fresh c s.fs stage

theorem Fresh.removes {c : Nat} {fs : Fs Name} {stage : Stage} (h : Fresh c fs stage) :
    stage.removes = false := by
  cases stage with
  | removeTurn key turns => cases h
  | _ => rfl

theorem smooth_public_valid {s : State} {c : Nat} {old new : Stage} {fs' : Fs Name}
    (hs : Smooth cr path s) (hold : s.calls[c]? = some old) (h : Effect c old s.fs fs' new) :
    PublicValid cr path fs' := by
  have hsecret := hs.keyed.owned.secret_kept hold h
  have hgood := hs.keyed.good hold
  intro i hi
  rcases h.entry_cases hi with hentry | ⟨-, part, htemp⟩ | ⟨part, hname, hlinks, htemp, hnodes⟩
  · obtain ⟨key, hkey, hfile⟩ := hs.valid i hentry
    exact ⟨key, hsecret.key hkey, (hs.keyed.owned.key_node_kept hold h hentry).trans hfile⟩
  · cases htemp
  · cases hname
    cases old with
    | linkPublic key turns =>
      obtain ⟨hkey, j, hj, hfile⟩ := hgood
      rw [htemp] at hj
      cases hj
      exact ⟨key, hsecret.key hkey, hnodes ▸ hfile⟩
    | _ => cases hlinks

theorem step_smooth {s s' : State} {a : Action} {evs : List Event} (hs : Smooth cr path s)
    (h : step cr path s a = some (s', evs)) (hfailed : ∀ c, Event.failed c ∉ evs) :
    Smooth cr path s' := by
  obtain ⟨old, new, hold, hnext, hcalls, hevs⟩ := step_cases h
  have heffect := stepStage_effect hnext
  obtain ⟨hio, hsync⟩ : a.io = true ∧ a.sync = true := by
    rw [← Bool.and_eq_true]
    cases hok : a.io && a.sync with
    | true => rfl
    | false =>
      rw [hok] at hevs
      refine absurd ?_ (hfailed a.call)
      rw [hevs]
      exact List.mem_singleton_self _
  refine ⟨step_keyed hs.keyed h, smooth_public_valid hs hold heffect, fun {c stage} hc => ?_⟩
  rw [hcalls] at hc
  rcases Lts.getElem?_set_cases hc with ⟨rfl, rfl⟩ | ⟨hother, hc⟩
  · exact stepStage_fresh hnext hio hsync (hs.keyed.good hold) hs.keyed.valid hs.valid
      (hs.fresh hold)
  · exact (hs.fresh hc).kept (heffect.temp_kept hother) fun i hi =>
      heffect.public_kept (hs.fresh hold).removes hi

theorem run_smooth {fs : Fs Name} (hvalid : SecretValid cr path fs)
    (hpublic : fs.entry (.key .pub) = none) (htemp : ∀ c part, fs.entry (.temp c part) = none)
    {n : Nat} {tr : List Event} {s : State} (h : Run cr path fs n tr s)
    (hfailed : ∀ c, Event.failed c ∉ tr) : Smooth cr path s := by
  refine Lts.Run.inv (I := fun tr s => (∀ c, Event.failed c ∉ tr) → Smooth cr path s) h ?_ ?_
    hfailed
  · refine fun _ => ⟨keyed_init hvalid n, fun i hi => ?_, fun {c stage} hc => ?_⟩
    · rw [init, hpublic] at hi
      cases hi
    · rw [init_stage hc]
      exact ⟨htemp c .secret, htemp c .pub⟩
  · intro tr s a s' evs _ hsmooth _ hs hnone
    refine step_smooth (hsmooth fun c hc => hnone c ?_) hs fun c hc => hnone c ?_
    · exact List.mem_append_left _ hc
    · exact List.mem_append_right _ hc

/-! ## The result -/

/-- All calls that return a key pair return the one in the private key file.  When every call
has returned one, the public key is in its file.  If there was no public key file and the file
system does not fail, no call fails. -/
theorem startups_agree {fs : Fs Name} (hvalid : SecretValid cr path fs) {n : Nat}
    {tr : List Event} {s : State} (h : Run cr path fs n tr s) :
    (∀ (c : Nat) (pub : String) (key : Bytes), s.calls[c]? = some (.done (.ok (pub, key))) →
      secretKey? cr path s.fs = some key ∧ pub = publicKey cr key) ∧
    (0 < n → (∀ stage ∈ s.calls, ∃ pair, stage = .done (.ok pair)) →
      ∃ key, secretKey? cr path s.fs = some key ∧ Published cr s.fs key) ∧
    (fs.entry (.key .pub) = none → (∀ c part, fs.entry (.temp c part) = none) →
      (∀ c, Event.failed c ∉ tr) → ∀ err, Stage.done (.error err) ∉ s.calls) := by
  refine ⟨fun c pub key hc => ?_, fun hn hall => ?_, fun hpublic htemp hfailed err hmem => ?_⟩
  · obtain ⟨hpub, hkey⟩ := (run_keyed hvalid h).good hc
    exact ⟨hkey, hpub⟩
  · refine run_vouched hvalid hn h fun c stage hc => ?_
    obtain ⟨pair, rfl⟩ := hall stage (List.mem_of_getElem? hc)
    trivial
  · obtain ⟨c, hc⟩ := List.mem_iff_getElem?.1 hmem
    cases (run_smooth hvalid hpublic htemp h hfailed).fresh hc

/-! ## A run with a late removal -/

/-- A letter of two bytes for a byte. -/
def sampleLetter (byte : UInt8) : Char := Char.ofNat (256 + byte.toNat)

def sampleEncode : Bytes → String
  | [] => ""
  | byte :: rest => String.singleton (sampleLetter byte) ++ sampleEncode rest

def sampleDecode (text : List Char) : Bytes := text.map fun c => UInt8.ofNat (c.toNat - 256)

theorem sampleLetter_spec (byte : UInt8) : UInt8.ofNat ((sampleLetter byte).toNat - 256) = byte ∧
    isWhitespace (sampleLetter byte) = false ∧ (sampleLetter byte).utf8Size = 2 := by
  have hall : ∀ n : Fin 256,
      UInt8.ofNat ((sampleLetter (UInt8.ofNat n)).toNat - 256) = UInt8.ofNat n ∧
      isWhitespace (sampleLetter (UInt8.ofNat n)) = false ∧
      (sampleLetter (UInt8.ofNat n)).utf8Size = 2 := by
    decide +kernel
  have hbyte := hall ⟨byte.toNat, byte.toNat_lt⟩
  rwa [UInt8.ofNat_toNat] at hbyte

theorem sampleDecode_encode (bytes : Bytes) :
    sampleDecode (sampleEncode bytes).toList = bytes := by
  induction bytes with
  | nil => rfl
  | cons byte rest ih =>
    rw [sampleEncode, String.toList_append, String.toList_singleton, List.singleton_append]
    exact congr (congrArg List.cons (sampleLetter_spec byte).1) ih

theorem size_sampleEncode (bytes : Bytes) :
    (sampleEncode bytes).utf8ByteSize = 2 * bytes.length := by
  induction bytes with
  | nil => rfl
  | cons byte rest ih =>
    rw [sampleEncode, String.utf8ByteSize_append, String.utf8ByteSize_singleton,
      (sampleLetter_spec byte).2.2, ih, List.length_cons]
    omega

theorem trim_sampleEncode (bytes : Bytes) : Str.trim (sampleEncode bytes) = sampleEncode bytes := by
  refine Str.trim_of_not_whitespace ?_
  induction bytes with
  | nil => simp [sampleEncode]
  | cons byte rest ih =>
    intro c hc
    rw [sampleEncode, String.toList_append, String.toList_singleton, List.singleton_append,
      List.mem_cons] at hc
    rcases hc with rfl | hc
    · exact (sampleLetter_spec byte).2.1
    · exact ih c hc

/-- A key pair whose public key is the seed. -/
def sampleCrypto : Crypto where
  encode := sampleEncode
  decode := fun text => some (sampleDecode text.toList)
  keypairFromSeed := fun seed => seed.bytes ++ seed.bytes
  decode_encode := fun bytes => congrArg some (sampleDecode_encode bytes)
  trim_encode := trim_sampleEncode
  size_encode := by
    intro bytes h
    rw [size_sampleEncode, h]
  length_keypair := by
    intro seed
    rw [List.length_append, seed.length_eq]
  seed_keypair := by
    intro seed
    rw [← seed.length_eq, List.take_left]

/-- Only a public key file, with something else in it. -/
def staleDirectory : Fs Name where
  nodes := [.file [1, 2, 3]]
  entry := fun name => if name = .key .pub then some 0 else none
  entry_lt := by
    intro name i h
    split at h
    · cases h
      exact Nat.zero_lt_one
    · cases h

/-- `n` steps of call `c`. -/
def sampleSteps (c n : Nat) : List Action :=
  List.replicate n { call := c, seed := ⟨List.replicate 32 (UInt8.ofNat c), List.length_replicate⟩ }

/-- Both calls find no private key, and one of the two new keys is taken.  Both have found the old
public key when the first one replaces it, and then the second one removes what the first one
has put there. -/
theorem startups_agree_late : ∃ tr s, Run sampleCrypto "id_ed25519" staleDirectory 2 tr s ∧
    (∀ stage ∈ s.calls, ∃ pair, stage = .done (.ok pair)) ∧
    ∃ key, secretKey? sampleCrypto "id_ed25519" s.fs = some key ∧
      Published sampleCrypto s.fs key := by
  have hvalid : SecretValid sampleCrypto "id_ed25519" staleDirectory := by
    intro i hi
    cases hi
  obtain ⟨s, tr, hrun, hdone⟩ := Lts.exists_run_of_exec (step sampleCrypto "id_ed25519")
    (init staleDirectory 2)
    (sampleSteps 1 1 ++ sampleSteps 0 17 ++ sampleSteps 1 16 ++ sampleSteps 0 3 ++ sampleSteps 1 3)
    (fun (y : State × List Event) => y.1.calls.all Stage.succeeded) (b := true) (by decide +kernel)
  have hall : ∀ stage ∈ s.calls, ∃ pair, stage = .done (.ok pair) := fun stage hmem =>
    Stage.exists_of_succeeded (List.all_eq_true.1 hdone stage hmem)
  exact ⟨tr, s, hrun, hall, (startups_agree hvalid hrun).2.1 (by decide) hall⟩

end RemoteServer.Keypair
