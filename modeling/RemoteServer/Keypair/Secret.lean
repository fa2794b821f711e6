import RemoteServer.Keypair.Effects

/-!
# The private key file

The file gets its name once, when it is written, and keeps it.  So all calls read one key.

* `Good` is what a call knows at each stage.  `Good.kept` says that the steps of other calls do
  not change it, and `stepStage_good` that the call knows what it should after its own step.
* `run_keyed` is the invariant of all runs.
-/

namespace RemoteServer.Keypair

open RustStd

variable {cr : Crypto} {path : String}

/-! ## The private key -/

section Secret

variable (cr path)

/-- The private key file has a key. -/
def SecretValid (fs : Fs Name) : Prop :=
  ∀ i, fs.entry (.key .secret) = some i → ∃ bytes key, fs.nodes[i]? = some (.file bytes) ∧
    readSecretKey cr path bytes = .ok key

/-- The temporary file of the call has these contents. -/
def Drafted (fs : Fs Name) (c : Nat) (part : Part) (bytes : Bytes) : Prop :=
  ∃ i, fs.entry (.temp c part) = some i ∧ fs.nodes[i]? = some (.file bytes)

/-- What a call knows at each stage. -/
def Good (c : Nat) (fs : Fs Name) : Stage → Prop
  | .openSecret false | .generate | .cleanSecret (.error _) | .done (.error _) => True
  | .openSecret true | .cleanSecret (.ok _) => (fs.entry (.key .secret)).isSome = true
  | .readSecret _ fd => fs.entry (.key .secret) = some fd
  | .createSecret key => ∃ seed, key = cr.keypairFromSeed seed
  | .writeSecret key fd =>
    (∃ seed, key = cr.keypairFromSeed seed) ∧ fs.entry (.temp c .secret) = some fd ∧
      fs.nodes[fd]? = some (.file [])
  | .linkSecret => ∃ seed, Drafted fs c .secret (utf8 (cr.encode (cr.keypairFromSeed seed)))
  | .inspectPublic key | .openPublic key | .comparePublic key _ | .createPublic key
  | .cleanPublic key _ => secretKey? cr path fs = some key
  | .writePublic key fd =>
    secretKey? cr path fs = some key ∧ fs.entry (.temp c .pub) = some fd ∧
      fs.nodes[fd]? = some (.file [])
  | .linkPublic key _ | .inspectTurn key _ | .openTurn key _ | .compareTurn key _ _
  | .removeTurn key _ =>
    secretKey? cr path fs = some key ∧ Drafted fs c .pub (utf8 (publicKey cr key))
  | .done (.ok (pub, key)) => pub = publicKey cr key ∧ secretKey? cr path fs = some key

end Secret

/-- A key that was made can be read back. -/
theorem readSecretKey_encode (seed : Seed) :
    readSecretKey cr path (utf8 (cr.encode (cr.keypairFromSeed seed))) =
      .ok (cr.keypairFromSeed seed) := by
  have hlength := cr.length_keypair seed
  have hsize := cr.size_encode _ hlength
  have hbounded : readBoundedOpenFile (utf8 (cr.encode (cr.keypairFromSeed seed))) path
      maxPrivateKeyFileBytes "Private key" = .ok (utf8 (cr.encode (cr.keypairFromSeed seed))) := by
    refine if_neg ?_
    rw [length_utf8, maxPrivateKeyFileBytes]
    omega
  have hparsed : parsePrivateKey cr (cr.encode (cr.keypairFromSeed seed))
      ("Private key " ++ path) = .ok (cr.keypairFromSeed seed) := by
    have hseed : (⟨(cr.keypairFromSeed seed).take 32, by rw [List.length_take, hlength]; rfl⟩ : Seed)
        = seed := by
      cases seed
      simp only [cr.seed_keypair]
    simp only [parsePrivateKey, cr.trim_encode, cr.decode_encode, maxEncodedKeyBytes,
      Nat.not_lt.2 hsize, if_false, hlength, dif_pos, hseed, if_true]
  rw [readSecretKey, hbounded]
  dsimp only [bind, Except.bind]
  rw [fromUtf8_utf8]
  exact hparsed

/-- The private key file is the same. -/
def SecretKept (fs fs' : Fs Name) : Prop :=
  ∀ i, fs.entry (.key .secret) = some i →
    fs'.entry (.key .secret) = some i ∧ fs'.nodes[i]? = fs.nodes[i]?

theorem SecretKept.key {fs fs' : Fs Name} (h : SecretKept fs fs') {key : Bytes}
    (hkey : secretKey? cr path fs = some key) : secretKey? cr path fs' = some key := by
  obtain ⟨i, hentry, hread⟩ := Option.bind_eq_some_iff.1 hkey
  obtain ⟨hentry', hnode⟩ := h i hentry
  rw [secretKey?, hentry', Option.bind_some, Fs.read_congr hnode]
  exact hread

theorem SecretKept.isSome {fs fs' : Fs Name} (h : SecretKept fs fs')
    (hsome : (fs.entry (.key .secret)).isSome = true) :
    (fs'.entry (.key .secret)).isSome = true := by
  obtain ⟨i, hi⟩ := Option.isSome_iff_exists.1 hsome
  rw [(h i hi).1]
  rfl

theorem Drafted.kept {fs fs' : Fs Name} {c : Nat} {part : Part} {bytes : Bytes}
    (h : Drafted fs c part bytes) (hentry : fs'.entry (.temp c part) = fs.entry (.temp c part))
    (hnode : ∀ i, fs.entry (.temp c part) = some i → fs'.nodes[i]? = fs.nodes[i]?) :
    Drafted fs' c part bytes := by
  obtain ⟨i, hi, hfile⟩ := h
  exact ⟨i, hentry.trans hi, (hnode i hi).trans hfile⟩

section Kept

variable {s : State} {c c' : Nat} {stage stage' : Stage} {fs fs' : Fs Name}

theorem Owned.key_node_kept (ho : Owned s) (hc : s.calls[c]? = some stage)
    (h : Effect c stage s.fs fs' stage') {part : Part} {i : Nat}
    (hi : s.fs.entry (.key part) = some i) : fs'.nodes[i]? = s.fs.nodes[i]? := by
  refine h.node_kept (s.fs.entry_lt _ _ hi) fun hdraft => ?_
  obtain ⟨part', htemp⟩ := ho.named hc hdraft hi
  cases htemp

theorem Owned.secret_kept (ho : Owned s) (hc : s.calls[c]? = some stage)
    (h : Effect c stage s.fs fs' stage') : SecretKept s.fs fs' :=
  fun _ hi => ⟨h.secret_kept hi, ho.key_node_kept hc h hi⟩

theorem Owned.temp_node_kept (ho : Owned s) (hc : s.calls[c]? = some stage)
    (h : Effect c stage s.fs fs' stage') (hne : c' ≠ c) {part : Part} {i : Nat}
    (hi : s.fs.entry (.temp c' part) = some i) : fs'.nodes[i]? = s.fs.nodes[i]? := by
  refine h.node_kept (s.fs.entry_lt _ _ hi) fun hdraft => ?_
  obtain ⟨part', htemp⟩ := ho.named hc hdraft hi
  cases htemp
  exact hne rfl

/-- What a call knows stays true in the steps of the others. -/
theorem Good.kept (hgood : Good cr path c fs stage) (hsecret : SecretKept fs fs')
    (hentry : ∀ part, fs'.entry (.temp c part) = fs.entry (.temp c part))
    (hnode : ∀ part i, fs.entry (.temp c part) = some i → fs'.nodes[i]? = fs.nodes[i]?) :
    Good cr path c fs' stage := by
  have hdraft : ∀ {part bytes}, Drafted fs c part bytes → Drafted fs' c part bytes :=
    fun h => h.kept (hentry _) (hnode _)
  cases stage with
  | openSecret again =>
    cases again with
    | false => trivial
    | true => exact hsecret.isSome hgood
  | readSecret again fd => exact (hsecret fd hgood).1
  | generate => trivial
  | createSecret key => exact hgood
  | writeSecret key fd =>
    obtain ⟨hseed, htemp, hnew⟩ := hgood
    exact ⟨hseed, (hentry _).trans htemp, (hnode _ _ htemp).trans hnew⟩
  | linkSecret =>
    obtain ⟨seed, hdrafted⟩ := hgood
    exact ⟨seed, hdraft hdrafted⟩
  | cleanSecret result =>
    cases result with
    | ok => exact hsecret.isSome hgood
    | error => trivial
  | inspectPublic key => exact hsecret.key hgood
  | openPublic key => exact hsecret.key hgood
  | comparePublic key fd => exact hsecret.key hgood
  | createPublic key => exact hsecret.key hgood
  | writePublic key fd =>
    obtain ⟨hkey, htemp, hnew⟩ := hgood
    exact ⟨hsecret.key hkey, (hentry _).trans htemp, (hnode _ _ htemp).trans hnew⟩
  | linkPublic key turns => exact ⟨hsecret.key hgood.1, hdraft hgood.2⟩
  | inspectTurn key turns => exact ⟨hsecret.key hgood.1, hdraft hgood.2⟩
  | openTurn key turns => exact ⟨hsecret.key hgood.1, hdraft hgood.2⟩
  | compareTurn key turns fd => exact ⟨hsecret.key hgood.1, hdraft hgood.2⟩
  | removeTurn key turns => exact ⟨hsecret.key hgood.1, hdraft hgood.2⟩
  | cleanPublic key result => exact hsecret.key hgood
  | done result =>
    cases result with
    | ok pair => exact ⟨hgood.1, hsecret.key hgood.2⟩
    | error => trivial

end Kept

theorem createNew_drafted {fs fs' : Fs Name} {name : Name} {fd : Nat}
    (h : fs.createNew name = .ok (fs', fd)) :
    fs'.entry name = some fd ∧ fs'.nodes[fd]? = some (.file []) := by
  obtain ⟨-, hfd, hnodes, hentry⟩ := Fs.createNew_ok h
  rw [hentry, hnodes, hfd]
  exact ⟨Function.update_self .., List.getElem?_concat_length⟩

/-- What a call knows after its step. -/
theorem stepStage_good {fs fs' : Fs Name} {a : Action} {stage stage' : Stage}
    (h : stepStage cr path fs a stage = some (fs', stage')) (hgood : Good cr path a.call fs stage)
    (hsecret : SecretKept fs fs') : Good cr path a.call fs' stage' := by
  cases stage with
  | openSecret again =>
    simp only [stepStage] at h
    split at h
    · rename_i hopen
      cases h
      exact Fs.openNoFollow_ok hopen
    · split at h <;> cases h <;> trivial
    · cases h
      trivial
  | readSecret again fd =>
    simp only [stepStage] at h
    split at h
    · split at h
      · cases h
        trivial
      · rename_i key hread
        have hentry : fs.entry (.key .secret) = some fd := hgood
        cases again with
        | false =>
          cases h
          show (fs.entry (.key .secret)).isSome = true
          rw [hentry]
          rfl
        | true =>
          cases h
          show secretKey? cr path fs = some key
          rw [secretKey?, hentry, Option.bind_some, hread]
          rfl
    · cases h
      trivial
  | generate =>
    simp only [stepStage] at h
    split at h
    · cases h
      exact ⟨a.seed, rfl⟩
    · cases h
      trivial
  | createSecret key =>
    simp only [stepStage] at h
    split at h
    · rename_i hcreate
      cases h
      exact ⟨hgood, createNew_drafted hcreate⟩
    · cases h
      trivial
  | writeSecret key fd =>
    simp only [stepStage] at h
    split at h
    · cases h
      obtain ⟨⟨seed, rfl⟩, htemp, hnew⟩ := hgood
      exact ⟨seed, fd, htemp, Fs.writeAll_new hnew _⟩
    · cases h
      trivial
  | linkSecret =>
    simp only [stepStage] at h
    split at h
    · rename_i hlink
      cases h
      obtain ⟨i, -, -, -, hentry⟩ := Fs.hardLink_ok hlink
      unfold Action.synced
      split
      · show (fs'.entry (.key .secret)).isSome = true
        rw [hentry, Function.update_self]
        rfl
      · trivial
    · rename_i hexists
      cases h
      exact Fs.hardLink_alreadyExists hexists
    · cases h
      trivial
  | cleanSecret result =>
    simp only [stepStage] at h
    cases h
    cases result with
    | ok => exact hsecret.isSome hgood
    | error => trivial
  | inspectPublic key =>
    simp only [stepStage] at h
    split at h
    · cases h
      trivial
    · cases h
      exact hgood
  | openPublic key =>
    simp only [stepStage] at h
    split at h <;> cases h <;> exact hgood
  | comparePublic key fd =>
    simp only [stepStage] at h
    split at h
    · cases h
      exact ⟨rfl, hgood⟩
    · cases h
      exact hgood
  | createPublic key =>
    simp only [stepStage] at h
    split at h
    · rename_i hcreate
      cases h
      exact ⟨hsecret.key hgood, createNew_drafted hcreate⟩
    · cases h
      exact hgood
  | writePublic key fd =>
    simp only [stepStage] at h
    obtain ⟨hkey, htemp, hnew⟩ := hgood
    split at h
    · cases h
      exact ⟨hsecret.key hkey, fd, htemp, Fs.writeAll_new hnew _⟩
    · cases h
      exact hkey
  | linkPublic key turns =>
    cases turns with
    | zero =>
      simp only [stepStage] at h
      cases h
      exact hgood.1
    | succ turns =>
      simp only [stepStage] at h
      split at h
      · cases h
        exact hsecret.key hgood.1
      · cases h
        exact hgood
      · cases h
        exact hgood.1
  | inspectTurn key turns =>
    simp only [stepStage] at h
    split at h
    · cases h
      exact hgood.1
    · cases h
      exact hgood
    · cases h
      exact hgood
    · cases h
      exact hgood.1
  | openTurn key turns =>
    simp only [stepStage] at h
    split at h <;> cases h <;> exact hgood
  | compareTurn key turns fd =>
    simp only [stepStage] at h
    split at h
    · cases h
      exact hgood.1
    · cases h
      exact hgood
  | removeTurn key turns =>
    simp only [stepStage] at h
    split at h
    · rename_i hremove
      cases h
      obtain ⟨hnodes, hentry⟩ := Fs.removeFile_ok hremove
      split
      · refine ⟨hsecret.key hgood.1, hgood.2.kept ?_ fun i _ => by rw [hnodes]⟩
        rw [hentry, Function.update_of_ne (by simp)]
      · exact hsecret.key hgood.1
    · cases h
      exact hgood
    · cases h
      exact hgood.1
  | cleanPublic key result =>
    simp only [stepStage] at h
    cases h
    cases result with
    | ok => exact ⟨rfl, hsecret.key hgood⟩
    | error => trivial
  | done result => cases h

theorem Effect.secret_valid {c : Nat} {stage stage' : Stage} {fs fs' : Fs Name}
    (h : Effect c stage fs fs' stage') (hgood : Good cr path c fs stage)
    (hsecret : SecretKept fs fs') (hvalid : SecretValid cr path fs) :
    SecretValid cr path fs' := by
  intro i hi
  rcases h.entry_cases hi with hold | ⟨-, part, htemp⟩ | ⟨part, hname, hlinks, htemp, hnodes⟩
  · obtain ⟨bytes, key, hnode, hread⟩ := hvalid i hold
    exact ⟨bytes, key, (hsecret i hold).2.trans hnode, hread⟩
  · cases htemp
  · cases hname
    cases stage with
    | linkSecret =>
      obtain ⟨seed, j, hj, hnode⟩ := hgood
      rw [htemp] at hj
      cases hj
      exact ⟨_, _, hnodes ▸ hnode, readSecretKey_encode seed⟩
    | _ => cases hlinks

/-- What holds of the private key and of what the calls know of it. -/
structure Keyed (cr : Crypto) (path : String) (s : State) : Prop where
  owned : Owned s
  valid : SecretValid cr path s.fs
  good : ∀ {c : Nat} {stage : Stage}, s.calls[c]? = some stage → Good cr path c s.fs stage

theorem keyed_init {fs : Fs Name} (h : SecretValid cr path fs) (n : Nat) :
    Keyed cr path (init fs n) := by
  refine ⟨owned_init fs n, h, fun hc => ?_⟩
  rw [init_stage hc]
  trivial

theorem step_keyed {s s' : State} {a : Action} {evs : List Event} (hk : Keyed cr path s)
    (h : step cr path s a = some (s', evs)) : Keyed cr path s' := by
  obtain ⟨old, new, hold, hnext, hcalls, -⟩ := step_cases h
  have heffect := stepStage_effect hnext
  have hsecret := hk.owned.secret_kept hold heffect
  have hgood := hk.good hold
  refine ⟨step_owned hk.owned h, heffect.secret_valid hgood hsecret hk.valid,
    fun {c stage} hc => ?_⟩
  rw [hcalls] at hc
  rcases Lts.getElem?_set_cases hc with ⟨rfl, rfl⟩ | ⟨hother, hc⟩
  · exact stepStage_good hnext hgood hsecret
  · exact (hk.good hc).kept hsecret (heffect.temp_kept hother)
      fun part i hi => hk.owned.temp_node_kept hold heffect hother hi

theorem run_keyed {fs : Fs Name} (hvalid : SecretValid cr path fs) {n : Nat} {tr : List Event}
    {s : State} (h : Run cr path fs n tr s) : Keyed cr path s :=
  h.inv_state (keyed_init hvalid n) fun hk _ hs => step_keyed hk hs

end RemoteServer.Keypair
