import Mathlib
import RemoteServer.Fallible
import RemoteServer.Keypair.Effects
import RemoteServer.RustStd.Base64
import RemoteServer.RustStd.Split

/-!
# The licence key

The identity service and the relay read the same setting, each with its own `get_server_sk`.
The identity service needs a private key; the relay takes a private key or the public one, and
both use the key file when the setting is left out.

* `Identity.getServerSk` and `Relay.getServerSk` are the two functions, with the result of
  `gen_sk` as an argument.
* `Ed25519.crypto` is the cryptography with the standard base64.
* `Sized` is what a call of `gen_sk` knows of its key, so that its public key can be read again.
* `licence_keys_agree` is the result.
-/

namespace RemoteServer.Keypair

open RustStd Fallible

/-- The key pairs of Ed25519. -/
structure Ed25519 where
  /-- The private key of 64 bytes: the seed and the public key. -/
  keypairFromSeed : Seed → Bytes
  length_keypair : ∀ seed, (keypairFromSeed seed).length = 64
  seed_keypair : ∀ seed, (keypairFromSeed seed).take 32 = seed.bytes

def Ed25519.crypto (ed : Ed25519) : Crypto where
  encode := Base64.encode
  decode := Base64.decode
  keypairFromSeed := ed.keypairFromSeed
  decode_encode := Base64.decode_encode
  trim_encode := Base64.trim_encode
  size_encode := by
    intro bytes h
    rw [Base64.utf8ByteSize_encode, h]
    decide
  length_keypair := ed.length_keypair
  seed_keypair := ed.seed_keypair

/-! ## The two services -/

/-- The setting stands for the key file. -/
def usesKeyFile (key : String) : Bool := key.isEmpty || key == "-" || key == "_"

/-- `RendezvousServer::get_server_sk`. -/
def Identity.getServerSk (cr : Crypto) (genSk : KeyResult) (key : String) : KeyResult :=
  let key := Str.trim key
  if usesKeyFile key then genSk
  else
    (parsePrivateKey cr key "The rendezvous key").map fun privateKey =>
      (publicKey cr privateKey, privateKey)

/-- `get_server_sk` of the relay. -/
def Relay.getServerSk (cr : Crypto) (genSk : KeyResult) (key : String) : Except String String :=
  let key := Str.trim key
  if usesKeyFile key then genSk.map Prod.fst
  else if maxEncodedKeyBytes < key.utf8ByteSize then .error "The relay key is too large"
  else
    match cr.decode key with
    | none => .error "The relay key must be base64 encoded"
    | some decoded =>
      if decoded.length = 32 then .ok (cr.encode decoded)
      else if decoded.length = 64 then
        (parsePrivateKey cr key "The relay key").map (publicKey cr)
      else .error "The relay key must be a 32-byte public or 64-byte private Ed25519 key"

section Parse

variable {cr : Crypto} {encoded label : String} {key : Bytes}

theorem length_seed {decoded : Bytes} (h : decoded.length = 64) :
    (decoded.take 32).length = 32 := by
  rw [List.length_take, h]
  rfl

/-- The seed in the first half of a private key. -/
def seedOf (decoded : Bytes) (h : decoded.length = 64) : Seed :=
  ⟨decoded.take 32, length_seed h⟩

/-- A private key is accepted when its text is not too long and its halves belong together. -/
theorem parsePrivateKey_eq_ok_iff :
    parsePrivateKey cr encoded label = .ok key ↔
      (Str.trim encoded).utf8ByteSize ≤ maxEncodedKeyBytes ∧
        cr.decode (Str.trim encoded) = some key ∧
        ∃ h : key.length = 64, cr.keypairFromSeed (seedOf key h) = key := by
  unfold parsePrivateKey
  dsimp only
  split
  · rename_i hsize
    exact ⟨nofun, fun h => absurd h.1 (by omega)⟩
  · rename_i hsize
    split
    · rename_i hdecode
      refine ⟨nofun, fun h => ?_⟩
      rw [h.2.1] at hdecode
      cases hdecode
    · rename_i decoded hdecode
      constructor
      · intro h
        split at h
        · rename_i hlength
          split at h
          · rename_i hkey
            obtain rfl := Except.ok.inj h
            exact ⟨by omega, hdecode, hlength, hkey⟩
          · cases h
        · cases h
      · rintro ⟨-, hkey, hlength, hpair⟩
        obtain rfl := Option.some.inj (hdecode.symm.trans hkey)
        rw [dif_pos hlength]
        exact if_pos hpair

end Parse

/-! ## The key of `gen_sk` -/

section Generated

variable {cr : Crypto} {path : String}

/-- The key has 64 bytes from the time when it was read, and the result is its public half. -/
def Sized (cr : Crypto) : Stage → Prop
  | .inspectPublic key | .openPublic key | .comparePublic key _ | .createPublic key
  | .writePublic key _ | .linkPublic key _ | .inspectTurn key _ | .openTurn key _
  | .compareTurn key _ _ | .removeTurn key _ | .cleanPublic key _ => key.length = 64
  | .done (.ok (pub, key)) => pub = publicKey cr key ∧ key.length = 64
  | _ => True

theorem length_of_readSecretKey {contents key : Bytes}
    (h : readSecretKey cr path contents = .ok key) : key.length = 64 := by
  obtain ⟨encoded, -, hparse⟩ := bind_eq_ok h
  split at hparse
  · cases hparse
  · obtain ⟨-, -, hlength, -⟩ := parsePrivateKey_eq_ok_iff.1 hparse
    exact hlength

theorem stepStage_sized {fs fs' : Fs Name} {a : Action} {stage stage' : Stage}
    (h : stepStage cr path fs a stage = some (fs', stage')) (hsized : Sized cr stage) :
    Sized cr stage' := by
  cases stage with
  | readSecret again fd =>
    simp only [stepStage] at h
    split at h
    · split at h
      · cases h
        trivial
      · rename_i key hread
        cases again with
        | false =>
          cases h
          trivial
        | true =>
          cases h
          exact length_of_readSecretKey hread
    · cases h
      trivial
  | openSecret again =>
    simp only [stepStage] at h
    split at h
    · cases h
      trivial
    · split at h <;> cases h <;> trivial
    · cases h
      trivial
  | cleanSecret result =>
    cases h
    cases result <;> trivial
  | linkPublic key turns =>
    cases turns with
    | zero =>
      cases h
      exact hsized
    | succ turns =>
      simp only [stepStage] at h
      split at h <;> cases h <;> exact hsized
  | comparePublic key fd =>
    simp only [stepStage] at h
    split at h
    · cases h
      exact ⟨rfl, hsized⟩
    · cases h
      exact hsized
  | removeTurn key turns =>
    simp only [stepStage] at h
    split at h
    · split at h <;> cases h <;> exact hsized
    · cases h
      exact hsized
    · cases h
      exact hsized
  | cleanPublic key result =>
    cases h
    cases result with
    | ok => exact ⟨rfl, hsized⟩
    | error => trivial
  | inspectPublic key =>
    simp only [stepStage] at h
    split at h
    · cases h
      trivial
    · cases h
      exact hsized
  | generate | createSecret _ | writeSecret _ _ | linkSecret =>
    simp only [stepStage] at h
    split at h <;> cases h <;> trivial
  | openPublic _ | createPublic _ | writePublic _ _ | inspectTurn _ _ | openTurn _ _
  | compareTurn _ _ _ =>
    simp only [stepStage] at h
    split at h <;> cases h <;> exact hsized
  | done result => cases h

/-- The public key that a call returns is the second half of a private key. -/
theorem genSk_public {fs : Fs Name} {n : Nat} {tr : List Event} {s : State}
    (hrun : Run cr path fs n tr s) {c : Nat} {pub : String} {key : Bytes}
    (hdone : s.calls[c]? = some (.done (.ok (pub, key)))) :
    pub = publicKey cr key ∧ key.length = 64 := by
  have hsized : ∀ (c : Nat) stage, s.calls[c]? = some stage → Sized cr stage := by
    refine hrun.inv_state
      (I := fun s => ∀ (c : Nat) stage, s.calls[c]? = some stage → Sized cr stage)
      (fun c stage hc => ?_) fun hinv _ hstep c stage hc => ?_
    · obtain rfl := List.eq_of_mem_replicate (List.mem_of_getElem? hc)
      trivial
    · obtain ⟨old, hold, hnext⟩ := Option.bind_eq_some_iff.1 hstep
      obtain ⟨⟨fs', new⟩, hnew, hpair⟩ := Option.map_eq_some_iff.1 hnext
      cases hpair
      rw [List.getElem?_set] at hc
      split at hc
      · split at hc
        · cases hc
          exact stepStage_sized hnew (hinv _ old hold)
        · cases hc
      · exact hinv c stage hc
  exact hsized c _ hdone

end Generated

/-! ## The result -/

section Agree

variable {ed : Ed25519}

theorem not_usesKeyFile_encode {bytes : Bytes} (h : bytes.length = 32) :
    usesKeyFile (Base64.encode bytes) = false := by
  have hsize := Base64.utf8ByteSize_encode bytes
  rw [h] at hsize
  have hne : ∀ {text : String}, text.utf8ByteSize < 44 → Base64.encode bytes ≠ text := by
    rintro text hlt rfl
    omega
  rw [usesKeyFile, Bool.or_eq_false_iff, Bool.or_eq_false_iff]
  refine ⟨⟨?_, beq_false_of_ne (hne (by decide))⟩, beq_false_of_ne (hne (by decide))⟩
  rw [Bool.eq_false_iff, ne_eq, String.isEmpty_iff]
  exact hne (by decide)

/-- The relay takes the text of a public key as it is. -/
theorem Relay.getServerSk_encode {bytes : Bytes} (h : bytes.length = 32) (genSk : KeyResult) :
    Relay.getServerSk ed.crypto genSk (Base64.encode bytes) = .ok (Base64.encode bytes) := by
  have hsize : ¬maxEncodedKeyBytes < (Base64.encode bytes).utf8ByteSize := by
    rw [Base64.utf8ByteSize_encode, h]
    decide
  have hdecode : ed.crypto.decode (Base64.encode bytes) = some bytes := Base64.decode_encode bytes
  simp only [Relay.getServerSk, Base64.trim_encode, not_usesKeyFile_encode h, Bool.false_eq_true,
    if_false, hsize, hdecode, h, if_true]
  rfl

theorem Relay.getServerSk_publicKey {key : Bytes} (h : key.length = 64) (genSk : KeyResult) :
    Relay.getServerSk ed.crypto genSk (publicKey ed.crypto key) = .ok (publicKey ed.crypto key) :=
  Relay.getServerSk_encode (by rw [List.length_drop, h]) genSk

theorem Identity.getServerSk_eq_ok {genSk : KeyResult} {k p : String} {sk : Bytes}
    (hfile : usesKeyFile (Str.trim k) = false)
    (h : Identity.getServerSk ed.crypto genSk k = .ok (p, sk)) :
    parsePrivateKey ed.crypto (Str.trim k) "The rendezvous key" = .ok sk ∧
      p = publicKey ed.crypto sk := by
  simp only [Identity.getServerSk, hfile, Bool.false_eq_true, if_false] at h
  obtain ⟨key, hparse, hpair⟩ := map_eq_ok h
  cases hpair
  exact ⟨hparse, rfl⟩

/-- An accepted text of the relay is that of a public key. -/
theorem Relay.getServerSk_eq_ok {genSk : KeyResult}
    (hgen : ∀ pub key, genSk = .ok (pub, key) → pub = publicKey ed.crypto key ∧ key.length = 64)
    {k p : String} (h : Relay.getServerSk ed.crypto genSk k = .ok p) :
    ∃ bytes : Bytes, bytes.length = 32 ∧ p = Base64.encode bytes := by
  have hhalf : ∀ {key : Bytes}, key.length = 64 → p = publicKey ed.crypto key →
      ∃ bytes : Bytes, bytes.length = 32 ∧ p = Base64.encode bytes := fun hlength hp =>
    ⟨_, by rw [List.length_drop, hlength], hp⟩
  unfold Relay.getServerSk at h
  dsimp only at h
  split at h
  · obtain ⟨⟨pub, key⟩, hpair, rfl⟩ := map_eq_ok h
    obtain ⟨hpub, hlength⟩ := hgen pub key hpair
    exact hhalf hlength hpub
  · split at h
    · cases h
    · split at h
      · cases h
      · rename_i decoded _
        split at h
        · rename_i hlength
          cases h
          exact ⟨decoded, hlength, rfl⟩
        · split at h
          · obtain ⟨key, hparse, rfl⟩ := map_eq_ok h
            obtain ⟨-, -, hlength, -⟩ := parsePrivateKey_eq_ok_iff.1 hparse
            exact hhalf hlength rfl
          · cases h

/-- A text of 64 bytes does not stand for the key file. -/
theorem not_usesKeyFile_of_decode {k : String} {decoded : Bytes} (hlength : decoded.length = 64)
    (hdecode : Base64.decode k = some decoded) : usesKeyFile k = false := by
  have hne : ∀ {text : String}, (Base64.decode text).all (fun bytes => bytes.length != 64) = true →
      k ≠ text := by
    rintro text hall rfl
    rw [hdecode] at hall
    simp [hlength] at hall
  rw [usesKeyFile, Bool.or_eq_false_iff, Bool.or_eq_false_iff]
  refine ⟨⟨?_, beq_false_of_ne (hne (by decide))⟩, beq_false_of_ne (hne (by decide))⟩
  rw [Bool.eq_false_iff, ne_eq, String.isEmpty_iff]
  exact hne (by decide)

/-- What the relay does with a text of 64 bytes. -/
theorem Relay.getServerSk_private {k : String} {decoded : Bytes} (hlength : decoded.length = 64)
    (hdecode : Base64.decode (Str.trim k) = some decoded) (genSk : KeyResult) :
    Relay.getServerSk ed.crypto genSk k =
      if maxEncodedKeyBytes < (Str.trim k).utf8ByteSize then .error "The relay key is too large"
      else (parsePrivateKey ed.crypto (Str.trim k) "The relay key").map (publicKey ed.crypto) := by
  have hdecode' : ed.crypto.decode (Str.trim k) = some decoded := hdecode
  simp only [Relay.getServerSk, not_usesKeyFile_of_decode hlength hdecode, Bool.false_eq_true,
    if_false, hdecode', hlength]
  rfl

/-- The two parsers of a private key differ in the label of their errors. -/
theorem Relay.getServerSk_of_parsePrivateKey {k label : String} {sk : Bytes}
    (h : parsePrivateKey ed.crypto (Str.trim k) label = .ok sk) (genSk : KeyResult) :
    Relay.getServerSk ed.crypto genSk k = .ok (publicKey ed.crypto sk) := by
  obtain ⟨hsize, hdecode, hlength, hpair⟩ := parsePrivateKey_eq_ok_iff.1 h
  have hparse : parsePrivateKey ed.crypto (Str.trim k) "The relay key" = .ok sk :=
    parsePrivateKey_eq_ok_iff.2 ⟨hsize, hdecode, hlength, hpair⟩
  rw [Str.trim_trim] at hsize hdecode
  rw [Relay.getServerSk_private hlength hdecode, if_neg (Nat.not_lt.2 hsize), hparse]
  rfl

theorem parsePrivateKey_mismatch {k : String} {decoded : Bytes} (hlength : decoded.length = 64)
    (hdecode : Base64.decode (Str.trim k) = some decoded)
    (hpair : ed.keypairFromSeed (seedOf decoded hlength) ≠ decoded) (label : String) :
    (parsePrivateKey ed.crypto (Str.trim k) label).isOk = false := by
  cases hparse : parsePrivateKey ed.crypto (Str.trim k) label with
  | error err => rfl
  | ok key =>
    obtain ⟨-, hkey, hlength', hpair'⟩ := parsePrivateKey_eq_ok_iff.1 hparse
    rw [Str.trim_trim] at hkey
    obtain rfl := Option.some.inj (hdecode.symm.trans hkey)
    exact absurd hpair' hpair

end Agree

/-- What the identity service makes of a private key, the relay makes of it too, and of the public
key itself.  With the key file as some call of `gen_sk` left it, a text that the relay accepts
gives a text that is not empty and that the relay takes as it is.  Both refuse 64 bytes whose
halves do not belong together. -/
theorem licence_keys_agree {ed : Ed25519} {path : String} {fs : Fs Name} {n : Nat}
    {tr : List Event} {s : State} (hrun : Run ed.crypto path fs n tr s) {c : Nat}
    {genSk : KeyResult} (hdone : s.calls[c]? = some (.done genSk)) :
    (∀ k p sk identityGenSk, usesKeyFile (Str.trim k) = false →
      Identity.getServerSk ed.crypto identityGenSk k = .ok (p, sk) →
        Relay.getServerSk ed.crypto genSk k = .ok p ∧ Relay.getServerSk ed.crypto genSk p = .ok p) ∧
    (∀ k p, Relay.getServerSk ed.crypto genSk k = .ok p →
      p ≠ "" ∧ Relay.getServerSk ed.crypto genSk p = .ok p) ∧
    ∀ k decoded identityGenSk, ∀ h : decoded.length = 64,
      Base64.decode (Str.trim k) = some decoded → ed.keypairFromSeed (seedOf decoded h) ≠ decoded →
        (Identity.getServerSk ed.crypto identityGenSk k).isOk = false ∧
          (Relay.getServerSk ed.crypto genSk k).isOk = false := by
  refine ⟨fun k p sk identityGenSk hfile hidentity => ?_, fun k p hrelay => ?_,
    fun k decoded identityGenSk hlength hdecode hpair => ⟨?_, ?_⟩⟩
  · obtain ⟨hparse, rfl⟩ := Identity.getServerSk_eq_ok hfile hidentity
    obtain ⟨-, -, hlength, -⟩ := parsePrivateKey_eq_ok_iff.1 hparse
    exact ⟨Relay.getServerSk_of_parsePrivateKey hparse genSk,
      Relay.getServerSk_publicKey hlength genSk⟩
  · have hgen : ∀ pub key, genSk = .ok (pub, key) →
        pub = publicKey ed.crypto key ∧ key.length = 64 := by
      rintro pub key rfl
      exact genSk_public hrun hdone
    obtain ⟨bytes, hlength, rfl⟩ := Relay.getServerSk_eq_ok hgen hrelay
    refine ⟨fun hempty => ?_, Relay.getServerSk_encode hlength genSk⟩
    have hfile := not_usesKeyFile_encode hlength
    rw [hempty] at hfile
    cases hfile
  · rw [Identity.getServerSk]
    simp only [not_usesKeyFile_of_decode hlength hdecode, Bool.false_eq_true, if_false]
    rw [isOk_map]
    exact parsePrivateKey_mismatch hlength hdecode hpair _
  · rw [Relay.getServerSk_private hlength hdecode]
    split
    · rfl
    · rw [isOk_map]
      exact parsePrivateKey_mismatch hlength hdecode hpair _

theorem length_seed_twice (seed : Seed) : (seed.bytes ++ seed.bytes).length = 64 := by
  rw [List.length_append, seed.length_eq]

theorem take_seed_twice (seed : Seed) : (seed.bytes ++ seed.bytes).take 32 = seed.bytes := by
  rw [← seed.length_eq, List.take_left]

/-- A key pair whose public key is the seed. -/
def sampleEd25519 : Ed25519 where
  keypairFromSeed := fun seed => seed.bytes ++ seed.bytes
  length_keypair := length_seed_twice
  seed_keypair := take_seed_twice

/-- An empty directory. -/
def emptyDirectory : Fs Name where
  nodes := []
  entry := fun _ => none
  entry_lt := nofun

/-- A call makes a key and its files. -/
def generated : List Action :=
  List.replicate 14 { call := 0, seed := ⟨List.replicate 32 1, List.length_replicate⟩ }

/-- A private key that has only zeros, with white space around it. -/
def spacedKey : String := " " ++ Base64.encode (List.replicate 64 0) ++ "\n"

theorem licence_keys_agree_spaced :
    ∃ s tr genSk, Run sampleEd25519.crypto "id_ed25519" emptyDirectory 1 tr s ∧
      s.calls[0]? = some (.done (.ok genSk)) ∧
      Identity.getServerSk sampleEd25519.crypto (.error ioError) spacedKey =
        .ok (Base64.encode (List.replicate 32 0), List.replicate 64 0) ∧
      Relay.getServerSk sampleEd25519.crypto (.ok genSk) spacedKey =
        .ok (Base64.encode (List.replicate 32 0)) ∧
      genSk.1 ≠ "" ∧ Relay.getServerSk sampleEd25519.crypto (.ok genSk) genSk.1 = .ok genSk.1 := by
  obtain ⟨s, tr, hrun, hdone⟩ := Lts.exists_run_of_exec (step sampleEd25519.crypto "id_ed25519")
    (init emptyDirectory 1) generated
    (fun (y : State × List Event) => y.1.calls[0]?.any Stage.succeeded) (b := true)
    (by decide +kernel)
  have hidentity : Identity.getServerSk sampleEd25519.crypto (.error ioError) spacedKey =
      .ok (Base64.encode (List.replicate 32 0), List.replicate 64 0) := by
    decide +kernel
  obtain ⟨stage, hcall, hstage⟩ := Option.any_eq_true _ _ |>.1 hdone
  obtain ⟨genSk, rfl⟩ := Stage.exists_of_succeeded hstage
  obtain ⟨hagree, hrelay, -⟩ := licence_keys_agree hrun hcall
  have hfile : usesKeyFile (Str.trim spacedKey) = false := by decide +kernel
  exact ⟨s, tr, genSk, hrun, hcall, hidentity, (hagree _ _ _ _ hfile hidentity).1,
    hrelay "-" genSk.1 rfl⟩

end RemoteServer.Keypair
