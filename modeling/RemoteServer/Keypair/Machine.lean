import RemoteServer.Lts.Run
import RemoteServer.RustStd.Fs
import RemoteServer.RustStd.Text

/-!
# The files of the key pair

`load_or_create_keypair` reads the private key from its file, or makes a new one, and keeps the
public key in a file beside it.  Several servers can start at once in one directory, so a file
is written under a name of its own and then gets its name with `hard_link`, which does not
replace a file.

* `Stage` is where a call is, between two calls of the file system, and `stepStage` is what it
  does next.
* `State` is the directory with all calls, and `step` lets one of them go on.

An action says which call goes on, which seed is drawn, and whether the file system fails.
Writing and `sync_all` are one step, and so are the calls on a file that is open.  The bytes that
a failed write leaves are in a file that is removed, and are left out.  So are permissions, and
the wait before the first read.  The texts of the errors of libraries are not modelled.
-/

namespace RemoteServer.Keypair

open RustStd

/-- `sign::Seed`. -/
structure Seed where
  bytes : Bytes
  length_eq : bytes.length = 32
deriving DecidableEq

/-- Base64 and Ed25519. -/
structure Crypto where
  encode : Bytes → String
  decode : String → Option Bytes
  /-- The private key of 64 bytes: the seed and the public key. -/
  keypairFromSeed : Seed → Bytes
  decode_encode : ∀ bytes, decode (encode bytes) = some bytes
  trim_encode : ∀ bytes, Str.trim (encode bytes) = encode bytes
  size_encode : ∀ bytes, bytes.length = 64 → (encode bytes).utf8ByteSize ≤ 128
  length_keypair : ∀ seed, (keypairFromSeed seed).length = 64
  seed_keypair : ∀ seed, (keypairFromSeed seed).take 32 = seed.bytes

/-- What the names are for. -/
inductive Part where
  | secret
  | pub
deriving DecidableEq

/-- The names in the directory.  Those of temporary files have the process and a random part. -/
inductive Name where
  | key (part : Part)
  | temp (call : Nat) (part : Part)
deriving DecidableEq

/-- The result of `load_or_create_keypair`. -/
abbrev KeyResult := Except String (String × Bytes)

def ioError : String := "I/O error"

section Functions

variable (cr : Crypto) (path : String)

def maxEncodedKeyBytes : Nat := 128
def maxPrivateKeyFileBytes : Nat := 1024

/-- `parse_private_key`. -/
def parsePrivateKey (encoded label : String) : Except String Bytes :=
  let encoded := Str.trim encoded
  if maxEncodedKeyBytes < encoded.utf8ByteSize then .error (label ++ " is too large")
  else
    match cr.decode encoded with
    | none => .error (label ++ " must be a base64 Ed25519 private key")
    | some decoded =>
      if h : decoded.length = 64 then
        let seed : Seed := ⟨decoded.take 32, by rw [List.length_take, h]; rfl⟩
        if cr.keypairFromSeed seed = decoded then .ok decoded
        else .error (label ++ " is not a structurally valid Ed25519 private key")
      else .error (label ++ " must be a 64-byte Ed25519 private key")

/-- `read_bounded_open_file`. -/
def readBoundedOpenFile (contents : Bytes) (path : String) (maxBytes : Nat) (label : String) :
    Except String Bytes :=
  if maxBytes < contents.length then
    .error (label ++ " exceeds the " ++ toString maxBytes ++ "-byte limit: " ++ path)
  else .ok contents

/-- `read_secret_key` of the contents of the file. -/
def readSecretKey (contents : Bytes) : Except String Bytes := do
  let encoded ← readBoundedOpenFile contents path maxPrivateKeyFileBytes "Private key"
  match fromUtf8 encoded with
  | none => .error ("Private key is not UTF-8: " ++ path)
  | some encoded => parsePrivateKey cr encoded ("Private key " ++ path)

def publicKey (key : Bytes) : String := cr.encode (key.drop 32)

def publicPath : String := path ++ ".pub"

/-- The file has the public key. -/
def hasPublicKey (fs : Fs Name) (fd : Nat) (key : Bytes) : Bool :=
  let contents := utf8 (publicKey cr key)
  match readBoundedOpenFile (fs.read fd) (publicPath path) (contents.length + 1) "Public key" with
  | .ok existing => existing == contents
  | .error _ => false

/-- The test of `generate_compatible_secret_key`. -/
def isCompatible (key : Bytes) : Bool :=
  let encoded := (publicKey cr key).toList
  !encoded.contains '/' && !encoded.contains ':'

end Functions

/-- Where a call of `load_or_create_keypair` is: what it does next. -/
inductive Stage where
  /-- `read_secret_key`; the second time when the file has to be there. -/
  | openSecret (again : Bool)
  | readSecret (again : Bool) (fd : Nat)
  | generate
  /-- `create_secret_key_once` -/
  | createSecret (key : Bytes)
  | writeSecret (key : Bytes) (fd : Nat)
  | linkSecret
  | cleanSecret (result : Except String Unit)
  /-- `write_public_key` -/
  | inspectPublic (key : Bytes)
  | openPublic (key : Bytes)
  | comparePublic (key : Bytes) (fd : Nat)
  | createPublic (key : Bytes)
  | writePublic (key : Bytes) (fd : Nat)
  /-- The loop, with the number of turns that are left. -/
  | linkPublic (key : Bytes) (turns : Nat)
  | inspectTurn (key : Bytes) (turns : Nat)
  | openTurn (key : Bytes) (turns : Nat)
  | compareTurn (key : Bytes) (turns : Nat) (fd : Nat)
  | removeTurn (key : Bytes) (turns : Nat)
  | cleanPublic (key : Bytes) (result : Except String Unit)
  | done (result : KeyResult)
deriving DecidableEq

structure Action where
  call : Nat
  seed : Seed
  /-- The call of the file system gets through. -/
  io : Bool := true
  /-- `sync_parent_directory` after it gets through. -/
  sync : Bool := true

/-- `Ok(()) => sync_parent_directory(parent)`. -/
def Action.synced (a : Action) : Except String Unit := if a.sync then .ok () else .error ioError

/-- `let _ = fs::remove_file(&temp_path)`. -/
def removeTemp (fs : Fs Name) (a : Action) (part : Part) : Fs Name :=
  match a.io, fs.removeFile (.temp a.call part) with
  | true, .ok fs' => fs'
  | _, _ => fs

section Step

variable (cr : Crypto) (path : String) (fs : Fs Name) (a : Action)

/-- The next step of a call; none when it has returned. -/
def stepStage : Stage → Option (Fs Name × Stage)
  | .openSecret again =>
    match a.io, fs.openNoFollow (.key .secret) with
    | true, .ok fd => some (fs, .readSecret again fd)
    | true, .error .notFound =>
      if again then some (fs, .done (.error ("Private key disappeared: " ++ path)))
      else some (fs, .generate)
    | _, _ => some (fs, .done (.error ioError))
  | .readSecret again fd =>
    if a.io then
      match readSecretKey cr path (fs.read fd) with
      | .error err => some (fs, .done (.error err))
      | .ok key => some (fs, if again then .inspectPublic key else .openSecret true)
    else some (fs, .done (.error ioError))
  | .generate =>
    let key := cr.keypairFromSeed a.seed
    some (fs, if isCompatible cr key then .createSecret key else .generate)
  | .createSecret key =>
    match a.io, fs.createNew (.temp a.call .secret) with
    | true, .ok (fs', fd) => some (fs', .writeSecret key fd)
    | _, _ => some (fs, .cleanSecret (.error ioError))
  | .writeSecret key fd =>
    if a.io then some (fs.writeAll fd (utf8 (cr.encode key)), .linkSecret)
    else some (fs, .cleanSecret (.error ioError))
  | .linkSecret =>
    match a.io, fs.hardLink (.temp a.call .secret) (.key .secret) with
    | true, .ok fs' => some (fs', .cleanSecret a.synced)
    | true, .error .alreadyExists => some (fs, .cleanSecret (.ok ()))
    | _, _ => some (fs, .cleanSecret (.error ioError))
  | .cleanSecret result =>
    some (removeTemp fs a .secret,
      match result with
      | .ok () => .openSecret true
      | .error err => .done (.error err))
  | .inspectPublic key =>
    match a.io, fs.symlinkMetadata (.key .pub) with
    | true, some .symlink =>
      some (fs, .done (.error ("Public key path must not be a symlink: " ++ publicPath path)))
    | _, _ => some (fs, .openPublic key)
  | .openPublic key =>
    match a.io, fs.openNoFollow (.key .pub) with
    | true, .ok fd => some (fs, .comparePublic key fd)
    | _, _ => some (fs, .createPublic key)
  | .comparePublic key fd =>
    if a.io && hasPublicKey cr path fs fd key then some (fs, .done (.ok (publicKey cr key, key)))
    else some (fs, .createPublic key)
  | .createPublic key =>
    match a.io, fs.createNew (.temp a.call .pub) with
    | true, .ok (fs', fd) => some (fs', .writePublic key fd)
    | _, _ => some (fs, .cleanPublic key (.error ioError))
  | .writePublic key fd =>
    if a.io then some (fs.writeAll fd (utf8 (publicKey cr key)), .linkPublic key 3)
    else some (fs, .cleanPublic key (.error ioError))
  | .linkPublic key 0 =>
    some (fs, .cleanPublic key (.error ("Unable to publish public key: " ++ publicPath path)))
  | .linkPublic key (turns + 1) =>
    match a.io, fs.hardLink (.temp a.call .pub) (.key .pub) with
    | true, .ok fs' => some (fs', .cleanPublic key a.synced)
    | true, .error .alreadyExists => some (fs, .inspectTurn key turns)
    | _, _ => some (fs, .cleanPublic key (.error ioError))
  | .inspectTurn key turns =>
    match a.io, fs.symlinkMetadata (.key .pub) with
    | true, some .symlink =>
      some (fs, .cleanPublic key
        (.error ("Public key path must not be a symlink: " ++ publicPath path)))
    | true, some (.file _) => some (fs, .openTurn key turns)
    | true, none => some (fs, .linkPublic key turns)
    | false, _ => some (fs, .cleanPublic key (.error ioError))
  | .openTurn key turns =>
    match a.io, fs.openNoFollow (.key .pub) with
    | true, .ok fd => some (fs, .compareTurn key turns fd)
    | _, _ => some (fs, .removeTurn key turns)
  | .compareTurn key turns fd =>
    if a.io && hasPublicKey cr path fs fd key then some (fs, .cleanPublic key (.ok ()))
    else some (fs, .removeTurn key turns)
  | .removeTurn key turns =>
    match a.io, fs.removeFile (.key .pub) with
    | true, .ok fs' =>
      some (fs', if a.sync then .linkPublic key turns else .cleanPublic key (.error ioError))
    | true, .error .notFound => some (fs, .linkPublic key turns)
    | _, _ => some (fs, .cleanPublic key (.error ioError))
  | .cleanPublic key result =>
    some (removeTemp fs a .pub, .done (result.map fun _ => (publicKey cr key, key)))
  | .done _ => none

end Step

structure State where
  fs : Fs Name
  calls : List Stage

/-- The file system failed in a step of the call. -/
inductive Event where
  | failed (call : Nat)
deriving DecidableEq

section System

variable (cr : Crypto) (path : String)

def step (s : State) (a : Action) : Option (State × List Event) :=
  (s.calls[a.call]?).bind fun stage =>
    (stepStage cr path s.fs a stage).map fun (next : Fs Name × Stage) =>
      (⟨next.1, s.calls.set a.call next.2⟩, if a.io && a.sync then [] else [.failed a.call])

/-- `n` calls that have not done anything. -/
def init (fs : Fs Name) (n : Nat) : State := ⟨fs, List.replicate n (.openSecret false)⟩

/-- The runs of `n` calls in a directory. -/
abbrev Run (fs : Fs Name) (n : Nat) (tr : List Event) (s : State) : Prop :=
  Lts.Run (step cr path) Lts.anything (init fs n) tr s

/-- The key in the private key file. -/
def secretKey? (fs : Fs Name) : Option Bytes :=
  (fs.entry (.key .secret)).bind fun i => (readSecretKey cr path (fs.read i)).toOption

end System

end RemoteServer.Keypair
