import Mathlib.Logic.Function.Basic
import RemoteServer.RustStd.Basic

/-!
# Files in a directory

The calls of `std::fs` on the names of one directory.  A name stands for a node, and a node can
have several names: a hard link gives a node one more name, and a file that is open is still
there when its names are gone.

* `createNew`, `writeAll`, `hardLink`, `openNoFollow` and `removeFile` are the calls, and
  `symlinkMetadata` is what the call of this name shows.
* The lemmas say which entries and which nodes a call leaves as they are.

There are no directories inside, and permissions are left out.
-/

namespace RustStd

/-- What a name can stand for. -/
inductive Node where
  | file (bytes : Bytes)
  | symlink
deriving DecidableEq

inductive IoError where
  | notFound
  | alreadyExists
  | other
deriving DecidableEq

/-- A directory with the names `ν`. -/
structure Fs (ν : Type) where
  nodes : List Node
  entry : ν → Option Nat
  entry_lt : ∀ name i, entry name = some i → i < nodes.length

namespace Fs

variable {ν : Type}

/-! ## Files that are open -/

section Open

variable (fs : Fs ν)

def symlinkMetadata (name : ν) : Option Node := (fs.entry name).bind fun i => fs.nodes[i]?

/-- Opens a file for reading, and no link. -/
def openNoFollow (name : ν) : Except IoError Nat :=
  match fs.entry name with
  | none => .error .notFound
  | some i =>
    match fs.nodes[i]? with
    | some (.file _) => .ok i
    | _ => .error .other

/-- The content of an open file. -/
def read (fd : Nat) : Bytes :=
  match fs.nodes[fd]? with
  | some (.file bytes) => bytes
  | _ => []

/-- Writes at the end of an open file. -/
def writeAll (fd : Nat) (bytes : Bytes) : Fs ν where
  nodes := fs.nodes.set fd (.file (fs.read fd ++ bytes))
  entry := fs.entry
  entry_lt := by
    intro name i h
    rw [List.length_set]
    exact fs.entry_lt name i h

variable {fs} {fs' : Fs ν} {name : ν} {fd : Nat}

theorem openNoFollow_ok (h : fs.openNoFollow name = .ok fd) : fs.entry name = some fd := by
  unfold openNoFollow at h
  split at h
  · cases h
  · rename_i i hentry
    split at h
    · cases h
      exact hentry
    · cases h

/-- An open file has its content under the name as long as the name stands for it. -/
theorem symlinkMetadata_of_openNoFollow (h : fs.openNoFollow name = .ok fd) :
    fs.symlinkMetadata name = some (.file (fs.read fd)) := by
  unfold openNoFollow at h
  split at h
  · cases h
  · rename_i i hentry
    split at h
    · rename_i bytes hnode
      cases h
      rw [symlinkMetadata, hentry, Option.bind_some, hnode, read, hnode]
    · cases h

theorem openNoFollow_of_file {bytes : Bytes} (hentry : fs.entry name = some fd)
    (hnode : fs.nodes[fd]? = some (.file bytes)) : fs.openNoFollow name = .ok fd := by
  simp only [openNoFollow, hentry, hnode]

theorem openNoFollow_of_none (h : fs.entry name = none) :
    fs.openNoFollow name = .error .notFound := by
  simp only [openNoFollow, h]

theorem symlinkMetadata_of_entry (h : fs.entry name = some fd) :
    fs.symlinkMetadata name = fs.nodes[fd]? := by
  rw [symlinkMetadata, h, Option.bind_some]

theorem read_of_file {bytes : Bytes} (hnode : fs.nodes[fd]? = some (.file bytes)) :
    fs.read fd = bytes := by
  rw [read, hnode]

theorem writeAll_new (h : fs.nodes[fd]? = some (.file [])) (bytes : Bytes) :
    (fs.writeAll fd bytes).nodes[fd]? = some (.file bytes) := by
  have hlt := (List.getElem?_eq_some_iff.1 h).1
  have hnode : (fs.writeAll fd bytes).nodes[fd]? = some (.file (fs.read fd ++ bytes)) :=
    List.getElem?_set_self hlt
  rw [hnode, read_of_file h, List.nil_append]

theorem read_congr (h : fs'.nodes[fd]? = fs.nodes[fd]?) : fs'.read fd = fs.read fd := by
  rw [read, read, h]

end Open

/-! ## Names -/

section Names

variable [DecidableEq ν] (fs : Fs ν)

/-- Opens a new file for writing. -/
def createNew (name : ν) : Except IoError (Fs ν × Nat) :=
  match fs.entry name with
  | some _ => .error .alreadyExists
  | none => .ok
    ({ nodes := fs.nodes ++ [.file []]
       entry := Function.update fs.entry name (some fs.nodes.length)
       entry_lt := by
        intro other i h
        rw [List.length_append, List.length_singleton]
        rcases eq_or_ne other name with rfl | hne
        · rw [Function.update_self] at h
          cases h
          exact Nat.lt_succ_self _
        · rw [Function.update_of_ne hne] at h
          exact Nat.lt_succ_of_lt (fs.entry_lt other i h) }, fs.nodes.length)

def hardLink (original link : ν) : Except IoError (Fs ν) :=
  match horiginal : fs.entry original with
  | none => .error .notFound
  | some i =>
    match fs.entry link with
    | some _ => .error .alreadyExists
    | none => .ok
      { nodes := fs.nodes
        entry := Function.update fs.entry link (some i)
        entry_lt := by
          intro name j h
          rcases eq_or_ne name link with rfl | hne
          · rw [Function.update_self] at h
            cases h
            exact fs.entry_lt original i horiginal
          · rw [Function.update_of_ne hne] at h
            exact fs.entry_lt name j h }

def removeFile (name : ν) : Except IoError (Fs ν) :=
  match fs.entry name with
  | none => .error .notFound
  | some _ => .ok
    { nodes := fs.nodes
      entry := Function.update fs.entry name none
      entry_lt := by
        intro other i h
        rcases eq_or_ne other name with rfl | hne
        · rw [Function.update_self] at h
          cases h
        · rw [Function.update_of_ne hne] at h
          exact fs.entry_lt other i h }

variable {fs} {fs' : Fs ν} {name original link : ν} {fd : Nat}

theorem createNew_of_none (h : fs.entry name = none) : ∃ created, fs.createNew name = .ok created := by
  unfold createNew
  split
  · rename_i i hi
    rw [h] at hi
    cases hi
  · exact ⟨_, rfl⟩

theorem createNew_ok (h : fs.createNew name = .ok (fs', fd)) :
    fs.entry name = none ∧ fd = fs.nodes.length ∧ fs'.nodes = fs.nodes ++ [.file []] ∧
      fs'.entry = Function.update fs.entry name (some fd) := by
  unfold createNew at h
  split at h
  · cases h
  · rename_i hentry
    cases h
    exact ⟨hentry, rfl, rfl, rfl⟩

theorem hardLink_ok (h : fs.hardLink original link = .ok fs') :
    ∃ i, fs.entry original = some i ∧ fs.entry link = none ∧ fs'.nodes = fs.nodes ∧
      fs'.entry = Function.update fs.entry link (some i) := by
  unfold hardLink at h
  split at h
  · cases h
  · rename_i i horiginal
    split at h
    · cases h
    · rename_i hlink
      cases h
      exact ⟨i, horiginal, hlink, rfl, rfl⟩

theorem hardLink_alreadyExists (h : fs.hardLink original link = .error .alreadyExists) :
    (fs.entry link).isSome = true := by
  unfold hardLink at h
  split at h
  · cases h
  · split at h
    · rename_i j hlink
      rw [hlink]
      rfl
    · cases h

/-- A file that is there gets the name, or the name is taken. -/
theorem hardLink_of_some {i : Nat} (h : fs.entry original = some i) (link : ν) :
    (∃ fs', fs.hardLink original link = .ok fs') ∨
      fs.hardLink original link = .error .alreadyExists := by
  unfold hardLink
  split
  · rename_i hnone
    rw [h] at hnone
    cases hnone
  · split
    · exact Or.inr rfl
    · exact Or.inl ⟨_, rfl⟩

theorem removeFile_ok (h : fs.removeFile name = .ok fs') :
    fs'.nodes = fs.nodes ∧ fs'.entry = Function.update fs.entry name none := by
  unfold removeFile at h
  split at h
  · cases h
  · cases h
    exact ⟨rfl, rfl⟩

end Names

end Fs

end RustStd
