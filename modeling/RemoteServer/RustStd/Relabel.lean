import Mathlib.Logic.Embedding.Basic
import RemoteServer.RustStd.HashMap

/-!
# Maps with other keys and values

`relabel f g` renames the keys of a map by an injective `f` and rewrites its values by `g`.  A read
of the renamed map under a renamed key is the rewritten read, and each operation commutes with the
renaming, so a function that only works through these operations does so as well.
-/

namespace RustStd.HashMap

variable {K K' V V' : Type}

theorem ext_entries {m m' : HashMap K V} (h : m.entries = m'.entries) : m = m' := by
  cases m
  cases m'
  simp_all

theorem keys_relabelled (f : K → K') (g : V → V') (entries : List (K × V)) :
    (entries.map fun e => (f e.1, g e.2)).map Prod.fst = (entries.map Prod.fst).map f := by
  rw [List.map_map, List.map_map]
  rfl

/-- The map with its keys renamed and its values rewritten. -/
def relabel (f : K ↪ K') (g : V → V') (m : HashMap K V) : HashMap K' V' where
  entries := m.entries.map fun e => (f e.1, g e.2)
  nodup := by
    rw [keys_relabelled]
    exact m.nodup.map f.injective

variable (f : K ↪ K') (g : V → V') (m : HashMap K V)

@[simp] theorem relabel_empty : (empty : HashMap K V).relabel f g = empty := rfl

@[simp] theorem len_relabel : (m.relabel f g).len = m.len := List.length_map _

theorem retain_relabel {p : K → V → Bool} {p' : K' → V' → Bool}
    (h : ∀ k v, p' (f k) (g v) = p k v) : (m.relabel f g).retain p' = (m.retain p).relabel f g := by
  apply ext_entries
  show (m.entries.map fun e => (f e.1, g e.2)).filter _ = (m.entries.filter _).map _
  rw [List.filter_map]
  congr 1
  refine List.filter_congr fun e _ => ?_
  exact h e.1 e.2

variable [DecidableEq K] [DecidableEq K']

@[simp] theorem get_relabel (key : K) : (m.relabel f g).get (f key) = (m.get key).map g := by
  show ((m.entries.map fun e => (f e.1, g e.2)).find? _).map Prod.snd =
    ((m.entries.find? _).map Prod.snd).map g
  rw [List.find?_map, Option.map_map, Option.map_map]
  have hsame : ((fun e : K' × V' => decide (e.1 = f key)) ∘ fun e : K × V => (f e.1, g e.2)) =
      fun e => decide (e.1 = key) := by
    funext e
    simp [f.injective.eq_iff]
  rw [hsame]
  rfl

@[simp] theorem containsKey_relabel (key : K) :
    (m.relabel f g).containsKey (f key) = m.containsKey key := by
  rw [containsKey, get_relabel, Option.isSome_map, containsKey]

theorem insert_relabel (key : K) (value : V) :
    (m.relabel f g).insert (f key) (g value) = (m.insert key value).relabel f g := by
  apply ext_entries
  show insertEntries _ _ _ = (insertEntries m.entries key value).map _
  have hmem : f key ∈ (m.relabel f g).entries.map Prod.fst ↔ key ∈ m.entries.map Prod.fst := by
    rw [relabel, keys_relabelled, List.mem_map_of_injective f.injective]
  unfold insertEntries
  by_cases hkey : key ∈ m.entries.map Prod.fst
  · rw [if_pos (hmem.2 hkey), if_pos hkey, relabel, List.map_map, List.map_map]
    refine List.map_congr_left fun e _ => ?_
    by_cases he : e.1 = key
    · simp [he]
    · simp [he, f.injective.eq_iff]
  · rw [if_neg (mt hmem.1 hkey), if_neg hkey, relabel, List.map_append]
    rfl

end RustStd.HashMap
