import RemoteServer.Peer.Basic

/-!
# The `peer` table

The table has `guid` as its primary key and a unique index on `id`.  Both are
fields of `Database`, so a table that breaks one cannot be built.  A statement
computes the rows it would leave behind and takes effect only when they satisfy
the two constraints; otherwise it fails and the table stays as it was.

`insert_peer` draws its `guid` itself, so the model takes it as an argument.
`update_identity` finds its row by `guid` and rewrites the other columns, the
`id` included; on a `guid` without a row it changes nothing and succeeds.

The lemmas describe each statement through `getPeer`, the only way the server
reads the table.
-/

namespace RemoteServer

open RustStd

/-- One row of the `peer` table: the columns the server writes. -/
structure Row where
  guid : Bytes
  id : PeerId
  uuid : Bytes
  pk : Bytes
  info : String
deriving DecidableEq, Repr

/-- The table, with its primary key and its unique index. -/
structure Database where
  rows : List Row
  guidNodup : (rows.map Row.guid).Nodup
  idNodup : (rows.map Row.id).Nodup

namespace Database

/-- A table without rows. -/
def empty : Database := ⟨[], List.nodup_nil, List.nodup_nil⟩

/-- The rows as a table, when they satisfy its constraints. -/
def ofRows (rows : List Row) : Option Database :=
  if h : (rows.map Row.guid).Nodup ∧ (rows.map Row.id).Nodup then some ⟨rows, h.1, h.2⟩ else none

def getPeer (db : Database) (id : PeerId) : Option Row :=
  db.rows.find? fun r => decide (r.id = id)

def insertPeer (db : Database) (guid : Bytes) (id : PeerId) (uuid pk : Bytes) (info : String) :
    Option Database :=
  ofRows (db.rows ++ [⟨guid, id, uuid, pk, info⟩])

/-- What `update_identity` makes of one row. -/
def updateRow (guid : Bytes) (id : PeerId) (uuid pk : Bytes) (info : String) (r : Row) : Row :=
  if r.guid = guid then ⟨guid, id, uuid, pk, info⟩ else r

def updateIdentity (db : Database) (guid : Bytes) (id : PeerId) (uuid pk : Bytes)
    (info : String) : Option Database :=
  ofRows (db.rows.map (updateRow guid id uuid pk info))

/-! ## Reading the table -/

theorem ofRows_eq_some {rows : List Row} {db : Database} (h : ofRows rows = some db) :
    db.rows = rows := by
  unfold ofRows at h
  split at h
  · cases h
    rfl
  · cases h

theorem getPeer_eq_some_iff (db : Database) (id : PeerId) (r : Row) :
    db.getPeer id = some r ↔ r ∈ db.rows ∧ r.id = id := by
  obtain ⟨rows, hguid, hid⟩ := db
  simp only [getPeer]
  constructor
  · intro h
    exact ⟨List.mem_of_find?_eq_some h, by simpa using List.find?_some h⟩
  · rintro ⟨hmem, rfl⟩
    have hex : (rows.find? fun x => decide (x.id = r.id)).isSome := by
      rw [List.find?_isSome]
      exact ⟨r, hmem, by simp⟩
    obtain ⟨x, hx⟩ := Option.isSome_iff_exists.1 hex
    have hxid : x.id = r.id := by simpa using List.find?_some hx
    rw [hx, List.inj_on_of_nodup_map hid (List.mem_of_find?_eq_some hx) hmem hxid]

theorem getPeer_eq_none_iff (db : Database) (id : PeerId) :
    db.getPeer id = none ↔ ∀ r ∈ db.rows, r.id ≠ id := by
  simp [getPeer, List.find?_eq_none]

theorem getPeer_congr {db db' : Database} {id : PeerId}
    (h : ∀ r : Row, r.id = id → (r ∈ db.rows ↔ r ∈ db'.rows)) :
    db.getPeer id = db'.getPeer id := by
  refine Option.ext fun r => ?_
  rw [getPeer_eq_some_iff, getPeer_eq_some_iff]
  constructor
  · rintro ⟨hmem, hid⟩
    exact ⟨(h r hid).1 hmem, hid⟩
  · rintro ⟨hmem, hid⟩
    exact ⟨(h r hid).2 hmem, hid⟩

/-! ## What a statement does -/

/-- An insert that takes effect found no row of its id, adds one, and leaves
the rows of the other ids alone. -/
theorem insertPeer_eq_some {db db' : Database} {guid uuid pk : Bytes} {id : PeerId}
    {info : String} (h : db.insertPeer guid id uuid pk info = some db') :
    db.getPeer id = none ∧ db'.getPeer id = some ⟨guid, id, uuid, pk, info⟩ ∧
      ∀ id', id' ≠ id → db'.getPeer id' = db.getPeer id' := by
  have hrows : db'.rows = db.rows ++ [⟨guid, id, uuid, pk, info⟩] := ofRows_eq_some h
  refine ⟨?_, ?_, ?_⟩
  · rw [getPeer_eq_none_iff]
    intro r hr hrid
    have hnodup := db'.idNodup
    rw [hrows, List.map_append, List.nodup_append] at hnodup
    exact hnodup.2.2 r.id (List.mem_map_of_mem hr) id (by simp) hrid
  · rw [getPeer_eq_some_iff, hrows]
    simp
  · intro id' hne
    refine getPeer_congr fun r hr => ?_
    rw [hrows, List.mem_append, List.mem_singleton]
    constructor
    · rintro (hmem | rfl)
      · exact hmem
      · exact absurd hr.symm hne
    · exact Or.inl

/-- An update by the `guid` of the row of `id` rewrites that row and no other. -/
theorem updateIdentity_eq_some {db db' : Database} {guid uuid pk : Bytes} {id : PeerId}
    {info : String} {r : Row} (hr : db.getPeer id = some r) (hguid : r.guid = guid)
    (h : db.updateIdentity guid id uuid pk info = some db') :
    db'.getPeer id = some ⟨guid, id, uuid, pk, info⟩ ∧
      ∀ id', id' ≠ id → db'.getPeer id' = db.getPeer id' := by
  have hrows : db'.rows = db.rows.map (updateRow guid id uuid pk info) := ofRows_eq_some h
  obtain ⟨hmem, hid⟩ := (getPeer_eq_some_iff db id r).1 hr
  -- the row of `id` is the only one that the statement touches
  have honly : ∀ x ∈ db.rows, x.guid = guid → x = r := fun x hx hxg =>
    List.inj_on_of_nodup_map db.guidNodup hx hmem (hxg.trans hguid.symm)
  constructor
  · rw [getPeer_eq_some_iff, hrows]
    exact ⟨List.mem_map.2 ⟨r, hmem, by rw [updateRow, if_pos hguid]⟩, rfl⟩
  · intro id' hne
    refine getPeer_congr fun x hx => ?_
    rw [hrows, List.mem_map]
    constructor
    · rintro ⟨y, hy, hyx⟩
      by_cases hyg : y.guid = guid
      · rw [updateRow, if_pos hyg] at hyx
        exact absurd (by rw [← hx, ← hyx]) hne
      · rw [updateRow, if_neg hyg] at hyx
        exact hyx ▸ hy
    · intro hxmem
      have hxg : x.guid ≠ guid := fun hxg =>
        hne (by rw [← hx, honly x hxmem hxg, hid])
      exact ⟨x, hxmem, by rw [updateRow, if_neg hxg]⟩

/-! ## The tables this server writes -/

/-- No row has an empty `uuid`.  `register_pk_common` refuses an empty `uuid`
before it comes to the database, and it is the only writer. -/
def Claimed (db : Database) : Prop := ∀ r ∈ db.rows, r.uuid ≠ []

theorem claimed_empty : Claimed empty := fun _ hr => absurd hr List.not_mem_nil

theorem Claimed.insertPeer {db db' : Database} {guid uuid pk : Bytes} {id : PeerId}
    {info : String} (hc : Claimed db) (huuid : uuid ≠ [])
    (h : db.insertPeer guid id uuid pk info = some db') : Claimed db' := by
  intro r hr
  rw [ofRows_eq_some h, List.mem_append, List.mem_singleton] at hr
  rcases hr with hr | rfl
  · exact hc r hr
  · exact huuid

theorem Claimed.updateIdentity {db db' : Database} {guid uuid pk : Bytes} {id : PeerId}
    {info : String} (hc : Claimed db) (huuid : uuid ≠ [])
    (h : db.updateIdentity guid id uuid pk info = some db') : Claimed db' := by
  intro r hr
  rw [ofRows_eq_some h, List.mem_map] at hr
  obtain ⟨x, hx, rfl⟩ := hr
  unfold updateRow
  split
  · exact huuid
  · exact hc x hx

theorem Claimed.uuid_ne_nil {db : Database} (hc : Claimed db) {id : PeerId} {r : Row}
    (h : db.getPeer id = some r) : r.uuid ≠ [] :=
  hc r ((getPeer_eq_some_iff db id r).1 h).1

end Database

end RemoteServer
