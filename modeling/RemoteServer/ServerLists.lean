import RemoteServer.Common
import RemoteServer.RustStd.Split

/-!
# Lists of servers that are read again

`get_servers` keeps the entries as they are written, without white space around them and
without repetitions.

* `serverOk` is the check of one entry, and `getServers_eq_ok_iff` says what a list is read
  from: the pieces of the text (`pieces`) have to pass the check.
* `Listed` is what is known of a list that was read.  `Listed.getServers_join` says that it can
  be written with commas and read again, and `Listed.subperm` that this holds for a part of it in
  any order too.
-/

namespace RemoteServer

open RustStd

variable {parseUrl : String → Option Url} {name : String}

/-- The checks that an entry has to pass. -/
def serverOk (parseUrl : String → Option Url) (server : String) : Bool :=
  !server.isEmpty &&
    !(decide (maxServerBytes < server.utf8ByteSize) || server.toList.any isControl) &&
    (parseUrl ("tcp://" ++ server)).any fun parsed =>
      parsed.hostStr.any fun host => !parsed.hasMore && !placeholderHost host

/-- The trimmed pieces of the text; a blank text has none. -/
def pieces (value : String) : List String :=
  if (Str.trim value).isEmpty then [] else (Str.split ',' value).map Str.trim

/-! ## Reading -/

/-- An entry that passes its checks is added if it is new and there is room. -/
theorem addServer_of_serverOk {raw : String} (h : serverOk parseUrl (Str.trim raw) = true)
    (servers : List String) :
    addServer parseUrl name servers raw =
      if servers.contains (Str.trim raw) then .ok servers
      else if maxServerCount < servers.length + 1 then
        .error (name ++ " contains too many servers")
      else .ok (servers ++ [Str.trim raw]) := by
  simp only [serverOk, Bool.and_eq_true, Bool.not_eq_true', Option.any_eq_true] at h
  obtain ⟨⟨hempty, hchars⟩, parsed, hparsed, host, hhost, hmore, hplaceholder⟩ := h
  simp only [addServer, hempty, hchars, hparsed, hhost, hmore, hplaceholder, Bool.false_eq_true,
    if_false]

theorem serverOk_of_addServer {servers servers' : List String} {raw : String}
    (h : addServer parseUrl name servers raw = .ok servers') :
    serverOk parseUrl (Str.trim raw) = true := by
  unfold addServer at h
  dsimp only at h
  split at h
  · cases h
  · rename_i hempty
    split at h
    · cases h
    · rename_i hchars
      split at h
      · cases h
      · rename_i parsed hparsed
        split at h
        · cases h
        · rename_i host hhost
          split at h
          · cases h
          · rename_i hmore
            split at h
            · cases h
            · rename_i hplaceholder
              simp [serverOk, hempty, hchars, hparsed, hhost, hmore, hplaceholder]

/-- One turn of the loop. -/
theorem addServer_eq_ok_iff {servers servers' : List String} {raw : String} :
    addServer parseUrl name servers raw = .ok servers' ↔
      serverOk parseUrl (Str.trim raw) = true ∧
        (Str.trim raw ∈ servers ∧ servers' = servers ∨
          Str.trim raw ∉ servers ∧ servers.length < maxServerCount ∧
            servers' = servers ++ [Str.trim raw]) := by
  constructor
  · intro h
    have hok := serverOk_of_addServer h
    rw [addServer_of_serverOk hok] at h
    refine ⟨hok, ?_⟩
    split at h
    · rename_i hmem
      exact Or.inl ⟨List.contains_iff_mem.1 hmem, (Except.ok.inj h).symm⟩
    · rename_i hmem
      split at h
      · cases h
      · rename_i hcount
        refine Or.inr ⟨fun hin => hmem (List.contains_iff_mem.2 hin), by omega, ?_⟩
        exact (Except.ok.inj h).symm
  · rintro ⟨hok, ⟨hmem, rfl⟩ | ⟨hmem, hcount, rfl⟩⟩
    · rw [addServer_of_serverOk hok, if_pos (List.contains_iff_mem.2 hmem)]
    · rw [addServer_of_serverOk hok, if_neg (fun h => hmem (List.contains_iff_mem.1 h)),
        if_neg (by omega)]

/-- The loop, from the entries that it has so far. -/
theorem foldlM_addServer_eq_ok_iff {raws servers L : List String} (hnodup : servers.Nodup)
    (hcount : servers.length ≤ maxServerCount) :
    raws.foldlM (addServer parseUrl name) servers = .ok L ↔
      (∀ server ∈ raws.map Str.trim, serverOk parseUrl server = true) ∧
        L = (servers ++ raws.map Str.trim).eraseDups ∧ L.length ≤ maxServerCount := by
  induction raws generalizing servers with
  | nil =>
    rw [List.foldlM_nil, List.map_nil, List.append_nil, eraseDups_eq_self hnodup]
    constructor
    · intro h
      obtain rfl := Except.ok.inj h
      exact ⟨nofun, rfl, hcount⟩
    · rintro ⟨-, rfl, -⟩
      rfl
  | cons raw raws ih =>
    rw [List.foldlM_cons, List.map_cons]
    have hnew : Str.trim raw ∉ servers → (servers ++ [Str.trim raw]).Nodup := fun hmem =>
      List.nodup_append_comm.1 (List.nodup_cons.2 ⟨hmem, hnodup⟩)
    have happend : servers ++ Str.trim raw :: raws.map Str.trim =
        servers ++ [Str.trim raw] ++ raws.map Str.trim := by
      rw [List.append_assoc, List.singleton_append]
    constructor
    · intro h
      cases hadd : addServer parseUrl name servers raw with
      | error =>
        rw [hadd] at h
        cases h
      | ok servers' =>
        rw [hadd] at h
        have h : raws.foldlM (addServer parseUrl name) servers' = .ok L := h
        obtain ⟨hok, ⟨hmem, rfl⟩ | ⟨hmem, hlt, rfl⟩⟩ := addServer_eq_ok_iff.1 hadd
        · obtain ⟨hall, hL, hlength⟩ := (ih hnodup hcount).1 h
          exact ⟨List.forall_mem_cons.2 ⟨hok, hall⟩,
            hL.trans (eraseDups_append_cons_of_mem hmem).symm, hlength⟩
        · have hle : (servers ++ [Str.trim raw]).length ≤ maxServerCount := by
            rw [List.length_append]
            exact hlt
          obtain ⟨hall, hL, hlength⟩ := (ih (hnew hmem) hle).1 h
          exact ⟨List.forall_mem_cons.2 ⟨hok, hall⟩, by rw [hL, happend], hlength⟩
    · rintro ⟨hall, hL, hlength⟩
      obtain ⟨hok, hall⟩ := List.forall_mem_cons.1 hall
      by_cases hmem : Str.trim raw ∈ servers
      · rw [addServer_eq_ok_iff.2 ⟨hok, Or.inl ⟨hmem, rfl⟩⟩]
        rw [eraseDups_append_cons_of_mem hmem] at hL
        exact (ih hnodup hcount).2 ⟨hall, hL, hlength⟩
      · rw [happend] at hL
        -- the entries so far are the start of the list
        have hle : (servers ++ [Str.trim raw]).length ≤ maxServerCount := by
          rw [hL, List.eraseDups_append, eraseDups_eq_self (hnew hmem),
            List.length_append] at hlength
          omega
        have hlt : servers.length < maxServerCount := by
          rw [List.length_append] at hle
          exact hle
        rw [addServer_eq_ok_iff.2 ⟨hok, Or.inr ⟨hmem, hlt, rfl⟩⟩]
        exact (ih (hnew hmem) hle).2 ⟨hall, hL, hlength⟩

theorem getServers_eq_ok_iff {value : String} {servers : List String} :
    getServers parseUrl name value = .ok servers ↔
      value.utf8ByteSize ≤ maxServerListBytes ∧
        (∀ server ∈ pieces value, serverOk parseUrl server = true) ∧
        servers = (pieces value).eraseDups ∧ servers.length ≤ maxServerCount := by
  unfold getServers pieces
  split
  · rename_i hsize
    exact ⟨nofun, fun h => absurd h.1 (by omega)⟩
  · rename_i hsize
    have hsize : value.utf8ByteSize ≤ maxServerListBytes := by omega
    split
    · constructor
      · intro h
        obtain rfl := Except.ok.inj h
        exact ⟨hsize, nofun, rfl, Nat.zero_le _⟩
      · rintro ⟨-, -, rfl, -⟩
        rfl
    · rw [foldlM_addServer_eq_ok_iff List.nodup_nil (Nat.zero_le _), List.nil_append]
      exact ⟨fun h => ⟨hsize, h⟩, fun h => h.2⟩

/-! ## Reading again -/

/-- A list that can be written with commas and read again. -/
structure Listed (parseUrl : String → Option Url) (servers : List String) : Prop where
  entry : ∀ server ∈ servers,
    serverOk parseUrl server = true ∧ ',' ∉ server.toList ∧ Str.trim server = server
  nodup : servers.Nodup
  count : servers.length ≤ maxServerCount
  size : Str.joinSize servers ≤ maxServerListBytes + 1

namespace Listed

variable {servers : List String}

theorem ne_empty (h : Listed parseUrl servers) {server : String} (hmem : server ∈ servers) :
    server ≠ "" := by
  rintro rfl
  have hok := (h.entry "" hmem).1
  simp [serverOk] at hok

theorem of_getServers {value : String} (h : getServers parseUrl name value = .ok servers) :
    Listed parseUrl servers := by
  obtain ⟨hsize, hok, rfl, hcount⟩ := getServers_eq_ok_iff.1 h
  refine ⟨fun server hmem => ?_, nodup_eraseDups _, hcount, ?_⟩
  · have hpiece := List.mem_eraseDups.1 hmem
    refine ⟨hok server hpiece, ?_⟩
    unfold pieces at hpiece
    split at hpiece
    · cases hpiece
    · obtain ⟨raw, hraw, rfl⟩ := List.mem_map.1 hpiece
      exact ⟨fun hcomma => Str.not_mem_of_mem_split hraw ((Str.trim_within raw).subset hcomma),
        Str.trim_trim raw⟩
  · calc Str.joinSize (pieces value).eraseDups
        ≤ Str.joinSize (pieces value) := Str.joinSize_le (eraseDups_sublist _).subperm
      _ ≤ Str.joinSize (Str.split ',' value) := by
          unfold pieces
          split
          · exact Nat.zero_le _
          · exact Str.joinSize_trim_le _
      _ = value.utf8ByteSize + 1 := by
          have hcomma : (',' : Char).utf8Size = 1 := by decide
          rw [← Str.utf8ByteSize_join hcomma (Str.split_ne_nil value), Str.join_split]
      _ ≤ maxServerListBytes + 1 := Nat.succ_le_succ hsize

/-- The pieces of the list that is written with commas. -/
theorem pieces_join (h : Listed parseUrl servers) : pieces (Str.join ',' servers) = servers := by
  cases servers with
  | nil => decide
  | cons first rest =>
    have hne : first :: rest ≠ [] := List.cons_ne_nil first rest
    -- the first entry has a character that is not white space
    have hblank : (Str.trim (Str.join ',' (first :: rest))).isEmpty = false := by
      rw [Bool.eq_false_iff, ne_eq, String.isEmpty_iff, Str.trim_eq_empty_iff]
      intro hall
      have hfirst : Str.trim first = "" :=
        Str.trim_eq_empty_iff.2 fun c hc => hall c (Str.mem_join List.mem_cons_self hc)
      rw [(h.entry first List.mem_cons_self).2.2] at hfirst
      exact h.ne_empty List.mem_cons_self hfirst
    rw [pieces, hblank, if_neg Bool.false_ne_true,
      Str.split_join hne fun server hmem => (h.entry server hmem).2.1]
    exact (List.map_congr_left fun server hmem => (h.entry server hmem).2.2).trans (List.map_id _)

theorem getServers_join (h : Listed parseUrl servers) :
    getServers parseUrl name (Str.join ',' servers) = .ok servers := by
  rw [getServers_eq_ok_iff, h.pieces_join]
  refine ⟨?_, fun server hmem => (h.entry server hmem).1, (eraseDups_eq_self h.nodup).symm,
    h.count⟩
  by_cases hne : servers = []
  · subst hne
    decide
  · have hcomma : (',' : Char).utf8Size = 1 := by decide
    have hjoin := Str.utf8ByteSize_join hcomma hne
    have hsize := h.size
    omega

/-- A part of the list, in any order. -/
theorem subperm {servers' : List String} (h : Listed parseUrl servers)
    (hpart : servers'.Subperm servers) : Listed parseUrl servers' where
  entry server hmem := h.entry server (hpart.subset hmem)
  nodup := by
    obtain ⟨middle, hperm, hsub⟩ := hpart
    exact hperm.nodup_iff.1 (h.nodup.sublist hsub)
  count := hpart.length_le.trans h.count
  size := (Str.joinSize_le hpart).trans h.size

end Listed

end RemoteServer
