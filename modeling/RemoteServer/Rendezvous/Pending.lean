import RemoteServer.Rendezvous.Messages

/-!
# The table of pending rendezvous

For every request that is on its way to a peer the server keeps an entry under a
random token of 32 bytes, and an answer has to bring the token.  An entry expires
after 30 seconds; it is then removed by the next reservation or by the answer that
comes too late.

`reservePendingRendezvous` and `consumePendingRendezvous` are the functions of the
server on the table, and the lemmas say what each of their results means for it.
-/

namespace RemoteServer.Rendezvous

open RustStd

def rendezvousTokenLen : Nat := 32
def pendingRendezvousTtlSecs : Nat := 30
def pendingRendezvousCapacity : Nat := 10000

inductive PendingRendezvousKind where
  | direct
  | localAddr
  | relay
deriving DecidableEq, Repr

structure PendingRendezvous where
  /-- The canonical address of the controller. -/
  requester : SocketAddr
  responderId : PeerId
  kind : PendingRendezvousKind
  relayServer : String
  createdAt : Nat
deriving DecidableEq, Repr

structure ConsumedRendezvous where
  requester : SocketAddr
  relayServer : String
deriving DecidableEq, Repr

abbrev PendingTable := HashMap Bytes PendingRendezvous

/-- Why an answer is rejected. -/
inductive Rejection where
  | malformedAddress
  | malformedToken
  | unknownToken
  | expiredToken
  | mismatch
deriving DecidableEq, Repr

def Rejection.text : Rejection → String
  | malformedAddress => "Malformed rendezvous requester address"
  | malformedToken => "Missing or malformed rendezvous token"
  | unknownToken => "Unknown or already consumed rendezvous token"
  | expiredToken => "Expired rendezvous token"
  | mismatch => "Rendezvous response does not match its request"

/-- Whether the entry is older than its lifetime. -/
def PendingRendezvous.expired (entry : PendingRendezvous) (now : Nat) : Bool :=
  decide (Instant.ofSecs pendingRendezvousTtlSecs < Instant.elapsed now entry.createdAt)

/-- `consume_pending_rendezvous_in`. -/
def consumePendingRendezvousIn (proto : Protocol) (pending : PendingTable) (token : Bytes)
    (responderId : PeerId) (claimedRequester : SocketAddr)
    (expectedKind : Option PendingRendezvousKind) (now : Nat) :
    PendingTable × Except Rejection ConsumedRendezvous :=
  if token.length ≠ rendezvousTokenLen then (pending, .error .malformedToken)
  else
    match pending.get token with
    | none => (pending, .error .unknownToken)
    | some entry =>
      if entry.expired now then (pending.remove token, .error .expiredToken)
      else if entry.responderId ≠ responderId ∨
          expectedKind.any (fun kind => decide (entry.kind ≠ kind)) ∨
          entry.requester ≠ proto.tryIntoV4 claimedRequester then
        (pending, .error .mismatch)
      else (pending.remove token, .ok ⟨entry.requester, entry.relayServer⟩)

/-- `consume_pending_rendezvous`. -/
def consumePendingRendezvous (proto : Protocol) (pending : PendingTable) (token : Bytes)
    (responderId : PeerId) (claimedRequester : Bytes)
    (expectedKind : Option PendingRendezvousKind) (now : Nat) :
    PendingTable × Except Rejection ConsumedRendezvous :=
  match ((proto.tryDecode claimedRequester).filter fun addr => decide (addr.port ≠ 0)).map
      proto.tryIntoV4 with
  | none => (pending, .error .malformedAddress)
  | some addr =>
    consumePendingRendezvousIn proto pending token responderId addr expectedKind now

/-- Why no token is reserved. -/
inductive ReserveError where
  | capacity
  /-- `SysRng` failed. -/
  | rng
deriving DecidableEq, Repr

/-- The loop that draws tokens until one is free.  The generator fails when the
list is at its end. -/
def drawToken (pending : PendingTable) : List (Vector UInt8 32) → Option Bytes
  | [] => none
  | draw :: rest =>
    if pending.containsKey draw.toList then drawToken pending rest else some draw.toList

/-- The table without its expired entries. -/
def unexpired (pending : PendingTable) (now : Nat) : PendingTable :=
  pending.retain fun _ entry => !entry.expired now

/-- `reserve_pending_rendezvous`, with the numbers that the generator yields. -/
def reservePendingRendezvous (proto : Protocol) (pending : PendingTable) (requester : SocketAddr)
    (responderId : PeerId) (kind : PendingRendezvousKind) (relayServer : String)
    (draws : List (Vector UInt8 32)) (now : Nat) : PendingTable × Except ReserveError Bytes :=
  let pending := unexpired pending now
  if pendingRendezvousCapacity ≤ pending.len then (pending, .error .capacity)
  else
    match drawToken pending draws with
    | none => (pending, .error .rng)
    | some token =>
      (pending.insert token ⟨proto.tryIntoV4 requester, responderId, kind, relayServer, now⟩,
        .ok token)

/-! ## What a result means -/

section

variable {proto : Protocol} {pending pending' : PendingTable} {token : Bytes} {id : PeerId}
  {now : Nat}

theorem consumePendingRendezvousIn_ok {claimed : SocketAddr} {kind : PendingRendezvousKind}
    {consumed : ConsumedRendezvous}
    (h : consumePendingRendezvousIn proto pending token id claimed (some kind) now =
      (pending', .ok consumed)) :
    token.length = rendezvousTokenLen ∧ pending' = pending.remove token ∧
      ∃ entry, pending.get token = some entry ∧ entry.expired now = false ∧
        entry.responderId = id ∧ entry.kind = kind ∧ entry.requester = proto.tryIntoV4 claimed ∧
        consumed = ⟨entry.requester, entry.relayServer⟩ := by
  unfold consumePendingRendezvousIn at h
  split at h
  · cases h
  · rename_i hlen
    split at h
    · cases h
    · rename_i entry hget
      split at h
      · cases h
      · rename_i hexpired
        split at h
        · cases h
        · rename_i hmatch
          cases h
          simp only [ne_eq, Option.any_some, decide_eq_true_eq, not_or, Decidable.not_not]
            at hmatch
          exact ⟨Decidable.not_not.1 hlen, rfl, entry, hget, by simpa using hexpired, hmatch.1,
            hmatch.2.1, hmatch.2.2, rfl⟩

/-- A rejected answer removes its token if that has expired, and nothing else. -/
theorem consumePendingRendezvousIn_error {claimed : SocketAddr}
    {kind : Option PendingRendezvousKind} {err : Rejection}
    (h : consumePendingRendezvousIn proto pending token id claimed kind now =
      (pending', .error err)) :
    err ≠ .expiredToken ∧ pending' = pending ∨
      err = .expiredToken ∧ pending' = pending.remove token ∧
        ∃ entry, pending.get token = some entry ∧ entry.expired now = true := by
  unfold consumePendingRendezvousIn at h
  split at h
  · cases h
    exact Or.inl ⟨Rejection.noConfusion, rfl⟩
  · split at h
    · cases h
      exact Or.inl ⟨Rejection.noConfusion, rfl⟩
    · rename_i entry hget
      split at h
      · rename_i hexpired
        cases h
        exact Or.inr ⟨rfl, rfl, entry, hget, hexpired⟩
      · split at h
        · cases h
          exact Or.inl ⟨Rejection.noConfusion, rfl⟩
        · cases h

theorem consumePendingRendezvous_ok {claimed : Bytes} {kind : PendingRendezvousKind}
    {consumed : ConsumedRendezvous}
    (h : consumePendingRendezvous proto pending token id claimed (some kind) now =
      (pending', .ok consumed)) :
    token.length = rendezvousTokenLen ∧ pending' = pending.remove token ∧
      ∃ addr entry, proto.tryDecode claimed = some addr ∧ pending.get token = some entry ∧
        entry.expired now = false ∧ entry.responderId = id ∧ entry.kind = kind ∧
        entry.requester = proto.tryIntoV4 addr ∧
        consumed = ⟨entry.requester, entry.relayServer⟩ := by
  unfold consumePendingRendezvous at h
  split at h
  · cases h
  · rename_i canonical hdecode
    obtain ⟨addr, hfilter, rfl⟩ := Option.map_eq_some_iff.1 hdecode
    obtain ⟨haddr, -⟩ := Option.filter_eq_some_iff.1 hfilter
    obtain ⟨hlen, hpending, entry, hget, hexpired, hid, hkind, hreq, hconsumed⟩ :=
      consumePendingRendezvousIn_ok h
    rw [proto.tryIntoV4_idem] at hreq
    exact ⟨hlen, hpending, addr, entry, haddr, hget, hexpired, hid, hkind, hreq, hconsumed⟩

theorem consumePendingRendezvous_error {claimed : Bytes} {kind : Option PendingRendezvousKind}
    {err : Rejection}
    (h : consumePendingRendezvous proto pending token id claimed kind now =
      (pending', .error err)) :
    err ≠ .expiredToken ∧ pending' = pending ∨
      err = .expiredToken ∧ pending' = pending.remove token ∧
        ∃ entry, pending.get token = some entry ∧ entry.expired now = true := by
  unfold consumePendingRendezvous at h
  split at h
  · cases h
    exact Or.inl ⟨Rejection.noConfusion, rfl⟩
  · exact consumePendingRendezvousIn_error h

/-- A drawn token is one of the draws and free. -/
theorem drawToken_eq_some {draws : List (Vector UInt8 32)}
    (h : drawToken pending draws = some token) :
    (∃ draw ∈ draws, token = draw.toList) ∧ pending.get token = none := by
  induction draws with
  | nil => cases h
  | cons draw rest ih =>
    rw [drawToken] at h
    split at h
    · obtain ⟨⟨draw', hmem, htoken⟩, hfree⟩ := ih h
      exact ⟨⟨draw', List.mem_cons_of_mem _ hmem, htoken⟩, hfree⟩
    · rename_i hkey
      cases h
      exact ⟨⟨draw, List.mem_cons_self, rfl⟩,
        (pending.containsKey_eq_false_iff _).1 (by simpa using hkey)⟩

theorem reservePendingRendezvous_ok {requester : SocketAddr} {kind : PendingRendezvousKind}
    {relayServer : String} {draws : List (Vector UInt8 32)}
    (h : reservePendingRendezvous proto pending requester id kind relayServer draws now =
      (pending', .ok token)) :
    (unexpired pending now).len < pendingRendezvousCapacity ∧
      (∃ draw ∈ draws, token = draw.toList) ∧ (unexpired pending now).get token = none ∧
      pending' = (unexpired pending now).insert token
        ⟨proto.tryIntoV4 requester, id, kind, relayServer, now⟩ := by
  unfold reservePendingRendezvous at h
  dsimp only at h
  split at h
  · cases h
  · rename_i hroom
    split at h
    · cases h
    · rename_i token' hdraw
      cases h
      obtain ⟨hmem, hfree⟩ := drawToken_eq_some hdraw
      exact ⟨Nat.lt_of_not_le hroom, hmem, hfree, rfl⟩

theorem reservePendingRendezvous_error {requester : SocketAddr} {kind : PendingRendezvousKind}
    {relayServer : String} {draws : List (Vector UInt8 32)} {err : ReserveError}
    (h : reservePendingRendezvous proto pending requester id kind relayServer draws now =
      (pending', .error err)) : pending' = unexpired pending now := by
  unfold reservePendingRendezvous at h
  dsimp only at h
  split at h
  · cases h
    rfl
  · split at h
    · cases h
      rfl
    · cases h

end

end RemoteServer.Rendezvous
