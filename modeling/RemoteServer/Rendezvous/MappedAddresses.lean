import RemoteServer.Rendezvous.Renaming

/-!
# IPv4 clients behind a dual-stack listener

A dual-stack listener reports an IPv4 client with the mapped IPv6 form of its address, and a trusted
proxy header gives the plain form, so the connections of one client may come in with both.  Routing
takes the canonical form of an address, but the rate limit, the persisted address, the address test
of a heartbeat and the test for a common network take the address as it is.

* `mapConnections` is a run in which some connections come in with the mapped form instead.
* `mapped_connections_same_verdicts`: if all connections from one address come in with the same
  form, no verdict changes.  The two runs are related by the renaming that exchanges the forms.
* `mapped_heartbeat_asks_again`: one connection with the other form changes a verdict.

What the protocol crate does to a mapped address is assumed in `Protocol.Canonical`.
-/

namespace RemoteServer.Rendezvous

open RustStd

/-! ## Two runs -/

/-- The connection with the mapped form of its IPv4 address. -/
def Link.mapped (link : Link) : Link :=
  match link.addr with
  | .v4 ip port => { link with addr := .v6 ip.toIpv6Mapped port 0 0 }
  | .v6 _ _ _ _ => link

/-- The same run with other source addresses: `replaced` picks the connections by their number,
and `n` connections were accepted before. -/
def mapConnections (replaced : Nat → Bool) : Nat → List Action → List Action
  | _, [] => []
  | n, .accept link :: rest =>
    .accept (if replaced n then link.mapped else link) :: mapConnections replaced (n + 1) rest
  | n, a :: rest => a :: mapConnections replaced n rest

/-- What a registration or a heartbeat was answered. -/
inductive Verdict where
  | registration (result : Except String RegisterPkResult)
  /-- Whether the heartbeat asked for the key again. -/
  | heartbeat (requestPk : Except String Bool)
deriving DecidableEq

def verdict? : PeerStore.Task → Option Verdict
  | .done (.registerPk _ _ result) => some (.registration result)
  | .done (.registerPeer _ _ result) => some (.heartbeat (result.map Prod.fst))
  | _ => none

/-- Whether a request that has been routed is one inside an intranet. -/
def Route.sameIntranet? (route : Route) : Option Bool :=
  match route.ask with
  | .punchHole _ => some (decide (route.kind = .localAddr))
  | .relay _ => none

/-- The verdict on the request that a connection makes. -/
def sameIntranet? (conn : Conn) : Option Bool :=
  match conn.status with
  | .busy (.reserve route) => route.sameIntranet?
  | .busy (.forward route _) => route.sameIntranet?
  | _ => none

/-- The verdicts in a state: those on registrations and heartbeats for each task of the store, and
those on requests for each connection. -/
def State.verdicts (s : State) : List (Option Verdict) × List (Option Bool) :=
  (s.store.tasks.map verdict?, s.conns.map sameIntranet?)

/-! ## The condition -/

/-- What the protocol crate does to mapped addresses: `try_into_v4` gives the IPv4 address, and the
encoding is that of the canonical address. -/
structure Protocol.Canonical (proto : Protocol) : Prop where
  tryIntoV4_v4 : ∀ ip port, proto.tryIntoV4 (.v4 ip port) = .v4 ip port
  tryIntoV4_mapped : ∀ (ip : Ipv4Addr) port flowinfo scopeId,
    proto.tryIntoV4 (.v6 ip.toIpv6Mapped port flowinfo scopeId) = .v4 ip port
  mangle_tryIntoV4 : ∀ addr, proto.mangle (proto.tryIntoV4 addr) = proto.mangle addr

/-- A connection comes in with the mapped form if and only if its address is a chosen one, and it
has not the mapped form of a chosen address by itself. -/
def Link.arrivesAs (chosen : Ipv4Addr → Bool) (replaced : Bool) (link : Link) : Bool :=
  match link.addr with
  | .v4 ip _ => replaced == chosen ip
  | .v6 ip _ _ _ => !ip.toIpv4Mapped.any chosen

/-- All connections from one address come in with the same form. -/
def uniform (chosen : Ipv4Addr → Bool) (replaced : Nat → Bool) : Nat → List Action → Bool
  | _, [] => true
  | n, .accept link :: rest =>
    link.arrivesAs chosen (replaced n) && uniform chosen replaced (n + 1) rest
  | n, _ :: rest => uniform chosen replaced n rest

/-- No row of the table has been persisted with a chosen address, in either form. -/
def Unmixed (codec : InfoCodec) (chosen : Ipv4Addr → Bool) (db : Database) : Prop :=
  ∀ row ∈ db.rows, ∀ info, codec.decode row.info = some info → ∀ ip, chosen ip = true →
    info.ip ≠ (IpAddr.v4 ip).toString ∧ info.ip ≠ (IpAddr.v6 ip.toIpv6Mapped).toString

/-! ## The exchange of the two forms -/

section Exchange

variable {chosen : Ipv4Addr → Bool} (hchosen : Mapped.Exchangeable chosen) {cfg : Config}

theorem isLan_eq (cfg : Config) (addr : SocketAddr) :
    cfg.isLan addr = cfg.mask.any fun network =>
      match addr.ip with
      | .v4 ip => network ip
      | .v6 ip => ip.toIpv4.any network := by
  unfold Config.isLan
  cases cfg.mask <;> rfl

theorem blind_exchange (hproto : cfg.protocol.Canonical) : cfg.Blind (Mapped.exchange hchosen) := by
  have htry : ∀ addr, cfg.protocol.tryIntoV4 (Mapped.exchangeAddr chosen addr) =
      cfg.protocol.tryIntoV4 addr := by
    intro addr
    cases addr with
    | v4 ip port =>
      by_cases hip : chosen ip = true
      · simp [Mapped.exchangeAddr, hip, hproto.tryIntoV4_v4, hproto.tryIntoV4_mapped]
      · simp [Mapped.exchangeAddr, hip]
    | v6 ip port flowinfo scopeId =>
      cases hmapped : ip.toIpv4Mapped with
      | none => simp [Mapped.exchangeAddr, hmapped]
      | some v4 =>
        obtain rfl := Ipv4Addr.toIpv6Mapped_of_toIpv4Mapped hmapped
        by_cases hip : chosen v4 = true
        · simp [Mapped.exchangeAddr, hmapped, hip, hproto.tryIntoV4_v4, hproto.tryIntoV4_mapped]
        · simp [Mapped.exchangeAddr, hmapped, hip]
  refine ⟨htry, fun addr => ?_, fun addr => ?_⟩
  · rw [← hproto.mangle_tryIntoV4, ← hproto.mangle_tryIntoV4 addr]
    exact congrArg _ (htry addr)
  · have hip : ((Mapped.exchange hchosen).addr addr).ip = Mapped.exchangeIp chosen addr.ip :=
      Mapped.exchangeAddr_ip chosen addr
    rw [isLan_eq, isLan_eq, hip]
    rcases Mapped.exchangeIp_cases chosen addr.ip with ⟨ip, -, h, hx⟩ | ⟨ip, -, h, hx⟩ | ⟨hx, -⟩
    · rw [hx, h]
      simp [Ipv6Addr.toIpv4_toIpv6Mapped]
    · rw [hx, h]
      simp [Ipv6Addr.toIpv4_toIpv6Mapped]
    · rw [hx]

/-- A uniform replacement is the exchange. -/
theorem mapConnections_eq {replaced : Nat → Bool} {n : Nat} {as : List Action}
    (h : uniform chosen replaced n as = true) :
    mapConnections replaced n as = as.map (Action.rename (Mapped.exchange hchosen)) := by
  induction as generalizing n with
  | nil => rfl
  | cons a rest ih =>
    cases a with
    | accept link =>
      rw [uniform, Bool.and_eq_true] at h
      rw [mapConnections, List.map_cons, ih h.2]
      congr 2
      have hlink : (if replaced n then link.mapped else link).addr =
          Mapped.exchangeAddr chosen link.addr := by
        obtain ⟨addr, ws, relayServers⟩ := link
        cases addr with
        | v4 ip port =>
          have hip : replaced n = chosen ip := by simpa [Link.arrivesAs] using h.1
          rw [hip]
          by_cases hip : chosen ip = true
          · simp [Mapped.exchangeAddr, Link.mapped, hip]
          · simp [Mapped.exchangeAddr, hip]
        | v6 ip port flowinfo scopeId =>
          have hnot : ip.toIpv4Mapped.any chosen = false := by simpa [Link.arrivesAs] using h.1
          have hkept : (if replaced n then Link.mapped ⟨.v6 ip port flowinfo scopeId, ws, relayServers⟩
              else ⟨.v6 ip port flowinfo scopeId, ws, relayServers⟩) =
              ⟨.v6 ip port flowinfo scopeId, ws, relayServers⟩ := by
            split <;> rfl
          rw [hkept]
          cases hmapped : ip.toIpv4Mapped with
          | none => simp [Mapped.exchangeAddr, hmapped]
          | some v4 =>
            rw [hmapped, Option.any_some] at hnot
            simp [Mapped.exchangeAddr, hmapped, hnot]
      have hrest : ∀ link' : Link, link'.addr = Mapped.exchangeAddr chosen link.addr →
          link'.ws = link.ws → link'.relayServers = link.relayServers →
          link' = link.rename (Mapped.exchange hchosen) := by
        rintro ⟨addr, ws, relayServers⟩ rfl rfl rfl
        rfl
      refine hrest _ hlink ?_ ?_
      · split
        · unfold Link.mapped
          split <;> rfl
        · rfl
      · split
        · unfold Link.mapped
          split <;> rfl
        · rfl
    | _ => exact congrArg (List.cons _) (ih h)

theorem rename_database {codec : InfoCodec} {db : Database} (h : Unmixed codec chosen db) :
    db.rename (Mapped.exchange hchosen) codec = db := by
  apply Database.ext_rows
  refine (List.map_congr_left fun row hrow => ?_).trans (List.map_id _)
  have hinfo : codec.rename (Mapped.exchange hchosen) row.info = row.info := by
    unfold InfoCodec.rename
    cases hdecode : codec.decode row.info with
    | none => rfl
    | some info =>
      refine if_pos ?_
      have hkept : Mapped.exchangeText chosen info.ip = info.ip :=
        Mapped.exchangeText_of_ne fun ip hip => by
          rw [← Ipv6Addr.toString_toIpv6Mapped]
          exact h row hrow info hdecode ip hip
      rw [PeerInfo.rename]
      exact congrArg PeerInfo.mk hkept
  rw [Row.rename, hinfo]
  rfl

theorem rename_initial {codec : InfoCodec} {db : Database} (h : Unmixed codec chosen db)
    (now : Nat) :
    (State.initial now db).rename (Mapped.exchange hchosen) codec = State.initial now db := by
  have hpeers : (fun _ : Nat => (Peer.fresh now).rename (Mapped.exchange hchosen)) =
      fun _ => Peer.fresh now := by
    funext _
    exact Peer.rename_fresh _ now
  have hstore : (PeerStore.State.initial now db).rename (Mapped.exchange hchosen) codec =
      PeerStore.State.initial now db := by
    simp only [PeerStore.State.rename, PeerStore.Store.rename, PeerStore.State.initial, hpeers,
      rename_database hchosen h]
    rfl
  simp only [State.rename, Shared.rename, State.initial, hstore]
  rfl

end Exchange

/-! ## Verdicts -/

theorem verdict?_rename (ρ : AddrRenaming) (codec : InfoCodec) (t : PeerStore.Task) :
    verdict? (t.rename ρ codec) = verdict? t := by
  cases t with
  | done answer => cases answer <;> rfl
  | _ => rfl

theorem sameIntranet?_rename (ρ : AddrRenaming) (conn : Conn) :
    sameIntranet? (conn.rename ρ) = sameIntranet? conn := by
  obtain ⟨link, status⟩ := conn
  cases status with
  | busy h => cases h <;> rfl
  | _ => rfl

theorem verdicts_rename (ρ : AddrRenaming) (codec : InfoCodec) (s : State) :
    (s.rename ρ codec).verdicts = s.verdicts := by
  refine Prod.ext ?_ ?_
  · show (s.store.tasks.map (PeerStore.Task.rename ρ codec)).map verdict? = _
    rw [List.map_map]
    exact List.map_congr_left fun t _ => verdict?_rename ρ codec t
  · show (s.conns.map (Conn.rename ρ)).map sameIntranet? = _
    rw [List.map_map]
    exact List.map_congr_left fun conn _ => sameIntranet?_rename ρ conn

/-- If all connections from one address come in with the same form, the two runs exist together and
have the same verdicts. -/
theorem mapped_connections_same_verdicts (cfg : Config) (hproto : cfg.protocol.Canonical)
    (chosen : Ipv4Addr → Bool) (hchosen : Mapped.Exchangeable chosen) (now : Nat) (db : Database)
    (hdb : Unmixed cfg.peerStore.infoCodec chosen db) (replaced : Nat → Bool) (as : List Action)
    (huniform : uniform chosen replaced 0 as = true) :
    (Lts.exec (step cfg) (State.initial now db) (mapConnections replaced 0 as)).map
        (fun y => y.1.verdicts) =
      (Lts.exec (step cfg) (State.initial now db) as).map (fun y => y.1.verdicts) := by
  have hexec := Lts.exec_map (step_rename (blind_exchange hchosen hproto)) (State.initial now db) as
  rw [rename_initial hchosen hdb now, ← mapConnections_eq hchosen huniform] at hexec
  rw [hexec, Option.map_map]
  congr 1
  funext y
  exact verdicts_rename _ _ y.1

/-! ## A run -/

/-- The protocol crate without encryption, with the encoding of the canonical address. -/
def Protocol.canonical : Protocol :=
  { Protocol.plain with mangle := fun addr => plainMangle (plainTryIntoV4 addr) }

theorem Protocol.canonical_spec : Protocol.canonical.Canonical where
  tryIntoV4_v4 := fun _ _ => rfl
  tryIntoV4_mapped := by
    intro ip port flowinfo scopeId
    show plainTryIntoV4 (.v6 ip.toIpv6Mapped port flowinfo scopeId) = _
    rw [plainTryIntoV4, Ipv6Addr.isLoopback_toIpv6Mapped, if_neg Bool.false_ne_true,
      Ipv6Addr.toIpv4_toIpv6Mapped]
  mangle_tryIntoV4 := fun addr => congrArg plainMangle (Protocol.plain.tryIntoV4_idem addr)

def canonicalConfig : Config := { sampleConfig with protocol := .canonical }

/-- A second connection of the registered client sends a heartbeat. -/
def heartbeatRun : List Action :=
  registered ++ [.accept ⟨.v4 ⟨192, 0, 2, 1⟩ 5001, false, []⟩,
    .message 1 (.registerPeer ⟨PeerStore.sampleId, 0⟩)] ++ handles 1 1 ++ stores 2 3 ++ handles 1 1

def sampleChosen (ip : Ipv4Addr) : Bool := ip == ⟨192, 0, 2, 1⟩

theorem mapped_connections_same_verdicts_both :
    (Lts.exec (step canonicalConfig) (State.initial PeerStore.sampleStart .empty)
        (mapConnections (fun _ => true) 0 heartbeatRun)).map (fun y => y.1.verdicts) =
      (Lts.exec (step canonicalConfig) (State.initial PeerStore.sampleStart .empty)
        heartbeatRun).map (fun y => y.1.verdicts) := by
  refine mapped_connections_same_verdicts canonicalConfig Protocol.canonical_spec sampleChosen
    ⟨?_, by decide⟩ PeerStore.sampleStart .empty ?_ _ _ (by decide +kernel)
  · intro ip hip
    obtain rfl : ip = ⟨192, 0, 2, 1⟩ := by simpa [sampleChosen] using hip
    rfl
  · intro row hrow
    cases hrow

/-- The last verdict of a run. -/
def lastVerdict (y : State × List Event) : Option Verdict := (y.1.verdicts.1.getLast?).join

/-- The heartbeat of the second connection is accepted, and it asks for the key again when the
connection comes in with the mapped form of the same address. -/
theorem mapped_heartbeat_asks_again :
    (Lts.exec (step canonicalConfig) (State.initial PeerStore.sampleStart .empty)
        heartbeatRun).map lastVerdict = some (some (.heartbeat (.ok false))) ∧
      (Lts.exec (step canonicalConfig) (State.initial PeerStore.sampleStart .empty)
        (mapConnections (fun c => c == 1) 0 heartbeatRun)).map lastVerdict =
          some (some (.heartbeat (.ok true))) :=
  ⟨by decide +kernel, by decide +kernel⟩

end RemoteServer.Rendezvous
