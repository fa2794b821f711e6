import RemoteServer.RustStd.Basic
import RemoteServer.RustStd.HashMap
import RemoteServer.RustStd.Text

/-!
# The address lists of the relay

The relay slows down the addresses of its blacklist and cuts off those of its blocklist.
A list is a set of texts: the address of a line or of a console command is parsed and
printed again, so that every spelling of an address gives the same entry.  The parser is
the one of the standard library and is a parameter.  `try_into_v4` comes from the protocol
library, and `tryIntoV4` is what the relay relies on: it rewrites the mapped addresses and
no others.

`Blocked` says what an entry is for: it stands for a client whether one of them is
written as an IPv4 address or in the IPv4-mapped form of it.  `contains_unmap_iff` and
`contains_iff` compare that with a lookup of a client's text.
-/

namespace RemoteServer.Relay

open RustStd

/-! ## Addresses -/

/-- The IPv4 address of a mapped one. -/
def unmap : IpAddr → IpAddr
  | .v4 ip => .v4 ip
  | .v6 ip =>
    match ip.toIpv4Mapped with
    | some v4 => .v4 v4
    | none => .v6 ip

/-- `try_into_v4`: a mapped address becomes an IPv4 address, others stay. -/
def tryIntoV4 : SocketAddr → SocketAddr
  | .v4 ip port => .v4 ip port
  | .v6 ip port flowinfo scopeId =>
    match ip.toIpv4Mapped with
    | some v4 => .v4 v4 port
    | none => .v6 ip port flowinfo scopeId

theorem tryIntoV4_ip (addr : SocketAddr) : (tryIntoV4 addr).ip = unmap addr.ip := by
  cases addr with
  | v4 ip port => rfl
  | v6 ip port flowinfo scopeId =>
    simp only [tryIntoV4, SocketAddr.ip, unmap]
    cases ip.toIpv4Mapped <;> rfl

theorem unmap_unmap (ip : IpAddr) : unmap (unmap ip) = unmap ip := by
  cases ip with
  | v4 ip => rfl
  | v6 ip =>
    simp only [unmap]
    cases h : ip.toIpv4Mapped with
    | none => simp [h]
    | some v4 => rfl

/-! ## Reading the lists -/

def maxIpListEntries : Nat := 65536

section Read

variable (parseIp : String → Option IpAddr)

/-- One turn of the loop of `parse_ip_values`. -/
def addIpValue (ips : List String) (rawIp : String) : Except String (List String) :=
  match parseIp (Str.trim rawIp) with
  | none => .error ("Invalid IP address: " ++ rawIp)
  | some ip =>
    if 64 < ips.length + 1 then .error "Too many IP addresses in one command"
    else .ok (ips ++ [ip.toString])

def parseIpValues (value : String) : Except String (List String) :=
  (Str.split '|' value).foldlM (addIpValue parseIp) []

/-- The address of a line, before a comment or a note. -/
def lineValue (line : String) : String :=
  let value := ((Str.splitOnce '#' line).map Prod.fst).getD line
  ((Str.splitWhitespace value).head?).getD ""

/-- One turn of the loop of `load_ip_list`, for a line with its index. -/
def addLine (path : String) (ips : HashSet String) (line : String × Nat) :
    Except String (HashSet String) :=
  let value := lineValue line.1
  if value.isEmpty then .ok ips
  else
    match parseIp value with
    | none => .error ("Invalid IP address in " ++ path ++ " at line " ++ (line.2 + 1).repr)
    | some ip =>
      let ips := ips.insert ip.toString
      if maxIpListEntries < ips.len then .error (path ++ " contains too many entries")
      else .ok ips

/-- `load_ip_list`, for the text of the file if there is one. -/
def loadIpList (path : String) (contents : Option String) : Except String (HashSet String) :=
  match contents with
  | none => .ok HashMap.empty
  | some contents => (Str.lines contents).zipIdx.foldlM (addLine parseIp path) HashMap.empty

/-! ## The console -/

structure Lists where
  blacklist : HashSet String
  blocklist : HashSet String

/-- `blacklist-add` and `blocklist-add`. -/
def listAdd (label : String) (list : HashSet String) (value : String) : HashSet String × String :=
  match parseIpValues parseIp value with
  | .ok ips =>
    let additions := (ips.filter fun ip => !list.contains ip).length
    if maxIpListEntries < list.len + additions then (list, label ++ " entry limit reached\n")
    else (list.extend ips, "")
  | .error err => (list, err ++ "\n")

/-- `blacklist-remove` and `blocklist-remove`. -/
def listRemove (list : HashSet String) (value : String) : HashSet String × String :=
  if value = "all" then (HashMap.empty, "")
  else
    match parseIpValues parseIp value with
    | .ok ips => (ips.foldl HashMap.remove list, "")
    | .error err => (list, err ++ "\n")

/-- `blacklist` and `blocklist`. -/
def listShow (list : HashSet String) : Option String → String
  | some value =>
    match parseIp value with
    | some ip => (if list.contains ip.toString then "true" else "false") ++ "\n"
    | none => "Invalid IP address: " ++ value ++ "\n"
  | none => String.join (list.entries.map fun entry => entry.1 ++ "\n")

/-- `check_cmd`, for the commands that read or change the lists. -/
def checkCmd (lists : Lists) (cmd : String) : Lists × String :=
  match Str.split ' ' (Str.trim cmd) with
  | [] => (lists, "")
  | name :: fields =>
    if name = "blacklist-add" ∨ name = "ba" then
      onBlacklist fields (listAdd parseIp "Blacklist")
    else if name = "blacklist-remove" ∨ name = "br" then onBlacklist fields (listRemove parseIp)
    else if name = "blacklist" ∨ name = "b" then
      (lists, listShow parseIp lists.blacklist fields.head?)
    else if name = "blocklist-add" ∨ name = "Ba" then
      onBlocklist fields (listAdd parseIp "Blocklist")
    else if name = "blocklist-remove" ∨ name = "Br" then onBlocklist fields (listRemove parseIp)
    else if name = "blocklist" ∨ name = "B" then
      (lists, listShow parseIp lists.blocklist fields.head?)
    else (lists, "")
where
  onBlacklist (fields : List String) (edit : HashSet String → String → HashSet String × String) :
      Lists × String :=
    match fields with
    | [] => (lists, "")
    | value :: _ =>
      let (blacklist, res) := edit lists.blacklist value
      ({ lists with blacklist := blacklist }, res)
  onBlocklist (fields : List String) (edit : HashSet String → String → HashSet String × String) :
      Lists × String :=
    match fields with
    | [] => (lists, "")
    | value :: _ =>
      let (blocklist, res) := edit lists.blocklist value
      ({ lists with blocklist := blocklist }, res)

end Read

/-! ## What an entry stands for -/

/-- An entry of the list is the address or its other form. -/
def Blocked (list : HashSet String) (ip : IpAddr) : Prop :=
  ∃ entry : IpAddr, list.contains entry.toString = true ∧ unmap entry = unmap ip

/-- The texts of an address in its two forms, looked up. -/
def isBlocked (list : HashSet String) (ip : IpAddr) : Bool :=
  match unmap ip with
  | .v4 v4 => list.contains v4.toString || list.contains ("::ffff:" ++ v4.toString)
  | .v6 v6 => list.contains v6.toString

/-- No entry is in the IPv4-mapped form. -/
def unmapped (list : HashSet String) : Bool :=
  list.entries.all fun entry => !("::ffff:".toList.isPrefixOf entry.1.toList)

section Blocked

variable {list : HashSet String} {ip : IpAddr}

theorem isBlocked_iff : isBlocked list ip = true ↔ Blocked list ip := by
  unfold isBlocked Blocked
  split
  · rename_i v4 hip
    rw [hip, Bool.or_eq_true]
    constructor
    · rintro (h | h)
      · exact ⟨.v4 v4, h, rfl⟩
      · refine ⟨.v6 v4.toIpv6Mapped, ?_, ?_⟩
        · rw [IpAddr.toString, Ipv6Addr.toString, v4.toIpv4Mapped_toIpv6Mapped]
          exact h
        · rw [unmap, v4.toIpv4Mapped_toIpv6Mapped]
    · rintro ⟨entry | entry, hentry, heq⟩
      · cases heq
        exact Or.inl hentry
      · simp only [unmap] at heq
        split at heq
        · rename_i mapped hmapped
          cases heq
          rw [IpAddr.toString, Ipv6Addr.toString, hmapped] at hentry
          exact Or.inr hentry
        · cases heq
  · rename_i v6 hip
    rw [hip]
    constructor
    · intro h
      exact ⟨.v6 v6, h, by rw [← hip, unmap_unmap]⟩
    · rintro ⟨entry | entry, hentry, heq⟩
      · cases heq
      · simp only [unmap] at heq
        split at heq
        · cases heq
        · cases heq
          exact hentry

instance : Decidable (Blocked list ip) := decidable_of_iff _ isBlocked_iff

theorem unmap_of_contains (hlist : unmapped list = true) (h : list.contains ip.toString = true) :
    unmap ip = ip := by
  cases ip with
  | v4 ip => rfl
  | v6 ip =>
    simp only [unmap]
    cases hmapped : ip.toIpv4Mapped with
    | none => rfl
    | some v4 =>
      -- the text of a mapped address begins as no entry does
      exfalso
      obtain ⟨_, hget⟩ := Option.isSome_iff_exists.1 h
      have hmem := (HashMap.get_eq_some_iff _ _ _).1 hget
      have hentry := List.all_eq_true.1 hlist _ hmem
      simp [IpAddr.toString, Ipv6Addr.toString, hmapped] at hentry

/-- The lookup of a client's IPv4 form. -/
theorem contains_unmap_iff (hlist : unmapped list = true) :
    list.contains (unmap ip).toString = true ↔ Blocked list ip := by
  constructor
  · intro h
    exact ⟨unmap ip, h, unmap_unmap ip⟩
  · rintro ⟨entry, hentry, heq⟩
    rw [unmap_of_contains hlist hentry] at heq
    rw [← heq]
    exact hentry

/-- The lookup of a client's own text, if it is not in the mapped form. -/
theorem contains_iff (hlist : unmapped list = true) (hip : unmap ip = ip) :
    list.contains ip.toString = true ↔ Blocked list ip := by
  rw [← contains_unmap_iff hlist, hip]

end Blocked

end RemoteServer.Relay
