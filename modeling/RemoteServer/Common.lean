import RemoteServer.RustStd.Text

/-!
# Lists of servers

`get_servers` reads a list of servers, separated by commas, and checks the syntax of
each entry without a name lookup.  The URL parser belongs to `reqwest`: what the checks
read of its result is `Url`, and the parser itself is a parameter.
-/

namespace RemoteServer

open RustStd

/-- What is read of a `reqwest::Url`. -/
structure Url where
  hostStr : Option String
  username : String
  password : Option String
  query : Option String
  fragment : Option String
  path : String
  port : Option UInt16

def maxServerListBytes : Nat := 4 * 1024
def maxServerCount : Nat := 64
def maxServerBytes : Nat := 512

/-- Something other than a host and a port is in the URL, or the port is 0. -/
def Url.hasMore (parsed : Url) : Bool :=
  !parsed.username.isEmpty || parsed.password.isSome || parsed.query.isSome ||
    parsed.fragment.isSome || !(parsed.path == "" || parsed.path == "/") || parsed.port == some 0

/-- A host of the top-level domain `.invalid`. -/
def placeholderHost (host : String) : Bool :=
  let canonicalHost := Str.toAsciiLowercase (Str.trimEndMatches '.' host)
  canonicalHost == "invalid" || Str.endsWith ".invalid" canonicalHost

section Servers

variable (parseUrl : String → Option Url) (name : String)

/-- One turn of the loop of `get_servers`; the set `seen` has the entries of `servers`. -/
def addServer (servers : List String) (rawServer : String) : Except String (List String) :=
  let server := Str.trim rawServer
  if server.isEmpty then .error (name ++ " contains an empty server entry")
  else if decide (maxServerBytes < server.utf8ByteSize) || server.toList.any isControl then
    .error (name ++ " contains an invalid server")
  else
    match parseUrl ("tcp://" ++ server) with
    | none => .error (name ++ " contains an invalid server: " ++ server)
    | some parsed =>
      match parsed.hostStr with
      | none => .error (name ++ " server has no host: " ++ server)
      | some host =>
        if parsed.hasMore then .error (name ++ " must contain only host or host:port values")
        else if placeholderHost host then .error (name ++ " contains a placeholder .invalid host")
        else if servers.contains server then .ok servers
        else if maxServerCount < servers.length + 1 then .error (name ++ " contains too many servers")
        else .ok (servers ++ [server])

def getServers (value : String) : Except String (List String) :=
  if maxServerListBytes < value.utf8ByteSize then .error (name ++ " is too large")
  else if (Str.trim value).isEmpty then .ok []
  else (Str.split ',' value).foldlM (addServer parseUrl name) []

def serverWithDefaultPort (server : String) (defaultPort : UInt16) : Except String String :=
  match parseUrl ("tcp://" ++ server) with
  | none => .error (name ++ " contains an invalid server: " ++ server)
  | some parsed =>
    if parsed.port.isSome then .ok server
    else
      match parsed.hostStr with
      | none => .error (name ++ " server has no host: " ++ server)
      | some host => .ok (host ++ ":" ++ defaultPort.toNat.repr)

end Servers

end RemoteServer
