import Mathlib
import RemoteServer.Common
import RemoteServer.Rendezvous.Messages
import RemoteServer.Whatwg.Url

/-!
# The API proxy

A client sends a request for the HTTP API over its connection, and the server passes it on to
the API server that is configured.

* `validateApiServer` is the check of the setting when the server starts.
* `buildRequest` is `handle_http_proxy_request` up to the call of the API server, and
  `readResponse` is the rest of it.

The URL parser is that of the URL standard, with the host parser as a parameter.  The texts of
the errors of libraries are not modelled.
-/

namespace RemoteServer.Rendezvous

open RustStd

def httpProxyMaxBody : Nat := 16 * 1024 * 1024
def httpProxyMaxPath : Nat := 4 * 1024
def httpProxyMaxHeaders : Nat := 64
def httpProxyMaxHeaderBytes : Nat := 32 * 1024

structure ProxyConfig where
  apiServer : String
  url : Whatwg.Rules
  parseIp : String → Option IpAddr

namespace ProxyConfig

/-- `reqwest::Url::parse`. -/
def parseUrl (cfg : ProxyConfig) (s : String) : Option Whatwg.Url := Whatwg.parse cfg.url s.toList

/-- Whether plain HTTP may be used for the host. -/
def isLoopback (cfg : ProxyConfig) (host : String) : Bool :=
  let inner :=
    if Str.startsWith "[" host && Str.endsWith "]" host then
      String.ofList (host.toList.drop 1).dropLast
    else host
  Str.eqIgnoreAsciiCase host "localhost" || (cfg.parseIp inner).any IpAddr.isLoopback

end ProxyConfig

/-- `validate_api_server`. -/
def validateApiServer (cfg : ProxyConfig) : Except String Unit :=
  if cfg.apiServer.isEmpty then .ok ()
  else
    match cfg.parseUrl cfg.apiServer with
    | none => .error "invalid URL"
    | some url =>
      match url.host with
      | none => .error "API server must include a host"
      | some host =>
        if placeholderHost host then .error "API server contains a placeholder .invalid host"
        else if !Whatwg.isHttp url.scheme || !url.username.isEmpty || !url.password.isEmpty ||
            url.query.isSome || url.fragment.isSome || url.pathText != ['/'] ||
            url.port == some 0 then
          .error ("API server must be an HTTP(S) origin with a valid port and without " ++
            "credentials, path, query or fragment")
        else if url.scheme == "http".toList && !cfg.isLoopback host then
          .error "Remote API servers must use HTTPS"
        else .ok ()

/-! ## Requests -/

inductive Method where
  | get
  | post
  | put
  | delete
deriving DecidableEq, Repr

structure HttpProxyRequest where
  method : String
  path : String
  headers : List (String × String)
  body : Bytes

/-- The request for the API server. -/
structure ApiRequest where
  method : Method
  url : String
  headers : List (String × String)
  body : Bytes

/-- `allowed_http_proxy_path`. -/
def allowedHttpProxyPath (path : String) : Bool :=
  path == "/api" || Str.startsWith "/api/" path || Str.startsWith "/lic/web/api/" path

/-- The path up to its query. -/
def rawPath (path : String) : String := ((Str.splitOnce '?' path).map Prod.fst).getD path

/-- `validate_http_proxy_path`. -/
def validateHttpProxyPath (cfg : ProxyConfig) (path : String) : Except String Unit :=
  if path.isEmpty || decide (httpProxyMaxPath < path.utf8ByteSize) || !Str.startsWith "/" path ||
      Str.startsWith "//" path || Str.contains "://" path || path.toList.contains '\\' ||
      path.toList.contains '#' then
    .error "HTTP proxy path must be relative"
  else if path.toList.any isControl then .error "HTTP proxy path contains control characters"
  else if ["%2e", "%2f", "%5c", "%25"].any fun mark =>
      Str.contains mark (Str.toAsciiLowercase (rawPath path)) then
    .error "HTTP proxy path contains an ambiguous encoded path segment"
  else
    match cfg.parseUrl ("http://proxy.invalid" ++ path) with
    | none => .error "invalid URL"
    | some parsed =>
      if parsed.host != some "proxy.invalid" ||
          !allowedHttpProxyPath (String.ofList parsed.pathText) then
        .error "HTTP proxy path is not allowed"
      else .ok ()

/-- `is_allowed_http_proxy_request_header`. -/
def isAllowedHttpProxyRequestHeader (name : String) : Bool :=
  ["accept", "accept-language", "authorization", "content-type", "if-modified-since",
    "if-none-match", "range", "user-agent", "x-csrf-token", "x-requested-with"].contains
    (Str.toAsciiLowercase name)

/-- `is_hop_by_hop_header`. -/
def isHopByHopHeader (name : String) : Bool :=
  ["connection", "keep-alive", "proxy-authenticate", "proxy-authorization", "te", "trailer",
    "transfer-encoding", "upgrade", "host", "content-length"].contains (Str.toAsciiLowercase name)

/-- `http_proxy_method`. -/
def httpProxyMethod (method : String) : Except String Method :=
  match String.ofList (method.toList.map Char.toUpper) with
  | "GET" => .ok .get
  | "POST" => .ok .post
  | "PUT" => .ok .put
  | "DELETE" => .ok .delete
  | _ => .error "HTTP proxy method is not allowed"

/-- The text of a header value: tabs, and visible ASCII characters and spaces. -/
def headerValueFromStr (value : String) : Except String String :=
  if value.toList.all fun c => c == '\t' || decide (0x20 ≤ c.toNat ∧ c.toNat < 0x7f) then .ok value
  else .error "failed to parse header value"

/-- The names and values together. -/
def headerBytes (headers : List (String × String)) : Nat :=
  (headers.map fun header => header.1.utf8ByteSize + header.2.utf8ByteSize).sum

/-- The API server without the slashes at its end. -/
def ProxyConfig.base (cfg : ProxyConfig) : String := Str.trimEndMatches '/' cfg.apiServer

/-- `handle_http_proxy_request` up to `send`. -/
def buildRequest (cfg : ProxyConfig) (req : HttpProxyRequest) (clientIp : IpAddr) :
    Except String ApiRequest := do
  validateHttpProxyPath cfg req.path
  if httpProxyMaxBody < req.body.length then .error "HTTP proxy request body is too large"
  else if httpProxyMaxHeaders < req.headers.length then
    .error "HTTP proxy request has too many headers"
  -- a sum that overflows is above the limit as well
  else if httpProxyMaxHeaderBytes < headerBytes req.headers then
    .error "HTTP proxy request headers are too large"
  else do
    let method ← httpProxyMethod req.method
    if cfg.base.isEmpty then .error "API server is not configured"
    else do
      let headers ← (req.headers.filter fun header => isAllowedHttpProxyRequestHeader header.1).mapM
        fun header => (headerValueFromStr header.2).map fun value => (header.1, value)
      return {
        method := method
        url := cfg.base ++ req.path
        headers := headers ++ [("accept-encoding", "identity"),
          ("x-forwarded-for", clientIp.toString), ("x-real-ip", clientIp.toString)]
        body := req.body }

/-! ## Responses -/

/-- What is read of a `reqwest::Response`. -/
structure ApiResponse where
  status : UInt16
  contentLength : Option Nat
  /-- The values that are no text are `none`. -/
  headers : List (String × Option String)
  /-- The pieces of the body, up to an error. -/
  chunks : List (Except String Bytes)

/-- The loop over the headers of a response, with those collected so far. -/
def collectHeaders (headers : List (String × String)) :
    List (String × Option String) → Except String (List (String × String))
  | [] => .ok headers
  | (_, none) :: rest => collectHeaders headers rest
  | (name, some value) :: rest =>
    if httpProxyMaxHeaders ≤ headers.length ∨
        httpProxyMaxHeaderBytes < headerBytes (headers ++ [(name, value)]) then
      .error "HTTP proxy response headers are too large"
    else collectHeaders (headers ++ [(name, value)]) rest

/-- The loop over the chunks of a body. -/
def collectBody (body : Bytes) : List (Except String Bytes) → Except String Bytes
  | [] => .ok body
  | .error err :: _ => .error err
  | .ok chunk :: rest =>
    if httpProxyMaxBody < body.length + chunk.length then
      .error "HTTP proxy response body is too large"
    else collectBody (body ++ chunk) rest

/-- `handle_http_proxy_request` from the response on. -/
def readResponse (resp : ApiResponse) : Except String HttpProxyResponse :=
  if httpProxyMaxBody < resp.contentLength.getD 0 then
    .error "HTTP proxy response body is too large"
  else do
    let headers ← collectHeaders [] (resp.headers.filter fun header => !isHopByHopHeader header.1)
    let body ← collectBody [] resp.chunks
    return { status := resp.status.toNat, headers := headers, body := body }

/-- `handle_http_proxy_request`, with what the API server answers. -/
def handleHttpProxyRequest (cfg : ProxyConfig) (send : ApiRequest → Except String ApiResponse)
    (req : HttpProxyRequest) (clientIp : IpAddr) : Except String HttpProxyResponse := do
  let request ← buildRequest cfg req clientIp
  let resp ← send request
  readResponse resp

end RemoteServer.Rendezvous
