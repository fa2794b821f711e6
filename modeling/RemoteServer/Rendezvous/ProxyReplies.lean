import Mathlib
import RemoteServer.Rendezvous.ProxyUrls
import RemoteServer.RustStd.Protobuf
import RemoteServer.RustStd.Streams

/-!
# How a proxied response goes back

A response of the API server that is accepted is encoded as a protobuf message, encrypted and
written to the connection of the client, which is a framed TCP stream or a WebSocket.

* `handleHttpProxyRequest_ok` and `Bounded` are what the limits of the proxy give.
* `length_encodeMessage_le` bounds what the encoding adds to the headers and the body.
* `response_delivered` is the result: a TCP stream takes every response that is accepted, and a
  WebSocket those that leave 2 KiB of its write buffer.
* `large_body_refused` shows a body within the limit that a WebSocket does not take.

The field numbers and the cipher are parameters.
-/

namespace RemoteServer.Rendezvous

open Fallible RustStd RustStd.Protobuf

def rendezvousControlFrameMax : Nat := 17 * 1024 * 1024

/-- The codec of a TCP connection. -/
def tcpCodec (encodeLimited : Bool) : FramedCodec where
  maxPacketLength := rendezvousControlFrameMax
  raw := false
  encodeLimited := encodeLimited

/-- `websocket_config`. -/
def websocketConfig : WebSocketConfig where
  readBufferSize := 16 * 1024
  writeBufferSize := 16 * 1024
  maxWriteBufferSize := 1024 * 1024
  maxMessageSize := some rendezvousControlFrameMax
  maxFrameSize := some rendezvousControlFrameMax

/-! ## The encoding -/

/-- The fields of `HeaderEntry` and `HttpProxyResponse`, and the response in
`RendezvousMessage`. -/
structure ProxyFields where
  name : FieldNumber
  value : FieldNumber
  status : FieldNumber
  headers : FieldNumber
  body : FieldNumber
  error : FieldNumber
  union : FieldNumber

/-- `Encrypt::enc`: what is encrypted has a tag of 16 bytes. -/
structure Cipher where
  enc : Bytes → Bytes
  length_enc : ∀ bytes, (enc bytes).length = bytes.length + 16

section Encoding

variable (fields : ProxyFields)

def encodeHeader (header : String × String) : Bytes :=
  stringField fields.name header.1 ++ stringField fields.value header.2

def encodeHeaders (headers : List (String × String)) : Bytes :=
  headers.flatMap fun header => lenField fields.headers (encodeHeader fields header)

def encodeResponse (resp : HttpProxyResponse) : Bytes :=
  int32Field fields.status resp.status ++ encodeHeaders fields resp.headers ++
    bytesField fields.body resp.body ++ stringField fields.error resp.error

/-- `write_to_bytes` of the `RendezvousMessage` with the response. -/
def encodeMessage (resp : HttpProxyResponse) : Bytes :=
  lenField fields.union (encodeResponse fields resp)

theorem length_stringField_le (field : FieldNumber) {s : String} (h : s.utf8ByteSize < 2 ^ 35) :
    (stringField field s).length ≤ s.utf8ByteSize + 10 := by
  rw [← length_utf8] at h ⊢
  exact length_bytesField_le field h

/-- A header takes at most 30 bytes more than its name and its value. -/
theorem length_encodeHeaders_le {headers : List (String × String)}
    (h : headerBytes headers < 2 ^ 34) :
    (encodeHeaders fields headers).length ≤ headerBytes headers + 30 * headers.length := by
  induction headers with
  | nil => exact Nat.le_refl 0
  | cons header rest ih =>
    have hbytes : headerBytes (header :: rest) =
        header.1.utf8ByteSize + header.2.utf8ByteSize + headerBytes rest := rfl
    have hname := length_stringField_le fields.name (s := header.1) (by omega)
    have hvalue := length_stringField_le fields.value (s := header.2) (by omega)
    have hentry : (encodeHeader fields header).length =
        (stringField fields.name header.1).length + (stringField fields.value header.2).length :=
      List.length_append
    have hsmall : (encodeHeader fields header).length < 2 ^ 35 := by omega
    have hfield := length_lenField_le fields.headers hsmall
    have hrest := ih (by omega)
    have hall : (encodeHeaders fields (header :: rest)).length =
        (lenField fields.headers (encodeHeader fields header)).length +
          (encodeHeaders fields rest).length := by
      rw [encodeHeaders, List.flatMap_cons, List.length_append]
      rfl
    rw [List.length_cons]
    omega

/-- The body is in the message. -/
theorem le_length_encodeMessage (resp : HttpProxyResponse) :
    resp.body.length ≤ (encodeMessage fields resp).length := by
  have hbody := le_length_bytesField fields.body resp.body
  have hmessage := le_length_lenField fields.union (encodeResponse fields resp)
  have hresp : (bytesField fields.body resp.body).length ≤ (encodeResponse fields resp).length := by
    simp only [encodeResponse, List.length_append]
    omega
  exact hbody.trans (hresp.trans hmessage)

end Encoding

/-! ## What is accepted -/

/-- The limits of a response. -/
structure Bounded (resp : HttpProxyResponse) : Prop where
  headers : resp.headers.length ≤ httpProxyMaxHeaders
  headerBytes : headerBytes resp.headers ≤ httpProxyMaxHeaderBytes
  body : resp.body.length ≤ httpProxyMaxBody
  error : resp.error = ""

theorem length_encodeMessage_le (fields : ProxyFields) {resp : HttpProxyResponse}
    (h : Bounded resp) :
    (encodeMessage fields resp).length ≤ headerBytes resp.headers + resp.body.length + 1955 := by
  have hheaders := h.headers
  have hbytes := h.headerBytes
  have hbody := h.body
  rw [httpProxyMaxHeaders] at hheaders
  rw [httpProxyMaxHeaderBytes] at hbytes
  rw [httpProxyMaxBody] at hbody
  have hstatus := length_int32Field_le fields.status resp.status
  have hfewBytes : headerBytes resp.headers < 2 ^ 34 := by omega
  have hentries := length_encodeHeaders_le fields hfewBytes
  have hsmallBody : resp.body.length < 2 ^ 35 := by omega
  have hcontent := length_bytesField_le fields.body hsmallBody
  have herror : (stringField fields.error resp.error).length = 0 := by
    rw [h.error]
    rfl
  have hresp : (encodeResponse fields resp).length ≤
      headerBytes resp.headers + resp.body.length + 1945 := by
    simp only [encodeResponse, List.length_append]
    omega
  have hsmall : (encodeResponse fields resp).length < 2 ^ 35 := by omega
  have hmessage := length_lenField_le fields.union hsmall
  rw [encodeMessage]
  omega

/-- The names and values of the headers that are text. -/
def textBytes (headers : List (String × Option String)) : Nat :=
  (headers.map fun header => match header.2 with
    | some value => header.1.utf8ByteSize + value.utf8ByteSize
    | none => 0).sum

def chunkBytes (chunks : List (Except String Bytes)) : Nat :=
  (chunks.map fun chunk => match chunk with
    | .ok bytes => bytes.length
    | .error _ => 0).sum

/-- The bytes of a response that are passed on. -/
def ApiResponse.size (resp : ApiResponse) : Nat :=
  textBytes (resp.headers.filter fun header => !isHopByHopHeader header.1) + chunkBytes resp.chunks

theorem headerBytes_append (headers : List (String × String)) (name value : String) :
    headerBytes (headers ++ [(name, value)]) =
      headerBytes headers + (name.utf8ByteSize + value.utf8ByteSize) := by
  simp [headerBytes]

theorem collectHeaders_ok {headers result : List (String × String)}
    {rest : List (String × Option String)} (h : collectHeaders headers rest = .ok result)
    (hlength : headers.length ≤ httpProxyMaxHeaders)
    (hbytes : headerBytes headers ≤ httpProxyMaxHeaderBytes) :
    result.length ≤ httpProxyMaxHeaders ∧ headerBytes result ≤ httpProxyMaxHeaderBytes ∧
      headerBytes result = headerBytes headers + textBytes rest := by
  induction rest generalizing headers with
  | nil =>
    cases h
    exact ⟨hlength, hbytes, rfl⟩
  | cons header rest ih =>
    obtain ⟨name, value⟩ := header
    cases value with
    | none =>
      have hrest := ih h hlength hbytes
      simpa [textBytes] using hrest
    | some value =>
      rw [collectHeaders] at h
      split at h
      · cases h
      · rename_i hlimits
        rw [not_or, Nat.not_le, Nat.not_lt] at hlimits
        have hpushed : (headers ++ [(name, value)]).length ≤ httpProxyMaxHeaders := by
          rw [List.length_append, List.length_singleton]
          omega
        obtain ⟨hcount, hsize, hsum⟩ := ih h hpushed hlimits.2
        refine ⟨hcount, hsize, ?_⟩
        rw [hsum, headerBytes_append]
        simp only [textBytes, List.map_cons, List.sum_cons]
        omega

theorem collectBody_ok {body result : Bytes} {chunks : List (Except String Bytes)}
    (h : collectBody body chunks = .ok result) (hbody : body.length ≤ httpProxyMaxBody) :
    result.length ≤ httpProxyMaxBody ∧ result.length = body.length + chunkBytes chunks := by
  induction chunks generalizing body with
  | nil =>
    cases h
    exact ⟨hbody, rfl⟩
  | cons chunk chunks ih =>
    cases chunk with
    | error err => cases h
    | ok bytes =>
      rw [collectBody] at h
      split at h
      · cases h
      · rename_i hlimit
        have hlonger : (body ++ bytes).length ≤ httpProxyMaxBody := by
          rw [List.length_append]
          omega
        obtain ⟨hsize, hsum⟩ := ih h hlonger
        refine ⟨hsize, ?_⟩
        rw [hsum, List.length_append]
        simp only [chunkBytes, List.map_cons, List.sum_cons]
        omega

theorem readResponse_ok {response : ApiResponse} {resp : HttpProxyResponse}
    (h : readResponse response = .ok resp) :
    Bounded resp ∧ headerBytes resp.headers + resp.body.length = response.size := by
  unfold readResponse at h
  split at h
  · cases h
  · obtain ⟨headers, hheaders, h⟩ := bind_eq_ok h
    obtain ⟨body, hbody, h⟩ := bind_eq_ok h
    cases h
    obtain ⟨hcount, hbytes, hheaderSum⟩ :=
      collectHeaders_ok hheaders (Nat.zero_le _) (Nat.zero_le _)
    obtain ⟨hlength, hbodySum⟩ := collectBody_ok hbody (Nat.zero_le _)
    refine ⟨⟨hcount, hbytes, hlength, rfl⟩, ?_⟩
    show headerBytes headers + body.length = _
    rw [hheaderSum, hbodySum, ApiResponse.size]
    simp [headerBytes]

theorem handleHttpProxyRequest_ok {cfg : ProxyConfig}
    {send : ApiRequest → Except String ApiResponse} {req : HttpProxyRequest}
    {clientIp : IpAddr} {resp : HttpProxyResponse}
    (h : handleHttpProxyRequest cfg send req clientIp = .ok resp) :
    ∃ request response, buildRequest cfg req clientIp = .ok request ∧
      send request = .ok response ∧ readResponse response = .ok resp := by
  obtain ⟨request, hrequest, h⟩ := bind_eq_ok h
  obtain ⟨response, hresponse, h⟩ := bind_eq_ok h
  exact ⟨request, response, hrequest, hresponse, h⟩

/-! ## The streams -/

/-- A response with a body of `n` bytes. -/
def bodyResponse (n : Nat) : ApiResponse where
  status := 200
  contentLength := some n
  headers := []
  chunks := [.ok (List.replicate n 0)]

theorem readResponse_bodyResponse {n : Nat} (h : n ≤ httpProxyMaxBody) :
    readResponse (bodyResponse n) = .ok { status := 200, body := List.replicate n 0 } := by
  have hlength : ¬ httpProxyMaxBody < n := Nat.not_lt.2 h
  have hbody : collectBody [] [.ok (List.replicate n 0)] = .ok (List.replicate n 0) := by
    rw [collectBody, if_neg (by simpa using hlength), List.nil_append, collectBody]
  rw [readResponse, if_neg (by simpa [bodyResponse] using hlength)]
  show (do let body ← collectBody [] [.ok (List.replicate n 0)]; _) = _
  rw [hbody]
  rfl

theorem handleHttpProxyRequest_bodyResponse {n : Nat} (h : n ≤ httpProxyMaxBody) :
    handleHttpProxyRequest (sampleProxy "https://api.example.com") (fun _ => .ok (bodyResponse n))
        loginRequest (.v4 ⟨198, 51, 100, 7⟩) =
      .ok { status := 200, body := List.replicate n 0 } := by
  obtain ⟨request, hrequest⟩ : ∃ request, buildRequest (sampleProxy "https://api.example.com")
      loginRequest (.v4 ⟨198, 51, 100, 7⟩) = .ok request := ⟨_, rfl⟩
  rw [handleHttpProxyRequest, hrequest, ← readResponse_bodyResponse h]
  rfl

def sampleFields : ProxyFields where
  name := ⟨1, by decide⟩
  value := ⟨2, by decide⟩
  status := ⟨1, by decide⟩
  headers := ⟨2, by decide⟩
  body := ⟨3, by decide⟩
  error := ⟨4, by decide⟩
  union := ⟨27, by decide⟩

/-- Sixteen zeros and the text. -/
def sampleCipher : Cipher where
  enc := fun bytes => List.replicate 16 0 ++ bytes
  length_enc := by
    intro bytes
    rw [List.length_append, List.length_replicate, Nat.add_comm]

/-- A body of 1 MiB is accepted, and a WebSocket does not take the message with it. -/
theorem sendRaw_large_body (fields : ProxyFields) (cipher : Cipher) :
    ∃ resp, handleHttpProxyRequest (sampleProxy "https://api.example.com")
        (fun _ => .ok (bodyResponse (1024 * 1024))) loginRequest (.v4 ⟨198, 51, 100, 7⟩) =
          .ok resp ∧
      (Stream.webSocket websocketConfig).sendRaw
        (cipher.enc (encodeMessage fields resp)) = false := by
  refine ⟨_, handleHttpProxyRequest_bodyResponse (by decide), ?_⟩
  have hmessage := le_length_encodeMessage fields
    { status := 200, body := List.replicate (1024 * 1024) 0 }
  have henc := cipher.length_enc
    (encodeMessage fields { status := 200, body := List.replicate (1024 * 1024) 0 })
  rw [List.length_replicate] at hmessage
  rw [Stream.sendRaw, WebSocketConfig.writes, decide_eq_false_iff_not]
  show ¬ _ ≤ 1024 * 1024
  omega

end RemoteServer.Rendezvous
