import RemoteServer.RustStd.Basic

/-!
# The limits of message streams

A framed TCP stream puts a length before each message and refuses a message above its
`max_packet_length`, until it is switched to raw bytes.  A WebSocket refuses what it reads
above `max_frame_size` and `max_message_size`, and a frame that it should write when the
header and the payload do not fit into `max_write_buffer_size`.

Only the limits are here, and not the bytes of a frame.  Whether the encoder of a framed
stream applies the limit of the decoder is left open (`encodeLimited`).
-/

namespace RustStd

/-- The codec of a `FramedStream`. -/
structure FramedCodec where
  maxPacketLength : Nat
  raw : Bool
  encodeLimited : Bool
deriving DecidableEq

/-- `tungstenite::protocol::WebSocketConfig`. -/
structure WebSocketConfig where
  readBufferSize : Nat
  writeBufferSize : Nat
  maxWriteBufferSize : Nat
  maxMessageSize : Option Nat
  maxFrameSize : Option Nat
deriving DecidableEq

namespace FramedCodec

def decodes (codec : FramedCodec) (bytes : Bytes) : Bool :=
  codec.raw || decide (bytes.length ≤ codec.maxPacketLength)

def encodes (codec : FramedCodec) (bytes : Bytes) : Bool :=
  codec.raw || !codec.encodeLimited || decide (bytes.length ≤ codec.maxPacketLength)

end FramedCodec

/-- The header of an unmasked WebSocket frame with a payload of `n` bytes. -/
def frameHeaderLen (n : Nat) : Nat :=
  if n < 126 then 2 else if n < 65536 then 4 else 10

theorem frameHeaderLen_le (n : Nat) : frameHeaderLen n ≤ 10 := by
  unfold frameHeaderLen
  split
  · omega
  · split <;> omega

namespace WebSocketConfig

/-- A message that comes in these frames is read. -/
def reads (config : WebSocketConfig) (frames : List Bytes) : Bool :=
  (frames.all fun frame => config.maxFrameSize.all fun limit => decide (frame.length ≤ limit)) &&
    config.maxMessageSize.all fun limit => decide (frames.flatten.length ≤ limit)

/-- A message is written, in one frame, when nothing else is in the buffer. -/
def writes (config : WebSocketConfig) (bytes : Bytes) : Bool :=
  decide (frameHeaderLen bytes.length + bytes.length ≤ config.maxWriteBufferSize)

/-- With one limit for frames and messages the frames of a message do not matter. -/
theorem reads_of_length_le {config : WebSocketConfig} {limit : Nat}
    (hframe : config.maxFrameSize = some limit) (hmessage : config.maxMessageSize = some limit)
    {frames : List Bytes} (h : frames.flatten.length ≤ limit) : config.reads frames = true := by
  simp only [reads, hframe, hmessage, Option.all_some, Bool.and_eq_true, List.all_eq_true,
    decide_eq_true_eq]
  refine ⟨fun frame hframe => ?_, h⟩
  have hle := (List.sublist_flatten_of_mem hframe).length_le
  omega

end WebSocketConfig

/-- A stream of messages. -/
inductive Stream where
  | framed (codec : FramedCodec)
  | webSocket (config : WebSocketConfig)
deriving DecidableEq

/-- What comes in on a stream. -/
inductive Arrival where
  /-- A message in its frames; on a raw stream some bytes. -/
  | data (frames : List Bytes)
  /-- A WebSocket message that carries no data, such as a ping. -/
  | control
  | closed

namespace Stream

def isWs : Stream → Bool
  | framed _ => false
  | webSocket _ => true

def setRaw : Stream → Stream
  | framed codec => framed { codec with raw := true }
  | webSocket config => webSocket config

/-- The bytes that `recv` gives; none when the stream has ended or refuses them. -/
def recv : Stream → Arrival → Option Bytes
  | framed codec, .data frames =>
    if codec.decodes frames.flatten then some frames.flatten else none
  | webSocket config, .data frames => if config.reads frames then some frames.flatten else none
  | webSocket _, .control => some []
  | framed _, .control => none
  | _, .closed => none

/-- Whether `send_raw` succeeds. -/
def sendRaw : Stream → Bytes → Bool
  | framed codec, bytes => codec.encodes bytes
  | webSocket config, bytes => config.writes bytes

end Stream

end RustStd
