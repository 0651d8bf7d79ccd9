import Apsdk.Library.ByteOrder
import Apsdk.Library.Machine

/-! The receiving side of the mirroring video stream. One buffer of
`SMS_BUFFER_SIZE` bytes holds a packet header and, behind it, the payload; the
connection reads a header, then as many bytes as the header states, then
processes the packet and reads the next header. -/

namespace Apsdk.VideoStream
open Library

def SMS_BUFFER_SIZE : Nat := 4 * 1024 * 1024
def smsHeaderSize : Nat := 128

def smsVideoData : UInt16 := 0
def smsVideoCodec : UInt16 := 1
def smsPayload5 : UInt16 := 5
def smsPayload4096 : UInt16 := 4096

/-- `sms_packet_header_t`. -/
structure PacketHeader where
  payloadSize : UInt32
  payloadType : UInt16
  reserverd : UInt16
  timestamp : UInt64
  padding : Bytes
deriving DecidableEq, Repr

/-- The overloads of `swap_bytes` for the three widths, and with them `ntohs`,
`ntohl` and `ntohll` of a little-endian host. -/
def swapBytes (width value : Nat) : Nat := leValue (leBytes width value).reverse

def swapBytes16 (v : UInt16) : UInt16 := UInt16.ofNat (swapBytes 2 v.toNat)
def swapBytes32 (v : UInt32) : UInt32 := UInt32.ofNat (swapBytes 4 v.toNat)
def swapBytes64 (v : UInt64) : UInt64 := UInt64.ofNat (swapBytes 8 v.toNat)

def ntohs : UInt16 → UInt16 := swapBytes16
def ntohl : UInt32 → UInt32 := swapBytes32
def ntohll : UInt64 → UInt64 := swapBytes64

/-- The header as the host reads it from the first bytes of the buffer. -/
def PacketHeader.load (bytes : Bytes) : PacketHeader where
  payloadSize := UInt32.ofNat (leValue (bytes.take 4))
  payloadType := UInt16.ofNat (leValue ((bytes.drop 4).take 2))
  reserverd := UInt16.ofNat (leValue ((bytes.drop 6).take 2))
  timestamp := UInt64.ofNat (leValue ((bytes.drop 8).take 8))
  padding := (bytes.drop 16).take 112

def PacketHeader.zero : PacketHeader := ⟨0, 0, 0, 0, List.replicate 112 0⟩

/-- A packet in the buffer, as a callback finds it behind its pointer. -/
structure Packet where
  header : PacketHeader
  payload : Bytes
deriving DecidableEq, Repr

/-- Bytes of `buffer_`, by their offset and number. -/
structure Range where
  offset : Nat
  length : Nat
deriving DecidableEq, Repr

def Range.Inside (range : Range) (size : Nat) : Prop := range.offset + range.length ≤ size

instance (range : Range) (size : Nat) : Decidable (range.Inside size) := inferInstanceAs (Decidable (_ ≤ _))

/-- What the connection does besides changing its state: the reads it posts,
the ranges it has decrypted, the callbacks of `handler_`. -/
inductive Effect where
  | read (range : Range)
  | decryptVideoFrame (range : Range)
  | onVideoStreamData (packet : Packet)
  | onVideoStreamCodec (packet : Packet)
  | onVideoStreamHeartbeat
deriving DecidableEq, Repr

/-- `crypto_`, as far as the stream uses it: a state, and what
`decrypt_video_frame` makes of a payload. -/
structure Cipher where
  State : Type
  decryptVideoFrame : State → Bytes → State × Bytes

/-- The read that is pending. `overrun` is left undefined: a read has been
posted for more bytes than the buffer holds. -/
inductive Phase where
  | header
  | payload
  | failed
  | overrun
deriving DecidableEq, Repr

structure Connection (cipher : Cipher) where
  hasHandler : Bool
  crypto : cipher.State
  phase : Phase
  header : PacketHeader
  /-- The bytes that the pending read has transferred so far. -/
  received : Bytes

variable {cipher : Cipher}

namespace Connection

def postReceivePacketHeader (conn : Connection cipher) : Connection cipher × List Effect :=
  ({ conn with phase := .header, header := .zero, received := [] }, [.read ⟨0, smsHeaderSize⟩])

def postReceivePacketPayload (conn : Connection cipher) : Connection cipher × List Effect :=
  let range : Range := ⟨smsHeaderSize, conn.header.payloadSize.toNat⟩
  ({ conn with phase := if range.Inside SMS_BUFFER_SIZE then .payload else .overrun, received := [] }, [.read range])

def onPacketHeaderReceived (conn : Connection cipher) (bytes : Bytes) : Connection cipher × List Effect :=
  let header := PacketHeader.load bytes
  let header := { header with payloadSize := ntohl (swapBytes32 header.payloadSize) }
  let header := { header with payloadType := ntohs (swapBytes16 header.payloadType) }
  let header := { header with timestamp := ntohll (swapBytes64 header.timestamp) }
  postReceivePacketPayload { conn with header }

def callback (conn : Connection cipher) (effect : Effect) : List Effect :=
  if conn.hasHandler then [effect] else []

def processPacket (conn : Connection cipher) (payload : Bytes) : Connection cipher × List Effect :=
  if conn.header.payloadType = smsVideoData ∨ conn.header.payloadType = smsPayload4096 then
    let (crypto, payload) := cipher.decryptVideoFrame conn.crypto payload
    ({ conn with crypto },
      .decryptVideoFrame ⟨smsHeaderSize, conn.header.payloadSize.toNat⟩ ::
        conn.callback (.onVideoStreamData ⟨conn.header, payload⟩))
  else if conn.header.payloadType = smsVideoCodec then
    (conn, conn.callback (.onVideoStreamCodec ⟨conn.header, payload⟩))
  else if conn.header.payloadType = smsPayload5 then
    (conn, conn.callback .onVideoStreamHeartbeat)
  else
    (conn, [])

def onPacketPayloadReceived (conn : Connection cipher) (bytes : Bytes) : Connection cipher × List Effect :=
  let (conn, processed) := conn.processPacket bytes
  let (conn, posted) := conn.postReceivePacketHeader
  (conn, processed ++ posted)

/-- The number of bytes after which the pending read completes. -/
def wanted (conn : Connection cipher) : Nat :=
  match conn.phase with
  | .header => smsHeaderSize
  | .payload => conn.header.payloadSize.toNat
  | .failed => 0
  | .overrun => 0

end Connection

/-- What the socket does next: it yields some bytes, or an error ends the
pending read and with it the connection. -/
inductive Event where
  | readSome (bytes : Bytes)
  | failed
deriving DecidableEq, Repr

namespace Connection

/-- `async_read` takes at most what is missing of the range it was posted for,
and calls the handler once nothing is. A read of no bytes completes at once. -/
def step : Machine (Connection cipher) Event Effect
  | conn, .readSome bytes =>
    let received := conn.received ++ bytes
    if received.length ≤ conn.wanted ∧ (bytes = [] → conn.wanted = 0) then
      let more := { conn with received }
      match conn.phase with
      | .header => if received.length = conn.wanted then some (conn.onPacketHeaderReceived received) else some (more, [])
      | .payload => if received.length = conn.wanted then some (conn.onPacketPayloadReceived received) else some (more, [])
      | .failed => none
      | .overrun => none
    else none
  | conn, .failed =>
    match conn.phase with
    | .header | .payload => some ({ conn with phase := .failed }, [])
    | .failed | .overrun => none

def start (crypto : cipher.State) (hasHandler : Bool) : Connection cipher × List Effect :=
  postReceivePacketHeader ⟨hasHandler, crypto, .header, .zero, []⟩

/-- A connection from `start` on. -/
def session (crypto : cipher.State) (hasHandler : Bool) (trace : List Event) :
    Option (Connection cipher × List Effect) := do
  let (conn, posted) := start crypto hasHandler
  let (final, effects) ← Machine.run step conn trace
  return (final, posted ++ effects)

end Connection
end Apsdk.VideoStream
