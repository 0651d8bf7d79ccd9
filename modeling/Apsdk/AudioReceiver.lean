import Apsdk.Mirroring
import Apsdk.AudioStream

/-! The receiver of the mirroring audio stream over the bytes that it works on. A
datagram arrives in `recv_buf_` and is put into host order there; it is decrypted where
it is, or in the copy that was cached of it. -/

namespace Apsdk.AudioReceiver
open Library AudioStream

def RTP_PACKET_MAX_LEN : Nat := 2048

/-- `sizeof(rtp_audio_data_packet_t)`. -/
def rtpAudioDataPacketSize : Nat := 12

/-- AES in CBC mode behind its key schedule. -/
structure CbcCipher where
  Key : Type
  /-- A key schedule of zeros. -/
  blank : Key
  /-- The schedule of a key, written over another one. -/
  setDecryptKey : Bytes → Key → Key
  /-- `AES_cbc_encrypt` to decrypt in place: the data, and what it leaves in its IV. -/
  cbcEncrypt : Key → Bytes → Bytes → Bytes × Bytes
  length_cbcEncrypt : ∀ key iv data, (cbcEncrypt key iv data).1.length = data.length

/-- Data that stays as it is. -/
instance : Inhabited CbcCipher where
  default := {
    Key := Bytes
    blank := []
    setDecryptKey := fun key _ => key
    cbcEncrypt := fun _ iv data => (data, iv)
    length_cbcEncrypt := fun _ _ _ => rfl }

/-- Bytes read from the front of a vector; there may not be as many. -/
def readFront (count : Nat) (bytes : Bytes) : Option Bytes := if count ≤ bytes.length then some (bytes.take count) else none

def writeAt (offset : Nat) (bytes buffer : Bytes) : Bytes :=
  buffer.take offset ++ bytes ++ buffer.drop (offset + bytes.length)

/-- The half of `ap_aes_cbc128` that decrypts. -/
structure AesCbc128 (cbc : CbcCipher) where
  deCtx : cbc.Key
  deIv : Bytes

namespace AesCbc128
variable {cbc : CbcCipher}

def new : AesCbc128 cbc := ⟨cbc.blank, List.replicate 16 0⟩

/-- Both pointers are read for 16 bytes. -/
def setDeKeyIv (aes : AesCbc128 cbc) (key iv : Bytes) : Option (AesCbc128 cbc) := do
  let aes := { aes with deCtx := cbc.blank, deIv := List.replicate 16 0 }
  let key ← readFront 16 key
  let aes := { aes with deCtx := cbc.setDecryptKey key aes.deCtx }
  let iv ← readFront 16 iv
  return { aes with deIv := iv }

def decryptBuffer (aes : AesCbc128 cbc) (buffer : Bytes) : AesCbc128 cbc × Bytes :=
  let (buffer, deIv) := cbc.cbcEncrypt aes.deCtx aes.deIv buffer
  ({ aes with deIv }, buffer)

end AesCbc128

variable {prims : Primitives} {cbc : CbcCipher} {queue : PriorityQueue}

/-- `crypto_` as the audio stream uses it. -/
structure Crypto (prims : Primitives) (cbc : CbcCipher) where
  keys : ApCrypto prims
  audioStreamAesCbc : AesCbc128 cbc

namespace Crypto

def new (server : ServerKeyChain) : Crypto prims cbc := ⟨.new server, .new⟩

def decryptAudioData (crypto : Crypto prims cbc) (data : Bytes) : Option (Crypto prims cbc × Bytes) := do
  let aes ← crypto.audioStreamAesCbc.setDeKeyIv crypto.keys.clientAesKey crypto.keys.clientAesIv
  let (aes, data) := aes.decryptBuffer data
  return ({ crypto with audioStreamAesCbc := aes }, data)

end Crypto

/-- The fields of `rtp_packet_header_t` as the host reads them. -/
def sequenceAt (buffer : Bytes) : UInt16 := UInt16.ofNat (leValue ((buffer.drop 2).take 2))

def timestampAt (buffer : Bytes) : UInt32 := UInt32.ofNat (leValue ((buffer.drop 4).take 4))

/-- A packet behind a pointer, with a payload of a given length. -/
def load (buffer : Bytes) (payloadLength : Nat) : RtpPacket where
  flags := buffer.getD 0 0
  marker := 128 ≤ (buffer.getD 1 0).toNat
  payloadType := (buffer.getD 1 0).toNat % 128
  sequence := sequenceAt buffer
  timestamp := timestampAt buffer
  ssrc := UInt32.ofNat (leValue ((buffer.drop 8).take 4))
  payload := (buffer.drop rtpAudioDataPacketSize).take payloadLength

/-- The two fields that `data_handler` converts in place. -/
def toHostOrder (buffer : Bytes) : Bytes :=
  let buffer := writeAt 2 (leBytes 2 (VideoStream.ntohs (sequenceAt buffer)).toNat) buffer
  writeAt 4 (leBytes 4 (VideoStream.ntohl (timestampAt buffer)).toNat) buffer

/-- What `on_audio_stream_data` receives. -/
structure AudioData where
  packet : RtpPacket
  payloadLength : Nat
deriving DecidableEq, Repr

def decryptPayload (crypto : Crypto prims cbc) (packet : Bytes) (encryptedLength : UInt32) : Option (Crypto prims cbc × Bytes) :=
  if encryptedLength ≠ 0 then do
    let (crypto, data) ← crypto.decryptAudioData ((packet.drop rtpAudioDataPacketSize).take encryptedLength.toNat)
    return (crypto, writeAt rtpAudioDataPacketSize data packet)
  else some (crypto, packet)

def audioDataPacket (hasHandler : Bool) (crypto : Crypto prims cbc) (packet : Bytes) (length : Nat) :
    Option ((Crypto prims cbc × Bytes) × List AudioData) :=
  if hasHandler then do
    let payloadLength := UInt32.ofNat length - UInt32.ofNat rtpAudioDataPacketSize
    let encryptedLength := payloadLength / 16 * 16
    let (crypto, packet) ← decryptPayload crypto packet encryptedLength
    return ((crypto, packet), [⟨load packet payloadLength.toNat, payloadLength.toNat⟩])
  else some ((crypto, packet), [])

/-- `cached_packet_t`. -/
structure CachedDatagram where
  sequence : UInt16
  data : Bytes

def CachedDatagram.key (packet : CachedDatagram) : Nat := packet.sequence.toNat

/-- `ap_mirroring_audio_stream_service`. -/
structure Receiver (prims : Primitives) (cbc : CbcCipher) (queue : PriorityQueue) where
  hasHandler : Bool
  crypto : Crypto prims cbc
  recvBuf : Bytes
  expectedSeq : UInt16
  cachedQueue : queue.Q CachedDatagram

/-- What a receive has written to the front of `recv_buf_`. -/
structure Received where
  bytes : Bytes
  fits : bytes.length ≤ RTP_PACKET_MAX_LEN

namespace Receiver

/-- A constructed service. -/
def new (hasHandler : Bool) (crypto : Crypto prims cbc) : Receiver prims cbc queue :=
  ⟨hasHandler, crypto, List.replicate RTP_PACKET_MAX_LEN 0, 0, queue.empty⟩

def cached (receiver : Receiver prims cbc queue) : Nat := queue.size receiver.cachedQueue

def cachePacket (receiver : Receiver prims cbc queue) (seq : UInt16) (length : Nat) : Receiver prims cbc queue :=
  { receiver with
    cachedQueue := queue.push CachedDatagram.key ⟨seq, receiver.recvBuf.take length⟩ receiver.cachedQueue }

/-- At most `n` rounds of the loop of `process_cached_packet`. -/
def processCachedPacketLoop (flush : Bool) : Nat → Receiver prims cbc queue → Option (Receiver prims cbc queue × List AudioData)
  | 0, receiver => some (receiver, [])
  | n + 1, receiver =>
    match queue.pop CachedDatagram.key receiver.cachedQueue with
    | none => some (receiver, [])
    | some (p, rest) =>
      if flush || p.sequence == receiver.expectedSeq then do
        let ((crypto, _), calls) ← audioDataPacket receiver.hasHandler receiver.crypto p.data p.data.length
        let (receiver, more) ← processCachedPacketLoop flush n
          { receiver with crypto, cachedQueue := rest, expectedSeq := p.sequence + 1 }
        return (receiver, calls ++ more)
      else
        some (receiver, [])

def processCachedPacket (receiver : Receiver prims cbc queue) (flush : Bool) : Option (Receiver prims cbc queue × List AudioData) :=
  processCachedPacketLoop flush receiver.cached receiver

/-- The part of `data_handler` that follows the checks on length and type. -/
def audioData (receiver : Receiver prims cbc queue) (bytesTransferred : Nat) : Option (Receiver prims cbc queue × List AudioData) :=
  let sequence := sequenceAt receiver.recvBuf
  let receiver := if receiver.expectedSeq == 0 then { receiver with expectedSeq := sequence } else receiver
  if sequence == receiver.expectedSeq then do
    let ((crypto, recvBuf), calls) ← audioDataPacket receiver.hasHandler receiver.crypto receiver.recvBuf bytesTransferred
    let (receiver, more) ← processCachedPacket { receiver with crypto, recvBuf, expectedSeq := sequence + 1 } false
    return (receiver, calls ++ more)
  else if sequence > receiver.expectedSeq then
    if receiver.cached < MAX_CACHED_PACKET_SIZE then some (receiver.cachePacket sequence bytesTransferred, [])
    else processCachedPacket receiver true
  else
    some (receiver, [])

def dataHandler (receiver : Receiver prims cbc queue) (bytesTransferred : Nat) : Option (Receiver prims cbc queue × List AudioData) :=
  if bytesTransferred < RTP_PACKET_MIN_LEN then some (receiver, [])
  else
    let receiver := { receiver with recvBuf := toHostOrder receiver.recvBuf }
    if (load receiver.recvBuf 0).payloadType != rtpAudioData then some (receiver, [])
    else receiver.audioData bytesTransferred

theorem audioData_due (receiver : Receiver prims cbc queue) (bytesTransferred : Nat)
    (due : receiver.expectedSeq = 0 ∨ sequenceAt receiver.recvBuf = receiver.expectedSeq) :
    receiver.audioData bytesTransferred = do
      let ((crypto, recvBuf), calls) ← audioDataPacket receiver.hasHandler receiver.crypto receiver.recvBuf bytesTransferred
      let (last, more) ← processCachedPacket
        { receiver with crypto, recvBuf, expectedSeq := sequenceAt receiver.recvBuf + 1 } false
      return (last, calls ++ more) := by
  by_cases unset : receiver.expectedSeq = 0
  · simp only [audioData, unset, beq_self_eq_true, if_true]
  · have same := due.resolve_left unset
    simp only [audioData, beq_iff_eq, unset, if_false, same, if_true]

theorem audioData_early (receiver : Receiver prims cbc queue) (bytesTransferred : Nat) (started : receiver.expectedSeq ≠ 0)
    (other : sequenceAt receiver.recvBuf ≠ receiver.expectedSeq) :
    receiver.audioData bytesTransferred =
      if receiver.expectedSeq < sequenceAt receiver.recvBuf then
        if receiver.cached < MAX_CACHED_PACKET_SIZE then
          some (receiver.cachePacket (sequenceAt receiver.recvBuf) bytesTransferred, [])
        else receiver.processCachedPacket true
      else some (receiver, []) := by
  simp only [audioData, beq_iff_eq, started, if_false, other, gt_iff_lt]

theorem dataHandler_long (receiver : Receiver prims cbc queue) {bytesTransferred : Nat}
    (long : ¬ bytesTransferred < RTP_PACKET_MIN_LEN) :
    receiver.dataHandler bytesTransferred =
      if (load (toHostOrder receiver.recvBuf) 0).payloadType != rtpAudioData then
        some ({ receiver with recvBuf := toHostOrder receiver.recvBuf }, [])
      else { receiver with recvBuf := toHostOrder receiver.recvBuf }.audioData bytesTransferred :=
  if_neg long

end Receiver

/-- What happens to the service: requests on the control connection, a new service in place of
the old one, and receives. -/
inductive Event where
  | control (request : HandshakeRequest)
  | opened (hasHandler : Bool)
  | failed
  | received (datagram : Received)

def step : Machine (Receiver prims cbc queue) Event AudioData
  | receiver, .control request =>
    some ({ receiver with crypto := { receiver.crypto with keys := request.apply receiver.crypto.keys } }, [])
  | receiver, .opened hasHandler => some (.new hasHandler receiver.crypto, [])
  | receiver, .failed => some (receiver, [])
  | receiver, .received datagram =>
    { receiver with recvBuf := writeAt 0 datagram.bytes receiver.recvBuf }.dataHandler datagram.bytes.length

end Apsdk.AudioReceiver
