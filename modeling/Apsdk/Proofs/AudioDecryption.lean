import Apsdk.AudioReceiver
import Apsdk.Library.Rendering

/-! Packets are decrypted alike wherever they are kept. The receiver renders the packets that
the reorder buffer delivers, each from its own bytes and from the keys that are set when it is
handed over; it is undefined where the IV is shorter than a block. -/

namespace Apsdk.AudioReceiver
open Library AudioStream

/-- A datagram as it is sent: the two numbers of the header in network order. -/
def packetOf (bytes : Bytes) : RtpPacket where
  flags := bytes.getD 0 0
  marker := 128 ≤ (bytes.getD 1 0).toNat
  payloadType := (bytes.getD 1 0).toNat % 128
  sequence := UInt16.ofNat (beValue ((bytes.drop 2).take 2))
  timestamp := UInt32.ofNat (beValue ((bytes.drop 4).take 4))
  ssrc := UInt32.ofNat (leValue ((bytes.drop 8).take 4))
  payload := bytes.drop rtpAudioDataPacketSize

def Received.datagram (received : Received) : Datagram :=
  if short : received.bytes.length < RTP_PACKET_MIN_LEN then .short ⟨received.bytes.length, short⟩
  else .packet (packetOf received.bytes)

/-- A packet that is delivered to a handler, with the keys at that time. -/
structure Handed where
  packet : RtpPacket
  key : Bytes
  iv : Bytes
deriving DecidableEq

/-- What the handler is to receive. -/
def Handed.decrypted (cbc : CbcCipher) (handed : Handed) : AudioData :=
  let encrypted := handed.packet.payload.length / 16 * 16
  let plain := (cbc.cbcEncrypt (cbc.setDecryptKey (handed.key.take 16) cbc.blank) (handed.iv.take 16)
    (handed.packet.payload.take encrypted)).1
  ⟨{ handed.packet with payload := plain ++ handed.packet.payload.drop encrypted }, handed.packet.payload.length⟩

/-- There is no block to decrypt, or an IV for it. -/
def Handed.Decryptable (handed : Handed) : Prop := 16 ≤ handed.packet.payload.length → 16 ≤ handed.iv.length

instance (handed : Handed) : Decidable handed.Decryptable := inferInstanceAs (Decidable (_ → _))

section Reference
variable {prims : Primitives} {queue : PriorityQueue}

/-- What `audio_data_packet` makes of packets. -/
def handOver (hasHandler : Bool) (keys : ApCrypto prims) (delivered : List RtpPacket) : List Handed :=
  if hasHandler then delivered.map fun packet => ⟨packet, keys.clientAesKey, keys.clientAesIv⟩ else []

theorem handOver_nil (hasHandler : Bool) (keys : ApCrypto prims) : handOver hasHandler keys [] = [] := by
  cases hasHandler <;> rfl

theorem handOver_cons (hasHandler : Bool) (keys : ApCrypto prims) (packet : RtpPacket) (later : List RtpPacket) :
    handOver hasHandler keys (packet :: later) = handOver hasHandler keys [packet] ++ handOver hasHandler keys later := by
  cases hasHandler <;> rfl

/-- The reorder buffer over undivided packets, beside the keys. -/
structure Reference (prims : Primitives) (queue : PriorityQueue) where
  hasHandler : Bool
  keys : ApCrypto prims
  service : Service queue

/-- The packets that an event delivers. -/
def Reference.step (reference : Reference prims queue) : Event → Reference prims queue × List Handed
  | .control request => ({ reference with keys := request.apply reference.keys }, [])
  | .opened hasHandler => ({ reference with hasHandler, service := .fresh }, [])
  | .failed => (reference, [])
  | .received datagram =>
    let (service, delivered) := reference.service.dataHandler datagram.datagram
    ({ reference with service }, handOver reference.hasHandler reference.keys delivered)

end Reference

section HostOrder

theorem swapBytes_leValue (bytes : Bytes) : VideoStream.swapBytes bytes.length (leValue bytes) = beValue bytes := by
  rw [VideoStream.swapBytes, leBytes_leValue, beValue]

theorem leBytes_ntohs {bytes : Bytes} (two : bytes.length = 2) :
    leBytes 2 (VideoStream.ntohs (UInt16.ofNat (leValue bytes))).toNat = bytes.reverse := by
  have low : leValue bytes < 256 ^ 2 := two ▸ leValue_lt bytes
  have high : beValue bytes < 256 ^ 2 := two ▸ beValue_lt bytes
  have swapped : VideoStream.swapBytes 2 (leValue bytes) = beValue bytes := two ▸ swapBytes_leValue bytes
  rw [VideoStream.ntohs, VideoStream.swapBytes16, UInt16.toNat_ofNat_of_lt' low, swapped, UInt16.toNat_ofNat_of_lt' high]
  exact two ▸ leBytes_beValue bytes

theorem leBytes_ntohl {bytes : Bytes} (four : bytes.length = 4) :
    leBytes 4 (VideoStream.ntohl (UInt32.ofNat (leValue bytes))).toNat = bytes.reverse := by
  have low : leValue bytes < 256 ^ 4 := four ▸ leValue_lt bytes
  have high : beValue bytes < 256 ^ 4 := four ▸ beValue_lt bytes
  have swapped : VideoStream.swapBytes 4 (leValue bytes) = beValue bytes := four ▸ swapBytes_leValue bytes
  rw [VideoStream.ntohl, VideoStream.swapBytes32, UInt32.toNat_ofNat_of_lt' low, swapped, UInt32.toNat_ofNat_of_lt' high]
  exact four ▸ leBytes_beValue bytes

theorem toHostOrder_eq (b0 b1 b2 b3 b4 b5 b6 b7 : UInt8) (rest : Bytes) :
    toHostOrder (b0 :: b1 :: b2 :: b3 :: b4 :: b5 :: b6 :: b7 :: rest) =
      b0 :: b1 :: b3 :: b2 :: b7 :: b6 :: b5 :: b4 :: rest := by
  have sequence : leBytes 2 (VideoStream.ntohs (UInt16.ofNat (leValue [b2, b3]))).toNat = [b3, b2] := leBytes_ntohs rfl
  have timestamp : leBytes 4 (VideoStream.ntohl (UInt32.ofNat (leValue [b4, b5, b6, b7]))).toNat = [b7, b6, b5, b4] :=
    leBytes_ntohl rfl
  simp [toHostOrder, writeAt, sequenceAt, timestampAt, sequence, timestamp]

variable {bytes : Bytes} (long : RTP_PACKET_MIN_LEN ≤ bytes.length)
include long

theorem header_bytes : ∃ b0 b1 b2 b3 b4 b5 b6 b7 rest, bytes = b0 :: b1 :: b2 :: b3 :: b4 :: b5 :: b6 :: b7 :: rest ∧ 4 ≤ rest.length := by
  match bytes, long with
  | b0 :: b1 :: b2 :: b3 :: b4 :: b5 :: b6 :: b7 :: rest, long =>
    refine ⟨b0, b1, b2, b3, b4, b5, b6, b7, rest, rfl, ?_⟩
    simp only [RTP_PACKET_MIN_LEN, List.length_cons] at long
    omega

theorem length_toHostOrder : (toHostOrder bytes).length = bytes.length := by
  obtain ⟨b0, b1, b2, b3, b4, b5, b6, b7, rest, rfl, -⟩ := header_bytes long
  rw [toHostOrder_eq]
  rfl

theorem sequenceAt_append (tail : Bytes) : sequenceAt (bytes ++ tail) = sequenceAt bytes := by
  obtain ⟨b0, b1, b2, b3, b4, b5, b6, b7, rest, rfl, -⟩ := header_bytes long
  rfl

theorem payloadType_append (tail : Bytes) (payloadLength : Nat) :
    (load (bytes ++ tail) payloadLength).payloadType = (load bytes payloadLength).payloadType := by
  obtain ⟨b0, b1, b2, b3, b4, b5, b6, b7, rest, rfl, -⟩ := header_bytes long
  rfl

/-- What lies behind a datagram in the buffer does not matter. -/
theorem toHostOrder_append (tail : Bytes) : toHostOrder (bytes ++ tail) = toHostOrder bytes ++ tail := by
  obtain ⟨b0, b1, b2, b3, b4, b5, b6, b7, rest, rfl, -⟩ := header_bytes long
  simp only [List.cons_append, toHostOrder_eq]

theorem load_toHostOrder : load (toHostOrder bytes) (bytes.length - rtpAudioDataPacketSize) = packetOf bytes := by
  obtain ⟨b0, b1, b2, b3, b4, b5, b6, b7, rest, rfl, -⟩ := header_bytes long
  have payload : (rest.drop 4).take (rest.length - 4) = rest.drop 4 :=
    List.take_of_length_le (Nat.le_of_eq List.length_drop)
  rw [toHostOrder_eq, load, packetOf]
  simp [sequenceAt, timestampAt, beValue, rtpAudioDataPacketSize, payload]

omit long in
/-- The fields of a packet, and what lies behind them. -/
theorem load_front {front : Bytes} (header : front.length = rtpAudioDataPacketSize) (rest : Bytes) (payloadLength : Nat) :
    load (front ++ rest) payloadLength = { load front 0 with payload := rest.take payloadLength } := by
  match front, header with
  | [b0, b1, b2, b3, b4, b5, b6, b7, b8, b9, b10, b11], _ => rfl

theorem front_payload : ∃ front payload, bytes = front ++ payload ∧ front.length = rtpAudioDataPacketSize :=
  ⟨bytes.take 12, bytes.drop 12, (List.take_append_drop ..).symm, List.length_take_of_le long⟩

end HostOrder

section Decryption
variable {prims : Primitives} {cbc : CbcCipher}

/-- The packet of a buffer that is in host order, with all that it holds behind the header. -/
def whole (buffer : Bytes) : RtpPacket := load buffer (buffer.length - rtpAudioDataPacketSize)

/-- The sizes of what is kept as a packet. -/
def Sized (buffer : Bytes) : Prop := RTP_PACKET_MIN_LEN ≤ buffer.length ∧ buffer.length ≤ RTP_PACKET_MAX_LEN

theorem length_whole_payload (buffer : Bytes) : (whole buffer).payload.length = buffer.length - rtpAudioDataPacketSize := by
  rw [whole, load, List.length_take, List.length_drop, Nat.min_self]

/-- Key and IV are set anew for every packet, so that nothing of an earlier one is left in the cipher. -/
theorem decryptAudioData_eq (crypto : Crypto prims cbc) (data : Bytes) (key : 16 ≤ crypto.keys.clientAesKey.length)
    (iv : 16 ≤ crypto.keys.clientAesIv.length) :
    ∃ next, crypto.decryptAudioData data = some (next, (cbc.cbcEncrypt (cbc.setDecryptKey (crypto.keys.clientAesKey.take 16) cbc.blank)
      (crypto.keys.clientAesIv.take 16) data).1) ∧ next.keys = crypto.keys := by
  simp only [Crypto.decryptAudioData, AesCbc128.setDeKeyIv, readFront, key, iv, if_true, AesCbc128.decryptBuffer,
    Option.bind_eq_bind, Option.bind_some, Option.pure_def]
  exact ⟨_, rfl, rfl⟩

theorem decryptAudioData_short (crypto : Crypto prims cbc) (data : Bytes) (iv : ¬ 16 ≤ crypto.keys.clientAesIv.length) :
    crypto.decryptAudioData data = none := by
  by_cases key : 16 ≤ crypto.keys.clientAesKey.length
  · simp [Crypto.decryptAudioData, AesCbc128.setDeKeyIv, readFront, key, iv]
  · simp [Crypto.decryptAudioData, AesCbc128.setDeKeyIv, readFront, key]

/-- The lengths are computed with 32 bits. -/
theorem payloadLength_eq {length : Nat} (low : RTP_PACKET_MIN_LEN ≤ length) (high : length ≤ RTP_PACKET_MAX_LEN) :
    (UInt32.ofNat length - UInt32.ofNat rtpAudioDataPacketSize).toNat = length - rtpAudioDataPacketSize ∧
    ((UInt32.ofNat length - UInt32.ofNat rtpAudioDataPacketSize) / 16 * 16).toNat =
      (length - rtpAudioDataPacketSize) / 16 * 16 := by
  unfold RTP_PACKET_MIN_LEN at low
  unfold RTP_PACKET_MAX_LEN at high
  have payload : (UInt32.ofNat length - UInt32.ofNat rtpAudioDataPacketSize).toNat = length - rtpAudioDataPacketSize := by
    rw [UInt32.toNat_sub, UInt32.toNat_ofNat', UInt32.toNat_ofNat', rtpAudioDataPacketSize]
    omega
  refine ⟨payload, ?_⟩
  rw [UInt32.toNat_mul, UInt32.toNat_div, payload, rtpAudioDataPacketSize]
  simp only [UInt32.reduceToNat]
  omega

/-- The packet where some of the payload has been overwritten, wherever the buffer goes on. -/
theorem load_writeAt {buffer : Bytes} (sized : Sized buffer) (tail : Bytes) {plain : Bytes}
    (fits : plain.length ≤ (whole buffer).payload.length) :
    load (writeAt rtpAudioDataPacketSize plain (buffer ++ tail)) (buffer.length - rtpAudioDataPacketSize) =
      { whole buffer with payload := plain ++ (whole buffer).payload.drop plain.length } := by
  obtain ⟨front, payload, rfl, header⟩ := front_payload sized.1
  have size : (front ++ payload).length - rtpAudioDataPacketSize = payload.length := by
    rw [List.length_append, header, Nat.add_sub_cancel_left]
  have same : whole (front ++ payload) = { load front 0 with payload := payload } := by
    rw [whole, size, load_front header, List.take_length]
  rw [same] at fits ⊢
  have written : writeAt rtpAudioDataPacketSize plain (front ++ payload ++ tail) =
      front ++ (plain ++ (payload.drop plain.length ++ tail)) := by
    rw [writeAt, List.append_assoc front payload, List.take_left' header, ← header, List.drop_length_add_append,
      List.drop_append_of_le_length fits, List.append_assoc]
  have rest : (plain ++ (payload.drop plain.length ++ tail)).take payload.length = plain ++ payload.drop plain.length := by
    rw [← List.append_assoc]
    apply List.take_left'
    rw [List.length_append, List.length_drop, Nat.add_sub_cancel' fits]
  rw [size, written, load_front header, rest]

theorem writeAt_nil (offset : Nat) (buffer : Bytes) : writeAt offset [] buffer = buffer := by
  rw [writeAt, List.append_nil, List.length_nil, Nat.add_zero, List.take_append_drop]

/-- The blocks that are decrypted. -/
def blocks (buffer : Bytes) : Nat := (whole buffer).payload.length / 16 * 16

theorem blocks_le (buffer : Bytes) : blocks buffer ≤ (whole buffer).payload.length := Nat.div_mul_le_self ..

theorem encrypted_part {buffer : Bytes} (sized : Sized buffer) (tail : Bytes) :
    ((buffer ++ tail).drop rtpAudioDataPacketSize).take (blocks buffer) = (whole buffer).payload.take (blocks buffer) := by
  have few := blocks_le buffer
  have long : rtpAudioDataPacketSize ≤ buffer.length := sized.1
  have payload : (whole buffer).payload = buffer.drop rtpAudioDataPacketSize := by
    rw [whole, load]
    exact List.take_of_length_le (Nat.le_of_eq List.length_drop)
  rw [payload] at few ⊢
  rw [List.drop_append_of_le_length long, List.take_append_of_le_length few]

/-- The payload behind the pointer after it has been decrypted. -/
theorem decryptPayload_eq (crypto : Crypto prims cbc) {buffer : Bytes} (sized : Sized buffer) (tail : Bytes)
    (key : 16 ≤ crypto.keys.clientAesKey.length) {encryptedLength : UInt32} (length : encryptedLength.toNat = blocks buffer)
    (decryptable : (⟨whole buffer, crypto.keys.clientAesKey, crypto.keys.clientAesIv⟩ : Handed).Decryptable) :
    ∃ next packet, decryptPayload crypto (buffer ++ tail) encryptedLength = some (next, packet) ∧
      next.keys = crypto.keys ∧ load packet (buffer.length - rtpAudioDataPacketSize) =
        ((⟨whole buffer, crypto.keys.clientAesKey, crypto.keys.clientAesIv⟩ : Handed).decrypted cbc).packet := by
  have size := cbc.length_cbcEncrypt (cbc.setDecryptKey (crypto.keys.clientAesKey.take 16) cbc.blank)
    (crypto.keys.clientAesIv.take 16) ((whole buffer).payload.take (blocks buffer))
  rw [List.length_take_of_le (blocks_le buffer)] at size
  have loaded := load_writeAt sized tail (size ▸ blocks_le buffer)
  rw [size] at loaded
  by_cases short : blocks buffer = 0
  · have zero : encryptedLength = 0 := UInt32.toNat_inj.mp (length.trans short)
    have nothing := List.eq_nil_of_length_eq_zero (size.trans short)
    have unwritten := writeAt_nil rtpAudioDataPacketSize (buffer ++ tail)
    rw [← nothing] at unwritten
    rw [unwritten] at loaded
    exact ⟨crypto, buffer ++ tail, if_neg (not_not.mpr zero), rfl, loaded⟩
  · have nonzero : encryptedLength ≠ 0 := fun zero => short (by rw [← length, zero]; rfl)
    have block : 16 ≤ (whole buffer).payload.length := by
      unfold blocks at short
      omega
    obtain ⟨next, decrypted, keys⟩ := decryptAudioData_eq crypto ((whole buffer).payload.take (blocks buffer)) key (decryptable block)
    refine ⟨next, _, ?_, keys, loaded⟩
    rw [decryptPayload, if_pos nonzero, length, encrypted_part sized, decrypted]
    rfl

theorem decryptPayload_short (crypto : Crypto prims cbc) {buffer : Bytes} (packet : Bytes) {encryptedLength : UInt32}
    (length : encryptedLength.toNat = blocks buffer)
    (short : ¬ (⟨whole buffer, crypto.keys.clientAesKey, crypto.keys.clientAesIv⟩ : Handed).Decryptable) :
    decryptPayload crypto packet encryptedLength = none := by
  obtain ⟨block, iv⟩ := Classical.not_imp.mp short
  have nonzero : encryptedLength ≠ 0 := by
    rintro rfl
    have zero : 0 = blocks buffer := length
    change 16 ≤ (whole buffer).payload.length at block
    unfold blocks at zero
    omega
  rw [decryptPayload, if_pos nonzero, decryptAudioData_short crypto _ iv]
  rfl

/-- One packet, in the receive buffer or in the copy that was cached. -/
theorem audioDataPacket_renders (hasHandler : Bool) (crypto : Crypto prims cbc) {buffer : Bytes} (sized : Sized buffer) (tail : Bytes)
    (key : 16 ≤ crypto.keys.clientAesKey.length) :
    Renders (Handed.decrypted cbc) Handed.Decryptable (fun next keys => next.1.keys = keys)
      (audioDataPacket hasHandler crypto (buffer ++ tail) buffer.length)
      (crypto.keys, handOver hasHandler crypto.keys [whole buffer]) := by
  obtain ⟨payloadLength, encryptedLength⟩ := payloadLength_eq sized.1 sized.2
  rw [← length_whole_payload] at encryptedLength
  cases hasHandler with
  | false => exact .silent rfl
  | true =>
    by_cases decryptable : (⟨whole buffer, crypto.keys.clientAesKey, crypto.keys.clientAesIv⟩ : Handed).Decryptable
    · obtain ⟨next, packet, result, keys, loaded⟩ := decryptPayload_eq crypto sized tail key encryptedLength decryptable
      have rendered : audioDataPacket true crypto (buffer ++ tail) buffer.length =
          some ((next, packet), (handOver true crypto.keys [whole buffer]).map (Handed.decrypted cbc)) := by
        simp only [audioDataPacket, if_true, result, Option.bind_eq_bind, Option.bind_some, payloadLength, loaded]
        rw [← length_whole_payload]
        rfl
      rw [rendered]
      exact .defined (List.forall_mem_singleton.mpr decryptable) keys
    · have undefined : audioDataPacket true crypto (buffer ++ tail) buffer.length = none := by
        simp only [audioDataPacket, if_true, decryptPayload_short crypto _ encryptedLength decryptable]
        rfl
      rw [undefined]
      exact .undefined (List.mem_singleton.mpr rfl) decryptable

end Decryption

section Simulation
variable {prims : Primitives} {cbc : CbcCipher} {queue : PriorityQueue}

/-- A cached copy as the packet that it holds. -/
def CachedDatagram.packet (cached : CachedDatagram) : CachedPacket := ⟨cached.sequence, whole cached.data⟩

/-- Only the numbers are compared. -/
theorem packet_same_order (items : List CachedDatagram) :
    SameOrder CachedDatagram.key CachedPacket.key CachedDatagram.packet items :=
  fun _ _ _ _ => Iff.rfl

structure Simulates (receiver : Receiver prims cbc queue) (reference : Reference prims queue) : Prop where
  handler : receiver.hasHandler = reference.hasHandler
  keys : receiver.crypto.keys = reference.keys
  expected : receiver.expectedSeq = reference.service.expectedSeq
  cached : queue.map CachedDatagram.packet receiver.cachedQueue = reference.service.cachedQueue
  sized : ∀ cached ∈ queue.contents receiver.cachedQueue, Sized cached.data
  key : 16 ≤ receiver.crypto.keys.clientAesKey.length

/-- The result of the receiver beside the service of the reference and what that delivers. -/
abbrev Follows (reference : Reference prims queue) (result : Option (Receiver prims cbc queue × List AudioData))
    (served : Service queue × List RtpPacket) : Prop :=
  Renders (Handed.decrypted cbc) Handed.Decryptable Simulates result
    ({ reference with service := served.1 }, handOver reference.hasHandler reference.keys served.2)

variable {receiver : Receiver prims cbc queue} {reference : Reference prims queue}

theorem Simulates.unserved (simulates : Simulates receiver reference) :
    Follows reference (some (receiver, [])) (reference.service, []) := by
  rw [Follows, handOver_nil]
  exact .silent simulates

/-- One packet is handed over, and the receiver goes on in a state that differs in its cipher alone. -/
theorem Simulates.handed (simulates : Simulates receiver reference) {buffer : Bytes} (sized : Sized buffer) (tail : Bytes)
    {next : Crypto prims cbc × Bytes → Option (Receiver prims cbc queue × List AudioData)} {served : Service queue × List RtpPacket}
    (continues : ∀ state, state.1.keys = receiver.crypto.keys → Follows reference (next state) served) :
    Follows reference
      (do let (state, calls) ← audioDataPacket receiver.hasHandler receiver.crypto (buffer ++ tail) buffer.length
          let (last, more) ← next state
          return (last, calls ++ more))
      (served.1, whole buffer :: served.2) := by
  have first := audioDataPacket_renders receiver.hasHandler receiver.crypto sized tail simulates.key
  rw [Follows, handOver_cons, ← simulates.handler, ← simulates.keys]
  apply first.bind
  intro state same
  have further := continues state same
  rwa [Follows, ← simulates.handler, ← simulates.keys] at further

theorem processCachedPacketLoop_follows (simulates : Simulates receiver reference) (flush : Bool) (n : Nat) :
    Follows reference (receiver.processCachedPacketLoop flush n) (reference.service.processCachedPacketLoop flush n) := by
  induction n generalizing receiver reference with
  | zero => exact simulates.unserved
  | succ n ih =>
    have served := queue.map_pop (packet_same_order (queue.contents receiver.cachedQueue))
    rw [simulates.cached] at served
    cases popped : queue.pop CachedDatagram.key receiver.cachedQueue with
    | none =>
      rw [popped, Option.map_none] at served
      simp only [Receiver.processCachedPacketLoop, popped, Service.processCachedPacketLoop, served]
      exact simulates.unserved
    | some pair =>
      obtain ⟨p, rest⟩ := pair
      rw [popped, Option.map_some, Prod.map] at served
      simp only [Receiver.processCachedPacketLoop, popped, Service.processCachedPacketLoop, served, simulates.expected]
      change Follows reference (if (flush || p.sequence == reference.service.expectedSeq) = true then _ else _)
        (if (flush || p.sequence == reference.service.expectedSeq) = true then _ else _)
      by_cases due : (flush || p.sequence == reference.service.expectedSeq) = true
      · rw [if_pos due, if_pos due]
        have continues : ∀ state : Crypto prims cbc × Bytes, state.1.keys = receiver.crypto.keys → Follows reference
            (Receiver.processCachedPacketLoop flush n
              { receiver with crypto := state.1, cachedQueue := rest, expectedSeq := p.sequence + 1 })
            (Service.processCachedPacketLoop flush n ⟨p.sequence + 1, queue.map CachedDatagram.packet rest⟩) := by
          intro state same
          have popped : Simulates { receiver with crypto := state.1, cachedQueue := rest, expectedSeq := p.sequence + 1 }
              { reference with service := ⟨p.sequence + 1, queue.map CachedDatagram.packet rest⟩ } := {
            handler := simulates.handler
            keys := same.trans simulates.keys
            expected := rfl
            cached := rfl
            sized := fun cached member => simulates.sized cached (queue.rest_mem popped member)
            key := same ▸ simulates.key }
          exact ih popped
        have handed := simulates.handed (simulates.sized p (queue.pop_mem popped)) [] continues
        rw [List.append_nil] at handed
        exact handed
      · rw [if_neg due, if_neg due]
        exact simulates.unserved

theorem processCachedPacket_follows (simulates : Simulates receiver reference) (flush : Bool) :
    Follows reference (receiver.processCachedPacket flush) (reference.service.processCachedPacket flush) := by
  have size : receiver.cached = reference.service.cached := by
    rw [Receiver.cached, Service.cached, ← simulates.cached, queue.size_map]
  rw [Receiver.processCachedPacket, Service.processCachedPacket, size]
  exact processCachedPacketLoop_follows simulates flush _

theorem Simulates.cachePacket (simulates : Simulates receiver reference) {buffer tail : Bytes} (sized : Sized buffer)
    (front : receiver.recvBuf = buffer ++ tail) (seq : UInt16) :
    Simulates (receiver.cachePacket seq buffer.length)
      { reference with service := reference.service.cachePacket seq (whole buffer) } := by
  have copy : receiver.recvBuf.take buffer.length = buffer := by rw [front, List.take_left]
  refine ⟨simulates.handler, simulates.keys, simulates.expected, ?_, ?_, simulates.key⟩
  · have pushed := queue.map_push (packet_same_order (⟨seq, buffer⟩ :: queue.contents receiver.cachedQueue))
    rw [simulates.cached] at pushed
    rw [Receiver.cachePacket, copy]
    exact pushed.symm
  · intro cached member
    rw [Receiver.cachePacket, copy] at member
    have inside := (queue.contents_push CachedDatagram.key ⟨seq, buffer⟩ receiver.cachedQueue).mem_iff.mp member
    obtain rfl | earlier := List.mem_cons.mp inside
    · exact sized
    · exact simulates.sized cached earlier

theorem audioData_follows (simulates : Simulates receiver reference) {buffer tail : Bytes} (sized : Sized buffer)
    (front : receiver.recvBuf = buffer ++ tail) :
    Follows reference (receiver.audioData buffer.length) (reference.service.audioData (whole buffer)) := by
  have sequence : sequenceAt receiver.recvBuf = (whole buffer).sequence := by
    rw [front, sequenceAt_append sized.1]
    rfl
  have expected := simulates.expected
  by_cases due : reference.service.expectedSeq = 0 ∨ (whole buffer).sequence = reference.service.expectedSeq
  · have continues : ∀ state : Crypto prims cbc × Bytes, state.1.keys = receiver.crypto.keys → Follows reference
        (Receiver.processCachedPacket
          { receiver with crypto := state.1, recvBuf := state.2, expectedSeq := (whole buffer).sequence + 1 } false)
        (Service.processCachedPacket { reference.service with expectedSeq := (whole buffer).sequence + 1 } false) := by
      intro state same
      have advanced : Simulates
          { receiver with crypto := state.1, recvBuf := state.2, expectedSeq := (whole buffer).sequence + 1 }
          { reference with service := { reference.service with expectedSeq := (whole buffer).sequence + 1 } } := {
        handler := simulates.handler
        keys := same.trans simulates.keys
        expected := rfl
        cached := simulates.cached
        sized := simulates.sized
        key := same ▸ simulates.key }
      exact processCachedPacket_follows advanced false
    have handed := simulates.handed sized tail continues
    rw [← front] at handed
    rw [Receiver.audioData_due receiver buffer.length (by rwa [expected, sequence]), Service.audioData_due _ due, sequence]
    exact handed
  · obtain ⟨started, other⟩ := not_or.mp due
    rw [Receiver.audioData_early receiver buffer.length (expected ▸ started) (by rwa [expected, sequence]),
      Service.audioData_started _ _ started, if_neg other, expected, sequence]
    have size : receiver.cached = reference.service.cached := by
      rw [Receiver.cached, Service.cached, ← simulates.cached, queue.size_map]
    rw [size]
    split_ifs with ahead room
    · rw [Follows, handOver_nil]
      exact .silent (simulates.cachePacket sized front _)
    · exact processCachedPacket_follows simulates true
    · exact simulates.unserved

/-- A key is at least as long as `client_aes_key_` is constructed with. -/
theorem apply_key {keys : ApCrypto prims} (key : 16 ≤ keys.clientAesKey.length) (request : HandshakeRequest) :
    16 ≤ (request.apply keys).clientAesKey.length := by
  cases request with
  | pairSetup ed =>
    simp only [HandshakeRequest.apply, ApCrypto.initClientPublicKeys]
    split_ifs <;> exact key
  | pairVerifyFirst pair =>
    simp only [HandshakeRequest.apply, ApCrypto.initClientPublicKeys, ApCrypto.signPairSignature, ApCrypto.initPairVerifyAes]
    split_ifs <;> exact key
  | pairVerifySecond signature => exact key
  | fpSetup mode => exact key
  | fpHandshake keymsg => exact key
  | setup eiv ekey =>
    simp only [HandshakeRequest.apply, ApCrypto.initClientAesInfo, ApCrypto.fpDecrypt]
    split_ifs <;> simp only [List.length_append, prims.length_fairplayDecrypt, key] <;> omega
  | setupVideo connectionId => exact key

theorem dataHandler_follows (simulates : Simulates receiver reference) (datagram : Received) {tail : Bytes}
    (front : receiver.recvBuf = datagram.bytes ++ tail) :
    Follows reference (receiver.dataHandler datagram.bytes.length) (reference.service.dataHandler datagram.datagram) := by
  by_cases short : datagram.bytes.length < RTP_PACKET_MIN_LEN
  · rw [Receiver.dataHandler, if_pos short, Received.datagram, dif_pos short]
    exact simulates.unserved
  · have long := Nat.not_lt.mp short
    have length := length_toHostOrder long
    have sized : Sized (toHostOrder datagram.bytes) := by
      rw [Sized, length]
      exact ⟨long, datagram.fits⟩
    have converted : toHostOrder receiver.recvBuf = toHostOrder datagram.bytes ++ tail := by
      rw [front, toHostOrder_append long]
    have packet : whole (toHostOrder datagram.bytes) = packetOf datagram.bytes := by
      rw [whole, length, load_toHostOrder long]
    have kind : (load (toHostOrder receiver.recvBuf) 0).payloadType = (packetOf datagram.bytes).payloadType := by
      rw [converted, payloadType_append sized.1, ← packet]
      rfl
    have same : Simulates { receiver with recvBuf := toHostOrder receiver.recvBuf } reference :=
      ⟨simulates.handler, simulates.keys, simulates.expected, simulates.cached, simulates.sized, simulates.key⟩
    have further := audioData_follows same sized converted
    rw [length, packet] at further
    rw [Receiver.dataHandler_long _ short, Received.datagram, dif_neg short, Service.dataHandler, kind]
    by_cases other : ((packetOf datagram.bytes).payloadType != rtpAudioData) = true
    · rw [if_pos other, if_pos other]
      exact same.unserved
    · rw [if_neg other, if_neg other]
      exact further

theorem step_renders (receiver : Receiver prims cbc queue) (reference : Reference prims queue) (event : Event)
    (simulates : Simulates receiver reference) :
    Renders (Handed.decrypted cbc) Handed.Decryptable Simulates (step receiver event) (reference.step event) := by
  cases event with
  | control request =>
    refine .silent ⟨simulates.handler, congrArg request.apply simulates.keys, simulates.expected, simulates.cached,
      simulates.sized, apply_key simulates.key request⟩
  | opened hasHandler =>
    refine .silent ⟨rfl, simulates.keys, rfl, queue.map_empty _, fun cached member => ?_, simulates.key⟩
    rw [Receiver.new, queue.contents_empty] at member
    cases member
  | failed => exact .silent simulates
  | received datagram =>
    have arrived : Simulates { receiver with recvBuf := writeAt 0 datagram.bytes receiver.recvBuf } reference :=
      ⟨simulates.handler, simulates.keys, simulates.expected, simulates.cached, simulates.sized, simulates.key⟩
    have front : writeAt 0 datagram.bytes receiver.recvBuf = datagram.bytes ++ receiver.recvBuf.drop (0 + datagram.bytes.length) := rfl
    exact dataHandler_follows arrived datagram front

end Simulation

/-- A service that has been constructed, and what happens to it. -/
structure Session where
  server : ServerKeyChain
  hasHandler : Bool
  trace : List Event

namespace Session
variable (prims : Primitives) (cbc : CbcCipher) (queue : PriorityQueue)

/-- The calls of the handler, unless bytes are read that are not there. -/
def received (session : Session) : Option (List AudioData) :=
  let start : Receiver prims cbc queue := .new session.hasHandler (.new session.server)
  (Machine.run step start session.trace).map Prod.snd

/-- The packets that are delivered, each with the keys that it finds. -/
def handed (session : Session) : List Handed :=
  let start : Reference prims queue := ⟨session.hasHandler, .new session.server, .fresh⟩
  (itemize Reference.step start session.trace).2

/-- Wherever a block is decrypted, `client_aes_iv_` has the bytes of an IV. -/
def Decryptable (session : Session) : Prop := ∀ handed ∈ session.handed prims queue, handed.Decryptable

theorem received_iff (session : Session) :
    session.received prims cbc queue = some ((session.handed prims queue).map (Handed.decrypted cbc)) ↔
      session.Decryptable prims queue := by
  have started : Simulates (Receiver.new session.hasHandler (.new session.server) : Receiver prims cbc queue)
      ⟨session.hasHandler, .new session.server, .fresh⟩ := by
    refine ⟨rfl, rfl, rfl, queue.map_empty _, fun cached member => ?_, Nat.le_of_eq List.length_replicate.symm⟩
    rw [Receiver.new, queue.contents_empty] at member
    cases member
  exact (Machine.run_renders step_renders started session.trace).defined_iff

end Session

/-- In both sessions the handler receives what is delivered, decrypted with the keys of that
time, so that it receives a packet alike wherever the keys are the same. -/
def DeliveredAlike (prims : Primitives) (cbc : CbcCipher) (queue : PriorityQueue) (first second : Session) : Prop :=
  ∃ calls calls', first.received prims cbc queue = some calls ∧ second.received prims cbc queue = some calls' ∧
    calls = (first.handed prims queue).map (Handed.decrypted cbc) ∧
    calls' = (second.handed prims queue).map (Handed.decrypted cbc) ∧
    ∀ i j : Nat, (first.handed prims queue)[i]? = (second.handed prims queue)[j]? → calls[i]? = calls'[j]?

theorem delivered_alike_iff (prims : Primitives) (cbc : CbcCipher) (queue : PriorityQueue) (first second : Session) :
    DeliveredAlike prims cbc queue first second ↔ first.Decryptable prims queue ∧ second.Decryptable prims queue := by
  rw [← Session.received_iff prims cbc queue first, ← Session.received_iff prims cbc queue second]
  constructor
  · rintro ⟨calls, calls', received, received', rfl, rfl, -⟩
    exact ⟨received, received'⟩
  · rintro ⟨received, received'⟩
    refine ⟨_, _, received, received', rfl, rfl, fun i j same => ?_⟩
    rw [List.getElem?_map, List.getElem?_map, same]

/-- A `SETUP` with an `eiv` of one byte, and an audio packet of one block. -/
def shortIv : Session where
  server := default
  hasHandler := true
  trace := [.control (.setup [1] (List.replicate 72 5)), .received ⟨[128, 96, 0, 1] ++ List.replicate 24 0, by decide⟩]

theorem short_iv_not_delivered : ¬ ∀ (prims : Primitives) (cbc : CbcCipher) (queue : PriorityQueue) (first second : Session),
    DeliveredAlike prims cbc queue first second := by
  intro alike
  obtain ⟨calls, -, received, -⟩ := alike default default sortedList shortIv shortIv
  have undefined : shortIv.received default default sortedList = none := by decide +kernel
  rw [undefined] at received
  cases received

end Apsdk.AudioReceiver
