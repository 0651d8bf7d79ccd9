import Apsdk.Proofs.AesChaining
import Apsdk.Proofs.VideoDecryption

/-! The video stream from end to end, with the AES of the library. A sender combines each
encrypted payload with the counter mode of the standard; the handler receives the frames as
they were before. -/

namespace Apsdk.Mirroring
open Library VideoStream WirePacket AesModes AesCore

/-- Everything but AES is left open. -/
def opensslPrimitives (prims : Primitives) : Primitives := { prims with aes := opensslAes }

/-- Counter mode as it is specified: the cipher on the numbers that follow the IV. -/
def standardKeystream (key iv : Bytes) (position : Nat) : UInt8 :=
  (Rijndael.cipher key (beBytes 16 (beValue iv + position / 16))).getD (position % 16) 0

theorem keystream_eq_standard {key : Bytes} (keyed : key.length = 16) (iv : Bytes) :
    AesCtr128.keystream (opensslAes.setEncryptKey key) iv = standardKeystream key iv := by
  have scheduled := aesSetEncryptKey_eq key .blank (.inl keyed)
  rw [keyed] at scheduled
  funext position
  have computed := aesEncrypt_written .blank (Rijndael.toBlock (beBytes 16 (beValue iv + position / 16))) (.inl keyed)
  rw [bytes_toBlock (length_beBytes 16 _)] at computed
  have block : aesEncrypt (beBytes 16 (beValue iv + position / 16)) (written key .blank) =
      some (Rijndael.cipher key (beBytes 16 (beValue iv + position / 16))) := computed
  simp only [AesCtr128.keystream, standardKeystream, opensslAes, scheduled, Option.map_some, Option.getD_some, AES_BLOCK_SIZE,
    block]

section Sent
variable (keystream : Nat → UInt8)

/-- A packet as it is sent when the keystream stands at a position. -/
def sealedPacket (position : Nat) (packet : WirePacket) : WirePacket :=
  if packet.Encrypted then
    { packet with
      payload := xorStream keystream position packet.payload
      stated := packet.stated.trans (length_xorStream keystream position packet.payload).symm }
  else packet

def sealedPackets : Nat → List WirePacket → List WirePacket
  | _, [] => []
  | position, packet :: later =>
    sealedPacket keystream position packet :: sealedPackets (position + encryptedSize [packet]) later

/-- The callback for a packet whose payload is not encrypted. -/
def plainDelivery (packet : WirePacket) : List Effect :=
  if packet.Encrypted then [.onVideoStreamData ⟨.load packet.header, packet.payload⟩]
  else if packet.kind = smsVideoCodec then [.onVideoStreamCodec ⟨.load packet.header, packet.payload⟩]
  else if packet.kind = smsPayload5 then [.onVideoStreamHeartbeat]
  else []

theorem sealedPacket_header (position : Nat) (packet : WirePacket) :
    (sealedPacket keystream position packet).header = packet.header := by
  rw [sealedPacket]
  split_ifs <;> rfl

theorem length_sealedPacket (position : Nat) (packet : WirePacket) :
    (sealedPacket keystream position packet).payload.length = packet.payload.length := by
  rw [sealedPacket]
  split_ifs
  · exact length_xorStream keystream position packet.payload
  · rfl

theorem sealedPacket_kind (position : Nat) (packet : WirePacket) :
    (sealedPacket keystream position packet).kind = packet.kind := by
  rw [kind, sealedPacket_header]
  rfl

theorem delivery_sealedPacket (position : Nat) (packet : WirePacket) :
    (sealedPacket keystream position packet).delivery keystream position = plainDelivery packet := by
  have same : (sealedPacket keystream position packet).Encrypted ↔ packet.Encrypted := by
    rw [WirePacket.Encrypted, WirePacket.Encrypted, sealedPacket_kind]
  by_cases encrypted : packet.Encrypted
  · rw [delivery, if_pos (same.mpr encrypted), plainDelivery, if_pos encrypted, sealedPacket_header, sealedPacket,
      if_pos encrypted, xorStream_xorStream]
  · rw [delivery, if_neg (fun still => encrypted (same.mp still)), plainDelivery, if_neg encrypted, sealedPacket, if_neg encrypted]

theorem encryptedSize_sealedPacket (position : Nat) (packet : WirePacket) :
    encryptedSize [sealedPacket keystream position packet] = encryptedSize [packet] := by
  have same : (sealedPacket keystream position packet).Encrypted ↔ packet.Encrypted := by
    rw [WirePacket.Encrypted, WirePacket.Encrypted, sealedPacket_kind]
  by_cases encrypted : packet.Encrypted
  · simp [encryptedSize, same, encrypted, length_sealedPacket]
  · simp [encryptedSize, same, encrypted]

theorem deliveries_sealedPackets (position : Nat) (packets : List WirePacket) :
    deliveries keystream position (sealedPackets keystream position packets) = packets.flatMap plainDelivery := by
  induction packets generalizing position with
  | nil => rfl
  | cons packet later ih =>
    rw [sealedPackets, deliveries, delivery_sealedPacket, encryptedSize_sealedPacket, ih, List.flatMap_cons]

theorem sealedPackets_fit {packets : List WirePacket} (fit : ∀ packet ∈ packets, smsHeaderSize + packet.payload.length ≤ SMS_BUFFER_SIZE)
    (position : Nat) :
    ∀ packet ∈ sealedPackets keystream position packets, smsHeaderSize + packet.payload.length ≤ SMS_BUFFER_SIZE := by
  induction packets generalizing position with
  | nil => exact List.forall_mem_nil _
  | cons packet later ih =>
    obtain ⟨here, others⟩ := List.forall_mem_cons.mp fit
    refine List.forall_mem_cons.mpr ⟨?_, ih others _⟩
    rwa [length_sealedPacket]

end Sent

/-- What a sender has written when it uses the key and the IV of a stream. -/
def sentStream (prims : Primitives) (crypto : ApCrypto (opensslPrimitives prims)) (connectionId : UInt64)
    (packets : List WirePacket) : List WirePacket :=
  sealedPackets (standardKeystream (crypto.streamKeyIv connectionId).1 (crypto.streamKeyIv connectionId).2) 0 packets

theorem videoKeystream_eq_standard (prims : Primitives) (crypto : ApCrypto (opensslPrimitives prims)) (connectionId : UInt64) :
    AesCtr128.keystream ((opensslPrimitives prims).aes.setEncryptKey (crypto.streamKeyIv connectionId).1)
      (crypto.streamKeyIv connectionId).2 =
      standardKeystream (crypto.streamKeyIv connectionId).1 (crypto.streamKeyIv connectionId).2 := by
  apply keystream_eq_standard
  simp only [ApCrypto.streamKeyIv, List.length_take, (opensslPrimitives prims).length_sha512]
  rfl

/-- However the socket cuts the stream, the frames that are handed on are those that were sent, in their order
and without the encryption; all of them, once everything has arrived. -/
theorem frames_played (prims : Primitives) {conn final : VideoStream.Connection (videoCipher (opensslPrimitives prims))}
    {trace : List Event} {effects : List Effect} (reading : conn.phase = .header) (boundary : conn.received = [])
    (handled : conn.hasHandler = true) (connectionId : UInt64) (packets : List WirePacket)
    (fit : ∀ packet ∈ packets, smsHeaderSize + packet.payload.length ≤ SMS_BUFFER_SIZE)
    (keeps : ∀ event ∈ trace, ¬ event.Rekeys)
    (sent : arrived trace <+: (sentStream prims conn.crypto connectionId packets).flatMap WirePacket.bytes)
    (ran : Machine.run step conn (.control (.setupVideo connectionId) :: trace) = some (final, effects)) :
    callbacks effects <+: packets.flatMap plainDelivery ∧
    (arrived trace = (sentStream prims conn.crypto connectionId packets).flatMap WirePacket.bytes → final.phase = .header →
      callbacks effects = packets.flatMap plainDelivery) := by
  obtain ⟨next, first, last, taken, continued, rfl⟩ := Machine.run_cons_eq_some.mp ran
  obtain ⟨rfl, rfl⟩ := Prod.mk.inj (Option.some.inj taken)
  obtain ⟨rest, sent⟩ := sent
  have expecting : VideoStream.Connection.Expecting conn (sentStream prims conn.crypto connectionId packets)
      (arrived trace ++ rest) := by
    refine .header reading ?_ ?_
    · rw [boundary]
      exact Nat.zero_lt_succ 127
    · rwa [boundary]
  obtain ⟨completed, left, reached⟩ := run_completes (setupVideo_decrypting handled connectionId) expecting.rekeyed
    (sealedPackets_fit _ fit 0) keeps continued
  have all : deliveries (standardKeystream (@ApCrypto.streamKeyIv (opensslPrimitives prims) conn.crypto connectionId).1
      (@ApCrypto.streamKeyIv (opensslPrimitives prims) conn.crypto connectionId).2) 0 (completed ++ left) =
      packets.flatMap plainDelivery := by
    rw [← reached.split]
    exact deliveries_sealedPackets _ 0 packets
  have delivered := reached.delivered.trans
    (congrArg (deliveries · 0 completed) (videoKeystream_eq_standard prims conn.crypto connectionId))
  rw [List.nil_append, ← all]
  constructor
  · rw [deliveries_append]
    exact ⟨_, congrArg (· ++ _) delivered⟩
  · intro arrivedAll ended
    rw [arrivedAll, List.append_right_eq_self] at sent
    have none : left = [] := (sent ▸ reached.expecting.2).exhausted ended
    rw [delivered, none, List.append_nil]

def started : VideoStream.Connection (videoCipher (opensslPrimitives default)) :=
  (VideoStream.Connection.start (ApCrypto.new default) true).1

/-- A frame of two bytes and a heartbeat, as they are sent; the frame comes in three parts. -/
def sentFrame : WirePacket :=
  sealedPacket (standardKeystream (@ApCrypto.streamKeyIv (opensslPrimitives default) (.new default) 7).1
    (@ApCrypto.streamKeyIv (opensslPrimitives default) (.new default) 7).2) 0 videoPacket

def sentTrace : List Event :=
  [.stream (.readSome videoPacket.header), .stream (.readSome (sentFrame.payload.take 1)),
    .stream (.readSome (sentFrame.payload.drop 1)), .stream (.readSome heartbeatPacket.header),
    .stream (.readSome heartbeatPacket.payload)]

theorem frames_played_sample :
    ∃ final effects, Machine.run step started (.control (.setupVideo 7) :: sentTrace) = some (final, effects) ∧
      callbacks effects = [videoPacket, heartbeatPacket].flatMap plainDelivery := by
  have phase : (Machine.run step started (.control (.setupVideo 7) :: sentTrace)).map (fun result => result.1.phase) =
      some .header := by decide +kernel
  obtain ⟨⟨final, effects⟩, ran, ended⟩ := Option.map_eq_some_iff.mp phase
  have fit : ∀ packet ∈ [videoPacket, heartbeatPacket], smsHeaderSize + packet.payload.length ≤ SMS_BUFFER_SIZE := by decide
  have keeps : ∀ event ∈ sentTrace, ¬ event.Rekeys := by
    simp only [sentTrace, List.forall_mem_cons, Event.Rekeys, not_false_eq_true, true_and]
    exact List.forall_mem_nil _
  have all : arrived sentTrace =
      (sentStream default (.new default) 7 [videoPacket, heartbeatPacket]).flatMap WirePacket.bytes := by
    have frame : sentFrame.bytes = videoPacket.header ++ (sentFrame.payload.take 1 ++ sentFrame.payload.drop 1) := by
      rw [List.take_append_drop, WirePacket.bytes, sentFrame, sealedPacket_header]
    have heartbeat : ∀ keystream position, sealedPacket keystream position heartbeatPacket = heartbeatPacket :=
      fun _ _ => if_neg (by decide)
    rw [sentStream, sealedPackets, sealedPackets, sealedPackets, heartbeat, List.flatMap_cons]
    rw [show sealedPacket _ 0 videoPacket = sentFrame from rfl, frame]
    simp [arrived, sentTrace, VideoStream.Event.bytes, WirePacket.bytes]
  have played := frames_played default rfl rfl rfl 7 _ fit keeps (all ▸ List.prefix_refl _) ran
  exact ⟨final, effects, ran, played.2 all ended⟩

end Apsdk.Mirroring
