import Apsdk.Mirroring
import Apsdk.Proofs.CounterMode
import Apsdk.Proofs.VideoBuffer

/-! The position of the keystream is carried from packet to packet, whatever
their sizes are and however the socket cuts them. -/

namespace Apsdk.VideoStream
open Library

theorem swapBytes_lt (width value : Nat) : swapBytes width value < 256 ^ width := by
  have small := leValue_lt (leBytes width value).reverse
  rwa [List.length_reverse, length_leBytes] at small

theorem ntohs_swapBytes16 (v : UInt16) : ntohs (swapBytes16 v) = v := by
  have bound : v.toNat < 256 ^ 2 := v.toNat_lt
  have restored : swapBytes 2 (swapBytes 2 v.toNat) = v.toNat := beValue_reversed bound
  apply UInt16.toNat_inj.mp
  rw [ntohs, swapBytes16, swapBytes16, UInt16.toNat_ofNat_of_lt' (swapBytes_lt 2 v.toNat), restored,
    UInt16.toNat_ofNat_of_lt' bound]

theorem ntohll_swapBytes64 (v : UInt64) : ntohll (swapBytes64 v) = v := by
  have bound : v.toNat < 256 ^ 8 := v.toNat_lt
  have restored : swapBytes 8 (swapBytes 8 v.toNat) = v.toNat := beValue_reversed bound
  apply UInt64.toNat_inj.mp
  rw [ntohll, swapBytes64, swapBytes64, UInt64.toNat_ofNat_of_lt' (swapBytes_lt 8 v.toNat), restored,
    UInt64.toNat_ofNat_of_lt' bound]

/-- A packet as it is sent. -/
structure WirePacket where
  header : Bytes
  payload : Bytes
  full : header.length = smsHeaderSize
  stated : statedSize header = payload.length

namespace WirePacket

def bytes (packet : WirePacket) : Bytes := packet.header ++ packet.payload

def kind (packet : WirePacket) : UInt16 := (PacketHeader.load packet.header).payloadType

def Encrypted (packet : WirePacket) : Prop := packet.kind = smsVideoData ∨ packet.kind = smsPayload4096

instance (packet : WirePacket) : Decidable packet.Encrypted := inferInstanceAs (Decidable (_ ∨ _))

/-- The callback for a packet, when the keystream stands at a position. -/
def delivery (keystream : Nat → UInt8) (position : Nat) (packet : WirePacket) : List Effect :=
  if packet.Encrypted then
    [.onVideoStreamData ⟨.load packet.header, xorStream keystream position packet.payload⟩]
  else if packet.kind = smsVideoCodec then [.onVideoStreamCodec ⟨.load packet.header, packet.payload⟩]
  else if packet.kind = smsPayload5 then [.onVideoStreamHeartbeat]
  else []

/-- The size of the encrypted payloads. -/
def encryptedSize (packets : List WirePacket) : Nat :=
  ((packets.filter fun packet => packet.Encrypted).map fun packet => packet.payload.length).sum

/-- The callbacks for packets, in order; each payload is combined with the
keystream behind all encrypted payloads before it. -/
def deliveries (keystream : Nat → UInt8) : Nat → List WirePacket → List Effect
  | _, [] => []
  | position, packet :: later =>
    packet.delivery keystream position ++ deliveries keystream (position + encryptedSize [packet]) later

theorem encryptedSize_append (first second : List WirePacket) :
    encryptedSize (first ++ second) = encryptedSize first + encryptedSize second := by
  simp only [encryptedSize, List.filter_append, List.map_append, List.sum_append]

theorem deliveries_append (keystream : Nat → UInt8) (position : Nat) (first second : List WirePacket) :
    deliveries keystream position (first ++ second) =
      deliveries keystream position first ++ deliveries keystream (position + encryptedSize first) second := by
  induction first generalizing position with
  | nil => rfl
  | cons packet later ih =>
    have size := encryptedSize_append [packet] later
    rw [List.singleton_append] at size
    rw [List.cons_append, deliveries, deliveries, ih, size, Nat.add_assoc, List.append_assoc]

theorem flatMap_eq_nil_of_short {packets : List WirePacket} (short : (packets.flatMap bytes).length < smsHeaderSize) :
    packets = [] := by
  cases packets with
  | nil => rfl
  | cons packet later =>
    have full := packet.full
    simp only [List.flatMap_cons, bytes, List.length_append] at short
    omega

end WirePacket

def Effect.isCallback : Effect → Bool
  | .read _ => false
  | .decryptVideoFrame _ => false
  | .onVideoStreamData _ => true
  | .onVideoStreamCodec _ => true
  | .onVideoStreamHeartbeat => true

def callbacks (effects : List Effect) : List Effect := effects.filter Effect.isCallback

theorem callbacks_append (first second : List Effect) : callbacks (first ++ second) = callbacks first ++ callbacks second :=
  List.filter_append ..

namespace Connection
variable {cipher : Cipher}

/-- What the connection is still to receive: the rest of the packet that it is reading, and the packets behind it. -/
inductive Expecting (conn : Connection cipher) : List WirePacket → Bytes → Prop where
  | header {packets rest} (reading : conn.phase = .header) (short : conn.received.length < smsHeaderSize)
      (ahead : conn.received ++ rest = packets.flatMap WirePacket.bytes) : Expecting conn packets rest
  | payload {packet later rest} (reading : conn.phase = .payload) (loaded : conn.header = .load packet.header)
      (ahead : conn.received ++ rest = packet.payload ++ later.flatMap WirePacket.bytes) :
      Expecting conn (packet :: later) rest
  | failed {packets rest} (stopped : conn.phase = .failed) : Expecting conn packets rest

theorem load_payloadSize (packet : WirePacket) :
    (PacketHeader.load packet.header).payloadSize.toNat = packet.payload.length := by
  rw [← packet.stated]
  exact UInt32.toNat_ofNat_of_lt' (statedSize_lt packet.header)

theorem onPacketHeaderReceived_loads (conn : Connection cipher) {packet : WirePacket}
    (fits : smsHeaderSize + packet.payload.length ≤ SMS_BUFFER_SIZE) :
    conn.onPacketHeaderReceived packet.header =
      ({ conn with phase := .payload, header := .load packet.header, received := [] },
        [.read ⟨smsHeaderSize, packet.payload.length⟩]) := by
  simp only [onPacketHeaderReceived, postReceivePacketPayload, ntohl_swapBytes32, ntohs_swapBytes16, ntohll_swapBytes64,
    load_payloadSize, Range.Inside, if_pos fits]

theorem onPacketPayloadReceived_eq (conn : Connection cipher) (payload : Bytes) :
    conn.onPacketPayloadReceived payload =
      ({ (conn.processPacket payload).1 with phase := .header, header := .zero, received := [] },
        (conn.processPacket payload).2 ++ [.read ⟨0, smsHeaderSize⟩]) := rfl

theorem Expecting.partly {conn : Connection cipher} {packets : List WirePacket} {chunk rest : Bytes}
    (expecting : Expecting conn packets (chunk ++ rest)) (short : (conn.received ++ chunk).length < conn.wanted) :
    Expecting { conn with received := conn.received ++ chunk } packets rest := by
  cases expecting with
  | header reading _ ahead =>
    refine .header reading ?_ ?_
    · simpa only [wanted, reading] using short
    · rwa [List.append_assoc]
  | payload reading loaded ahead =>
    refine .payload reading loaded ?_
    rwa [List.append_assoc]
  | failed stopped => exact .failed stopped

/-- What is expected does not depend on the keys. -/
theorem Expecting.rekeyed {conn : Connection cipher} {packets : List WirePacket} {rest : Bytes} {crypto : cipher.State}
    (expecting : Expecting conn packets rest) : Expecting { conn with crypto } packets rest := by
  cases expecting with
  | header reading short ahead => exact .header reading short ahead
  | payload reading loaded ahead => exact .payload reading loaded ahead
  | failed stopped => exact .failed stopped

theorem Expecting.header_packet {conn : Connection cipher} {packets : List WirePacket} {chunk rest : Bytes}
    (expecting : Expecting conn packets (chunk ++ rest)) (reading : conn.phase = .header)
    (full : (conn.received ++ chunk).length = smsHeaderSize) :
    ∃ packet later, packets = packet :: later ∧ conn.received ++ chunk = packet.header ∧
      rest = packet.payload ++ later.flatMap WirePacket.bytes := by
  cases expecting with
  | header _ _ ahead =>
    rw [← List.append_assoc] at ahead
    cases packets with
    | nil =>
      rw [(List.append_eq_nil_iff.mp ahead).1] at full
      cases full
    | cons packet later =>
      rw [List.flatMap_cons, WirePacket.bytes, List.append_assoc packet.header] at ahead
      obtain ⟨same, rest⟩ := List.append_inj ahead (full.trans packet.full.symm)
      exact ⟨packet, later, rfl, same, rest⟩
  | payload other => rw [reading] at other; cases other
  | failed other => rw [reading] at other; cases other

theorem Expecting.payload_packet {conn : Connection cipher} {packets : List WirePacket} {chunk rest : Bytes}
    (expecting : Expecting conn packets (chunk ++ rest)) (reading : conn.phase = .payload)
    (full : (conn.received ++ chunk).length = conn.header.payloadSize.toNat) :
    ∃ packet later, packets = packet :: later ∧ conn.header = .load packet.header ∧
      conn.received ++ chunk = packet.payload ∧ rest = later.flatMap WirePacket.bytes := by
  cases expecting with
  | header other => rw [reading] at other; cases other
  | @payload packet later _ _ loaded ahead =>
    rw [← List.append_assoc] at ahead
    have size : conn.header.payloadSize.toNat = packet.payload.length := by
      rw [loaded, load_payloadSize]
    obtain ⟨same, rest⟩ := List.append_inj ahead (full.trans size)
    exact ⟨packet, later, rfl, loaded, same, rest⟩
  | failed other => rw [reading] at other; cases other

/-- What is left when nothing more arrives at a packet boundary. -/
theorem Expecting.exhausted {conn : Connection cipher} {packets : List WirePacket}
    (expecting : Expecting conn packets []) (reading : conn.phase = .header) : packets = [] := by
  cases expecting with
  | header _ short ahead =>
    rw [List.append_nil] at ahead
    exact WirePacket.flatMap_eq_nil_of_short (ahead ▸ short)
  | payload other => rw [reading] at other; cases other
  | failed other => rw [reading] at other; cases other

end Connection
end Apsdk.VideoStream

namespace Apsdk.Mirroring
open Library VideoStream WirePacket

variable {prims : Primitives}

/-- The bytes of the video stream in a trace. -/
def arrived (trace : List Event) : Bytes :=
  trace.flatMap fun event => match event with
    | .control _ => []
    | .stream event => event.bytes

/-- A request that sets key and IV of the stream. -/
def Event.Rekeys : Event → Prop
  | .control (.setupVideo _) => True
  | .control _ => False
  | .stream _ => False

theorem apply_mirrorStreamAesCtr (crypto : ApCrypto prims) {request : HandshakeRequest}
    (keeps : ¬ (Event.control request).Rekeys) : (request.apply crypto).mirrorStreamAesCtr = crypto.mirrorStreamAesCtr := by
  cases request with
  | pairSetup ed =>
    simp only [HandshakeRequest.apply, ApCrypto.initClientPublicKeys]
    split_ifs <;> rfl
  | pairVerifyFirst keys =>
    simp only [HandshakeRequest.apply, ApCrypto.initClientPublicKeys, ApCrypto.signPairSignature, ApCrypto.initPairVerifyAes]
    split_ifs <;> rfl
  | pairVerifySecond signature => rfl
  | fpSetup mode => rfl
  | fpHandshake keymsg => rfl
  | setup eiv ekey =>
    simp only [HandshakeRequest.apply, ApCrypto.initClientAesInfo, ApCrypto.fpDecrypt]
    split_ifs <;> rfl
  | setupVideo connectionId => exact absurd trivial keeps

/-- The connection calls a handler, and its cipher stands at a position of the keystream. -/
structure Decrypting (key : prims.aes.Key) (iv : Bytes) (conn : VideoStream.Connection (videoCipher prims))
    (position : Nat) : Prop where
  handled : conn.hasHandler = true
  stands : AesCtr128.At key iv (@ApCrypto.mirrorStreamAesCtr prims conn.crypto) position

variable {key : prims.aes.Key} {iv : Bytes}

theorem Decrypting.processPacket {conn : VideoStream.Connection (videoCipher prims)} {position : Nat}
    (decrypting : Decrypting key iv conn position) {packet : WirePacket} (loaded : conn.header = .load packet.header) :
    callbacks (conn.processPacket packet.payload).2 = packet.delivery (AesCtr128.keystream key iv) position ∧
    Decrypting key iv (conn.processPacket packet.payload).1 (position + encryptedSize [packet]) := by
  have kind : conn.header.payloadType = packet.kind := by rw [loaded]; rfl
  by_cases encrypted : packet.Encrypted
  · obtain ⟨same, reached⟩ := decrypting.stands.xcryptBuffer packet.payload
    have size : encryptedSize [packet] = packet.payload.length := by simp [encryptedSize, encrypted]
    rw [VideoStream.Connection.processPacket, kind, if_pos (show _ ∨ _ from encrypted), delivery, if_pos encrypted, size]
    refine ⟨?_, decrypting.handled, reached⟩
    simp only [VideoStream.Connection.callback, decrypting.handled, if_true, callbacks, loaded]
    exact congrArg (fun payload => [Effect.onVideoStreamData ⟨.load packet.header, payload⟩]) same
  · have size : encryptedSize [packet] = 0 := by simp [encryptedSize, encrypted]
    rw [VideoStream.Connection.processPacket, kind, if_neg (show ¬ (_ ∨ _) from encrypted), delivery, if_neg encrypted, size]
    split_ifs
    · simp [VideoStream.Connection.callback, decrypting.handled, callbacks, Effect.isCallback, loaded, decrypting]
    · simp [VideoStream.Connection.callback, decrypting.handled, callbacks, Effect.isCallback, decrypting]
    · exact ⟨rfl, decrypting⟩

/-- The packets that are completed, and where the connection stands behind them. -/
structure Completes (key : prims.aes.Key) (iv : Bytes) (position : Nat) (packets : List WirePacket) (rest : Bytes)
    (next : VideoStream.Connection (videoCipher prims)) (effects : List Effect) (completed left : List WirePacket) : Prop where
  split : packets = completed ++ left
  delivered : callbacks effects = deliveries (AesCtr128.keystream key iv) position completed
  decrypting : Decrypting key iv next (position + encryptedSize completed)
  expecting : left.Sublist packets ∧ VideoStream.Connection.Expecting next left rest

theorem streamStep_completes {conn next : VideoStream.Connection (videoCipher prims)} {event : VideoStream.Event}
    {effects : List Effect} {position : Nat} {packets : List WirePacket} {rest : Bytes} (decrypting : Decrypting key iv conn position)
    (expecting : VideoStream.Connection.Expecting conn packets (event.bytes ++ rest))
    (fit : ∀ packet ∈ packets, smsHeaderSize + packet.payload.length ≤ SMS_BUFFER_SIZE)
    (taken : conn.step event = some (next, effects)) :
    ∃ completed left, Completes key iv position packets rest next effects completed left := by
  rcases VideoStream.Connection.step_cases taken with ⟨-, short, rfl, rfl⟩ | ⟨reading, full, result⟩ |
    ⟨reading, full, result⟩ | ⟨empty, rfl, rfl⟩
  · exact ⟨[], packets, rfl, rfl, ⟨decrypting.handled, decrypting.stands⟩, .refl packets, expecting.partly short⟩
  · obtain ⟨packet, later, rfl, received, ahead⟩ := expecting.header_packet reading full
    rw [received, conn.onPacketHeaderReceived_loads (fit packet (List.mem_cons_self ..))] at result
    obtain ⟨rfl, rfl⟩ := Prod.mk.inj result
    refine ⟨[], packet :: later, rfl, rfl, ⟨decrypting.handled, decrypting.stands⟩, .refl _, ?_⟩
    exact .payload rfl rfl ahead
  · obtain ⟨packet, later, rfl, loaded, received, ahead⟩ := expecting.payload_packet reading full
    obtain ⟨delivered, processed⟩ := decrypting.processPacket loaded
    rw [received, VideoStream.Connection.onPacketPayloadReceived_eq] at result
    obtain ⟨rfl, rfl⟩ := Prod.mk.inj result
    refine ⟨[packet], later, rfl, ?_, ⟨processed.handled, processed.stands⟩, List.sublist_cons_self packet later, ?_⟩
    · rw [callbacks_append, delivered, deliveries, deliveries, List.append_nil]
      exact List.append_nil _
    · exact .header rfl (Nat.zero_lt_succ 127) ahead
  · exact ⟨[], packets, rfl, rfl, ⟨decrypting.handled, decrypting.stands⟩, .refl packets, .failed rfl⟩

theorem step_completes {conn next : VideoStream.Connection (videoCipher prims)} {event : Event} {effects : List Effect}
    {position : Nat} {packets : List WirePacket} {rest : Bytes} (decrypting : Decrypting key iv conn position)
    (expecting : VideoStream.Connection.Expecting conn packets (arrived [event] ++ rest))
    (fit : ∀ packet ∈ packets, smsHeaderSize + packet.payload.length ≤ SMS_BUFFER_SIZE)
    (keeps : ¬ event.Rekeys) (taken : step conn event = some (next, effects)) :
    ∃ completed left, Completes key iv position packets rest next effects completed left := by
  cases event with
  | control request =>
    obtain ⟨rfl, rfl⟩ := Prod.mk.inj (Option.some.inj taken)
    refine ⟨[], packets, rfl, rfl, ⟨decrypting.handled, ?_⟩, .refl packets, ?_⟩
    · have same := @apply_mirrorStreamAesCtr prims conn.crypto request keeps
      have stands := decrypting.stands
      rwa [← same] at stands
    · exact expecting.rekeyed
  | stream event =>
    simp only [arrived, List.flatMap_singleton] at expecting
    exact streamStep_completes decrypting expecting fit taken

theorem run_completes {conn final : VideoStream.Connection (videoCipher prims)} {trace : List Event} {effects : List Effect}
    {position : Nat} {packets : List WirePacket} {rest : Bytes} (decrypting : Decrypting key iv conn position)
    (expecting : VideoStream.Connection.Expecting conn packets (arrived trace ++ rest))
    (fit : ∀ packet ∈ packets, smsHeaderSize + packet.payload.length ≤ SMS_BUFFER_SIZE)
    (keeps : ∀ event ∈ trace, ¬ event.Rekeys) (ran : Machine.run step conn trace = some (final, effects)) :
    ∃ completed left, Completes key iv position packets rest final effects completed left := by
  induction trace generalizing conn position packets effects with
  | nil =>
    obtain ⟨rfl, rfl⟩ : conn = final ∧ [] = effects := by simpa using ran
    exact ⟨[], packets, rfl, rfl, decrypting, .refl packets, expecting⟩
  | cons event later ih =>
    obtain ⟨next, first, last, taken, continued, rfl⟩ := Machine.run_cons_eq_some.mp ran
    have cut : arrived (event :: later) ++ rest = arrived [event] ++ (arrived later ++ rest) := by
      simp only [arrived, List.flatMap_cons, List.flatMap_nil, List.append_nil, List.append_assoc]
    rw [cut] at expecting
    obtain ⟨completed, left, reached⟩ := step_completes decrypting expecting fit (keeps event (List.mem_cons_self ..)) taken
    obtain ⟨more, remaining, ended⟩ := ih reached.decrypting reached.expecting.2
      (fun packet member => fit packet (reached.expecting.1.subset member))
      (fun event member => keeps event (List.mem_cons_of_mem _ member)) continued
    refine ⟨completed ++ more, remaining, ?_, ?_, ?_, ?_, ended.expecting.2⟩
    · rw [reached.split, ended.split, List.append_assoc]
    · rw [callbacks_append, reached.delivered, ended.delivered, deliveries_append]
    · rw [encryptedSize_append, ← Nat.add_assoc]
      exact ended.decrypting
    · exact ended.expecting.1.trans reached.expecting.1

/-- The keystream of a video stream. -/
def videoKeystream (crypto : ApCrypto prims) (connectionId : UInt64) : Nat → UInt8 :=
  AesCtr128.keystream (prims.aes.setEncryptKey (crypto.streamKeyIv connectionId).1) (crypto.streamKeyIv connectionId).2

theorem length_streamIv (crypto : ApCrypto prims) (connectionId : UInt64) :
    (crypto.streamKeyIv connectionId).2.length = 16 := by
  simp only [ApCrypto.streamKeyIv, List.length_take, prims.length_sha512]
  rfl

theorem setupVideo_decrypting {conn : VideoStream.Connection (videoCipher prims)} (handled : conn.hasHandler = true)
    (connectionId : UInt64) :
    Decrypting (prims.aes.setEncryptKey (@ApCrypto.streamKeyIv prims conn.crypto connectionId).1)
      (@ApCrypto.streamKeyIv prims conn.crypto connectionId).2
      { conn with crypto := @HandshakeRequest.apply prims conn.crypto (.setupVideo connectionId) } 0 :=
  ⟨handled, AesCtr128.setKeyIv_at _ _ (length_streamIv conn.crypto connectionId)⟩

/-- From a packet boundary on at which the keys are set, the callbacks are in the order of the
packets, and each encrypted payload is combined with the keystream behind all encrypted payloads
before it. They are due for the packets that have arrived; after an error there are no more. -/
theorem callbacks_aligned {conn final : VideoStream.Connection (videoCipher prims)} {trace : List Event} {effects : List Effect}
    (reading : conn.phase = .header) (boundary : conn.received = []) (handled : conn.hasHandler = true)
    (connectionId : UInt64) (packets : List WirePacket)
    (fit : ∀ packet ∈ packets, smsHeaderSize + packet.payload.length ≤ SMS_BUFFER_SIZE)
    (keeps : ∀ event ∈ trace, ¬ event.Rekeys) (sent : arrived trace <+: packets.flatMap WirePacket.bytes)
    (ran : Machine.run step conn (.control (.setupVideo connectionId) :: trace) = some (final, effects)) :
    callbacks effects <+: deliveries (@videoKeystream prims conn.crypto connectionId) 0 packets ∧
    (arrived trace = packets.flatMap WirePacket.bytes → final.phase = .header →
      callbacks effects = deliveries (@videoKeystream prims conn.crypto connectionId) 0 packets) := by
  obtain ⟨next, first, last, taken, continued, rfl⟩ := Machine.run_cons_eq_some.mp ran
  obtain ⟨rfl, rfl⟩ := Prod.mk.inj (Option.some.inj taken)
  obtain ⟨rest, sent⟩ := sent
  have expecting : VideoStream.Connection.Expecting conn packets (arrived trace ++ rest) := by
    refine .header reading ?_ ?_
    · rw [boundary]
      exact Nat.zero_lt_succ 127
    · rwa [boundary]
  obtain ⟨completed, left, reached⟩ :=
    run_completes (setupVideo_decrypting handled connectionId) expecting.rekeyed fit keeps continued
  rw [List.nil_append]
  constructor
  · rw [reached.split, deliveries_append]
    exact ⟨_, congrArg (· ++ _) reached.delivered⟩
  · intro arrivedAll ended
    rw [arrivedAll, List.append_right_eq_self] at sent
    have none : left = [] := (sent ▸ reached.expecting.2).exhausted ended
    rw [reached.delivered, reached.split, none, List.append_nil]
    rfl

def videoPacket : WirePacket where
  header := [2, 0, 0, 0] ++ List.replicate 124 0
  payload := [7, 9]
  full := rfl
  stated := by decide

def heartbeatPacket : WirePacket where
  header := [1, 0, 0, 0, 5, 0] ++ List.replicate 122 0
  payload := [1]
  full := rfl
  stated := by decide

def waiting : VideoStream.Connection (videoCipher default) := (VideoStream.Connection.start (ApCrypto.new default) true).1

/-- Three packets whose first payload is cut by the socket, with a new FairPlay message in between. -/
def cutTrace : List Event :=
  [.stream (.readSome videoPacket.header), .stream (.readSome [7]), .control (.fpHandshake []),
    .stream (.readSome [9]), .stream (.readSome heartbeatPacket.header), .stream (.readSome heartbeatPacket.payload),
    .stream (.readSome videoPacket.header), .stream (.readSome [7, 9])]

theorem callbacks_aligned_cut :
    ∃ final effects,
      Machine.run step waiting (.control (.setupVideo 7) :: cutTrace) = some (final, effects) ∧
      callbacks effects = deliveries (@videoKeystream default (.new default) 7) 0
        [videoPacket, heartbeatPacket, videoPacket] := by
  have phase : (Machine.run step waiting (.control (.setupVideo 7) :: cutTrace)).map (fun result => result.1.phase) =
      some .header := by decide +kernel
  obtain ⟨⟨final, effects⟩, ran, ended⟩ := Option.map_eq_some_iff.mp phase
  have fit : ∀ packet ∈ [videoPacket, heartbeatPacket, videoPacket],
      smsHeaderSize + packet.payload.length ≤ SMS_BUFFER_SIZE := by decide
  have keeps : ∀ event ∈ cutTrace, ¬ event.Rekeys := by
    simp only [cutTrace, List.forall_mem_cons, Event.Rekeys, not_false_eq_true, true_and]
    exact fun _ member => (nomatch member)
  have all : arrived cutTrace = [videoPacket, heartbeatPacket, videoPacket].flatMap WirePacket.bytes := by
    decide +kernel
  have aligned := callbacks_aligned rfl rfl rfl 7 _ fit keeps (all ▸ List.prefix_refl _) ran
  exact ⟨final, effects, ran, aligned.2 all ended⟩

end Apsdk.Mirroring
