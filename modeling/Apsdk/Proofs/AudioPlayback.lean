import Apsdk.Proofs.AesChaining
import Apsdk.Proofs.AudioDecryption
import Apsdk.Proofs.BoundedBuffer
import Apsdk.Proofs.Reordering

/-! The audio stream from end to end, with the AES of the library. A sender encrypts the whole
blocks of each payload with the key and the IV that it has announced; the handler receives
what was sent, each packet at most as often as it arrives. -/

namespace Apsdk.AudioReceiver
open Library AudioStream AesModes AesCore

/-- A packet as it is sent. -/
def sealPacket (key iv : Bytes) (packet : RtpPacket) : RtpPacket :=
  let encrypted := packet.payload.length / 16 * 16
  { packet with
    payload := cbc (key.take 16) (iv.take 16) (packet.payload.take encrypted) ++ packet.payload.drop encrypted }

/-- What the handler receives of a packet. -/
def plainData (packet : RtpPacket) : AudioData := ⟨packet, packet.payload.length⟩

section Opened

theorem opensslCbc_opens {key iv data : Bytes} (keyed : key.length = 16) (sized : iv.length = 16) (whole : data.length % 16 = 0) :
    (opensslCbc.cbcEncrypt (opensslCbc.setDecryptKey key opensslCbc.blank) iv (cbc key iv data)).1 = data := by
  obtain ⟨iv', opened⟩ := cbcDecryptInPlace_inverted (.inl keyed) .blank (Rijndael.toBlock iv) data
  have scheduled := aesSetDecryptKey_eq key .blank (.inl keyed)
  have same : (cbc key iv data).length = data.length := by
    have kept := @length_cbc key (Rijndael.toBlock iv) data
    rwa [bytes_toBlock sized, padded_of_whole whole] at kept
  rw [bytes_toBlock sized, List.drop_eq_nil_of_le (Nat.le_of_eq same), List.append_nil, ← same] at opened
  rw [keyed] at scheduled
  simp only [opensslCbc, scheduled, Option.map_some, Option.getD_some, if_pos sized, opened]

/-- The whole blocks of a payload are as long as they were. -/
theorem length_sealed (key : Bytes) {iv : Bytes} (sized : 16 ≤ iv.length) (payload : Bytes) :
    (cbc (key.take 16) (iv.take 16) (payload.take (payload.length / 16 * 16))).length = payload.length / 16 * 16 := by
  have iv_front : (iv.take 16).length = 16 := List.length_take_of_le sized
  have front : (payload.take (payload.length / 16 * 16)).length = payload.length / 16 * 16 :=
    List.length_take_of_le (Nat.div_mul_le_self ..)
  have kept := @length_cbc (key.take 16) (Rijndael.toBlock (iv.take 16)) (payload.take (payload.length / 16 * 16))
  rwa [bytes_toBlock iv_front, padded_of_whole (by rw [front, Nat.mul_mod_left]), front] at kept

theorem length_sealPacket (key : Bytes) {iv : Bytes} (sized : 16 ≤ iv.length) (packet : RtpPacket) :
    (sealPacket key iv packet).payload.length = packet.payload.length := by
  have kept := length_sealed key sized packet.payload
  simp only [sealPacket, List.length_append, List.length_drop, kept]
  omega

theorem decrypted_sealPacket {key iv : Bytes} (packet : RtpPacket) (keyed : 16 ≤ key.length) (sized : 16 ≤ iv.length) :
    Handed.decrypted opensslCbc ⟨sealPacket key iv packet, key, iv⟩ = plainData packet := by
  have whole : (packet.payload.take (packet.payload.length / 16 * 16)).length % 16 = 0 := by
    rw [List.length_take_of_le (Nat.div_mul_le_self ..), Nat.mul_mod_left]
  have kept := length_sealed key sized packet.payload
  have opened := opensslCbc_opens (List.length_take_of_le keyed) (List.length_take_of_le sized) whole
  rw [Handed.decrypted, length_sealPacket key sized packet]
  simp only [sealPacket, List.take_left' kept, List.drop_left' kept, opened, List.take_append_drop, plainData]

end Opened

section Arrivals

/-- A receive that completes, or fails. -/
def arrival : Option Received → Event
  | none => .failed
  | some datagram => .received datagram

def arrivalDatagram : Option Received → Datagram
  | none => .failed
  | some datagram => datagram.datagram

/-- The packet that a receive carries, if it is long enough for one. -/
inductive Carries (key iv : Bytes) : Option Received → List RtpPacket → Prop where
  | failed : Carries key iv none []
  | short {datagram : Received} (short : datagram.bytes.length < RTP_PACKET_MIN_LEN) : Carries key iv (some datagram) []
  | packet {datagram : Received} {packet : RtpPacket} (long : ¬ datagram.bytes.length < RTP_PACKET_MIN_LEN)
      (encrypted : packetOf datagram.bytes = sealPacket key iv packet) : Carries key iv (some datagram) [packet]

variable {prims : Primitives} {queue : PriorityQueue}

theorem itemize_controls (requests : List HandshakeRequest) (later : List Event) (reference : Reference prims queue) :
    itemize Reference.step reference (requests.map .control ++ later) =
      itemize Reference.step { reference with keys := requests.foldl (fun keys request => request.apply keys) reference.keys }
        later := by
  induction requests generalizing reference with
  | nil => rfl
  | cons request requests ih =>
    rw [List.map_cons, List.cons_append, itemize, List.foldl_cons]
    exact ih _

theorem itemize_arrivals (arrivals : List (Option Received)) (reference : Reference prims queue) :
    (itemize Reference.step reference (arrivals.map arrival)).2 =
      handOver reference.hasHandler reference.keys (reference.service.run (arrivals.map arrivalDatagram)).2 := by
  induction arrivals generalizing reference with
  | nil => exact (handOver_nil _ _).symm
  | cons received arrivals ih =>
    have parts : ∀ first second : List RtpPacket, handOver reference.hasHandler reference.keys (first ++ second) =
        handOver reference.hasHandler reference.keys first ++ handOver reference.hasHandler reference.keys second := by
      intro first second
      cases handled : reference.hasHandler <;> simp [handOver]
    cases received with
    | none => exact ih reference
    | some datagram =>
      rw [List.map_cons, List.map_cons, itemize, Service.run]
      simp only [parts]
      exact congrArg (_ ++ ·) (ih _)

end Arrivals

section Conservation
variable {queue : PriorityQueue}

theorem dataHandler_keeps (service : Service queue) (packet : RtpPacket) :
    ((service.dataHandler (.packet packet)).2 ++ (service.dataHandler (.packet packet)).1.held).Subperm
      (packet :: service.held) := by
  have aside : service.held.Subperm (packet :: service.held) := (List.sublist_cons_self _ _).subperm
  simp only [Service.dataHandler]
  split
  · exact aside
  · obtain ⟨-, due⟩ | ⟨-, -, -, kept⟩ | ⟨-, flushed⟩ | ⟨-, -, left⟩ := service.audioData_cases packet
    · rw [due]
      exact ((Service.processCachedPacket_keeps false { service with expectedSeq := packet.sequence + 1 }).cons packet).subperm
    · rw [kept]
      exact (Service.held_cachePacket service packet.sequence packet).subperm
    · rw [flushed]
      exact (Service.processCachedPacket_keeps true service).subperm.trans aside
    · rw [left]
      exact aside

theorem held_fresh : (Service.fresh : Service queue).held = [] := congrArg (List.map _) queue.contents_empty

/-- The packets among the datagrams. -/
def arrived (datagrams : List Datagram) : List RtpPacket :=
  datagrams.filterMap fun
    | .packet header => some header
    | _ => none

/-- Over a run, what is passed on and what is held are packets that arrived, each once for an arrival. -/
theorem run_keeps (datagrams : List Datagram) (service : Service queue) :
    ((service.run datagrams).2 ++ (service.run datagrams).1.held).Subperm (service.held ++ arrived datagrams) := by
  induction datagrams generalizing service with
  | nil => simpa [Service.run, arrived] using List.Subperm.refl service.held
  | cons datagram datagrams ih =>
    have further : ∀ passed next, service.dataHandler datagram = (next, passed) → ∀ part,
        (passed ++ next.held).Subperm (service.held ++ part) →
        (passed ++ ((next.run datagrams).2 ++ (next.run datagrams).1.held)).Subperm (service.held ++ (part ++ arrived datagrams)) := by
      intro passed next _ part here
      have first : (passed ++ ((next.run datagrams).2 ++ (next.run datagrams).1.held)).Subperm
          (passed ++ (next.held ++ arrived datagrams)) := (List.subperm_append_left _).mpr (ih next)
      have second : ((passed ++ next.held) ++ arrived datagrams).Subperm ((service.held ++ part) ++ arrived datagrams) :=
        (List.subperm_append_right _).mpr here
      rw [List.append_assoc, List.append_assoc] at second
      exact first.trans second
    rw [Service.run]
    simp only [List.append_assoc]
    cases datagram with
    | failed => exact further [] service rfl [] (by simpa using List.Subperm.refl service.held)
    | short bytes => exact further [] service rfl [] (by simpa using List.Subperm.refl service.held)
    | packet header =>
      have keeps := (dataHandler_keeps service header).trans (List.perm_append_singleton header service.held).symm.subperm
      exact further _ _ rfl [header] keeps

theorem arrived_carried {key iv : Bytes} {arrivals : List (Option Received)} {parts : List (List RtpPacket)}
    (carried : List.Forall₂ (Carries key iv) arrivals parts) :
    arrived (arrivals.map arrivalDatagram) = parts.flatten.map (sealPacket key iv) := by
  induction carried with
  | nil => rfl
  | @cons received part arrivals parts carries _ ih =>
    cases carries with
    | failed => exact ih
    | @short datagram short =>
      have ignored : arrivalDatagram (some datagram) = .short ⟨datagram.bytes.length, short⟩ := dif_pos short
      rw [List.map_cons, ignored]
      exact ih
    | @packet datagram packet long encrypted =>
      have read : arrivalDatagram (some datagram) = .packet (packetOf datagram.bytes) := dif_neg long
      rw [List.map_cons, read, encrypted]
      exact congrArg (sealPacket key iv packet :: ·) ih

end Conservation

section Playback
variable (prims : Primitives) (queue : PriorityQueue) (server : ServerKeyChain)

/-- A service with a handler, the requests that set its keys, and what arrives then. -/
def playback (requests : List HandshakeRequest) (arrivals : List (Option Received)) : Session :=
  ⟨server, true, requests.map .control ++ arrivals.map arrival⟩

theorem length_clientAesKey (requests : List HandshakeRequest) : 16 ≤ (@cryptoAfter prims server requests).clientAesKey.length := by
  have kept : ∀ keys : ApCrypto prims, 16 ≤ keys.clientAesKey.length →
      16 ≤ (requests.foldl (fun keys request => request.apply keys) keys).clientAesKey.length := by
    induction requests with
    | nil => exact fun keys key => key
    | cons request requests ih => exact fun keys key => ih _ (apply_key key request)
  exact kept _ (Nat.le_of_eq List.length_replicate.symm)

variable {prims queue server} {requests : List HandshakeRequest} {arrivals : List (Option Received)}

/-- The packets that are delivered, still encrypted. -/
theorem handed_playback :
    (playback server requests arrivals).handed prims queue =
      ((Service.fresh : Service queue).run (arrivals.map arrivalDatagram)).2.map fun packet =>
        ⟨packet, (@cryptoAfter prims server requests).clientAesKey, (@cryptoAfter prims server requests).clientAesIv⟩ := by
  rw [Session.handed, playback, itemize_controls, itemize_arrivals]
  rfl

theorem received_playback (iv : 16 ≤ (@cryptoAfter prims server requests).clientAesIv.length) :
    (playback server requests arrivals).received prims opensslCbc queue =
      some (((Service.fresh : Service queue).run (arrivals.map arrivalDatagram)).2.map fun packet =>
        Handed.decrypted opensslCbc
          ⟨packet, (@cryptoAfter prims server requests).clientAesKey, (@cryptoAfter prims server requests).clientAesIv⟩) := by
  have decryptable : (playback server requests arrivals).Decryptable prims queue := by
    intro handed member
    rw [handed_playback] at member
    obtain ⟨packet, -, rfl⟩ := List.mem_map.mp member
    exact fun _ => iv
  rw [(Session.received_iff prims opensslCbc queue _).mpr decryptable, handed_playback, List.map_map]
  rfl

theorem decrypted_sealed (iv : 16 ≤ (@cryptoAfter prims server requests).clientAesIv.length) (packets : List RtpPacket) :
    ((packets.map (sealPacket (@cryptoAfter prims server requests).clientAesKey (@cryptoAfter prims server requests).clientAesIv)).map
      fun packet => Handed.decrypted opensslCbc
        ⟨packet, (@cryptoAfter prims server requests).clientAesKey, (@cryptoAfter prims server requests).clientAesIv⟩) =
      packets.map plainData := by
  rw [List.map_map]
  exact List.map_congr_left fun packet _ => decrypted_sealPacket packet (length_clientAesKey prims server requests) iv

end Playback

section Window
variable {queue : PriorityQueue}

/-- The first packet of a stream finds its own number expected. -/
theorem fresh_run_eq {packet : RtpPacket} (audio : Audio packet) (later : List RtpPacket) :
    (Service.fresh : Service queue).run ((packet :: later).map .packet) =
      (⟨packet.sequence, queue.empty⟩ : Service queue).run ((packet :: later).map .packet) := by
  have alike : (Service.fresh : Service queue).dataHandler (.packet packet) =
      (⟨packet.sequence, queue.empty⟩ : Service queue).dataHandler (.packet packet) := by
    rw [Service.dataHandler_audio _ audio, Service.dataHandler_audio _ audio, Service.audioData_due _ (.inl rfl),
      Service.audioData_due _ (.inr rfl)]
    rfl
  rw [List.map_cons, Service.run, Service.run, alike]

/-- There is room in the cache for each packet that comes early. -/
def Roomy (queue : PriorityQueue) (arrivals : List RtpPacket) : Prop :=
  ∀ before packet later, arrivals = before ++ packet :: later →
    (Service.after queue before).expectedSeq < packet.sequence →
    (Service.after queue before).cached < MAX_CACHED_PACKET_SIZE

theorem roomy_of_few {arrivals : List RtpPacket} (few : arrivals.length ≤ MAX_CACHED_PACKET_SIZE) : Roomy queue arrivals := by
  intro before packet later split _
  have kept := (run_keeps (before.map .packet) (Service.fresh : Service queue)).length_le
  have all : arrived (before.map Datagram.packet) = before := by
    rw [arrived, List.filterMap_map]
    exact List.filterMap_some
  have cached : (Service.after queue before).cached = (Service.after queue before).held.length := (List.length_map _).symm
  rw [held_fresh, List.nil_append, all, List.length_append] at kept
  rw [split, List.length_append, List.length_cons] at few
  rw [cached, Service.after]
  omega

theorem window_delivered {start count : Nat} (positive : 1 ≤ start) {packet : RtpPacket} {later : List RtpPacket}
    (audio : ∀ other ∈ packet :: later, Audio other)
    (complete : (numbers (packet :: later)).Perm (List.range' start count)) (first : packet.sequence.toNat = start)
    (room : Roomy queue (packet :: later)) :
    numbers ((Service.fresh : Service queue).run ((packet :: later).map .packet)).2 = List.range' start count ∧
      ((Service.fresh : Service queue).run ((packet :: later).map .packet)).2.Perm (packet :: later) := by
  have begun := @fresh_run_eq queue _ (audio packet List.mem_cons_self)
  have inside : ∀ number ∈ numbers (packet :: later), start ≤ number :=
    fun number member => (List.mem_range'_1.mp (complete.subset member)).1
  have roomy : ∀ part other rest, packet :: later = part ++ other :: rest →
      ((⟨packet.sequence, queue.empty⟩ : Service queue).run (part.map .packet)).1.expectedSeq < other.sequence →
      ((⟨packet.sequence, queue.empty⟩ : Service queue).run (part.map .packet)).1.cached < MAX_CACHED_PACKET_SIZE := by
    intro part other rest split ahead
    cases part with
    | nil =>
      obtain ⟨rfl, -⟩ := List.cons.inj split
      exact absurd ahead (UInt16.lt_irrefl _)
    | cons head part =>
      obtain ⟨rfl, -⟩ := List.cons.inj split
      rw [← begun] at ahead ⊢
      exact room (packet :: part) other rest split ahead
  obtain ⟨passed, repaired⟩ := (Service.Repairs.opened first).run positive audio inside (complete.nodup_iff.mpr List.nodup_range') roomy
  rw [← begun, List.nil_append, List.nil_append] at repaired
  obtain ⟨rfl, empty⟩ := repaired.complete complete
  have nothing : ((Service.fresh : Service queue).run ((packet :: later).map .packet)).1.held = [] :=
    congrArg (List.map CachedPacket.data) empty
  have all := repaired.all
  rw [nothing, List.append_nil] at all
  exact ⟨repaired.passed, all⟩

end Window

/-- Whatever is lost, repeated, reordered or cut short on the way, the handler receives packets that were
sent, decrypted, and each at most as often as it arrived. -/
theorem received_subperm_sent (prims : Primitives) (queue : PriorityQueue) (server : ServerKeyChain)
    (requests : List HandshakeRequest) (arrivals : List (Option Received)) (parts : List (List RtpPacket))
    (iv : 16 ≤ (@cryptoAfter prims server requests).clientAesIv.length)
    (carried : List.Forall₂ (Carries (@cryptoAfter prims server requests).clientAesKey
      (@cryptoAfter prims server requests).clientAesIv) arrivals parts) :
    ∃ calls, (playback server requests arrivals).received prims opensslCbc queue = some calls ∧
      calls.Subperm (parts.flatten.map plainData) := by
  refine ⟨_, received_playback iv, ?_⟩
  have kept := run_keeps (arrivals.map arrivalDatagram) (Service.fresh : Service queue)
  rw [held_fresh, List.nil_append, arrived_carried carried] at kept
  obtain ⟨some_sent, same, inside⟩ := (List.sublist_append_left _ _).subperm.trans kept
  rw [← decrypted_sealed iv]
  exact ⟨_, same.map _, inside.map _⟩

section Window
variable {prims : Primitives} {queue : PriorityQueue} {server : ServerKeyChain} {requests : List HandshakeRequest}

theorem arrivalDatagram_long {datagrams : List Received}
    (long : ∀ datagram ∈ datagrams, RTP_PACKET_MIN_LEN ≤ datagram.bytes.length) :
    (datagrams.map some).map arrivalDatagram = (datagrams.map fun datagram => packetOf datagram.bytes).map .packet := by
  rw [List.map_map, List.map_map]
  refine List.map_congr_left fun datagram member => ?_
  exact dif_neg (Nat.not_lt.mpr (long datagram member))

/-- The packet that was sealed. -/
def opened (prims : Primitives) (server : ServerKeyChain) (requests : List HandshakeRequest) (packet : RtpPacket) : RtpPacket :=
  (Handed.decrypted opensslCbc
    ⟨packet, (@cryptoAfter prims server requests).clientAesKey, (@cryptoAfter prims server requests).clientAesIv⟩).packet

theorem opened_sealed (iv : 16 ≤ (@cryptoAfter prims server requests).clientAesIv.length) (packet : RtpPacket) :
    opened prims server requests (sealPacket (@cryptoAfter prims server requests).clientAesKey
      (@cryptoAfter prims server requests).clientAesIv packet) = packet := by
  rw [opened, decrypted_sealPacket packet (length_clientAesKey prims server requests) iv]
  rfl

theorem numbers_opened (packets : List RtpPacket) : numbers (packets.map (opened prims server requests)) = numbers packets := by
  rw [numbers, List.map_map]
  rfl

/-- What is received of packets that were sealed is what is opened of them. -/
theorem received_opened (iv : 16 ≤ (@cryptoAfter prims server requests).clientAesIv.length) {delivered packets : List RtpPacket}
    (same : delivered.Perm (packets.map (sealPacket (@cryptoAfter prims server requests).clientAesKey
      (@cryptoAfter prims server requests).clientAesIv))) :
    (delivered.map fun packet => Handed.decrypted opensslCbc
      ⟨packet, (@cryptoAfter prims server requests).clientAesKey, (@cryptoAfter prims server requests).clientAesIv⟩) =
        (delivered.map (opened prims server requests)).map plainData ∧
      (delivered.map (opened prims server requests)).Perm packets := by
  constructor
  · rw [List.map_map]
    refine List.map_congr_left fun packet member => ?_
    obtain ⟨plain, -, rfl⟩ := List.mem_map.mp (same.mem_iff.mp member)
    rw [decrypted_sealPacket plain (length_clientAesKey prims server requests) iv, Function.comp_apply, opened_sealed iv]
  · have back := same.map (opened prims server requests)
    rw [List.map_map] at back
    refine back.trans (List.Perm.of_eq ?_)
    conv_rhs => rw [← List.map_id packets]
    exact List.map_congr_left fun packet _ => opened_sealed iv packet

end Window

/-- A window of packets, sent encrypted and received in any order for which the cache has room, is played
in order and as it was before the encryption. -/
theorem window_played (prims : Primitives) (queue : PriorityQueue) (server : ServerKeyChain) (requests : List HandshakeRequest)
    (datagrams : List Received) (packets : List RtpPacket) (start count : Nat) (positive : 1 ≤ start)
    (iv : 16 ≤ (@cryptoAfter prims server requests).clientAesIv.length)
    (long : ∀ datagram ∈ datagrams, RTP_PACKET_MIN_LEN ≤ datagram.bytes.length)
    (encrypted : datagrams.map (fun datagram => packetOf datagram.bytes) = packets.map
      (sealPacket (@cryptoAfter prims server requests).clientAesKey (@cryptoAfter prims server requests).clientAesIv))
    (audio : ∀ packet ∈ packets, Audio packet) (complete : (numbers packets).Perm (List.range' start count))
    (first : (numbers packets).head? = some start)
    (room : Roomy queue (datagrams.map fun datagram => packetOf datagram.bytes)) :
    ∃ played, (playback server requests (datagrams.map some)).received prims opensslCbc queue = some (played.map plainData) ∧
      numbers played = List.range' start count ∧ played.Perm packets := by
  have sealed_numbers : numbers (datagrams.map fun datagram => packetOf datagram.bytes) = numbers packets := by
    rw [encrypted, numbers, List.map_map]
    rfl
  have sealed_audio : ∀ packet ∈ datagrams.map (fun datagram => packetOf datagram.bytes), Audio packet := by
    rw [encrypted]
    intro packet member
    obtain ⟨plain, sent, rfl⟩ := List.mem_map.mp member
    exact audio plain sent
  have received := @received_playback prims queue server requests (datagrams.map some) iv
  rw [arrivalDatagram_long long] at received
  rw [← sealed_numbers] at complete first
  cases arrivals : datagrams.map (fun datagram => packetOf datagram.bytes) with
  | nil =>
    rw [arrivals] at first
    cases first
  | cons packet later =>
    rw [arrivals] at complete first sealed_audio room received encrypted
    obtain ⟨ordered, all⟩ := window_delivered positive sealed_audio complete (Option.some.inj first) room
    obtain ⟨calls, plain⟩ := received_opened iv (all.trans (List.Perm.of_eq encrypted))
    rw [calls] at received
    exact ⟨_, received, by rw [numbers_opened, ordered], plain⟩

section Sample

/-- A `SETUP` with an IV and an encrypted key. -/
def announced : List HandshakeRequest := [.setup (List.replicate 16 9) (List.replicate 72 5)]

/-- A packet with a block of payload and two bytes more. -/
def plainPacket (sequence : UInt16) : RtpPacket := ⟨0x80, false, rtpAudioData, sequence, 0, 0, List.replicate 18 sequence.toUInt8⟩

def sentPacket (sequence : UInt16) : RtpPacket :=
  sealPacket (@cryptoAfter default default announced).clientAesKey (@cryptoAfter default default announced).clientAesIv
    (plainPacket sequence)

theorem announced_iv : 16 ≤ (@cryptoAfter default default announced).clientAesIv.length := by decide +kernel

theorem length_sentPacket (sequence : UInt16) : (sentPacket sequence).payload.length = 18 :=
  length_sealPacket _ announced_iv (plainPacket sequence)

def sentDatagram (sequence : UInt16) : Received where
  bytes := [0x80, 96] ++ beBytes 2 sequence.toNat ++ List.replicate 8 0 ++ (sentPacket sequence).payload
  fits := by
    simp only [List.length_append, length_beBytes, length_sentPacket, List.length_replicate]
    decide

theorem packetOf_sentDatagram (sequence : UInt16) : packetOf (sentDatagram sequence).bytes = sentPacket sequence := by
  have number : UInt16.ofNat (beValue (beBytes 2 sequence.toNat)) = sequence := by
    rw [beValue_beBytes, Nat.mod_eq_of_lt (show sequence.toNat < 256 ^ 2 from sequence.toNat_lt), UInt16.ofNat_toNat]
  have header : (packetOf (sentDatagram sequence).bytes).sequence = sequence := number
  have rest : packetOf (sentDatagram sequence).bytes =
      ⟨0x80, false, rtpAudioData, UInt16.ofNat (beValue (beBytes 2 sequence.toNat)), 0, 0, (sentPacket sequence).payload⟩ := rfl
  rw [rest, number]
  rfl

theorem length_sentDatagram (sequence : UInt16) : (sentDatagram sequence).bytes.length = 30 := by
  simp only [sentDatagram, List.length_append, length_beBytes, length_sentPacket, List.length_replicate]
  rfl

end Sample

theorem received_subperm_sent_sample :
    ∃ calls, (playback default announced [none, some (sentDatagram 7), some (sentDatagram 7)]).received default opensslCbc sortedList =
        some calls ∧ calls.Subperm ([plainPacket 7, plainPacket 7].map plainData) := by
  have long : ¬ (sentDatagram 7).bytes.length < RTP_PACKET_MIN_LEN := by
    rw [length_sentDatagram]
    decide
  have carries : Carries (@cryptoAfter default default announced).clientAesKey (@cryptoAfter default default announced).clientAesIv
      (some (sentDatagram 7)) [plainPacket 7] := .packet long (packetOf_sentDatagram 7)
  exact received_subperm_sent default sortedList default announced _ [[], [plainPacket 7], [plainPacket 7]] announced_iv
    (.cons .failed (.cons carries (.cons carries .nil)))

theorem window_played_sample :
    ∃ played, (playback default announced ([sentDatagram 1, sentDatagram 3, sentDatagram 2].map some)).received default opensslCbc
        sortedList = some (played.map plainData) ∧
      numbers played = List.range' 1 3 ∧ played.Perm [plainPacket 1, plainPacket 3, plainPacket 2] := by
  have numbered : ∀ sequence, packetOf (sentDatagram sequence).bytes = sealPacket
      (@cryptoAfter default default announced).clientAesKey (@cryptoAfter default default announced).clientAesIv
        (plainPacket sequence) := packetOf_sentDatagram
  have long : ∀ datagram ∈ [sentDatagram 1, sentDatagram 3, sentDatagram 2], RTP_PACKET_MIN_LEN ≤ datagram.bytes.length := by
    simp only [List.forall_mem_cons, length_sentDatagram]
    decide
  refine window_played default sortedList default announced _ [plainPacket 1, plainPacket 3, plainPacket 2] 1 3 (by decide)
    announced_iv long ?_ (by decide) (by decide) rfl (roomy_of_few (by decide))
  simp only [List.map_cons, List.map_nil, numbered]

end Apsdk.AudioReceiver
