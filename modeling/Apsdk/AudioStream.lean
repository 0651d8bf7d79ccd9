import Apsdk.Library.PriorityQueue

/-! The reorder buffer of the mirroring audio stream. Datagrams go through
`dataHandler`, which passes packets on to `audio_data_packet` or keeps them in
the priority queue `cached_queue_`. -/

namespace Apsdk.AudioStream
open Library

def RTP_PACKET_MIN_LEN : Nat := 12
def MAX_CACHED_PACKET_SIZE : Nat := 10
def rtpAudioData : Nat := 96

/-- A datagram of at least `RTP_PACKET_MIN_LEN` bytes, read through
`rtp_audio_data_packet_t`; `sequence` and `timestamp` are in host order, as
`data_handler` leaves them in the receive buffer. -/
structure RtpPacket where
  flags : UInt8
  marker : Bool
  payloadType : Nat
  sequence : UInt16
  timestamp : UInt32
  ssrc : UInt32
  payload : List UInt8
deriving DecidableEq, Repr

/-- What a completed receive hands to `data_handler`. -/
inductive Datagram where
  | failed
  | short (bytesTransferred : Fin RTP_PACKET_MIN_LEN)
  | packet (header : RtpPacket)
deriving DecidableEq, Repr

structure CachedPacket where
  sequence : UInt16
  data : RtpPacket
deriving DecidableEq, Repr

/-- `cmp` puts the packet with the smallest sequence number on top. -/
def CachedPacket.key (packet : CachedPacket) : Nat := packet.sequence.toNat

structure Service (queue : PriorityQueue) where
  expectedSeq : UInt16
  cachedQueue : queue.Q CachedPacket

variable {queue : PriorityQueue}

namespace Service

def fresh : Service queue := ⟨0, queue.empty⟩

def cached (service : Service queue) : Nat := queue.size service.cachedQueue

def cachePacket (service : Service queue) (seq : UInt16) (packet : RtpPacket) : Service queue :=
  { service with cachedQueue := queue.push CachedPacket.key ⟨seq, packet⟩ service.cachedQueue }

/-- The loop of `process_cached_packet`, at most `n` times round. Every round
pops one packet, so that the number of cached packets is rounds enough. The
second component is what `audio_data_packet` receives. -/
def processCachedPacketLoop (flush : Bool) : Nat → Service queue → Service queue × List RtpPacket
  | 0, service => (service, [])
  | n + 1, service =>
    match queue.pop CachedPacket.key service.cachedQueue with
    | none => (service, [])
    | some (p, rest) =>
      if flush || p.sequence == service.expectedSeq then
        let (final, delivered) := processCachedPacketLoop flush n ⟨p.sequence + 1, rest⟩
        (final, p.data :: delivered)
      else
        (service, [])

def processCachedPacket (service : Service queue) (flush : Bool) : Service queue × List RtpPacket :=
  processCachedPacketLoop flush service.cached service

/-- The part of `data_handler` that follows the checks on length and type. -/
def audioData (service : Service queue) (header : RtpPacket) : Service queue × List RtpPacket :=
  let service := if service.expectedSeq == 0 then { service with expectedSeq := header.sequence } else service
  if header.sequence == service.expectedSeq then
    let (final, delivered) := processCachedPacket { service with expectedSeq := header.sequence + 1 } false
    (final, header :: delivered)
  else if header.sequence > service.expectedSeq then
    if service.cached < MAX_CACHED_PACKET_SIZE then
      (service.cachePacket header.sequence header, [])
    else
      -- The packet at hand is neither cached nor delivered on this path.
      processCachedPacket service true
  else
    (service, [])

def dataHandler (service : Service queue) : Datagram → Service queue × List RtpPacket
  | .failed => (service, [])
  | .short _ => (service, [])
  | .packet header =>
    if header.payloadType != rtpAudioData then (service, []) else audioData service header

/-- The service after a trace of datagrams, and everything it passed to `audio_data_packet`. -/
def run (service : Service queue) : List Datagram → Service queue × List RtpPacket
  | [] => (service, [])
  | datagram :: later =>
    let (next, delivered) := dataHandler service datagram
    let (final, rest) := run next later
    (final, delivered ++ rest)

end Service

/-- A valid audio data packet, in the sense of the checks of `data_handler`. -/
def Audio (packet : RtpPacket) : Prop := packet.payloadType = rtpAudioData

instance (packet : RtpPacket) : Decidable (Audio packet) := inferInstanceAs (Decidable (_ = _))

namespace Service

theorem dataHandler_audio (service : Service queue) {packet : RtpPacket} (audio : Audio packet) :
    service.dataHandler (.packet packet) = service.audioData packet := by
  have accepted : packet.payloadType = rtpAudioData := audio
  simp [dataHandler, accepted]

/-- A packet is due when it is the first one, or has the expected number. -/
theorem audioData_due (service : Service queue) {packet : RtpPacket}
    (due : service.expectedSeq = 0 ∨ packet.sequence = service.expectedSeq) :
    service.audioData packet =
      let (final, delivered) := processCachedPacket { service with expectedSeq := packet.sequence + 1 } false
      (final, packet :: delivered) := by
  cases due with
  | inl unset => simp only [audioData, unset, beq_self_eq_true, if_true]
  | inr same =>
    by_cases unset : service.expectedSeq = 0
    · simp only [audioData, unset, beq_self_eq_true, if_true]
    · simp only [audioData, beq_iff_eq, unset, if_false, same, if_true]

/-- Once started, a packet is due, ahead or late. -/
theorem audioData_started (service : Service queue) (packet : RtpPacket) (started : service.expectedSeq ≠ 0) :
    service.audioData packet =
      if packet.sequence = service.expectedSeq then
        let (final, delivered) := processCachedPacket { service with expectedSeq := packet.sequence + 1 } false
        (final, packet :: delivered)
      else if service.expectedSeq < packet.sequence then
        if service.cached < MAX_CACHED_PACKET_SIZE then (service.cachePacket packet.sequence packet, [])
        else service.processCachedPacket true
      else (service, []) := by
  simp [audioData, started]

theorem audioData_ahead (service : Service queue) {packet : RtpPacket} (started : service.expectedSeq ≠ 0)
    (ahead : service.expectedSeq < packet.sequence) :
    service.audioData packet =
      if service.cached < MAX_CACHED_PACKET_SIZE then (service.cachePacket packet.sequence packet, [])
      else service.processCachedPacket true := by
  have other : packet.sequence ≠ service.expectedSeq := fun same => absurd ahead (same ▸ UInt16.lt_irrefl _)
  rw [audioData_started service packet started, if_neg other, if_pos ahead]

theorem audioData_late (service : Service queue) {packet : RtpPacket} (started : service.expectedSeq ≠ 0)
    (late : packet.sequence < service.expectedSeq) : service.audioData packet = (service, []) := by
  have other : packet.sequence ≠ service.expectedSeq := fun same => absurd late (same ▸ UInt16.lt_irrefl _)
  rw [audioData_started service packet started, if_neg other, if_neg (UInt16.lt_asymm late)]

/-- After the first packet the stream has started and nothing is cached. -/
theorem audioData_fresh (queue : PriorityQueue) (packet : RtpPacket) :
    (fresh : Service queue).audioData packet = (⟨packet.sequence + 1, queue.empty⟩, [packet]) := by
  have drained : ∀ service : Service queue, service.cached = 0 → service.processCachedPacket false = (service, []) := by
    intro service empty
    simp only [processCachedPacket, empty, processCachedPacketLoop]
  rw [audioData_due _ (.inl rfl)]
  have started := drained { (fresh : Service queue) with expectedSeq := packet.sequence + 1 } queue.size_empty
  simp only [started]
  rfl

end Service

end Apsdk.AudioStream
