import Apsdk.AudioStream

/-! What becomes of a packet handed to the reorder buffer. Counting every packet
once for each time it was received, a call of `data_handler` keeps the packets
it had and adds the new one, unless the new one is ahead of a full cache. -/

namespace Apsdk.AudioStream.Service
open Library

variable {queue : PriorityQueue}

/-- The packets in `cached_queue_`. -/
def held (service : Service queue) : List RtpPacket :=
  (queue.contents service.cachedQueue).map CachedPacket.data

@[simp] theorem held_cachePacket (service : Service queue) (seq : UInt16) (packet : RtpPacket) :
    (service.cachePacket seq packet).held.Perm (packet :: service.held) :=
  (queue.contents_push CachedPacket.key ⟨seq, packet⟩ service.cachedQueue).map CachedPacket.data

/-- Draining the cache loses nothing, whether or not it flushes. -/
theorem processCachedPacketLoop_keeps (flush : Bool) (n : Nat) (service : Service queue) :
    let (final, delivered) := processCachedPacketLoop flush n service
    (delivered ++ final.held).Perm service.held := by
  induction n generalizing service with
  | zero => exact List.Perm.refl _
  | succ n ih =>
    simp only [processCachedPacketLoop]
    split
    next => exact List.Perm.refl _
    next p rest popped =>
      have taken : service.held.Perm (p.data :: (⟨p.sequence + 1, rest⟩ : Service queue).held) :=
        (queue.contents_pop popped).map CachedPacket.data
      split
      · exact ((ih ⟨p.sequence + 1, rest⟩).cons p.data).trans taken.symm
      · exact List.Perm.refl _

theorem processCachedPacket_keeps (flush : Bool) (service : Service queue) :
    let (final, delivered) := service.processCachedPacket flush
    (delivered ++ final.held).Perm service.held :=
  processCachedPacketLoop_keeps flush service.cached service

/-- The packet is one `data_handler` must not lose: it is due or ahead, or it
initialises `expected_seq_`. -/
def Due (service : Service queue) (packet : RtpPacket) : Prop :=
  service.expectedSeq = 0 ∨ service.expectedSeq ≤ packet.sequence

/-- The packet is ahead of `expected_seq_` and the cache has no room for it. -/
def Overflows (service : Service queue) (packet : RtpPacket) : Prop :=
  service.expectedSeq ≠ 0 ∧ service.expectedSeq < packet.sequence ∧ MAX_CACHED_PACKET_SIZE ≤ service.cached

/-- After the call this very packet has been passed to `audio_data_packet` or is
held in `cached_queue_`: an equal packet cached earlier does not stand in for it. -/
def Kept (service : Service queue) (packet : RtpPacket) : Prop :=
  let (next, delivered) := service.dataHandler (.packet packet)
  (delivered ++ next.held).Perm (packet :: service.held)

theorem Kept.mem {service : Service queue} {packet : RtpPacket} (kept : service.Kept packet) :
    packet ∈ (service.dataHandler (.packet packet)).2 ∨ packet ∈ (service.dataHandler (.packet packet)).1.held :=
  List.mem_append.mp (List.Perm.mem_iff kept |>.mpr (List.mem_cons_self ..))

theorem due_packet_delivered (service : Service queue) (packet : RtpPacket) (audio : Audio packet)
    (due : service.expectedSeq = 0 ∨ packet.sequence = service.expectedSeq) : service.Kept packet := by
  have drained := processCachedPacket_keeps false { service with expectedSeq := packet.sequence + 1 }
  rw [Kept, dataHandler_audio service audio, audioData_due service due]
  exact drained.cons packet

theorem early_packet_cached (service : Service queue) (packet : RtpPacket) (audio : Audio packet)
    (started : service.expectedSeq ≠ 0) (ahead : service.expectedSeq < packet.sequence)
    (room : service.cached < MAX_CACHED_PACKET_SIZE) : service.Kept packet := by
  rw [Kept, dataHandler_audio service audio, audioData_ahead service started ahead, if_pos room]
  exact held_cachePacket service packet.sequence packet

/-- The flush on a full cache passes on what was cached and drops the packet that set it off. -/
theorem overflowing_packet_dropped (service : Service queue) (packet : RtpPacket) (audio : Audio packet)
    (overflows : service.Overflows packet) :
    let (next, delivered) := service.dataHandler (.packet packet)
    (delivered ++ next.held).Perm service.held := by
  obtain ⟨started, ahead, full⟩ := overflows
  rw [dataHandler_audio service audio, audioData_ahead service started ahead, if_neg (Nat.not_lt.mpr full)]
  exact processCachedPacket_keeps true service

theorem kept_iff (service : Service queue) (packet : RtpPacket) (audio : Audio packet) (due : service.Due packet) :
    service.Kept packet ↔ ¬ service.Overflows packet := by
  constructor
  · intro kept overflows
    have dropped := overflowing_packet_dropped service packet audio overflows
    have lengths := (List.Perm.symm kept).trans dropped |>.length_eq
    simp at lengths
  · intro fits
    by_cases started : service.expectedSeq = 0
    · exact due_packet_delivered service packet audio (Or.inl started)
    · have reached := due.resolve_left started
      by_cases same : packet.sequence = service.expectedSeq
      · exact due_packet_delivered service packet audio (Or.inr same)
      · have ahead : service.expectedSeq < packet.sequence :=
          UInt16.lt_of_le_of_ne reached (fun equal => same equal.symm)
        exact early_packet_cached service packet audio started ahead
          (Nat.lt_of_not_le fun full => fits ⟨started, ahead, full⟩)

/-- The state in which the service meets the packet that follows `before`. -/
def after (queue : PriorityQueue) (before : List RtpPacket) : Service queue :=
  (fresh.run (before.map .packet)).1

/-- A fresh service keeps every due packet of an arrival trace exactly when no
packet of the trace arrives ahead of `expected_seq_` while the cache is full. -/
theorem trace_retained_iff (queue : PriorityQueue) (trace : List RtpPacket) (audio : ∀ packet ∈ trace, Audio packet) :
    (∀ before packet later, trace = before ++ packet :: later →
      (after queue before).Due packet → (after queue before).Kept packet) ↔
    (∀ before packet later, trace = before ++ packet :: later → ¬ (after queue before).Overflows packet) := by
  have valid : ∀ {before packet later}, trace = before ++ packet :: later → Audio packet :=
    fun split => audio _ (split ▸ List.mem_append_right _ (List.mem_cons_self ..))
  constructor
  · intro retained before packet later split overflows
    have due : (after queue before).Due packet := Or.inr (UInt16.le_of_lt overflows.2.1)
    exact (kept_iff _ packet (valid split) due).mp (retained before packet later split due) overflows
  · intro fits before packet later split due
    exact (kept_iff _ packet (valid split) due).mpr (fits before packet later split)

/-- A data packet with the given sequence number and an empty payload. -/
def sample (sequence : UInt16) : RtpPacket := ⟨0x80, false, rtpAudioData, sequence, 0, 0, []⟩

/-- Packet 1, then 3 to 13 with packet 2 missing. -/
def gapTrace : List RtpPacket := ([1, 3, 4, 5, 6, 7, 8, 9, 10, 11, 12, 13] : List UInt16).map sample

/-- Packet 13 finds ten packets cached: it is due, and it is neither delivered nor cached. -/
theorem gap_packet_lost :
    (∀ packet ∈ gapTrace, Audio packet) ∧ gapTrace = gapTrace.take 11 ++ sample 13 :: [] ∧
    (after sortedList (gapTrace.take 11)).Due (sample 13) ∧
    sample 13 ∉ ((after sortedList (gapTrace.take 11)).dataHandler (.packet (sample 13))).2 ∧
    sample 13 ∉ ((after sortedList (gapTrace.take 11)).dataHandler (.packet (sample 13))).1.held := by
  refine ⟨by decide, by decide, ?_, by decide, by decide⟩
  exact Or.inr (by decide)

theorem gap_trace_not_retained :
    ¬ ∀ before packet later, gapTrace = before ++ packet :: later →
      (after sortedList before).Due packet → (after sortedList before).Kept packet := by
  rw [trace_retained_iff sortedList gapTrace (by decide)]
  intro fits
  exact fits (gapTrace.take 11) (sample 13) [] (by decide) ⟨by decide, by decide, by decide⟩

end Apsdk.AudioStream.Service
