import Apsdk.Proofs.DeliveryOrder

/-! The reorder buffer is bounded, and a packet ahead of a full one empties it. -/

namespace Apsdk.AudioStream
open Library

variable {queue : PriorityQueue}

namespace Service

/-- What every trace keeps: the cache is in order, files its packets under their numbers, and is not overfull. -/
structure Bounded (service : Service queue) : Prop where
  ordered : queue.Ordered CachedPacket.key service.cachedQueue
  same : ∀ packet ∈ queue.contents service.cachedQueue, packet.data.sequence = packet.sequence
  cached : service.cached ≤ MAX_CACHED_PACKET_SIZE

theorem bounded_fresh : (fresh : Service queue).Bounded := by
  refine ⟨queue.ordered_empty _, fun packet member => ?_, ?_⟩
  · simp [fresh, queue.contents_empty] at member
  · simp [fresh, cached, queue.size_empty]

theorem Bounded.expect {service : Service queue} (bounded : service.Bounded) (seq : UInt16) :
    (⟨seq, service.cachedQueue⟩ : Service queue).Bounded := ⟨bounded.ordered, bounded.same, bounded.cached⟩

theorem cached_cachePacket (service : Service queue) (seq : UInt16) (packet : RtpPacket) :
    (service.cachePacket seq packet).cached = service.cached + 1 :=
  (queue.contents_push CachedPacket.key ⟨seq, packet⟩ service.cachedQueue).length_eq

theorem Bounded.cachePacket {service : Service queue} (bounded : service.Bounded) {packet : RtpPacket}
    (room : service.cached < MAX_CACHED_PACKET_SIZE) : (service.cachePacket packet.sequence packet).Bounded := by
  refine ⟨queue.ordered_push bounded.ordered, fun kept member => ?_, ?_⟩
  · cases List.mem_cons.mp ((queue.contents_push CachedPacket.key _ _).mem_iff.mp member) with
    | inl new =>
      rw [new]
    | inr old => exact bounded.same kept old
  · rw [cached_cachePacket]
    exact room

theorem Bounded.popped {service : Service queue} (bounded : service.Bounded) {p : CachedPacket} {rest : queue.Q CachedPacket}
    (popped : queue.pop CachedPacket.key service.cachedQueue = some (p, rest)) (seq : UInt16) :
    (⟨seq, rest⟩ : Service queue).Bounded := by
  refine ⟨queue.ordered_pop bounded.ordered popped, fun packet member => bounded.same packet (queue.rest_mem popped member), ?_⟩
  have fewer : service.cached = (⟨seq, rest⟩ : Service queue).cached + 1 := queue.size_pop popped
  have before := bounded.cached
  omega

theorem processCachedPacketLoop_bounded (flush : Bool) (n : Nat) (service : Service queue) (bounded : service.Bounded) :
    (processCachedPacketLoop flush n service).1.Bounded := by
  induction n generalizing service with
  | zero => exact bounded
  | succ n ih =>
    simp only [processCachedPacketLoop]
    split
    next => exact bounded
    next p rest popped =>
      split
      · exact ih _ (bounded.popped popped _)
      · exact bounded

/-- What a packet meets: without an expected number it is taken for the next one. -/
theorem audioData_cases (service : Service queue) (packet : RtpPacket) :
    (service.expectedSeq = 0 ∨ packet.sequence = service.expectedSeq) ∧ service.audioData packet =
      ((processCachedPacket { service with expectedSeq := packet.sequence + 1 } false).1,
        packet :: (processCachedPacket { service with expectedSeq := packet.sequence + 1 } false).2) ∨
    service.expectedSeq ≠ 0 ∧ service.expectedSeq < packet.sequence ∧ service.cached < MAX_CACHED_PACKET_SIZE ∧
      service.audioData packet = (service.cachePacket packet.sequence packet, []) ∨
    service.Overflows packet ∧ service.audioData packet = service.processCachedPacket true ∨
    service.expectedSeq ≠ 0 ∧ packet.sequence < service.expectedSeq ∧ service.audioData packet = (service, []) := by
  by_cases unset : service.expectedSeq = 0
  · exact .inl ⟨.inl unset, audioData_due service (.inl unset)⟩
  · by_cases same : packet.sequence = service.expectedSeq
    · exact .inl ⟨.inr same, audioData_due service (.inr same)⟩
    · by_cases ahead : service.expectedSeq < packet.sequence
      · have branch := audioData_ahead service unset ahead
        by_cases room : service.cached < MAX_CACHED_PACKET_SIZE
        · rw [if_pos room] at branch
          exact .inr (.inl ⟨unset, ahead, room, branch⟩)
        · rw [if_neg room] at branch
          exact .inr (.inr (.inl ⟨⟨unset, ahead, Nat.not_lt.mp room⟩, branch⟩))
      · have late : packet.sequence < service.expectedSeq := UInt16.lt_of_le_of_ne (UInt16.not_lt.mp ahead) same
        exact .inr (.inr (.inr ⟨unset, late, audioData_late service unset late⟩))

theorem audioData_bounded {service : Service queue} (bounded : service.Bounded) (packet : RtpPacket) :
    (service.audioData packet).1.Bounded := by
  obtain ⟨-, due⟩ | ⟨-, -, room, kept⟩ | ⟨-, flushed⟩ | ⟨-, -, left⟩ := service.audioData_cases packet
  · rw [due]
    exact processCachedPacketLoop_bounded _ _ _ (bounded.expect _)
  · rw [kept]
    exact bounded.cachePacket room
  · rw [flushed]
    exact processCachedPacketLoop_bounded _ _ _ bounded
  · rw [left]
    exact bounded

theorem dataHandler_bounded {service : Service queue} (bounded : service.Bounded) (datagram : Datagram) :
    (service.dataHandler datagram).1.Bounded := by
  cases datagram with
  | failed => exact bounded
  | short _ => exact bounded
  | packet header =>
    simp only [dataHandler]
    split
    · exact bounded
    · exact audioData_bounded bounded header

theorem run_bounded {service : Service queue} (bounded : service.Bounded) (trace : List Datagram) :
    (service.run trace).1.Bounded := by
  induction trace generalizing service with
  | nil => exact bounded
  | cons datagram later ih => exact ih (dataHandler_bounded bounded datagram)

/-- A flush takes the packets from the cache one after the other, the smallest number first. -/
structure Flushes (service : Service queue) (outcome : Service queue × List RtpPacket) (popped : List CachedPacket) : Prop where
  delivered : outcome.2 = popped.map CachedPacket.data
  everything : popped.Perm (queue.contents service.cachedQueue)
  sorted : popped.Pairwise fun first second => first.key ≤ second.key
  empty : queue.contents outcome.1.cachedQueue = []
  expects : outcome.1.expectedSeq = (popped.getLast?.map fun last => last.sequence + 1).getD service.expectedSeq

theorem processCachedPacketLoop_flushes (n : Nat) (service : Service queue)
    (ordered : queue.Ordered CachedPacket.key service.cachedQueue) (enough : service.cached ≤ n) :
    ∃ popped, service.Flushes (processCachedPacketLoop true n service) popped := by
  induction n generalizing service with
  | zero =>
    have none : queue.contents service.cachedQueue = [] := List.eq_nil_of_length_eq_zero (Nat.le_zero.mp enough)
    exact ⟨[], rfl, none ▸ .nil, .nil, none, rfl⟩
  | succ n ih =>
    simp only [processCachedPacketLoop, Bool.true_or, if_true]
    split
    next empty =>
      have none := (queue.pop_none _ _).mp empty
      exact ⟨[], rfl, none ▸ .nil, .nil, none, rfl⟩
    next p rest popped =>
      have fewer := queue.size_pop popped
      obtain ⟨later, flushes⟩ := ih ⟨p.sequence + 1, rest⟩ (queue.ordered_pop ordered popped) (by
        simp only [cached] at enough ⊢
        omega)
      refine ⟨p :: later, congrArg (p.data :: ·) flushes.delivered, ?_, ?_, flushes.empty, ?_⟩
      · exact (flushes.everything.cons p).trans (queue.contents_pop popped).symm
      · refine List.pairwise_cons.mpr ⟨fun other member => ?_, flushes.sorted⟩
        exact queue.pop_least ordered popped other (flushes.everything.mem_iff.mp member)
      · refine flushes.expects.trans ?_
        cases later with
        | nil => rfl
        | cons second others => rw [List.getLast?_cons_cons]; rfl

/-- The cached packets have all been delivered, in the order of their numbers, and the number behind the largest one is expected. -/
structure Emptied (service : Service queue) (outcome : Service queue × List RtpPacket) : Prop where
  delivered : outcome.2.Perm service.held
  sorted : (numbers outcome.2).Pairwise (· ≤ ·)
  empty : outcome.1.cached = 0
  expects : ∃ largest ∈ queue.contents service.cachedQueue,
    (∀ packet ∈ queue.contents service.cachedQueue, packet.key ≤ largest.key) ∧ outcome.1.expectedSeq = largest.sequence + 1

theorem processCachedPacket_emptied {service : Service queue} (bounded : service.Bounded) (filled : 0 < service.cached) :
    service.Emptied (service.processCachedPacket true) := by
  obtain ⟨popped, flushes⟩ := processCachedPacketLoop_flushes service.cached service bounded.ordered le_rfl
  refine ⟨?_, ?_, ?_, ?_⟩
  · exact (List.Perm.of_eq flushes.delivered).trans (flushes.everything.map CachedPacket.data)
  · have filed : numbers (popped.map CachedPacket.data) = popped.map CachedPacket.key := by
      rw [numbers, List.map_map]
      refine List.map_congr_left fun packet member => ?_
      exact congrArg UInt16.toNat (bounded.same packet (flushes.everything.mem_iff.mp member))
    rw [processCachedPacket, flushes.delivered, filed]
    exact List.pairwise_map.mpr flushes.sorted
  · exact congrArg List.length flushes.empty
  · have some_popped : popped ≠ [] := by
      intro none
      have size := flushes.everything.length_eq
      rw [none] at size
      exact absurd size.symm filled.ne'
    obtain ⟨earlier, largest, rfl⟩ := List.eq_nil_or_concat popped |>.resolve_left some_popped
    rw [List.concat_eq_append] at flushes
    refine ⟨largest, flushes.everything.mem_iff.mp (List.mem_append_right _ (List.mem_singleton_self _)), ?_, ?_⟩
    · intro packet member
      have sorted := (List.pairwise_append.mp flushes.sorted).2.2
      cases List.mem_append.mp (flushes.everything.mem_iff.mpr member) with
      | inl early => exact sorted packet early largest (List.mem_singleton_self _)
      | inr last => exact (congrArg CachedPacket.key (List.mem_singleton.mp last)).le
    · have expects := flushes.expects
      rw [List.getLast?_concat] at expects
      exact expects

/-- An audio packet ahead of the expected number. -/
def Ahead (service : Service queue) : Datagram → Prop
  | .packet header => Audio header ∧ service.expectedSeq < header.sequence
  | _ => False

instance (service : Service queue) : (datagram : Datagram) → Decidable (service.Ahead datagram)
  | .packet header => inferInstanceAs (Decidable (Audio header ∧ service.expectedSeq < header.sequence))
  | .failed => isFalse id
  | .short _ => isFalse id

/-- The number of datagrams that come ahead, each of what is expected at its time. -/
def aheadCount (service : Service queue) : List Datagram → Nat
  | [] => 0
  | datagram :: later =>
    (if service.Ahead datagram then 1 else 0) + aheadCount (service.dataHandler datagram).1 later

/-- While nothing is delivered, what comes ahead is cached. -/
theorem dataHandler_silent {service : Service queue} (bounded : service.Bounded) (datagram : Datagram)
    (silent : (service.dataHandler datagram).2 = []) :
    (service.dataHandler datagram).1.cached = service.cached + if service.Ahead datagram then 1 else 0 := by
  cases datagram with
  | failed => rfl
  | short _ => rfl
  | packet header =>
    by_cases audio : Audio header
    · rw [dataHandler_audio service audio] at silent ⊢
      obtain ⟨-, due⟩ | ⟨-, ahead, -, kept⟩ | ⟨overflows, flushed⟩ | ⟨-, behind, left⟩ := service.audioData_cases header
      · rw [due] at silent
        cases silent
      · rw [kept, if_pos (show service.Ahead (.packet header) from ⟨audio, ahead⟩), cached_cachePacket]
      · have filled : 0 < service.cached := (by decide : 0 < MAX_CACHED_PACKET_SIZE).trans_le overflows.2.2
        have emptied := (processCachedPacket_emptied bounded filled).delivered.length_eq
        rw [flushed] at silent
        rw [silent, held, List.length_map] at emptied
        exact absurd emptied filled.ne
      · rw [left, if_neg fun early : service.Ahead (.packet header) => UInt16.lt_asymm early.2 behind]
        rfl
    · have other : header.payloadType != rtpAudioData := bne_iff_ne.mpr audio
      simp only [dataHandler, other, if_true]
      rw [if_neg fun early : service.Ahead (.packet header) => audio early.1]
      rfl

theorem run_silent {service : Service queue} (bounded : service.Bounded) (trace : List Datagram)
    (silent : (service.run trace).2 = []) : (service.run trace).1.cached = service.cached + service.aheadCount trace := by
  induction trace generalizing service with
  | nil => rfl
  | cons datagram later ih =>
    obtain ⟨here, rest⟩ := List.append_eq_nil_iff.mp silent
    have first := dataHandler_silent bounded datagram here
    have others := ih (dataHandler_bounded bounded datagram) rest
    rw [aheadCount, ← Nat.add_assoc, ← first]
    exact others

/-- What holds after every trace of datagrams. -/
structure Buffering (service : Service queue) : Prop where
  cached : service.cached ≤ MAX_CACHED_PACKET_SIZE
  /-- Without an expected number there is nothing to be ahead of. -/
  flush : ∀ packet, Audio packet → service.expectedSeq ≠ 0 → service.expectedSeq < packet.sequence →
    service.cached = MAX_CACHED_PACKET_SIZE → service.Emptied (service.dataHandler (.packet packet))
  silent : ∀ later, (service.run later).2 = [] → service.aheadCount later ≤ MAX_CACHED_PACKET_SIZE

/-- The buffer is bounded after every trace, empties itself for a packet that comes ahead while it is full, and takes in
no more packets between two deliveries than it can hold. -/
theorem buffering_bounded (queue : PriorityQueue) (trace : List Datagram) : ((fresh : Service queue).run trace).1.Buffering := by
  have bounded := run_bounded (bounded_fresh : (fresh : Service queue).Bounded) trace
  refine ⟨bounded.cached, fun packet audio started ahead full => ?_, fun later silent => ?_⟩
  · rw [dataHandler_audio _ audio]
    obtain ⟨unset, -⟩ | ⟨-, -, room, -⟩ | ⟨-, flushed⟩ | ⟨-, behind, -⟩ := audioData_cases _ packet
    · cases unset with
      | inl none => exact absurd none started
      | inr same => exact absurd ahead (same ▸ UInt16.lt_irrefl _)
    · exact absurd full room.ne
    · rw [flushed]
      exact processCachedPacket_emptied bounded (full ▸ by decide)
    · exact absurd ahead (UInt16.lt_asymm behind)
  · have cached := run_silent bounded later silent
    have most := (run_bounded bounded later).cached
    omega

/-- Ten packets are left over when packet 65535 is passed on: 65532 once more, and 65535 nine times. -/
def leftoverTrace : List RtpPacket :=
  ([65530, 65532, 65532, 65535, 65535, 65535, 65535, 65535, 65535, 65535, 65535, 65531, 65535, 65533, 65534, 65535] :
    List UInt16).map sample

/-- Behind 65535 no number is expected, and packet 7 is passed on at once. -/
theorem leftover_not_flushed :
    (after sortedList leftoverTrace).cached = MAX_CACHED_PACKET_SIZE ∧ Audio (sample 7) ∧
    (after sortedList leftoverTrace).expectedSeq < (sample 7).sequence ∧
    ((after sortedList leftoverTrace).dataHandler (.packet (sample 7))).2 = [sample 7] ∧
    ¬ (after sortedList leftoverTrace).Emptied ((after sortedList leftoverTrace).dataHandler (.packet (sample 7))) := by
  refine ⟨by decide, by decide, by decide, by decide, fun emptied => ?_⟩
  have empty := emptied.empty
  revert empty
  decide

end Service

end Apsdk.AudioStream
