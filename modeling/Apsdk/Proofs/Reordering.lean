import Apsdk.Proofs.DeliveryOrder

/-! A window of packets that arrive out of order. While the cache has room, it holds the
packets above the first gap, and a packet that fills the gap drains it up to the next one. -/

namespace Apsdk.AudioStream.Service
open Library

variable {queue : PriorityQueue} {service : Service queue} {packet : RtpPacket}

/-- The service expects a number, and has distinct packets in its cache. The number after 65535 is filed as 0. -/
structure Queued (service : Service queue) (expected : Nat) : Prop where
  expects : service.expectedSeq.toNat = expected % 65536
  ordered : queue.Ordered CachedPacket.key service.cachedQueue
  same : ∀ cached ∈ queue.contents service.cachedQueue, cached.data.sequence = cached.sequence
  distinct : ((queue.contents service.cachedQueue).map CachedPacket.key).Nodup

/-- All that is cached is beyond a gap. -/
def Beyond (service : Service queue) (gap : Nat) : Prop :=
  ∀ cached ∈ queue.contents service.cachedQueue, gap < cached.key

theorem Queued.popped {expected : Nat} (queued : service.Queued expected) {p : CachedPacket} {rest : queue.Q CachedPacket}
    (popped : queue.pop CachedPacket.key service.cachedQueue = some (p, rest)) (due : p.key = expected) :
    (⟨p.sequence + 1, rest⟩ : Service queue).Queued (expected + 1) ∧ (⟨p.sequence + 1, rest⟩ : Service queue).Beyond expected := by
  have least := queue.pop_least queued.ordered popped
  have contents := ((queue.contents_pop popped).map CachedPacket.key).nodup_iff.mp queued.distinct
  obtain ⟨alone, distinct⟩ := List.nodup_cons.mp contents
  refine ⟨⟨?_, queue.ordered_pop queued.ordered popped, ?_, distinct⟩, ?_⟩
  · rw [← due]
    exact UInt16.toNat_add ..
  · intro cached member
    exact queued.same cached (queue.rest_mem popped member)
  · intro cached member
    have other : cached.key ≠ p.key := fun equal => alone (List.mem_map.mpr ⟨cached, member, equal⟩)
    have later := least cached member
    omega

/-- The loop delivers up to the next gap. -/
theorem drained_to_gap (n : Nat) (service : Service queue) {expected : Nat} (queued : service.Queued expected)
    (above : ∀ cached ∈ queue.contents service.cachedQueue, expected ≤ cached.key) (enough : service.cached ≤ n) :
    ∃ count, numbers (processCachedPacketLoop false n service).2 = List.range' expected count ∧
      (processCachedPacketLoop false n service).1.Queued (expected + count) ∧
      (processCachedPacketLoop false n service).1.Beyond (expected + count) := by
  induction n generalizing service expected with
  | zero =>
    have empty : queue.contents service.cachedQueue = [] := List.eq_nil_of_length_eq_zero (Nat.le_zero.mp enough)
    refine ⟨0, rfl, queued, ?_⟩
    intro cached member
    rw [processCachedPacketLoop, empty] at member
    cases member
  | succ n ih =>
    simp only [processCachedPacketLoop, Bool.false_or, beq_iff_eq]
    split
    next empty =>
      refine ⟨0, rfl, queued, ?_⟩
      intro cached member
      rw [(queue.pop_none _ _).mp empty] at member
      cases member
    next p rest popped =>
      have here := above p (queue.pop_mem popped)
      have small : p.key < 65536 := p.sequence.toNat_lt
      have expects := queued.expects
      rw [Nat.mod_eq_of_lt (Nat.lt_of_le_of_lt here small)] at expects
      split
      next due =>
        have same : p.key = expected := (congrArg UInt16.toNat due).trans expects
        obtain ⟨queued', beyond⟩ := queued.popped popped same
        have fewer : (⟨p.sequence + 1, rest⟩ : Service queue).cached ≤ n := by
          have size := queue.size_pop popped
          simp only [cached] at enough ⊢
          omega
        obtain ⟨count, delivered, left, gap⟩ := ih _ queued' beyond fewer
        refine ⟨count + 1, ?_, ?_, ?_⟩
        · rw [numbers_cons, delivered, queued.same p (queue.pop_mem popped), List.range'_succ]
          exact congrArg (· :: _) same
        · rwa [Nat.add_right_comm] at left
        · rwa [Nat.add_right_comm] at gap
      next other =>
        refine ⟨0, rfl, queued, ?_⟩
        intro cached member
        have differs : p.key ≠ expected := fun same => other (UInt16.toNat_inj.mp (same.trans expects.symm))
        have least : p.key ≤ cached.key := by
          rcases List.mem_cons.mp ((queue.contents_pop popped).mem_iff.mp member) with rfl | later
          · exact le_refl _
          · exact queue.pop_least queued.ordered popped cached later
        omega

/-- After some packets of a window that begins at `start`, those up to the first gap have been
passed on in order, and the others are cached. -/
structure Repairs (start : Nat) (before : List RtpPacket) (service : Service queue) (delivered : List RtpPacket) (count : Nat) :
    Prop where
  queued : service.Queued (start + count)
  beyond : service.Beyond (start + count)
  passed : numbers delivered = List.range' start count
  all : (delivered ++ service.held).Perm before

namespace Repairs
variable {start count : Nat} {before delivered : List RtpPacket}

/-- A packet that has not been seen is not below the gap. -/
theorem reached (repairs : Repairs start before service delivered count) (inside : start ≤ packet.sequence.toNat)
    (unseen : packet.sequence.toNat ∉ numbers before) : start + count ≤ packet.sequence.toNat := by
  by_contra below
  have old : packet.sequence.toNat ∈ numbers delivered := by
    rw [repairs.passed, List.mem_range'_1]
    omega
  apply unseen
  exact (repairs.all.map fun packet => packet.sequence.toNat).subset (List.mem_map.mpr
    (List.mem_map.mp old |>.imp fun _ found => ⟨List.mem_append_left _ found.1, found.2⟩))

/-- The number at the gap is expected, as long as there is a packet that has not been seen. -/
theorem expects (repairs : Repairs start before service delivered count) (positive : 1 ≤ start)
    (reached : start + count ≤ packet.sequence.toNat) :
    service.expectedSeq.toNat = start + count ∧ service.expectedSeq ≠ 0 := by
  have small : packet.sequence.toNat < 65536 := packet.sequence.toNat_lt
  have same := repairs.queued.expects
  rw [Nat.mod_eq_of_lt (by omega)] at same
  refine ⟨same, ?_⟩
  intro zero
  rw [zero] at same
  have : (0 : UInt16).toNat = 0 := rfl
  omega

theorem kept (repairs : Repairs start before service delivered count) {next : Service queue} {passed : List RtpPacket}
    (keeps : (passed ++ next.held).Perm (packet :: service.held)) :
    ((delivered ++ passed) ++ next.held).Perm (before ++ [packet]) := by
  calc ((delivered ++ passed) ++ next.held)
    _ = delivered ++ (passed ++ next.held) := List.append_assoc ..
    List.Perm _ (delivered ++ packet :: service.held) := keeps.append_left delivered
    List.Perm _ (packet :: (delivered ++ service.held)) := List.perm_middle
    List.Perm _ (packet :: before) := repairs.all.cons packet
    List.Perm _ (before ++ [packet]) := (List.perm_append_singleton packet before).symm

/-- The packet at the gap is passed on, and the cache drained up to the next gap. -/
theorem due (repairs : Repairs start before service delivered count) (positive : 1 ≤ start) (audio : Audio packet)
    (same : packet.sequence.toNat = start + count) : ∃ count',
      Repairs start (before ++ [packet]) (service.dataHandler (.packet packet)).1
        (delivered ++ (service.dataHandler (.packet packet)).2) count' := by
  obtain ⟨expects, started⟩ := repairs.expects positive same.ge
  have here : packet.sequence = service.expectedSeq := UInt16.toNat_inj.mp (same.trans expects.symm)
  have keeps : service.Kept packet := due_packet_delivered service packet audio (.inr here)
  have queued : (⟨packet.sequence + 1, service.cachedQueue⟩ : Service queue).Queued (start + count + 1) := by
    refine ⟨?_, repairs.queued.ordered, repairs.queued.same, repairs.queued.distinct⟩
    rw [← same]
    exact UInt16.toNat_add ..
  obtain ⟨more, passed, left, beyond⟩ := drained_to_gap service.cached _ queued repairs.beyond (Nat.le_refl _)
  have outcome : service.dataHandler (.packet packet) =
      ((processCachedPacketLoop false service.cached ⟨packet.sequence + 1, service.cachedQueue⟩).1,
        packet :: (processCachedPacketLoop false service.cached ⟨packet.sequence + 1, service.cachedQueue⟩).2) := by
    rw [dataHandler_audio service audio, audioData_due service (.inr here)]
    rfl
  refine ⟨count + 1 + more, ?_, ?_, ?_, repairs.kept keeps⟩
  · rw [outcome, show start + (count + 1 + more) = start + count + 1 + more by omega]
    exact left
  · rw [outcome, show start + (count + 1 + more) = start + count + 1 + more by omega]
    exact beyond
  · rw [outcome, numbers_append, numbers_cons, passed, repairs.passed, same, ← List.range'_succ, List.range'_append_1]
    exact congrArg (List.range' start) (by omega)

/-- A packet beyond the gap is cached. -/
theorem ahead (repairs : Repairs start before service delivered count) (positive : 1 ≤ start) (audio : Audio packet)
    (unseen : packet.sequence.toNat ∉ numbers before) (early : start + count < packet.sequence.toNat)
    (room : service.cached < MAX_CACHED_PACKET_SIZE) :
    Repairs start (before ++ [packet]) (service.dataHandler (.packet packet)).1
        (delivered ++ (service.dataHandler (.packet packet)).2) count := by
  obtain ⟨expects, started⟩ := repairs.expects positive early.le
  have later : service.expectedSeq < packet.sequence := UInt16.lt_iff_toNat_lt.mpr (expects ▸ early)
  have keeps : service.Kept packet := early_packet_cached service packet audio started later room
  have outcome : service.dataHandler (.packet packet) = (service.cachePacket packet.sequence packet, []) := by
    rw [dataHandler_audio service audio, audioData_ahead service started later, if_pos room]
  have contents := queue.contents_push CachedPacket.key ⟨packet.sequence, packet⟩ service.cachedQueue
  have split : ∀ {cached : CachedPacket}, cached ∈ queue.contents (service.cachePacket packet.sequence packet).cachedQueue →
      cached = ⟨packet.sequence, packet⟩ ∨ cached ∈ queue.contents service.cachedQueue :=
    fun member => List.mem_cons.mp (contents.mem_iff.mp member)
  have fresh : packet.sequence.toNat ∉ (queue.contents service.cachedQueue).map CachedPacket.key := by
    intro member
    obtain ⟨cached, held, same⟩ := List.mem_map.mp member
    apply unseen
    refine List.mem_map.mpr ⟨cached.data, repairs.all.subset (List.mem_append_right _ (List.mem_map_of_mem held)), ?_⟩
    rw [repairs.queued.same cached held]
    exact same
  refine ⟨⟨?_, ?_, ?_, ?_⟩, ?_, ?_, repairs.kept keeps⟩
  · rw [outcome]
    exact repairs.queued.expects
  · rw [outcome]
    exact queue.ordered_push repairs.queued.ordered
  · rw [outcome]
    intro cached member
    rcases split member with rfl | old
    · rfl
    · exact repairs.queued.same cached old
  · rw [outcome]
    exact (contents.map CachedPacket.key).nodup_iff.mpr (List.nodup_cons.mpr ⟨fresh, repairs.queued.distinct⟩)
  · rw [outcome]
    intro cached member
    rcases split member with rfl | old
    · exact early
    · exact repairs.beyond cached old
  · rw [outcome, List.append_nil]
    exact repairs.passed

/-- Over a run, as long as there is room for the packets that come early. -/
theorem run (repairs : Repairs start before service delivered count) (positive : 1 ≤ start) {later : List RtpPacket}
    (audio : ∀ packet ∈ later, Audio packet) (inside : ∀ number ∈ numbers later, start ≤ number)
    (distinct : (numbers (before ++ later)).Nodup)
    (room : ∀ part packet rest, later = part ++ packet :: rest →
      (service.run (part.map .packet)).1.expectedSeq < packet.sequence →
      (service.run (part.map .packet)).1.cached < MAX_CACHED_PACKET_SIZE) : ∃ count',
      Repairs start (before ++ later) (service.run (later.map .packet)).1 (delivered ++ (service.run (later.map .packet)).2) count' := by
  induction later generalizing service before delivered count with
  | nil =>
    refine ⟨count, ?_⟩
    simpa [Service.run] using repairs
  | cons packet later ih =>
    obtain ⟨audio, others⟩ := List.forall_mem_cons.mp audio
    obtain ⟨here, beyond⟩ := List.forall_mem_cons.mp inside
    obtain ⟨roomy, room⟩ := (forall_splits_cons packet later).mp room
    have unseen : packet.sequence.toNat ∉ numbers before := by
      intro seen
      rw [numbers_append] at distinct
      exact (List.nodup_append.mp distinct).2.2 _ seen _ List.mem_cons_self rfl
    have reached := repairs.reached here unseen
    obtain ⟨count', next⟩ : ∃ count', Repairs start (before ++ [packet]) (service.dataHandler (.packet packet)).1
        (delivered ++ (service.dataHandler (.packet packet)).2) count' := by
      rcases Nat.eq_or_lt_of_le reached with same | early
      · exact repairs.due positive audio same.symm
      · have expects := (repairs.expects positive reached).1
        exact ⟨count, repairs.ahead positive audio unseen early
          (roomy (UInt16.lt_iff_toNat_lt.mpr (expects.trans_lt early)))⟩
    obtain ⟨count'', final⟩ := ih next others beyond (by rwa [List.append_assoc]) room
    refine ⟨count'', ?_⟩
    rwa [List.append_assoc, List.append_assoc] at final

/-- With the whole window the gap is behind it, and the cache is empty. -/
theorem complete (repairs : Repairs start before service delivered count) {total : Nat}
    (complete : (numbers before).Perm (List.range' start total)) :
    count = total ∧ queue.contents service.cachedQueue = [] := by
  have all : (List.range' start count ++ numbers service.held).Perm (List.range' start total) := by
    rw [← repairs.passed, ← numbers_append]
    exact (repairs.all.map _).trans complete
  have gap : start + count ∉ List.range' start count ++ numbers service.held := by
    intro member
    rcases List.mem_append.mp member with old | held
    · have := List.mem_range'_1.mp old
      omega
    · obtain ⟨packet, inside, same⟩ := List.mem_map.mp held
      obtain ⟨cached, kept, rfl⟩ := List.mem_map.mp inside
      have further := repairs.beyond cached kept
      rw [repairs.queued.same cached kept] at same
      exact absurd same further.ne'
  have behind : ¬ start + count < start + total := fun below =>
    gap (all.mem_iff.mpr (List.mem_range'_1.mpr ⟨Nat.le_add_right _ _, below⟩))
  have lengths := all.length_eq
  simp only [List.length_append, List.length_range', numbers, held, List.length_map] at lengths
  exact ⟨by omega, List.eq_nil_of_length_eq_zero (by omega)⟩

/-- Before the first packet, with its number expected. -/
theorem opened (same : packet.sequence.toNat = start) : Repairs start [] (⟨packet.sequence, queue.empty⟩ : Service queue) [] 0 := by
  have empty : queue.contents (queue.empty : queue.Q CachedPacket) = [] := queue.contents_empty
  have small : packet.sequence.toNat < 65536 := packet.sequence.toNat_lt
  refine ⟨⟨?_, queue.ordered_empty _, ?_, ?_⟩, ?_, rfl, ?_⟩
  · rw [← same]
    exact (Nat.mod_eq_of_lt small).symm
  · simp [empty]
  · simp [empty]
  · simp [Beyond, empty]
  · simp [held, empty]

end Repairs

/-- A window of packets that begins with its first one and comes in any order is passed on in
order, as long as the cache has room for each packet that comes early. As sequence numbers have
16 bits, the window ends at 65535 at the latest. -/
theorem reordering_repaired (queue : PriorityQueue) {start count : Nat} (positive : 1 ≤ start) (arrivals : List RtpPacket)
    (audio : ∀ packet ∈ arrivals, Audio packet) (complete : (numbers arrivals).Perm (List.range' start count))
    (first : (numbers arrivals).head? = some start)
    (room : ∀ before packet later, arrivals = before ++ packet :: later →
      (after queue before).expectedSeq < packet.sequence → (after queue before).cached < MAX_CACHED_PACKET_SIZE) :
    let (final, delivered) := (fresh : Service queue).run (arrivals.map .packet)
    numbers delivered = List.range' start count ∧ delivered.Perm arrivals ∧ final.cached = 0 := by
  cases arrivals with
  | nil => cases first
  | cons packet later =>
    have same : packet.sequence.toNat = start := Option.some.inj first
    have begun : ∀ trace : List RtpPacket, (fresh : Service queue).run ((packet :: trace).map .packet) =
        (⟨packet.sequence, queue.empty⟩ : Service queue).run ((packet :: trace).map .packet) := by
      intro trace
      have alike : (fresh : Service queue).dataHandler (.packet packet) =
          (⟨packet.sequence, queue.empty⟩ : Service queue).dataHandler (.packet packet) := by
        rw [dataHandler_audio _ (audio packet List.mem_cons_self), dataHandler_audio _ (audio packet List.mem_cons_self),
          audioData_due _ (.inl rfl), audioData_due _ (.inr rfl)]
        rfl
      rw [List.map_cons, Service.run, Service.run, alike]
    have bounds : ∀ number ∈ numbers (packet :: later), start ≤ number ∧ number < start + count :=
      fun number member => List.mem_range'_1.mp (complete.subset member)
    obtain ⟨passed, repaired⟩ := (Repairs.opened same).run positive audio (fun number member => (bounds number member).1)
      (complete.nodup_iff.mpr List.nodup_range') ((forall_splits_cons packet later).mpr
        ⟨fun ahead => absurd ahead (UInt16.lt_irrefl _), fun before other rest split => by
          rw [← begun]
          exact room (packet :: before) other rest (by rw [split, List.cons_append])⟩)
    rw [← begun, List.nil_append, List.nil_append] at repaired
    obtain ⟨rfl, empty⟩ := repaired.complete complete
    have all := repaired.all
    have none : (fresh.run ((packet :: later).map .packet)).1.held = [] := congrArg (List.map CachedPacket.data) empty
    rw [none, List.append_nil] at all
    exact ⟨repaired.passed, all, congrArg List.length empty⟩

/-- The last packets before the sequence numbers wrap, all but the first in reverse. -/
def reversedTrace : List RtpPacket := ([65532, 65535, 65534, 65533] : List UInt16).map sample

theorem reversedTrace_repaired :
    numbers ((fresh : Service sortedList).run (reversedTrace.map .packet)).2 = [65532, 65533, 65534, 65535] ∧
      ((fresh : Service sortedList).run (reversedTrace.map .packet)).1.cached = 0 := by
  have room : ∀ before packet later, reversedTrace = before ++ packet :: later →
      (after sortedList before).expectedSeq < packet.sequence → (after sortedList before).cached < MAX_CACHED_PACKET_SIZE := by
    intro before packet later split _
    have part : before = reversedTrace.take before.length := by rw [split, List.take_left]
    have small : ∀ length < 4, (after sortedList (reversedTrace.take length)).cached < MAX_CACHED_PACKET_SIZE := by decide
    have shorter : before.length < 4 := by
      have lengths : reversedTrace.length = before.length + (later.length + 1) := by rw [split, List.length_append, List.length_cons]
      have four : reversedTrace.length = 4 := rfl
      omega
    rw [part]
    exact small _ shorter
  obtain ⟨passed, -, empty⟩ := @reordering_repaired sortedList 65532 4 (by decide) reversedTrace (by decide) (by decide) rfl room
  exact ⟨passed, empty⟩

end Apsdk.AudioStream.Service
