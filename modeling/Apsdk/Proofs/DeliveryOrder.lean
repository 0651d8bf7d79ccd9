import Apsdk.AudioStream
import Apsdk.Proofs.AudioRetention

/-! The order in which `audio_data_packet` sees the packets. Whatever is passed
on leaves its successor in `expected_seq_`, so that the order can only break when
a flush passes on a packet that was cached twice, or that has been overtaken. -/

namespace Apsdk.AudioStream
open Library

variable {queue : PriorityQueue}

/-- The number expected once the given ones have been passed on. -/
def settle : Nat → List Nat → Nat
  | expected, [] => expected
  | _, number :: later => settle (number + 1) later

/-- Every number is at least the one expected when it is passed on. -/
def Ascends : Nat → List Nat → Prop
  | _, [] => True
  | expected, number :: later => expected ≤ number ∧ Ascends (number + 1) later

theorem ascends_append (expected : Nat) (first second : List Nat) :
    Ascends expected (first ++ second) ↔ Ascends expected first ∧ Ascends (settle expected first) second := by
  induction first generalizing expected with
  | nil => simp [Ascends, settle]
  | cons number later ih => simp [Ascends, settle, ih, and_assoc]

theorem ascends_iff (expected : Nat) (numbers : List Nat) :
    Ascends expected numbers ↔ numbers.Pairwise (· < ·) ∧ ∀ number ∈ numbers, expected ≤ number := by
  induction numbers generalizing expected with
  | nil => simp [Ascends]
  | cons number later ih =>
    simp only [Ascends, ih, List.pairwise_cons, List.forall_mem_cons]
    constructor
    · intro ⟨due, increasing, beyond⟩
      exact ⟨⟨beyond, increasing⟩, due, fun other member => by have := beyond other member; omega⟩
    · intro ⟨⟨beyond, increasing⟩, due, _⟩
      exact ⟨due, increasing, beyond⟩

/-- The sequence numbers of packets, as numbers. -/
def numbers (packets : List RtpPacket) : List Nat := packets.map fun packet => packet.sequence.toNat

@[simp] theorem numbers_nil : numbers [] = [] := rfl

@[simp] theorem numbers_cons (packet : RtpPacket) (later : List RtpPacket) :
    numbers (packet :: later) = packet.sequence.toNat :: numbers later := rfl

@[simp] theorem numbers_append (first second : List RtpPacket) :
    numbers (first ++ second) = numbers first ++ numbers second := List.map_append

/-- The sequence number is one of 1, …, 65534. -/
def Plain (seq : UInt16) : Prop := 0 < seq ∧ seq < 65535

instance (seq : UInt16) : Decidable (Plain seq) := inferInstanceAs (Decidable (_ ∧ _))

theorem Plain.next {seq : UInt16} (plain : Plain seq) : (seq + 1).toNat = seq.toNat + 1 := by
  have below : seq.toNat < 65535 := UInt16.lt_iff_toNat_lt.mp plain.2
  rw [UInt16.toNat_add]
  exact Nat.mod_eq_of_lt (Nat.succ_lt_succ below)

theorem Plain.next_ne {seq : UInt16} (plain : Plain seq) : seq + 1 ≠ 0 := by
  intro wrapped
  have next := plain.next
  rw [wrapped] at next
  cases next

namespace Service

/-- No cached packet has been overtaken, and none is cached twice. -/
def Clean (service : Service queue) : Prop :=
  ((queue.contents service.cachedQueue).map CachedPacket.key).Nodup ∧
  ∀ packet ∈ queue.contents service.cachedQueue, service.expectedSeq.toNat ≤ packet.key

instance (service : Service queue) : Decidable service.Clean := inferInstanceAs (Decidable (_ ∧ _))

/-- The cache is in order and its packets carry the numbers they are filed under. -/
structure Filed (service : Service queue) : Prop where
  ordered : queue.Ordered CachedPacket.key service.cachedQueue
  plain : ∀ packet ∈ queue.contents service.cachedQueue, Plain packet.sequence
  same : ∀ packet ∈ queue.contents service.cachedQueue, packet.data.sequence = packet.sequence

theorem filed_fresh : (fresh : Service queue).Filed := by
  refine ⟨queue.ordered_empty _, ?_, ?_⟩
  all_goals
    intro packet member
    simp [fresh, queue.contents_empty] at member

theorem Filed.expect {service : Service queue} (filed : service.Filed) (seq : UInt16) :
    (⟨seq, service.cachedQueue⟩ : Service queue).Filed := ⟨filed.ordered, filed.plain, filed.same⟩

theorem Filed.cachePacket {service : Service queue} (filed : service.Filed) {packet : RtpPacket}
    (plain : Plain packet.sequence) : (service.cachePacket packet.sequence packet).Filed := by
  have split : ∀ {kept : CachedPacket},
      kept ∈ queue.contents (service.cachePacket packet.sequence packet).cachedQueue →
      kept = ⟨packet.sequence, packet⟩ ∨ kept ∈ queue.contents service.cachedQueue :=
    fun member => List.mem_cons.mp ((queue.contents_push CachedPacket.key _ _).mem_iff.mp member)
  refine ⟨queue.ordered_push filed.ordered, ?_, ?_⟩
  · intro kept member
    rcases split member with rfl | old
    · exact plain
    · exact filed.plain kept old
  · intro kept member
    rcases split member with rfl | old
    · rfl
    · exact filed.same kept old

theorem Filed.popped {service : Service queue} (filed : service.Filed) {p : CachedPacket}
    {rest : queue.Q CachedPacket} (popped : queue.pop CachedPacket.key service.cachedQueue = some (p, rest))
    (seq : UInt16) : (⟨seq, rest⟩ : Service queue).Filed :=
  ⟨queue.ordered_pop filed.ordered popped,
    fun packet member => filed.plain packet (queue.rest_mem popped member),
    fun packet member => filed.same packet (queue.rest_mem popped member)⟩

/-- What a call passes on leaves the successor of its last number expected. -/
structure Settles (service : Service queue) (outcome : Service queue × List RtpPacket) : Prop where
  filed : outcome.1.Filed
  expects : outcome.1.expectedSeq.toNat = settle service.expectedSeq.toNat (numbers outcome.2)
  started : service.expectedSeq ≠ 0 → outcome.1.expectedSeq ≠ 0

theorem Filed.settles {service : Service queue} (filed : service.Filed) : service.Settles (service, []) :=
  ⟨filed, rfl, id⟩

theorem Settles.pass {service next : Service queue} {outcome : Service queue × List RtpPacket} {packet : RtpPacket}
    (plain : Plain packet.sequence) (later : next.Settles outcome) (advanced : next.expectedSeq = packet.sequence + 1) :
    service.Settles (outcome.1, packet :: outcome.2) := by
  refine ⟨later.filed, ?_, fun _ => later.started (advanced ▸ plain.next_ne)⟩
  rw [later.expects, advanced, plain.next]
  rfl

theorem processCachedPacketLoop_settles (flush : Bool) (n : Nat) (service : Service queue) (filed : service.Filed) :
    service.Settles (processCachedPacketLoop flush n service) := by
  induction n generalizing service with
  | zero => exact filed.settles
  | succ n ih =>
    simp only [processCachedPacketLoop]
    split
    next => exact filed.settles
    next p rest popped =>
      split
      · have same := filed.same p (queue.pop_mem popped)
        apply Settles.pass (same ▸ filed.plain p (queue.pop_mem popped)) (ih _ (filed.popped popped _))
        exact congrArg (· + 1) same.symm
      · exact filed.settles

/-- Without a flush, only the packet that is due leaves the cache. -/
theorem drained_ascends (n : Nat) (service : Service queue) (filed : service.Filed) :
    Ascends service.expectedSeq.toNat (numbers (processCachedPacketLoop false n service).2) := by
  induction n generalizing service with
  | zero => trivial
  | succ n ih =>
    simp only [processCachedPacketLoop, Bool.false_or, beq_iff_eq]
    split
    next => trivial
    next p rest popped =>
      split
      next due =>
        have same := filed.same p (queue.pop_mem popped)
        have later := ih ⟨p.sequence + 1, rest⟩ (filed.popped popped _)
        have next := (filed.plain p (queue.pop_mem popped)).next
        simp only [numbers_cons, Ascends, same]
        exact ⟨by rw [due], next ▸ later⟩
      next => trivial

/-- The packet on top comes first among those that are not older than expected. -/
theorem clean_popped {service : Service queue} (filed : service.Filed) {p : CachedPacket}
    {rest : queue.Q CachedPacket} (popped : queue.pop CachedPacket.key service.cachedQueue = some (p, rest)) :
    service.Clean ↔ service.expectedSeq.toNat ≤ p.key ∧ (⟨p.sequence + 1, rest⟩ : Service queue).Clean := by
  have least := queue.pop_least filed.ordered popped
  have next : (p.sequence + 1).toNat = p.key + 1 := (filed.plain p (queue.pop_mem popped)).next
  simp only [Clean, ((queue.contents_pop popped).map CachedPacket.key).nodup_iff, (queue.contents_pop popped).mem_iff,
    List.map_cons, List.nodup_cons, List.mem_map, List.forall_mem_cons, next]
  constructor
  · intro ⟨⟨alone, distinct⟩, due, _⟩
    refine ⟨due, distinct, ?_⟩
    intro packet member
    have other : packet.key ≠ p.key := fun equal => alone ⟨packet, member, equal⟩
    have := least packet member
    omega
  · intro ⟨due, distinct, beyond⟩
    refine ⟨⟨?_, distinct⟩, due, ?_⟩
    · intro ⟨packet, member, equal⟩
      have := beyond packet member
      omega
    · intro packet member
      have := beyond packet member
      omega

/-- A flush passes everything on, in the order of a heap. -/
theorem flushed_ascends_iff (n : Nat) (service : Service queue) (filed : service.Filed) (enough : service.cached ≤ n) :
    Ascends service.expectedSeq.toNat (numbers (processCachedPacketLoop true n service).2) ↔ service.Clean := by
  induction n generalizing service with
  | zero =>
    have none : queue.contents service.cachedQueue = [] := List.eq_nil_of_length_eq_zero (Nat.le_zero.mp enough)
    simp [processCachedPacketLoop, Ascends, Clean, none]
  | succ n ih =>
    simp only [processCachedPacketLoop, Bool.true_or, if_true]
    split
    next empty =>
      simp [Ascends, Clean, (queue.pop_none _ _).mp empty]
    next p rest popped =>
      have fewer := queue.size_pop popped
      have later := ih ⟨p.sequence + 1, rest⟩ (filed.popped popped _) (by simp only [cached] at *; omega)
      have same := filed.same p (queue.pop_mem popped)
      rw [clean_popped filed popped, ← later, (filed.plain p (queue.pop_mem popped)).next]
      simp only [numbers_cons, Ascends, same, CachedPacket.key]

variable {service : Service queue} {packet : RtpPacket}

/-- A packet handed to a running service: the numbers go on increasing, unless a flush meets a cache that is not clean. -/
theorem audioData_running (filed : service.Filed) (started : service.expectedSeq ≠ 0) (plain : Plain packet.sequence) :
    service.Settles (service.audioData packet) ∧
    (Ascends service.expectedSeq.toNat (numbers (service.audioData packet).2) ↔
      (service.Overflows packet → service.Clean)) := by
  rw [audioData_started service packet started]
  split
  next due =>
    have behind : ¬ service.Overflows packet := fun overflows => UInt16.lt_irrefl _ (due ▸ overflows.2.1)
    have advanced := filed.expect (packet.sequence + 1)
    have drained := drained_ascends service.cached _ advanced
    refine ⟨Settles.pass plain (processCachedPacketLoop_settles _ _ _ advanced) rfl, ?_⟩
    simp only [numbers_cons, Ascends]
    exact ⟨fun _ overflows => absurd overflows behind, fun _ => ⟨by rw [due], plain.next ▸ drained⟩⟩
  next =>
    split
    next ahead =>
      split
      next room =>
        have fits : ¬ service.Overflows packet := fun overflows => absurd overflows.2.2 (Nat.not_le.mpr room)
        exact ⟨⟨filed.cachePacket plain, rfl, id⟩, fun _ overflows => absurd overflows fits, fun _ => trivial⟩
      next full =>
        have overflows : service.Overflows packet := ⟨started, ahead, Nat.not_lt.mp full⟩
        refine ⟨processCachedPacketLoop_settles true _ service filed, ?_⟩
        rw [processCachedPacket, flushed_ascends_iff _ service filed (Nat.le_refl _)]
        exact ⟨fun clean _ => clean, fun clean => clean overflows⟩
    next late =>
      have behind : ¬ service.Overflows packet := fun overflows => late overflows.2.1
      exact ⟨filed.settles, fun _ overflows => absurd overflows behind, fun _ => trivial⟩

/-- A property of every way to split a trace at one of its packets, one packet at a time. -/
theorem forall_splits_cons {P : List RtpPacket → RtpPacket → Prop} (first : RtpPacket) (trace : List RtpPacket) :
    (∀ before packet later, first :: trace = before ++ packet :: later → P before packet) ↔
    P [] first ∧ ∀ before packet later, trace = before ++ packet :: later → P (first :: before) packet := by
  constructor
  · intro holds
    exact ⟨holds [] first trace rfl, fun before packet later split => holds (first :: before) packet later (by simp [split])⟩
  · intro ⟨head, tail⟩ before packet later split
    cases before with
    | nil =>
      cases split
      exact head
    | cons other before =>
      obtain ⟨rfl, rest⟩ := List.cons.inj split
      exact tail before packet later rest

theorem run_ascends_iff (trace : List RtpPacket) (service : Service queue) (filed : service.Filed)
    (started : service.expectedSeq ≠ 0) (valid : ∀ packet ∈ trace, Audio packet ∧ Plain packet.sequence) :
    Ascends service.expectedSeq.toNat (numbers (service.run (trace.map .packet)).2) ↔
    ∀ before packet later, trace = before ++ packet :: later →
      (service.run (before.map .packet)).1.Overflows packet → (service.run (before.map .packet)).1.Clean := by
  induction trace generalizing service with
  | nil => simp [run, Ascends]
  | cons packet trace ih =>
    obtain ⟨⟨audio, plain⟩, rest⟩ := List.forall_mem_cons.mp valid
    obtain ⟨settles, ascends⟩ := audioData_running filed started plain
    have later := ih _ settles.filed (settles.started started) rest
    rw [forall_splits_cons]
    simp only [List.map_cons, run, dataHandler_audio service audio, numbers_append, ascends_append, List.map_nil]
    rw [ascends, ← settles.expects, later]

/-- From a fresh service on, the numbers passed to `audio_data_packet` increase
exactly when every flush meets a clean cache. -/
theorem delivered_increasing_iff (queue : PriorityQueue) (trace : List RtpPacket)
    (audio : ∀ packet ∈ trace, Audio packet) (plain : ∀ packet ∈ trace, 0 < packet.sequence ∧ packet.sequence < 65535) :
    (((fresh : Service queue).run (trace.map .packet)).2.map RtpPacket.sequence).Pairwise (· < ·) ↔
    ∀ before packet later, trace = before ++ packet :: later →
      (after queue before).Overflows packet → (after queue before).Clean := by
  have increasing : ∀ packets : List RtpPacket,
      (packets.map RtpPacket.sequence).Pairwise (· < ·) ↔ (numbers packets).Pairwise (· < ·) := by
    intro packets
    simp only [numbers, List.pairwise_map, UInt16.lt_iff_toNat_lt]
  rw [increasing]
  cases trace with
  | nil => simp [run]
  | cons packet trace =>
    have valid : ∀ packet ∈ trace, Audio packet ∧ Plain packet.sequence := fun packet member =>
      ⟨audio packet (List.mem_cons_of_mem _ member), plain packet (List.mem_cons_of_mem _ member)⟩
    have first : Plain packet.sequence := plain packet (List.mem_cons_self ..)
    have filed : (⟨packet.sequence + 1, queue.empty⟩ : Service queue).Filed := filed_fresh.expect _
    have begun : (fresh : Service queue).dataHandler (.packet packet) = (⟨packet.sequence + 1, queue.empty⟩, [packet]) := by
      rw [dataHandler_audio _ (audio packet (List.mem_cons_self ..)), audioData_fresh]
    have later := run_ascends_iff trace ⟨packet.sequence + 1, queue.empty⟩ filed first.next_ne valid
    have idle : ¬ (after queue []).Overflows packet := fun overflows => overflows.1 rfl
    rw [forall_splits_cons]
    simp only [after, List.map_cons, run, begun, List.cons_append, List.nil_append, numbers_cons, List.map_nil] at idle ⊢
    rw [← later, first.next, List.pairwise_cons, ascends_iff]
    constructor
    · intro ⟨beyond, increasing⟩
      exact ⟨fun overflows => absurd overflows idle, increasing, beyond⟩
    · intro ⟨_, increasing, beyond⟩
      exact ⟨beyond, increasing⟩

/-- Packet 3 is sent twice while packet 2 is missing; packet 13 then finds ten packets cached. -/
def repeatTrace : List RtpPacket := ([1, 3, 3, 5, 6, 7, 8, 9, 10, 11, 12, 13] : List UInt16).map sample

/-- The flush passes packet 3 on twice. -/
theorem repeated_packet_delivered_twice :
    (∀ packet ∈ repeatTrace, Audio packet ∧ 0 < packet.sequence ∧ packet.sequence < 65535) ∧
    ((fresh : Service sortedList).run (repeatTrace.map .packet)).2.map RtpPacket.sequence =
      [1, 3, 3, 5, 6, 7, 8, 9, 10, 11, 12] ∧
    ¬ (((fresh : Service sortedList).run (repeatTrace.map .packet)).2.map RtpPacket.sequence).Pairwise (· < ·) := by
  decide

theorem repeat_flush_not_clean :
    ¬ ∀ before packet later, repeatTrace = before ++ packet :: later →
      (after sortedList before).Overflows packet → (after sortedList before).Clean := by
  rw [← delivered_increasing_iff sortedList repeatTrace (by decide) (by decide)]
  decide

end Service
end Apsdk.AudioStream
