import Apsdk.AudioStream
import Mathlib.Algebra.Group.Nat.Defs

/-! Sequence numbers are 16 bits wide and are compared without regard to
wrap-around. Renumbering a trace leaves the delivery order alone as long as
neither numbering uses 65535: its successor is 0, which `data_handler` also
reads as "not started". -/

namespace Apsdk.AudioStream
open Library

variable {queue : PriorityQueue}

def RtpPacket.shift (k : UInt16) (packet : RtpPacket) : RtpPacket :=
  { packet with sequence := packet.sequence + k }

@[simp] theorem RtpPacket.shift_sequence (k : UInt16) (packet : RtpPacket) :
    (packet.shift k).sequence = packet.sequence + k := rfl

def CachedPacket.shift (k : UInt16) (packet : CachedPacket) : CachedPacket :=
  ⟨packet.sequence + k, packet.data.shift k⟩

/-- The `w` consecutive sequence numbers from `lo` on, modulo 2^16. -/
def InWindow (lo : UInt16) (w : Nat) (seq : UInt16) : Prop := (seq - lo).toNat < w

namespace Service

def shift (k : UInt16) (service : Service queue) : Service queue :=
  ⟨service.expectedSeq + k, queue.map (CachedPacket.shift k) service.cachedQueue⟩

@[simp] theorem cached_shift (k : UInt16) (service : Service queue) : (service.shift k).cached = service.cached :=
  queue.size_map _ _

/-- Neither the window from `lo` nor its image under the shift reaches 65535. -/
structure Clear (lo : UInt16) (w : Nat) (k : UInt16) : Prop where
  original : lo.toNat + w ≤ 65535
  shifted : (lo + k).toNat + w ≤ 65535

/-- Numbers from the window up to the one behind it keep their distance from its start. -/
theorem Clear.shift_toNat {lo k : UInt16} {w : Nat} (clear : Clear lo w k) (seq : UInt16)
    (low : lo.toNat ≤ seq.toNat) (high : seq.toNat ≤ lo.toNat + w) :
    (seq + k).toNat + lo.toNat = seq.toNat + (lo + k).toNat := by
  have first := clear.original
  have second := clear.shifted
  rw [UInt16.toNat_add] at second ⊢
  rw [UInt16.toNat_add]
  have := k.toNat_lt
  omega

theorem Clear.mem {lo k seq : UInt16} {w : Nat} (clear : Clear lo w k) (inside : InWindow lo w seq) :
    lo.toNat ≤ seq.toNat ∧ seq.toNat < lo.toNat + w := by
  have first := clear.original
  have bound := seq.toNat_lt
  simp only [InWindow, UInt16.toNat_sub] at inside
  omega

/-- A service that has started on packets of the window. -/
structure Started (lo : UInt16) (w : Nat) (service : Service queue) : Prop where
  low : lo.toNat < service.expectedSeq.toNat
  high : service.expectedSeq.toNat ≤ lo.toNat + w
  cached : ∀ packet ∈ queue.contents service.cachedQueue,
    lo.toNat ≤ packet.sequence.toNat ∧ packet.sequence.toNat < lo.toNat + w

variable {lo k : UInt16} {w : Nat}

theorem Started.same_order (clear : Clear lo w k) {service : Service queue} (started : Started lo w service) :
    SameOrder CachedPacket.key CachedPacket.key (CachedPacket.shift k) (queue.contents service.cachedQueue) := by
  intro x first y second
  have inside := started.cached x first
  have inside' := started.cached y second
  have left := clear.shift_toNat x.sequence (by omega) (by omega)
  have right := clear.shift_toNat y.sequence (by omega) (by omega)
  simp only [CachedPacket.key, CachedPacket.shift]
  omega

theorem Started.expects (clear : Clear lo w k) {service : Service queue} (started : Started lo w service)
    {seq : UInt16} (low : lo.toNat ≤ seq.toNat) (high : seq.toNat < lo.toNat + w) :
    (seq + k = service.expectedSeq + k ↔ seq = service.expectedSeq) ∧
    (service.expectedSeq + k < seq + k ↔ service.expectedSeq < seq) := by
  have left := clear.shift_toNat seq (by omega) (by omega)
  have right := clear.shift_toNat service.expectedSeq (Nat.le_of_lt started.low) started.high
  refine ⟨by simp, ?_⟩
  rw [UInt16.lt_iff_toNat_lt, UInt16.lt_iff_toNat_lt]
  omega

theorem Started.advance (clear : Clear lo w k) {seq : UInt16} {q : queue.Q CachedPacket}
    (low : lo.toNat ≤ seq.toNat) (high : seq.toNat < lo.toNat + w)
    (cached : ∀ packet ∈ queue.contents q, lo.toNat ≤ packet.sequence.toNat ∧ packet.sequence.toNat < lo.toNat + w) :
    Started lo w (⟨seq + 1, q⟩ : Service queue) := by
  have bound := clear.original
  have next : (seq + 1).toNat = seq.toNat + 1 := by
    rw [UInt16.toNat_add]
    simp only [UInt16.reduceToNat]
    omega
  exact ⟨by simp only [next]; omega, by simp only [next]; omega, cached⟩

theorem processCachedPacketLoop_shift (clear : Clear lo w k) (flush : Bool) (n : Nat) (service : Service queue)
    (started : Started lo w service) :
    processCachedPacketLoop flush n (service.shift k) =
      ((processCachedPacketLoop flush n service).1.shift k,
        (processCachedPacketLoop flush n service).2.map (RtpPacket.shift k)) ∧
    Started lo w (processCachedPacketLoop flush n service).1 := by
  induction n generalizing service with
  | zero => exact ⟨rfl, started⟩
  | succ n ih =>
    have served := queue.map_pop (started.same_order clear)
    cases popped : queue.pop CachedPacket.key service.cachedQueue with
    | none =>
      simp only [processCachedPacketLoop, shift, served, popped, Option.map_none]
      exact ⟨rfl, started⟩
    | some pair =>
      obtain ⟨p, rest⟩ := pair
      have inside := started.cached p (queue.pop_mem popped)
      have remaining := ih ⟨p.sequence + 1, rest⟩ (Started.advance clear inside.1 inside.2
        (fun packet member => started.cached packet (queue.rest_mem popped member)))
      have due := (started.expects clear inside.1 inside.2).1
      have commutes : p.sequence + k + 1 = p.sequence + 1 + k := by rw [UInt16.add_assoc, UInt16.add_comm k, UInt16.add_assoc]
      simp only [processCachedPacketLoop, shift, served, popped, Option.map_some, Prod.map, CachedPacket.shift,
        Bool.or_eq_true, beq_iff_eq, due]
      split
      · rw [commutes]
        have passed := congrArg (fun result => (result.1, p.data.shift k :: result.2)) remaining.1
        exact ⟨by simpa only [shift, List.map_cons] using passed, remaining.2⟩
      · exact ⟨rfl, started⟩

theorem processCachedPacket_shift (clear : Clear lo w k) (flush : Bool) (service : Service queue)
    (started : Started lo w service) :
    (service.shift k).processCachedPacket flush =
      ((service.processCachedPacket flush).1.shift k, (service.processCachedPacket flush).2.map (RtpPacket.shift k)) ∧
    Started lo w (service.processCachedPacket flush).1 := by
  simp only [processCachedPacket, cached_shift]
  exact processCachedPacketLoop_shift clear flush service.cached service started

theorem Started.ne_zero {service : Service queue} (started : Started lo w service) : service.expectedSeq ≠ 0 := by
  intro unset
  have := started.low
  simp [unset] at this

theorem Started.shift_ne_zero (clear : Clear lo w k) {service : Service queue} (started : Started lo w service) :
    service.expectedSeq + k ≠ 0 := by
  intro unset
  have moved := clear.shift_toNat _ (Nat.le_of_lt started.low) started.high
  have := started.low
  simp only [unset, UInt16.toNat_zero] at moved
  omega

theorem Started.cache {service : Service queue} (started : Started lo w service) {packet : RtpPacket}
    (low : lo.toNat ≤ packet.sequence.toNat) (high : packet.sequence.toNat < lo.toNat + w) :
    Started lo w (service.cachePacket packet.sequence packet) := by
  refine ⟨started.low, started.high, ?_⟩
  intro other member
  rcases List.mem_cons.mp ((queue.contents_push _ _ _).mem_iff.mp member) with rfl | inside
  · exact ⟨low, high⟩
  · exact started.cached other inside

theorem cachePacket_shift (clear : Clear lo w k) {service : Service queue} (started : Started lo w service)
    {packet : RtpPacket} (low : lo.toNat ≤ packet.sequence.toNat) (high : packet.sequence.toNat < lo.toNat + w) :
    (service.shift k).cachePacket (packet.sequence + k) (packet.shift k) =
      (service.cachePacket packet.sequence packet).shift k := by
  have same := (started.cache low high).same_order clear
  have pushed := queue.map_push (same.subset
    (fun other member => (queue.contents_push CachedPacket.key ⟨packet.sequence, packet⟩ _).mem_iff.mpr member))
  exact congrArg (Service.mk _) pushed

theorem audioData_shift (clear : Clear lo w k) (service : Service queue) (started : Started lo w service)
    (packet : RtpPacket) (low : lo.toNat ≤ packet.sequence.toNat) (high : packet.sequence.toNat < lo.toNat + w) :
    (service.shift k).audioData (packet.shift k) =
      ((service.audioData packet).1.shift k, (service.audioData packet).2.map (RtpPacket.shift k)) ∧
    Started lo w (service.audioData packet).1 := by
  obtain ⟨due, ahead⟩ := started.expects clear low high
  have expected : (service.shift k).expectedSeq = service.expectedSeq + k := rfl
  rw [audioData_started _ _ started.ne_zero, audioData_started _ _ (started.shift_ne_zero clear)]
  simp only [RtpPacket.shift_sequence, expected, due, ahead, cached_shift]
  split
  next =>
    have next : Started lo w { service with expectedSeq := packet.sequence + 1 } :=
      Started.advance clear low high started.cached
    obtain ⟨moved, kept⟩ := processCachedPacket_shift clear false _ next
    have commutes : packet.sequence + 1 + k = packet.sequence + k + 1 := by
      rw [UInt16.add_assoc, UInt16.add_comm 1, UInt16.add_assoc]
    have renumbered : ({ service with expectedSeq := packet.sequence + 1 } : Service queue).shift k =
        { service.shift k with expectedSeq := packet.sequence + k + 1 } := by
      rw [← commutes]; rfl
    rw [renumbered] at moved
    simp only [moved, List.map_cons]
    exact ⟨trivial, kept⟩
  next =>
    split
    next =>
      split
      · exact ⟨Prod.ext (cachePacket_shift clear started low high) rfl, started.cache low high⟩
      · exact processCachedPacket_shift clear true service started
    next => exact ⟨rfl, started⟩

theorem run_shift (clear : Clear lo w k) (service : Service queue) (started : Started lo w service)
    (trace : List RtpPacket) (audio : ∀ packet ∈ trace, Audio packet)
    (inside : ∀ packet ∈ trace, InWindow lo w packet.sequence) :
    ((service.shift k).run ((trace.map (RtpPacket.shift k)).map .packet)).2 =
      (service.run (trace.map .packet)).2.map (RtpPacket.shift k) := by
  induction trace generalizing service with
  | nil => rfl
  | cons packet later ih =>
    have valid : Audio packet := audio packet (List.mem_cons_self ..)
    have range := clear.mem (inside packet (List.mem_cons_self ..))
    obtain ⟨moved, next⟩ := audioData_shift clear service started packet range.1 range.2
    have valid' : Audio (packet.shift k) := valid
    have rest := ih (service.audioData packet).1 next (fun p member => audio p (List.mem_cons_of_mem _ member))
      (fun p member => inside p (List.mem_cons_of_mem _ member))
    simp only [List.map_cons, run, dataHandler_audio _ valid,
      dataHandler_audio _ valid', moved, List.map_append, rest]

theorem run_fresh_shift (clear : Clear lo w k) (trace : List RtpPacket) (audio : ∀ packet ∈ trace, Audio packet)
    (inside : ∀ packet ∈ trace, InWindow lo w packet.sequence) :
    ((fresh : Service queue).run ((trace.map (RtpPacket.shift k)).map .packet)).2 =
      ((fresh : Service queue).run (trace.map .packet)).2.map (RtpPacket.shift k) := by
  cases trace with
  | nil => rfl
  | cons packet later =>
    have valid : Audio packet := audio packet (List.mem_cons_self ..)
    have range := clear.mem (inside packet (List.mem_cons_self ..))
    have next : Started lo w (⟨packet.sequence + 1, queue.empty⟩ : Service queue) :=
      Started.advance clear range.1 range.2 (by simp [queue.contents_empty])
    have rest := run_shift clear _ next later (fun p member => audio p (List.mem_cons_of_mem _ member))
      (fun p member => inside p (List.mem_cons_of_mem _ member))
    have renumbered : (⟨packet.sequence + 1, queue.empty⟩ : Service queue).shift k =
        ⟨(packet.shift k).sequence + 1, queue.empty⟩ := by
      simp only [shift, queue.map_empty, RtpPacket.shift_sequence]
      rw [UInt16.add_assoc, UInt16.add_comm 1, UInt16.add_assoc]
    have valid' : Audio (packet.shift k) := valid
    simp only [List.map_cons, run, dataHandler_audio _ valid, dataHandler_audio _ valid', audioData_fresh,
      ← renumbered, rest, List.map_append, List.map_nil]

/-- A packet received twice is delivered twice when its number is 65535: the
first copy leaves `expected_seq_` at 0, so that the second one starts afresh.
With any other number the second copy is late. -/
theorem run_repeated (queue : PriorityQueue) (packet : RtpPacket) (audio : Audio packet) :
    ((fresh : Service queue).run [.packet packet, .packet packet]).2 =
      if packet.sequence = 65535 then [packet, packet] else [packet] := by
  simp only [run, dataHandler_audio _ audio, audioData_fresh, List.append_nil]
  split
  next last =>
    have wrapped : packet.sequence + 1 = 0 := by rw [last]; decide
    have again := audioData_fresh queue packet
    simp only [fresh] at again
    rw [wrapped, again]
    rfl
  next other =>
    have successor : (packet.sequence + 1).toNat = packet.sequence.toNat + 1 := by
      have bound := packet.sequence.toNat_lt
      have differs : packet.sequence.toNat ≠ 65535 := fun same => other (UInt16.toNat_inj.mp (by simpa using same))
      rw [UInt16.toNat_add]
      simp only [UInt16.reduceToNat]
      omega
    have started : packet.sequence + 1 ≠ 0 := fun unset => by simp [unset] at successor
    have late : packet.sequence < packet.sequence + 1 := by
      rw [UInt16.lt_iff_toNat_lt]; omega
    rw [audioData_late ⟨packet.sequence + 1, queue.empty⟩ started late]
    rfl

/-- The claim for one window and one shift: renumbering commutes with delivery on every trace of the window. -/
def Commutes (queue : PriorityQueue) (lo : UInt16) (w : Nat) (k : UInt16) : Prop :=
  ∀ trace : List RtpPacket, (∀ packet ∈ trace, Audio packet) → (∀ packet ∈ trace, InWindow lo w packet.sequence) →
    ((fresh : Service queue).run ((trace.map (RtpPacket.shift k)).map .packet)).2 =
      ((fresh : Service queue).run (trace.map .packet)).2.map (RtpPacket.shift k)

theorem window_top {lo k : UInt16} {w : Nat} (small : w < 2 ^ 15)
    (original : ¬ InWindow lo w 65535) (shifted : ¬ InWindow (lo + k) w 65535) : Clear lo w k := by
  simp only [InWindow, UInt16.toNat_sub, UInt16.reduceToNat] at original shifted
  have first := lo.toNat_lt
  have second := (lo + k).toNat_lt
  constructor <;> omega

/-- A window whose numbers reach 65535 in one of the two numberings has a trace
that the two deliver differently: the packet numbered 65535, received twice. -/
theorem repeated_differs {lo k seq : UInt16} {w : Nat} (moves : k ≠ 0) (inside : InWindow lo w seq)
    (last : seq = 65535 ∨ seq + k = 65535) : ¬ Commutes queue lo w k := by
  intro commutes
  let packet : RtpPacket := ⟨0x80, false, rtpAudioData, seq, 0, 0, []⟩
  have same := commutes [packet, packet] (by simp [packet, Audio]) (by simpa [packet] using inside)
  have original := run_repeated queue packet rfl
  have shifted := run_repeated queue (packet.shift k) rfl
  simp only [List.map_cons, List.map_nil, original, shifted] at same
  have lengths := congrArg List.length same
  have once : ¬ (seq = 65535 ∧ seq + k = 65535) := by
    rintro ⟨first, second⟩
    exact moves (by rw [first] at second; simpa using second)
  rcases last with first | second
  · have other : ¬ seq + k = 65535 := fun second => once ⟨first, second⟩
    simp [packet, first, first ▸ other] at lengths
  · have other : ¬ seq = 65535 := fun first => once ⟨first, second⟩
    simp [packet, second, other] at lengths

/-- Delivery commutes with a shift on all traces of a window exactly when the
shift is trivial or the number 65535 occurs in neither window. -/
theorem shift_commutes_iff (queue : PriorityQueue) (lo : UInt16) (w : Nat) (small : w < 2 ^ 15) (k : UInt16) :
    Commutes queue lo w k ↔ k = 0 ∨ (¬ InWindow lo w 65535 ∧ ¬ InWindow (lo + k) w 65535) := by
  constructor
  · intro commutes
    by_cases moves : k = 0
    · exact Or.inl moves
    · refine Or.inr ⟨fun inside => ?_, fun inside => ?_⟩
      · exact repeated_differs moves inside (Or.inl rfl) commutes
      · have back : InWindow lo w (65535 - k) := by
          have same : (65535 - k - lo : UInt16) = 65535 - (lo + k) := by grind
          simpa only [InWindow, same] using inside
        exact repeated_differs moves back (Or.inr (UInt16.sub_add_cancel 65535 k)) commutes
  · rintro (rfl | ⟨original, shifted⟩)
    · have same : ∀ trace : List RtpPacket, trace.map (RtpPacket.shift 0) = trace := by
        intro trace
        refine (List.map_congr_left (fun packet _ => ?_)).trans (List.map_id trace)
        simp [RtpPacket.shift]
      intro trace _ _
      rw [same, same]
    · exact fun trace audio inside => run_fresh_shift (window_top small original shifted) trace audio inside

def numbered (sequence : UInt16) : RtpPacket := ⟨0x80, false, rtpAudioData, sequence, 0, 0, []⟩

/-- Packets 1, 3 and 2 are all delivered, but renumbered as 65534, 0 and 65535
they are not: 0 counts as late once 65535 is expected. -/
theorem renumbered_trace_differs :
    (∀ packet ∈ [numbered 1, numbered 3, numbered 2], Audio packet ∧ InWindow 1 3 packet.sequence) ∧
    ((fresh : Service sortedList).run ([numbered 1, numbered 3, numbered 2].map .packet)).2 =
      [numbered 1, numbered 2, numbered 3] ∧
    ((fresh : Service sortedList).run
      (([numbered 1, numbered 3, numbered 2].map (RtpPacket.shift 65533)).map .packet)).2 =
      [numbered 65534, numbered 65535] := by
  refine ⟨?_, by decide, by decide⟩
  simp [numbered, Audio, InWindow]

/-- A shift by 1000 of the thousand numbers from 1 on stays clear of 65535. -/
theorem shift_commutes_early : Commutes sortedList 1 1000 1000 :=
  (shift_commutes_iff sortedList 1 1000 (by decide) 1000).mpr (Or.inr ⟨by simp [InWindow], by simp [InWindow]⟩)

end Service
end Apsdk.AudioStream
