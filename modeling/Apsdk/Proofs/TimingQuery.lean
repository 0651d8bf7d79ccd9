import Apsdk.TimingSync
import Mathlib.Data.List.Basic

/-! The time in a timing query. The macro reads the clock once for the fraction and once
for the seconds, so that the two belong together only where the readings agree. -/

namespace Apsdk.TimingSync
open Library

/-- The words of a time of NTP. -/
def ntpSeconds (ms : Int) : Nat := ((ms.tdiv 1000 + EPOCH) % 2 ^ 32).toNat

def ntpFraction (ms : Int) : Nat := (ms.tmod 1000 * NTP_SCALE_FRAC / 1000).toNat

/-- The conversion of the fraction is defined. -/
def Convertible (ms : Int) : Prop := 0 ≤ ms.tmod 1000

instance (ms : Int) : Decidable (Convertible ms) := inferInstanceAs (Decidable (_ ≤ _))

section Clock
variable {ms other : Int}

theorem ntpSeconds_lt (ms : Int) : ntpSeconds ms < 2 ^ 32 := by
  unfold ntpSeconds
  omega

theorem ntpFraction_lt (ms : Int) : ntpFraction ms < 2 ^ 32 := by
  have small : ms.tmod 1000 < 1000 := Int.tmod_lt_of_pos ms (by decide)
  unfold ntpFraction NTP_SCALE_FRAC
  omega

theorem ntpSeconds_eq_iff : ntpSeconds ms = ntpSeconds other ↔ ms.tdiv 1000 % 2 ^ 32 = other.tdiv 1000 % 2 ^ 32 := by
  unfold ntpSeconds EPOCH
  omega

theorem ntpFraction_eq_iff (defined : Convertible ms) (defined' : Convertible other) :
    ntpFraction ms = ntpFraction other ↔ ms.tmod 1000 = other.tmod 1000 := by
  unfold Convertible at defined defined'
  unfold ntpFraction NTP_SCALE_FRAC
  omega

theorem getNtpTimestamp_eq_none (undefined : ¬ Convertible ms) : getNtpTimestamp ms = none := by
  unfold Convertible at undefined
  have negative : ms.tmod 1000 * NTP_SCALE_FRAC < 0 := by
    unfold NTP_SCALE_FRAC
    omega
  rw [getNtpTimestamp, if_pos negative]

/-- The seconds are in the high word and the fraction in the low one. -/
theorem getNtpTimestamp_eq_some (defined : Convertible ms) :
    ∃ ntp, getNtpTimestamp ms = some ntp ∧ ntp.toNat = ntpSeconds ms * 2 ^ 32 + ntpFraction ms := by
  have scaled : ¬ ms.tmod 1000 * NTP_SCALE_FRAC < 0 := by
    unfold Convertible at defined
    unfold NTP_SCALE_FRAC
    omega
  rw [getNtpTimestamp, if_neg scaled]
  refine ⟨_, rfl, ?_⟩
  have fraction : (BitVec.ofInt 64 (ms.tmod 1000 * NTP_SCALE_FRAC / 1000)).toNat = ntpFraction ms := by
    have small := ntpFraction_lt ms
    unfold ntpFraction at small ⊢
    rw [BitVec.toNat_ofInt]
    omega
  have seconds : (BitVec.ofInt 64 (ms.tdiv 1000 + EPOCH)).toNat % 2 ^ 32 = ntpSeconds ms := by
    unfold ntpSeconds
    rw [BitVec.toNat_ofInt]
    omega
  rw [BitVec.toNat_or, BitVec.toNat_shiftLeft, fraction, Nat.shiftLeft_eq, ← seconds]
  have shifted : ∀ n : Nat, n * 2 ^ 32 % 2 ^ 64 = 2 ^ 32 * (n % 2 ^ 32) := by
    intro n
    omega
  rw [shifted, ← Nat.two_pow_add_eq_or_of_lt (ntpFraction_lt ms), Nat.mul_comm]

end Clock

section Words
variable (order : ByteOrder) (low high : BitVec 64)

/-- The bytes of the sum: the high word of one number and the low word of the other, most
significant byte first; a big-endian host stores the words the wrong way round. -/
def wordBytes (order : ByteOrder) (seconds fraction : Nat) : Bytes :=
  match order with
  | .little => beBytes 4 seconds ++ beBytes 4 fraction
  | .big => beBytes 4 fraction ++ beBytes 4 seconds

theorem htonl_toNat (value : BitVec 32) : (htonl .little value).toNat = beValue (leBytes 4 value.toNat) := by
  have small := beValue_lt (leBytes 4 value.toNat)
  rw [length_leBytes] at small
  exact (BitVec.toNat_ofNat ..).trans (Nat.mod_eq_of_lt small)

theorem htonll_toNat : (htonll order low high).toNat =
    (htonl order (low.setWidth 32)).toNat * 2 ^ 32 + (htonl order ((high >>> 32).setWidth 32)).toNat := by
  have first := (htonl order (low.setWidth 32)).isLt
  have second := (htonl order ((high >>> 32).setWidth 32)).isLt
  unfold htonll
  rw [BitVec.toNat_add, BitVec.toNat_shiftLeft, BitVec.toNat_setWidth, BitVec.toNat_setWidth, Nat.shiftLeft_eq]
  omega

theorem stored_htonll : stored order (htonll order low high) = wordBytes order (high.toNat / 2 ^ 32) (low.toNat % 2 ^ 32) := by
  have lowWord : (low.setWidth 32).toNat = low.toNat % 2 ^ 32 := BitVec.toNat_setWidth ..
  have highWord : ((high >>> 32).setWidth 32).toNat = high.toNat / 2 ^ 32 := by
    have bound := high.isLt
    rw [BitVec.toNat_setWidth, BitVec.toNat_ushiftRight, Nat.shiftRight_eq_div_pow]
    omega
  have bound := (htonl order ((high >>> 32).setWidth 32)).isLt
  have quotient : (htonll order low high).toNat / 256 ^ 4 = (htonl order (low.setWidth 32)).toNat := by
    rw [htonll_toNat]
    omega
  have remainder : (htonll order low high).toNat % 256 ^ 4 =
      (htonl order ((high >>> 32).setWidth 32)).toNat % 256 ^ 4 := by
    rw [htonll_toNat]
    omega
  cases order with
  | little =>
    have first : leBytes 4 (htonll .little low high).toNat = leBytes 4 (htonl .little ((high >>> 32).setWidth 32)).toNat := by
      have reversed := congrArg List.reverse (beBytes_congr remainder)
      rwa [beBytes, beBytes, List.reverse_reverse, List.reverse_reverse] at reversed
    rw [stored, leBytes_append 4 4, quotient, first, htonl_toNat, htonl_toNat, leBytes_reversed, leBytes_reversed, lowWord,
      highWord, wordBytes]
  | big =>
    rw [stored, beBytes_append 4 4, quotient, beBytes_congr remainder, htonl, htonl, lowWord, highWord, wordBytes]

theorem wordBytes_eq_iff {seconds fraction seconds' fraction' : Nat} (small : seconds < 2 ^ 32) (small' : fraction < 2 ^ 32)
    (low : seconds' < 2 ^ 32) (low' : fraction' < 2 ^ 32) :
    wordBytes order seconds fraction = beBytes 8 (seconds' * 2 ^ 32 + fraction') ↔
      match order with
      | .little => seconds = seconds' ∧ fraction = fraction'
      | .big => fraction = seconds' ∧ seconds = fraction' := by
  have quotient : (seconds' * 2 ^ 32 + fraction') / 256 ^ 4 = seconds' := by omega
  have remainder : (seconds' * 2 ^ 32 + fraction') % 256 ^ 4 = fraction' % 256 ^ 4 := by omega
  rw [beBytes_append 4 4, quotient, beBytes_congr remainder]
  have lengths : ∀ n m, (beBytes 4 n).length = (beBytes 4 m).length := fun n m => by rw [length_beBytes, length_beBytes]
  cases order with
  | little =>
    rw [wordBytes, List.append_eq_append_iff_of_size_eq_left (lengths _ _), beBytes_inj small low, beBytes_inj small' low']
  | big =>
    rw [wordBytes, List.append_eq_append_iff_of_size_eq_left (lengths _ _), beBytes_inj small' low, beBytes_inj small low']

end Words

/-- The readings that give the two words. -/
def Build.lowReading (build : Build) (first second : Int) : Int := if build.lowFirst then first else second

def Build.highReading (build : Build) (first second : Int) : Int := if build.lowFirst then second else first

/-- What the peer gets is the time of one of the readings. -/
def OneReading (build : Build) (first second : Int) : Prop :=
  ∃ sent, postSendQuery build first second = some sent ∧ ∃ ms ∈ [first, second], ∃ ntp, getNtpTimestamp ms = some ntp ∧
    stored build.order sent.transmitTimestamp = beBytes 8 ntp.toNat

/-- Both readings can be converted. On a little-endian host they have the seconds or the fraction
in common; on another one the words are exchanged, and the seconds have to be the fraction. -/
structure Consistent (build : Build) (first second : Int) : Prop where
  earlier : Convertible first
  later : Convertible second
  words : match build.order with
    | .little => first.tdiv 1000 % 2 ^ 32 = second.tdiv 1000 % 2 ^ 32 ∨ first.tmod 1000 = second.tmod 1000
    | .big => ∃ ms ∈ [first, second], ntpFraction (build.lowReading first second) = ntpSeconds ms ∧
        ntpSeconds (build.highReading first second) = ntpFraction ms

section Query
variable {build : Build} {first second : Int}

theorem Build.reading (build : Build) (first second : Int) :
    (build.lowReading first second = first ∧ build.highReading first second = second) ∨
      (build.lowReading first second = second ∧ build.highReading first second = first) := by
  unfold lowReading highReading
  cases build.lowFirst with
  | true => exact .inl ⟨rfl, rfl⟩
  | false => exact .inr ⟨rfl, rfl⟩

/-- The words that are sent come from two readings. -/
theorem postSendQuery_sent (defined : Convertible first) (defined' : Convertible second) :
    ∃ sent, postSendQuery build first second = some sent ∧ stored build.order sent.transmitTimestamp =
      wordBytes build.order (ntpSeconds (build.highReading first second)) (ntpFraction (build.lowReading first second)) := by
  obtain ⟨earlier, here, value⟩ := getNtpTimestamp_eq_some defined
  obtain ⟨later, there, value'⟩ := getNtpTimestamp_eq_some defined'
  have low := ntpFraction_lt first
  have low' := ntpFraction_lt second
  refine ⟨_, by rw [postSendQuery, here, there]; rfl, ?_⟩
  unfold Build.highReading Build.lowReading
  cases build.lowFirst with
  | true =>
    rw [if_pos rfl, if_pos rfl, if_pos rfl, stored_htonll]
    congr 1 <;> omega
  | false =>
    rw [if_neg Bool.false_ne_true, if_neg Bool.false_ne_true, if_neg Bool.false_ne_true, stored_htonll]
    congr 1 <;> omega

/-- The words that are sent are those of one of the readings. -/
theorem oneReading_iff (defined : Convertible first) (defined' : Convertible second) :
    OneReading build first second ↔ ∃ ms ∈ [first, second],
      wordBytes build.order (ntpSeconds (build.highReading first second)) (ntpFraction (build.lowReading first second)) =
        beBytes 8 (ntpSeconds ms * 2 ^ 32 + ntpFraction ms) := by
  obtain ⟨sent, query, bytes⟩ := @postSendQuery_sent build first second defined defined'
  have each : ∀ ms ∈ [first, second], Convertible ms := by
    intro ms listed
    obtain rfl | rfl := List.mem_pair.mp listed
    · exact defined
    · exact defined'
  constructor
  · rintro ⟨sent', query', ms, listed, ntp, reading, equal⟩
    cases query.symm.trans query'
    obtain ⟨ntp', reading', value⟩ := getNtpTimestamp_eq_some (each ms listed)
    cases reading.symm.trans reading'
    exact ⟨ms, listed, by rw [← bytes, equal, value]⟩
  · rintro ⟨ms, listed, equal⟩
    obtain ⟨ntp, reading, value⟩ := getNtpTimestamp_eq_some (each ms listed)
    exact ⟨sent, query, ms, listed, ntp, reading, by rw [bytes, equal, value]⟩

/-- The fraction of one reading and the seconds of the other are those of one of them if either agrees. -/
theorem same_words_iff (defined : Convertible first) (defined' : Convertible second) :
    (∃ ms ∈ [first, second], ntpSeconds (build.highReading first second) = ntpSeconds ms ∧
        ntpFraction (build.lowReading first second) = ntpFraction ms) ↔
      first.tdiv 1000 % 2 ^ 32 = second.tdiv 1000 % 2 ^ 32 ∨ first.tmod 1000 = second.tmod 1000 := by
  rw [← ntpSeconds_eq_iff, ← ntpFraction_eq_iff defined defined']
  obtain ⟨low, high⟩ | ⟨low, high⟩ := build.reading first second
  all_goals
    rw [low, high]
    constructor
  · rintro ⟨ms, listed, seconds, fraction⟩
    obtain rfl | rfl := List.mem_pair.mp listed
    · exact .inl seconds.symm
    · exact .inr fraction
  · rintro (seconds | fraction)
    · exact ⟨first, List.mem_pair.mpr (.inl rfl), seconds.symm, rfl⟩
    · exact ⟨second, List.mem_pair.mpr (.inr rfl), rfl, fraction⟩
  · rintro ⟨ms, listed, seconds, fraction⟩
    obtain rfl | rfl := List.mem_pair.mp listed
    · exact .inr fraction.symm
    · exact .inl seconds
  · rintro (seconds | fraction)
    · exact ⟨second, List.mem_pair.mpr (.inr rfl), seconds, rfl⟩
    · exact ⟨first, List.mem_pair.mpr (.inl rfl), rfl, fraction.symm⟩

/-- The time that is sent is that of one reading just when the words of the two readings fit together. -/
theorem query_consistent_iff (build : Build) (first second : Int) : OneReading build first second ↔ Consistent build first second := by
  by_cases both : Convertible first ∧ Convertible second
  · obtain ⟨defined, defined'⟩ := both
    have words := fun ms : Int => wordBytes_eq_iff build.order (ntpSeconds_lt (build.highReading first second))
      (ntpFraction_lt (build.lowReading first second)) (ntpSeconds_lt ms) (ntpFraction_lt ms)
    have packaged : Consistent build first second ↔ match build.order with
        | .little => first.tdiv 1000 % 2 ^ 32 = second.tdiv 1000 % 2 ^ 32 ∨ first.tmod 1000 = second.tmod 1000
        | .big => ∃ ms ∈ [first, second], ntpFraction (build.lowReading first second) = ntpSeconds ms ∧
            ntpSeconds (build.highReading first second) = ntpFraction ms :=
      ⟨Consistent.words, fun condition => ⟨defined, defined', condition⟩⟩
    rw [oneReading_iff defined defined', packaged]
    simp only [words]
    cases build.order with
    | little => exact same_words_iff defined defined'
    | big => exact Iff.rfl
  · refine iff_of_false (fun one => both ?_) fun consistent => both ⟨consistent.earlier, consistent.later⟩
    obtain ⟨sent, query, -⟩ := one
    obtain ⟨earlier, here, query⟩ := Option.bind_eq_some_iff.mp query
    obtain ⟨later, there, -⟩ := Option.bind_eq_some_iff.mp query
    constructor
    · by_contra undefined
      rw [getNtpTimestamp_eq_none undefined] at here
      cases here
    · by_contra undefined
      rw [getNtpTimestamp_eq_none undefined] at there
      cases there

/-- Two readings around the turn of a second. -/
theorem straddled_second_sent : ¬ ∀ (build : Build) (first second : Int), first ≤ second → OneReading build first second := by
  intro always
  have sent := (oneReading_iff (by decide) (by decide)).mp (always ⟨.little, true⟩ 1999 2000 (by decide))
  exact absurd sent (by decide)

end Query

end Apsdk.TimingSync
