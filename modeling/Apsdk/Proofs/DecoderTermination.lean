import Apsdk.Library.Chains
import Apsdk.Proofs.DocumentReading

/-! The decoder comes to an end just where no object that it reaches refers back to
itself, apart from what its own arithmetic allows. Failing allocations only make it end earlier. -/

namespace Apsdk.Plist
open Library Traced Relation

section Loops
variable {references : References} {good bad accepted refused : Nat → Prop} {first count taken stop : Nat}

theorem LoopEnd.mono (ends : LoopEnd references accepted refused first count taken stop)
    (takes : ∀ object, accepted object → good object) (refuses : ∀ object, refused object → bad object) :
    LoopEnd references good bad first count taken stop := by
  cases ends with
  | whole passes => exact .whole (passes.mono takes)
  | missing early passes absent => exact .missing early (passes.mono takes) absent
  | refused early passes found refused => exact .refused early (passes.mono takes) found (refuses _ refused)

/-- Every loop comes to its end. -/
theorem LoopEnd.exists (references : References) (good : Nat → Prop) (first count : Nat) :
    ∃ taken stop, LoopEnd references good (fun object => ¬ good object) first count taken stop := by
  induction count generalizing first with
  | zero => exact ⟨0, first, .whole passes_empty⟩
  | succ count ih =>
    cases found : references first with
    | none => exact ⟨0, first, .missing (Nat.succ_pos count) passes_empty found⟩
    | some reference =>
      by_cases holds : good reference.toNat
      · obtain ⟨taken, stop, ends⟩ := ih (first + 1)
        exact ⟨taken + 1, stop, ends.cons found holds⟩
      · exact ⟨0, first + 1, .refused (Nat.succ_pos count) passes_empty found holds⟩

/-- A loop that takes only what is good stops no later than the one that takes all of it. -/
theorem LoopEnd.le {taken' stop' : Nat} (ends : LoopEnd references accepted refused first count taken stop)
    (takes : ∀ object, accepted object → good object)
    (all : LoopEnd references good (fun object => ¬ good object) first count taken' stop') : stop ≤ stop' := by
  have passes : Passes references good first (first + taken) := by
    cases ends with
    | whole passes => exact passes.mono takes
    | missing _ passes => exact passes.mono takes
    | refused _ passes => exact passes.mono takes
  have fewer : taken ≤ count := by
    cases ends <;> omega
  have last : stop ≤ first + taken + 1 := by
    cases ends <;> omega
  cases all with
  | whole =>
    cases ends <;> omega
  | missing early passes' absent =>
    have bound : taken ≤ taken' := by
      by_contra more
      exact passes.there (by omega) (by omega) absent
    rcases Nat.eq_or_lt_of_le bound with rfl | less
    · cases ends with
      | whole => exact absurd early (Nat.lt_irrefl _)
      | missing => exact le_rfl
      | refused _ _ found => cases absent.symm.trans found
    · omega
  | refused early passes' found refuses =>
    have bound : taken ≤ taken' := by
      by_contra more
      exact refuses (passes.at (by omega) (by omega) found)
    omega

end Loops

namespace Document
variable {doc : Document} {host : Host} {fuel object target state after : Nat} {read : Object}

/-- The object itself is read within bounds. -/
def Safe (doc : Document) (object : Nat) : Prop := ∀ type length payload, doc.marker object = some (type, length, payload) →
  PayloadSafe doc.data doc.reflen false type length payload

/-- Decoding an object with some fuel has come to an end. -/
def Ended (doc : Document) (host : Host) (fuel object : Nat) : Prop := ∃ state, Halts (doc.decode host fuel object) state

theorem ended_of_taken {accept : Object → Option α} {fuel object : Nat}
    (taken : Accepted (doc.decode host fuel) accept object ∨ Refused (doc.decode host fuel) accept object) :
    doc.Ended host fuel object := by
  rcases taken with ⟨state, read, after, ends, -⟩ | ⟨state, read, after, ends, -⟩
  · exact ⟨state, read, after, ends⟩
  · exact ⟨state, read, after, ends⟩

/-- Where no allocation fails, an object that has been decoded is safe, and so are those that it refers to. -/
theorem ended_safe (inside : doc.data.length < 2 ^ 32) (generous : host.Generous) (ended : doc.Ended host fuel object) :
    doc.Safe object := by
  obtain ⟨state, read, after, ends⟩ := ended
  intro type length payload marked
  have container : ∀ kind, type &&& 0xf0 = kind → kind ≠ PLIST_TYPE_INTEGER → kind ≠ PLIST_TYPE_REAL →
      PayloadSafe doc.data doc.reflen false type length payload := fun kind same integer real =>
    ⟨fun other => absurd (same.symm.trans other) integer, fun other => absurd (same.symm.trans other) real,
      fun _ sizes => (nomatch sizes), fun _ sizes => (nomatch sizes)⟩
  cases fuel with
  | zero => cases ends.1
  | succ fuel =>
    obtain ⟨between, ends⟩ := (decode_marked marked ends).resolve_left fun both => both.2 generous
    by_cases array : type &&& 0xf0 = PLIST_TYPE_ARRAY
    · exact container _ array (by decide) (by decide)
    by_cases dict : type &&& 0xf0 = PLIST_TYPE_DICT
    · exact container _ dict (by decide) (by decide)
    exact (parsePayload_leaf inside array dict ends).safe

theorem ended_refers (inside : doc.data.length < 2 ^ 32) (generous : host.Generous) (ended : doc.Ended host (fuel + 1) object)
    (refers : doc.Refers object target) : doc.Ended host fuel target := by
  obtain ⟨state, read, after, ends⟩ := ended
  have payload_ends : ∀ {type length payload}, doc.marker object = some (type, length, payload) →
      ∃ between, Outcome (parsePayload host doc.data doc.reflen (doc.decode host fuel) type length payload) between read after :=
    fun marked => (decode_marked marked ends).resolve_left fun both => both.2 generous
  cases refers with
  | element marked kind fits follows =>
    obtain ⟨between, ends⟩ := payload_ends marked
    rw [parsePayload_array kind] at ends
    rcases parseArray_outcome ends with ⟨-, failed⟩ | ⟨-, taken, stop, loop, -⟩
    · exact absurd fits (failed generous)
    · exact ended_of_taken (loop.follows (fun _ => (decode_complete inside generous).takes_valid) follows)
  | key marked kind fits follows =>
    obtain ⟨between, ends⟩ := payload_ends marked
    rw [parsePayload_dict kind] at ends
    rcases parseDict_outcome ends with ⟨-, failed⟩ | ⟨-, taken, stop, taken', stop', loop, -⟩
    · exact absurd fits (failed generous)
    · exact ended_of_taken (loop.follows (fun _ => (decode_complete inside generous).takes_key (decode_sound inside)) follows)
  | value marked kind fits keys follows =>
    obtain ⟨between, ends⟩ := payload_ends marked
    rw [parsePayload_dict kind] at ends
    rcases parseDict_outcome ends with ⟨-, failed⟩ | ⟨-, taken, stop, taken', stop', loop, loop', -⟩
    · exact absurd fits (failed generous)
    have exact_ := loop.mono (fun _ => (decode_sound inside).key)
      fun _ refused key => (decode_complete inside generous).takes_key (decode_sound inside) key refused
    have same := Nat.le_antisymm (exact_.le (fun _ key => key) keys) (keys.le (fun _ key => key) exact_)
    rw [same] at loop'
    exact ended_of_taken (loop'.follows (fun _ => (decode_complete inside generous).takes_valid) follows)

theorem ended_chain (inside : doc.data.length < 2 ^ 32) (generous : host.Generous) (ended : doc.Ended host fuel object)
    (refers : TransGen doc.Refers object target) : ∃ less < fuel, doc.Ended host less target := by
  have step : ∀ {fuel object target}, doc.Ended host fuel object → doc.Refers object target →
      ∃ less < fuel, doc.Ended host less target := by
    intro fuel object target ended refers
    cases fuel with
    | zero =>
      obtain ⟨state, read, after, ends⟩ := ended
      cases ends.1
    | succ fuel => exact ⟨fuel, Nat.lt_succ_self fuel, ended_refers inside generous ended refers⟩
  induction refers with
  | single refers => exact step ended refers
  | tail _ refers ih =>
    obtain ⟨less, below, ended'⟩ := ih
    obtain ⟨least, below', ended''⟩ := step ended' refers
    exact ⟨least, below'.trans below, ended''⟩

/-- An object that refers back to itself does not come to an end. -/
theorem ended_acyclic (inside : doc.data.length < 2 ^ 32) (generous : host.Generous) (ended : doc.Ended host fuel object) :
    ¬ TransGen doc.Refers object object := by
  intro cycle
  induction fuel using Nat.strong_induction_on with
  | _ fuel ih =>
    obtain ⟨less, below, again⟩ := ended_chain inside generous ended cycle
    exact ih less below again

theorem ended_reached (inside : doc.data.length < 2 ^ 32) (generous : host.Generous) (ended : doc.Ended host fuel object)
    (reached : ReflTransGen doc.Refers object target) : ∃ fuel, doc.Ended host fuel target := by
  rcases reflTransGen_iff_eq_or_transGen.mp reached with rfl | chain
  · exact ⟨fuel, ended⟩
  · obtain ⟨less, -, ended'⟩ := ended_chain inside generous ended chain
    exact ⟨less, ended'⟩

/-- From a root nothing leads back to itself, and everything that is reached is safe. -/
structure Grounded (doc : Document) (root : Nat) : Prop where
  acyclic : Acyclic doc.Refers root
  safe : ∀ object, ReflTransGen doc.Refers root object → doc.Safe object

theorem grounded_of_ended (inside : doc.data.length < 2 ^ 32) (generous : host.Generous) (ended : doc.Ended host fuel object) :
    doc.Grounded object where
  acyclic := by
    intro target reached
    obtain ⟨fuel, ended'⟩ := ended_reached inside generous ended reached
    exact ended_acyclic inside generous ended'
  safe := by
    intro target reached
    obtain ⟨fuel, ended'⟩ := ended_reached inside generous ended reached
    exact ended_safe inside generous ended'

/-- What the loops of a dictionary follow on any host, a reference of the document follows. -/
theorem refers_of_value {type : UInt8} {length payload taken stop : Nat} (inside : doc.data.length < 2 ^ 32)
    (marked : doc.marker object = some (type, length, payload)) (kind : type &&& 0xf0 = PLIST_TYPE_DICT)
    (fits : doc.Fits (2 * length) length payload)
    (keys : LoopEnd (doc.members payload) (Accepted (doc.decode host fuel) Object.stringGetValue)
      (Refused (doc.decode host fuel) Object.stringGetValue) 0 length taken stop)
    (follows : Follows (doc.members payload) (Accepted (doc.decode host fuel) acceptValue) stop length target) :
    doc.Refers object target := by
  obtain ⟨taken', stop', all⟩ := LoopEnd.exists (doc.members payload) doc.Key 0 length
  have early : stop ≤ stop' := keys.le (fun _ => (decode_sound inside).key) all
  obtain ⟨position, reference, low, high, passes, found, rfl⟩ := follows
  have values := passes.mono fun _ => (decode_sound inside).valid
  by_cases key : position < stop'
  · -- The loop over the keys has ended early, so that the one over the values gets to keys.
    have front : position < length ∧ Passes (doc.members payload) doc.Key 0 position := by
      cases all with
      | whole passed => exact ⟨by omega, passed.within le_rfl (by omega)⟩
      | missing less passed => exact ⟨by omega, passed.within le_rfl (by omega)⟩
      | refused less passed => exact ⟨by omega, passed.within le_rfl (by omega)⟩
    exact .key marked kind fits ⟨position, reference, Nat.zero_le _, by omega, front.2, found, rfl⟩
  · have rest : Passes (doc.members payload) doc.Valid stop' position := values.within early le_rfl
    exact .value marked kind fits all ⟨position, reference, by omega, by omega, rest, found, rfl⟩

/-- On every host, fuel beyond the length of the chains is enough. -/
theorem decode_halts_of_chains (inside : doc.data.length < 2 ^ 32) {steps : Nat} (chains : ChainsWithin doc.Refers steps object)
    (safe : ∀ target, ReflTransGen doc.Refers object target → doc.Safe target) (enough : steps < fuel) (state : Nat) :
    Halts (doc.decode host fuel object) state := by
  induction fuel generalizing steps object state with
  | zero => exact absurd enough (Nat.not_lt_zero _)
  | succ fuel ih =>
    have targets : ∀ target, doc.Refers object target → ∀ state, Halts (doc.decode host fuel target) state := by
      intro target refers
      cases steps with
      | zero => exact absurd refers (chains target)
      | succ steps => exact ih (chains target refers) (fun other reached => safe other (.head refers reached)) (by omega)
    apply decode_halts
    intro type length payload marked state
    by_cases array : type &&& 0xf0 = PLIST_TYPE_ARRAY
    · rw [parsePayload_array array]
      apply parseArray_halts
      intro target fits follows
      exact targets target (.element marked array fits (follows.mono fun _ => (decode_sound inside).valid))
    by_cases dict : type &&& 0xf0 = PLIST_TYPE_DICT
    · rw [parsePayload_dict dict]
      apply parseDict_halts
      · intro target fits follows
        exact targets target (.key marked dict fits (follows.mono fun _ => (decode_sound inside).key))
      · intro target taken stop fits keys follows
        exact targets target (refers_of_value inside marked dict fits keys follows)
    · exact parsePayload_leaf_halts inside array dict (safe object .refl type length payload marked)

theorem marker_inside {marker : UInt8 × Nat × Nat} (marked : doc.marker object = some marker) : object < doc.reftab.length := by
  by_contra beyond
  rw [Document.marker, if_neg beyond] at marked
  cases marked

theorem refers_inside (refers : doc.Refers object target) : object < doc.reftab.length := by
  cases refers with
  | element marked => exact marker_inside marked
  | key marked => exact marker_inside marked
  | value marked => exact marker_inside marked

theorem Grounded.halts (grounded : doc.Grounded object) (inside : doc.data.length < 2 ^ 32) :
    ∃ fuel, ∀ host state, Halts (doc.decode host fuel object) state := by
  have finite : {object | ∃ target, doc.Refers object target}.Finite :=
    (Set.finite_lt_nat doc.reftab.length).subset fun object ⟨_, refers⟩ => refers_inside refers
  have chains := grounded.acyclic.chainsWithin finite
  exact ⟨_, fun host state => decode_halts_of_chains inside chains grounded.safe (Nat.lt_succ_self _) state⟩

end Document

section File
variable {host : Host} {data : Bytes} {fuel state after : Nat} {read : Object}

/-- An entry of the offset table; it stays zero where its width is not one of a number. -/
def tableEntry (data : Bytes) (reftaboffset offlen i : Nat) : BitVec 64 :=
  if offlen = 1 ∨ offlen = 2 ∨ offlen = 4 ∨ offlen = 8 then
    BitVec.ofNat 64 (beValue ((data.drop (reftaboffset + i * offlen)).take offlen))
  else 0

theorem increment_keeps (i objects : Nat) : Keeps (increment i objects) := by
  unfold increment
  split
  · exact keeps_pure _
  · exact (keeps_emit _).bind fun _ => keeps_stop _

theorem increment_small {i objects next : Nat} (ends : Outcome (increment i objects) state next after) : i + 1 < 2 ^ 31 := by
  by_contra large
  rw [increment, if_neg large, outcome_emit_bind_iff] at ends
  cases ends.1

theorem parseTable_yields {reftaboffset offlen objects remaining i : Nat}
    (fits : reftaboffset + objects * offlen ≤ data.length) (split : i + remaining = objects) (small : objects < 2 ^ 31) :
    Yields (parseTable data reftaboffset offlen objects remaining i)
      ((List.range' i remaining).map (tableEntry data reftaboffset offlen)) := by
  induction remaining generalizing i with
  | zero => exact yields_pure []
  | succ remaining ih =>
    have inside : reftaboffset + i * offlen + offlen ≤ data.length := by
      have step : (i + 1) * offlen ≤ objects * offlen := Nat.mul_le_mul_right _ (by omega)
      rw [Nat.add_one_mul] at step
      omega
    unfold parseTable
    refine (yields_emit _).bind ((parseInteger_reads inside).bind ((increment_yields (by omega)).bind ?_))
    refine (ih (by omega)).bind ?_
    rw [List.range'_succ, List.map_cons, tableEntry]
    split <;> exact yields_pure _

theorem parseTable_keeps (reftaboffset offlen objects remaining i : Nat) :
    Keeps (parseTable data reftaboffset offlen objects remaining i) := by
  induction remaining generalizing i with
  | zero => exact keeps_pure []
  | succ remaining ih =>
    refine (keeps_emit _).bind fun _ => (parseInteger_keeps _ _).bind fun offset => ?_
    refine (increment_keeps _ _).bind fun next => (ih next).bind fun offsets => keeps_pure _

/-- A table that has been read is short enough for its counter. -/
theorem parseTable_small {reftaboffset offlen objects remaining i : Nat} {table : List (BitVec 64)}
    (ends : Outcome (parseTable data reftaboffset offlen objects (remaining + 1) i) state table after) :
    i + remaining + 1 < 2 ^ 31 := by
  induction remaining generalizing i state table after with
  | zero =>
    unfold parseTable at ends
    obtain ⟨offset, between, -, rest⟩ := outcome_bind_iff.mp (outcome_emit_bind_iff.mp ends)
    obtain ⟨next, between, counted, -⟩ := outcome_bind_iff.mp rest
    exact increment_small counted
  | succ remaining ih =>
    unfold parseTable at ends
    obtain ⟨offset, between, -, rest⟩ := outcome_bind_iff.mp (outcome_emit_bind_iff.mp ends)
    obtain ⟨next, between, counted, rest⟩ := outcome_bind_iff.mp rest
    obtain ⟨offsets, between', later, -⟩ := outcome_bind_iff.mp rest
    have small := increment_small counted
    have same : next = i + 1 := (increment_yields small).value_eq counted.1
    have whole := ih later
    omega

/-- The table of the objects that the trailer announces. -/
def tableOf (data : Bytes) : List (BitVec 64) :=
  (List.range' 0 (trailerOf data).objects.toNat).map
    (tableEntry data (trailerOf data).reftaboffset.toNat (trailerOf data).offlen)

def documentOf (data : Bytes) : Document := ⟨data, tableOf data, (trailerOf data).reflen⟩

def rootOf (data : Bytes) : Nat := (trailerOf data).rootid.toNat

/-- The trailer leads to an offset table that is there and whose copy has a size. -/
structure Opened (data : Bytes) : Prop where
  long : BPLIST_TRAILER_LEN ≤ data.length
  admitted : Admitted (trailerOf data)
  there : tableEnd (trailerOf data) ≤ data.length
  sized : (trailerOf data).objects.toNat * 8 < 2 ^ 64

/-- Reading the table and the root object. -/
def decodeRoot (host : Host) (data : Bytes) (fuel : Nat) : Decoding Object := do
  if ¬ (← calloc host (trailerOf data).objects.toNat 8) then return .null
  let reftab ← parseTable data (trailerOf data).reftaboffset.toNat (trailerOf data).offlen (trailerOf data).objects.toNat
    (trailerOf data).objects.toNat 0
  parseObject host data reftab (trailerOf data).reflen fuel (rootOf data)

theorem fromBplist_declined (declined : ¬ (BPLIST_TRAILER_LEN ≤ data.length ∧ Admitted (trailerOf data))) :
    Halts (fromBplist host data fuel) state := by
  unfold fromBplist
  split
  · exact halts_pure _
  next long =>
    have enough : BPLIST_TRAILER_LEN ≤ data.length := Nat.not_lt.mp long
    refine ((parseTrailer_yields enough).outcome_iff parseTrailer_keeps).mpr ⟨rfl, rfl⟩ |>.bind_halts ?_
    split
    · exact halts_pure _
    split
    · exact halts_pure _
    split
    · exact halts_pure _
    next objects root table =>
      exact absurd ⟨enough, by omega, by omega, by omega, by omega⟩ declined

/-- What the checks of the trailer leave to do. -/
theorem fromBplist_outcome_iff (long : BPLIST_TRAILER_LEN ≤ data.length) (admitted : Admitted (trailerOf data)) :
    Outcome (fromBplist host data fuel) state read after ↔
      tableEnd (trailerOf data) < 2 ^ 63 ∧
        if tableEnd (trailerOf data) ≤ data.length then Outcome (decodeRoot host data fuel) state read after
        else read = .null ∧ after = state := by
  unfold fromBplist
  rw [if_neg (Nat.not_lt.mpr long), (parseTrailer_yields long).outcome_bind_iff parseTrailer_keeps]
  obtain ⟨objects, root, below, table⟩ := admitted
  rw [if_neg (by omega), if_neg (by omega), if_neg (by omega)]
  unfold signedSize
  rw [outcome_checked_bind_iff, outcome_checked_bind_iff]
  unfold tableEnd
  rw [← and_assoc]
  refine and_congr (by omega) ?_
  by_cases there : (trailerOf data).reftaboffset.toNat + (trailerOf data).objects.toNat * (trailerOf data).offlen ≤ data.length
  · rw [if_neg (by omega), if_pos there]
    exact Iff.rfl
  · rw [if_pos (by omega), if_neg there]
    exact outcome_pure_iff

theorem Opened.outcome_iff (opened : Opened data) (small : (trailerOf data).objects.toNat < 2 ^ 31)
    {next : List (BitVec 64) → Decoding Object} :
    Outcome (parseTable data (trailerOf data).reftaboffset.toNat (trailerOf data).offlen (trailerOf data).objects.toNat
      (trailerOf data).objects.toNat 0 >>= next) state read after ↔ Outcome (next (tableOf data)) state read after :=
  (parseTable_yields opened.there (Nat.zero_add _) small).outcome_bind_iff (parseTable_keeps _ _ _ _ _)

/-- Where no allocation fails, decoding the root means to have read the table. -/
theorem Opened.ended (opened : Opened data) (generous : host.Generous)
    (ends : Outcome (decodeRoot host data fuel) state read after) :
    (trailerOf data).objects.toNat < 2 ^ 31 ∧ (documentOf data).Ended host fuel (rootOf data) := by
  obtain ⟨granted, between, allocated, rest⟩ := outcome_bind_iff.mp ends
  obtain ⟨rfl, rfl⟩ := calloc_outcome_iff.mp allocated
  have passed : (decide ((trailerOf data).objects.toNat * 8 < 2 ^ 64) &&
      host.alloc state ((trailerOf data).objects.toNat * 8)) = true := by
    rw [Bool.and_eq_true, decide_eq_true_eq]
    exact ⟨opened.sized, generous _ _⟩
  rw [if_neg (not_not.mpr passed)] at rest
  have small : (trailerOf data).objects.toNat < 2 ^ 31 := by
    obtain ⟨table, between, loop, -⟩ := outcome_bind_iff.mp rest
    have some_ := opened.admitted.objects
    obtain ⟨remaining, same⟩ := Nat.exists_eq_succ_of_ne_zero (show (trailerOf data).objects.toNat ≠ 0 by omega)
    rw [same] at loop ⊢
    have counted := parseTable_small loop
    omega
  exact ⟨small, _, read, after, (opened.outcome_iff small).mp rest⟩

theorem Opened.halts (opened : Opened data) (small : (trailerOf data).objects.toNat < 2 ^ 31)
    (root : ∀ state, Halts ((documentOf data).decode host fuel (rootOf data)) state) (state : Nat) :
    Halts (decodeRoot host data fuel) state := by
  refine calloc_halts_bind (fun granted after _ => ?_) state
  split
  · exact halts_pure _
  · obtain ⟨read, after', ends⟩ := root after
    exact ⟨read, after', (opened.outcome_iff small).mpr ends⟩

/-- The trailer is safe, and the root object, where the decoder gets to it, is grounded. -/
structure Terminable (data : Bytes) : Prop where
  trailer : TrailerSafe generousHost data
  root : Opened data → (documentOf data).Grounded (rootOf data)

theorem terminable_of_generous (inside : data.length < 2 ^ 32)
    (ends : Outcome (fromBplist generousHost data fuel) state read after) : Terminable data := by
  have generous : generousHost.Generous := fun _ _ => rfl
  have opens : Opened data → (trailerOf data).objects.toNat < 2 ^ 31 ∧
      (documentOf data).Ended generousHost fuel (rootOf data) := by
    intro opened
    have rest := ((fromBplist_outcome_iff opened.long opened.admitted).mp ends).2
    rw [if_pos opened.there] at rest
    exact opened.ended generous rest
  constructor
  · intro long admitted
    refine ⟨((fromBplist_outcome_iff long admitted).mp ends).1, fun there sized _ => ?_⟩
    exact (opens ⟨long, admitted, there, sized⟩).1
  · exact fun opened => Document.grounded_of_ended inside generous (opens opened).2

theorem Terminable.halts (terminable : Terminable data) (inside : data.length < 2 ^ 32) (host : Host) (state : Nat) :
    ∃ fuel, Halts (fromBplist host data fuel) state := by
  by_cases read : BPLIST_TRAILER_LEN ≤ data.length ∧ Admitted (trailerOf data)
  swap
  · exact ⟨0, fromBplist_declined read⟩
  obtain ⟨long, admitted⟩ := read
  obtain ⟨representable, counted⟩ := terminable.trailer long admitted
  by_cases there : tableEnd (trailerOf data) ≤ data.length
  swap
  · refine ⟨0, .null, state, (fromBplist_outcome_iff long admitted).mpr ⟨representable, ?_⟩⟩
    rw [if_neg there]
    exact ⟨rfl, rfl⟩
  have enter : ∀ fuel, Halts (decodeRoot host data fuel) state → Halts (fromBplist host data fuel) state := by
    rintro fuel ⟨object, after, ends⟩
    refine ⟨object, after, (fromBplist_outcome_iff long admitted).mpr ⟨representable, ?_⟩⟩
    rwa [if_pos there]
  by_cases sized : (trailerOf data).objects.toNat * 8 < 2 ^ 64
  · have opened : Opened data := ⟨long, admitted, there, sized⟩
    obtain ⟨fuel, root⟩ := (terminable.root opened).halts inside
    exact ⟨fuel, enter fuel (opened.halts (counted there sized rfl) (root host) state)⟩
  · refine ⟨0, enter 0 (calloc_halts_bind (fun granted after small => ?_) state)⟩
    cases granted with
    | false => exact halts_pure _
    | true => exact absurd (small rfl) sized

/-- On every host, some fuel lets the decoder come back with an object, if and only if the document is terminable. -/
theorem decoder_terminates_iff (data : Bytes) (inside : data.length < 2 ^ 32) :
    (∀ host : Host, ∃ fuel object, ((fromBplist host data fuel).run 0).value = .ok object) ↔ Terminable data := by
  constructor
  · intro terminates
    obtain ⟨fuel, object, done⟩ := terminates generousHost
    exact terminable_of_generous inside ⟨done, rfl⟩
  · intro terminable host
    obtain ⟨fuel, object, after, done, -⟩ := terminable.halts inside host 0
    exact ⟨fuel, object, done⟩

/-- Seven allocations reach as far as into the array of the nested document. -/
def stingyHost : Host := ⟨fun allocations _ => decide (allocations < 7), fun pattern => pattern.zeroExtend 64⟩

theorem nestedDocument_terminates :
    ∃ fuel object, ((fromBplist stingyHost nestedDocument fuel).run 0).value = .ok object := by
  have inside : nestedDocument.length < 2 ^ 32 := by decide +kernel
  have ends : Outcome (fromBplist generousHost nestedDocument 3) 0
      (.dict [(⟨ascii "a", by decide⟩, .array [.integer 7, .integer 7])]) _ := ⟨rfl, rfl⟩
  exact (decoder_terminates_iff nestedDocument inside).mpr (terminable_of_generous inside ends) stingyHost

/-- An array whose only element is the array itself. -/
theorem selfReference_endless :
    ¬ ∀ data : Bytes, data.length < 2 ^ 32 →
      ∀ host : Host, ∃ fuel object, ((fromBplist host data fuel).run 0).value = .ok object := by
  intro terminates
  have inside : (singleObject [0xA1, 0]).length < 2 ^ 32 := by decide +kernel
  obtain ⟨fuel, object, done⟩ := terminates (singleObject [0xA1, 0]) inside generousHost
  have terminable := terminable_of_generous inside ⟨done, rfl⟩
  have opened : Opened (singleObject [0xA1, 0]) := by
    refine ⟨by decide +kernel, ⟨by decide +kernel, by decide +kernel, by decide +kernel, by decide +kernel⟩, by decide +kernel,
      by decide +kernel⟩
  have marked : (documentOf (singleObject [0xA1, 0])).marker 0 = some (0xA1, 1, 9) := by decide +kernel
  have fits : (documentOf (singleObject [0xA1, 0])).Fits 1 1 9 := ⟨by decide +kernel, by decide⟩
  have found : (documentOf (singleObject [0xA1, 0])).elements 9 0 = some 0 := by decide +kernel
  have refers : (documentOf (singleObject [0xA1, 0])).Refers 0 0 :=
    .element marked (by decide) fits ⟨0, 0, le_rfl, by decide, passes_empty, found, rfl⟩
  have root : rootOf (singleObject [0xA1, 0]) = 0 := by decide +kernel
  exact (terminable.root opened).acyclic 0 (root ▸ .refl) (.single refers)

end File

end Apsdk.Plist
