import Apsdk.VideoStream

/-! The size a packet header states is not compared with the size of the buffer
before the payload read is posted. The reads and the decrypted ranges of a
session stay inside `buffer_` exactly when every header of the stream states a
payload that fits behind it. -/

namespace Apsdk.VideoStream
open Library

theorem ntohl_swapBytes32 (v : UInt32) : ntohl (swapBytes32 v) = v := by
  have bound : v.toNat < 256 ^ 4 := v.toNat_lt
  have swapped : swapBytes 4 v.toNat < 256 ^ 4 := by
    have small := leValue_lt (leBytes 4 v.toNat).reverse
    rwa [List.length_reverse, length_leBytes] at small
  have restored : swapBytes 4 (swapBytes 4 v.toNat) = v.toNat := beValue_reversed bound
  apply UInt32.toNat_inj.mp
  rw [ntohl, swapBytes32, swapBytes32, UInt32.toNat_ofNat_of_lt' swapped, restored, UInt32.toNat_ofNat_of_lt' bound]

/-- The payload size that a header states on the wire. -/
def statedSize (header : Bytes) : Nat := leValue (header.take 4)

theorem statedSize_lt (header : Bytes) : statedSize header < 2 ^ 32 := by
  have short : (header.take 4).length ≤ 4 := List.length_take_le ..
  calc statedSize header < 256 ^ (header.take 4).length := leValue_lt _
    _ ≤ 256 ^ 4 := Nat.pow_le_pow_right (by decide) short
    _ = 2 ^ 32 := by decide

/-- The headers at the packet boundaries of a stream. -/
def headers (stream : Bytes) : List Bytes :=
  if smsHeaderSize ≤ stream.length then
    stream.take smsHeaderSize :: headers (stream.drop (smsHeaderSize + statedSize stream))
  else []
termination_by stream.length
decreasing_by
  rw [List.length_drop]
  simp only [smsHeaderSize] at *
  omega

def Fits (header : Bytes) : Prop := smsHeaderSize + statedSize header ≤ SMS_BUFFER_SIZE

instance (header : Bytes) : Decidable (Fits header) := inferInstanceAs (Decidable (_ ≤ _))

def Event.bytes : Event → Bytes
  | .readSome bytes => bytes
  | .failed => []

/-- Everything the socket yields in a trace. -/
def arrived (trace : List Event) : Bytes := trace.flatMap Event.bytes

def Effect.range? : Effect → Option Range
  | .read range => some range
  | .decryptVideoFrame range => some range
  | .onVideoStreamData _ => none
  | .onVideoStreamCodec _ => none
  | .onVideoStreamHeartbeat => none

/-- The parts of the buffer that are read into or decrypted. -/
def ranges (effects : List Effect) : List Range := effects.filterMap Effect.range?

def Inside (effects : List Effect) : Prop := ∀ range ∈ ranges effects, range.Inside SMS_BUFFER_SIZE

@[simp] theorem inside_append (first second : List Effect) :
    Inside (first ++ second) ↔ Inside first ∧ Inside second := by
  simp only [Inside, ranges, List.filterMap_append, List.mem_append, or_imp, forall_and]

theorem headers_short {stream : Bytes} (short : stream.length < smsHeaderSize) : headers stream = [] := by
  rw [headers, if_neg (Nat.not_le.mpr short)]

theorem headers_packet {header : Bytes} (full : header.length = smsHeaderSize) (rest : Bytes) :
    headers (header ++ rest) = header :: headers (rest.drop (statedSize header)) := by
  have long : smsHeaderSize ≤ (header ++ rest).length := by rw [List.length_append]; omega
  have size : statedSize (header ++ rest) = statedSize header := by
    simp only [statedSize]
    rw [List.take_append_of_le_length (by rw [full]; decide)]
  rw [headers, if_pos long, size, List.take_append_of_le_length (Nat.le_of_eq full.symm),
    List.take_of_length_le (Nat.le_of_eq full), ← full, List.drop_length_add_append]

namespace Connection
variable {cipher : Cipher}

/-- The pending read belongs to a packet that fits. -/
structure Framed (conn : Connection cipher) : Prop where
  header : conn.phase = .header → conn.received.length < smsHeaderSize
  payload : conn.phase = .payload → conn.received.length ≤ conn.header.payloadSize.toNat ∧
    smsHeaderSize + conn.header.payloadSize.toNat ≤ SMS_BUFFER_SIZE

/-- The headers still to come, when the connection goes on with the given bytes. -/
def upcoming (conn : Connection cipher) (bytes : Bytes) : List Bytes :=
  match conn.phase with
  | .header => headers (conn.received ++ bytes)
  | .payload => headers ((conn.received ++ bytes).drop conn.header.payloadSize.toNat)
  | .failed => []
  | .overrun => []

theorem start_framed (crypto : cipher.State) (hasHandler : Bool) : Framed (start crypto hasHandler).1 :=
  ⟨fun _ => Nat.zero_lt_succ 127, fun reading => nomatch reading⟩

theorem upcoming_nil {conn : Connection cipher} (framed : Framed conn) : conn.upcoming [] = [] := by
  simp only [upcoming, List.append_nil]
  split
  next reading => exact headers_short (framed.header reading)
  next reading =>
    refine headers_short ?_
    have fits := (framed.payload reading).1
    rw [List.length_drop, Nat.sub_eq_zero_of_le fits]
    decide
  all_goals rfl

theorem loaded_size (bytes : Bytes) :
    (ntohl (swapBytes32 (PacketHeader.load bytes).payloadSize)).toNat = statedSize bytes := by
  rw [ntohl_swapBytes32]
  exact UInt32.toNat_ofNat_of_lt' (statedSize_lt bytes)

/-- What a step can do: keep to the buffer and go on, post a read that leaves it, or end with the connection. -/
inductive Progress (conn : Connection cipher) (bytes : Bytes) (next : Connection cipher) (effects : List Effect) :
    Prop where
  | inside (framed : Framed next) (safe : Inside effects)
      (same : ∀ later, (∀ header ∈ conn.upcoming (bytes ++ later), Fits header) ↔
        ∀ header ∈ next.upcoming later, Fits header)
  | outside (stopped : next.phase = .overrun) (leaves : ¬ Inside effects)
      (header : Bytes) (sent : header ∈ conn.upcoming bytes) (exceeds : ¬ Fits header)
  | failed (stopped : next.phase = .failed) (silent : effects = []) (empty : bytes = [])

theorem onPacketHeaderReceived_progress {conn : Connection cipher} (reading : conn.phase = .header) (bytes : Bytes)
    (full : (conn.received ++ bytes).length = smsHeaderSize) :
    Progress conn bytes (conn.onPacketHeaderReceived (conn.received ++ bytes)).1
      (conn.onPacketHeaderReceived (conn.received ++ bytes)).2 := by
  have size := loaded_size (conn.received ++ bytes)
  have ahead : ∀ later, conn.upcoming (bytes ++ later) =
      (conn.received ++ bytes) :: headers (later.drop (statedSize (conn.received ++ bytes))) := by
    intro later
    rw [← headers_packet full, List.append_assoc]
    simp only [upcoming, reading]
  by_cases fits : Fits (conn.received ++ bytes)
  · refine .inside ⟨?_, ?_⟩ ?_ ?_
    · simp [onPacketHeaderReceived, postReceivePacketPayload, Range.Inside, size, show _ ≤ _ from fits]
    · intro _
      refine ⟨Nat.zero_le _, ?_⟩
      simp only [onPacketHeaderReceived, postReceivePacketPayload, size]
      exact fits
    · simpa [Inside, ranges, onPacketHeaderReceived, postReceivePacketPayload, Effect.range?, Range.Inside, size]
        using show smsHeaderSize + statedSize (conn.received ++ bytes) ≤ SMS_BUFFER_SIZE from fits
    · intro later
      rw [ahead later, List.forall_mem_cons]
      simp [onPacketHeaderReceived, postReceivePacketPayload, upcoming, Range.Inside, size, fits, show _ ≤ _ from fits]
  · have exceeds : ¬ smsHeaderSize + statedSize (conn.received ++ bytes) ≤ SMS_BUFFER_SIZE := fits
    refine .outside ?_ ?_ (conn.received ++ bytes) ?_ fits
    · simp [onPacketHeaderReceived, postReceivePacketPayload, Range.Inside, size, exceeds]
    · simpa [Inside, ranges, onPacketHeaderReceived, postReceivePacketPayload, Effect.range?, Range.Inside, size]
        using exceeds
    · have first := ahead []
      rw [List.append_nil] at first
      rw [first]
      exact List.mem_cons_self ..

theorem processPacket_inside {conn : Connection cipher}
    (fits : smsHeaderSize + conn.header.payloadSize.toNat ≤ SMS_BUFFER_SIZE) (payload : Bytes) :
    Inside (conn.processPacket payload).2 := by
  simp only [processPacket, callback, Inside, ranges]
  split_ifs <;> simp [Effect.range?, Range.Inside, fits]

theorem onPacketPayloadReceived_progress {conn : Connection cipher} (reading : conn.phase = .payload)
    (framed : Framed conn) (bytes : Bytes)
    (full : (conn.received ++ bytes).length = conn.header.payloadSize.toNat) :
    Progress conn bytes (conn.onPacketPayloadReceived (conn.received ++ bytes)).1
      (conn.onPacketPayloadReceived (conn.received ++ bytes)).2 := by
  refine .inside ⟨fun _ => Nat.zero_lt_succ 127, fun other => nomatch other⟩ ?_ ?_
  · simp only [onPacketPayloadReceived, inside_append]
    refine ⟨processPacket_inside (framed.payload reading).2 _, ?_⟩
    simp [Inside, ranges, postReceivePacketHeader, Effect.range?, Range.Inside, smsHeaderSize, SMS_BUFFER_SIZE]
  · intro later
    have rest : conn.upcoming (bytes ++ later) = headers later := by
      simp only [upcoming, reading]
      rw [← List.append_assoc, ← full, List.drop_left]
    rw [rest]
    simp only [onPacketPayloadReceived, postReceivePacketHeader, upcoming, List.nil_append]

theorem partly_progress {conn : Connection cipher} (reading : conn.phase = .header ∨ conn.phase = .payload)
    (framed : Framed conn) (bytes : Bytes) (short : (conn.received ++ bytes).length < conn.wanted) :
    Progress conn bytes { conn with received := conn.received ++ bytes } [] := by
  refine .inside ⟨?_, ?_⟩ (fun range member => nomatch member) ?_
  · intro header
    simpa only [wanted, show conn.phase = .header from header] using short
  · intro payload
    refine ⟨?_, (framed.payload payload).2⟩
    simpa only [wanted, show conn.phase = .payload from payload] using Nat.le_of_lt short
  · intro later
    rcases reading with reading | reading <;> simp only [upcoming, reading, List.append_assoc]

/-- A step takes part of what is missing, completes the pending read, or fails. -/
theorem step_cases {conn next : Connection cipher} {event : Event} {effects : List Effect}
    (taken : step conn event = some (next, effects)) :
    ((conn.phase = .header ∨ conn.phase = .payload) ∧ (conn.received ++ event.bytes).length < conn.wanted ∧
      next = { conn with received := conn.received ++ event.bytes } ∧ effects = []) ∨
    (conn.phase = .header ∧ (conn.received ++ event.bytes).length = smsHeaderSize ∧
      (next, effects) = conn.onPacketHeaderReceived (conn.received ++ event.bytes)) ∨
    (conn.phase = .payload ∧ (conn.received ++ event.bytes).length = conn.header.payloadSize.toNat ∧
      (next, effects) = conn.onPacketPayloadReceived (conn.received ++ event.bytes)) ∨
    (event.bytes = [] ∧ next = { conn with phase := .failed } ∧ effects = []) := by
  cases event with
  | failed =>
    cases reading : conn.phase with
    | header | payload =>
      simp only [step, reading, Option.some.injEq, Prod.mk.injEq] at taken
      exact .inr (.inr (.inr ⟨rfl, taken.1.symm, taken.2.symm⟩))
    | failed | overrun => simp only [step, reading, reduceCtorEq] at taken
  | readSome bytes =>
    simp only [step] at taken
    split at taken
    next enabled =>
      have partly : (conn.received ++ bytes).length ≠ conn.wanted → (conn.received ++ bytes).length < conn.wanted :=
        Nat.lt_of_le_of_ne enabled.1
      cases reading : conn.phase with
      | header =>
        simp only [reading] at taken
        split at taken
        next full => exact .inr (.inl ⟨rfl, by simpa only [wanted, reading, Event.bytes] using full, (Option.some.inj taken).symm⟩)
        next short =>
          simp only [Option.some.injEq, Prod.mk.injEq] at taken
          exact .inl ⟨.inl rfl, partly short, by rw [← taken.1]; rfl, taken.2.symm⟩
      | payload =>
        simp only [reading] at taken
        split at taken
        next full =>
          exact .inr (.inr (.inl ⟨rfl, by simpa only [wanted, reading, Event.bytes] using full, (Option.some.inj taken).symm⟩))
        next short =>
          simp only [Option.some.injEq, Prod.mk.injEq] at taken
          exact .inl ⟨.inr rfl, partly short, by rw [← taken.1]; rfl, taken.2.symm⟩
      | failed | overrun => simp only [reading, reduceCtorEq] at taken
    next => cases taken

theorem step_progress {conn next : Connection cipher} {event : Event} {effects : List Effect} (framed : Framed conn)
    (taken : step conn event = some (next, effects)) : Progress conn event.bytes next effects := by
  rcases step_cases taken with ⟨reading, short, rfl, rfl⟩ | ⟨reading, full, result⟩ | ⟨reading, full, result⟩ |
    ⟨empty, rfl, rfl⟩
  · exact partly_progress reading framed event.bytes short
  · have progress := onPacketHeaderReceived_progress reading event.bytes full
    rwa [← result] at progress
  · have progress := onPacketPayloadReceived_progress reading framed event.bytes full
    rwa [← result] at progress
  · exact .failed rfl rfl empty

/-- Nothing is enabled any more in a phase that reads nothing. -/
theorem run_stopped {conn final : Connection cipher} {trace : List Event} {effects : List Effect}
    (stopped : conn.phase = .failed ∨ conn.phase = .overrun) (ran : Machine.run step conn trace = some (final, effects)) :
    trace = [] ∧ effects = [] := by
  cases trace with
  | nil => exact ⟨rfl, (by simpa using ran : conn = final ∧ [] = effects).2.symm⟩
  | cons event later =>
    obtain ⟨next, first, rest, taken, -, -⟩ := Machine.run_cons_eq_some.mp ran
    rcases stopped with stopped | stopped <;> cases event <;> simp [step, stopped] at taken

theorem run_inside_iff {conn final : Connection cipher} {trace : List Event} {effects : List Effect}
    (framed : Framed conn) (ran : Machine.run step conn trace = some (final, effects)) :
    Inside effects ↔ ∀ header ∈ conn.upcoming (arrived trace), Fits header := by
  induction trace generalizing conn effects with
  | nil =>
    obtain ⟨-, rfl⟩ : conn = final ∧ [] = effects := by simpa using ran
    simp only [arrived, List.flatMap_nil, upcoming_nil framed]
    exact ⟨fun _ _ member => (nomatch member), fun _ _ member => (nomatch member)⟩
  | cons event later ih =>
    obtain ⟨next, first, rest, taken, continued, rfl⟩ := Machine.run_cons_eq_some.mp ran
    simp only [arrived, List.flatMap_cons, inside_append]
    cases step_progress framed taken with
    | inside nextFramed safe same =>
      rw [same, ← arrived, ← ih nextFramed continued]
      exact ⟨And.right, And.intro safe⟩
    | outside stopped leaves header sent exceeds =>
      obtain ⟨rfl, rfl⟩ := run_stopped (.inr stopped) continued
      rw [List.flatMap_nil, List.append_nil]
      exact ⟨fun safe => absurd safe.1 leaves, fun fits => absurd (fits header sent) exceeds⟩
    | failed stopped silent empty =>
      obtain ⟨rfl, rfl⟩ := run_stopped (.inl stopped) continued
      rw [List.flatMap_nil, List.append_nil, silent, empty, upcoming_nil framed]
      exact ⟨fun _ _ member => (nomatch member),
        fun _ => ⟨fun _ member => (nomatch member), fun _ member => (nomatch member)⟩⟩

/-- Every range that a session reads into or decrypts lies in the buffer
exactly when every header of the stream states a payload that fits. -/
theorem session_inside_iff (crypto : cipher.State) (hasHandler : Bool) {final : Connection cipher}
    {trace : List Event} {effects : List Effect} (ran : session crypto hasHandler trace = some (final, effects)) :
    (∀ range ∈ ranges effects, range.Inside SMS_BUFFER_SIZE) ↔
      ∀ header ∈ headers (arrived trace), smsHeaderSize + statedSize header ≤ SMS_BUFFER_SIZE := by
  obtain ⟨⟨last, rest⟩, continued, same⟩ := Option.bind_eq_some_iff.mp ran
  obtain ⟨rfl, rfl⟩ : last = final ∧ (start crypto hasHandler).2 ++ rest = effects :=
    Prod.mk.inj (Option.some.inj same)
  have posted : Inside (start crypto hasHandler).2 := by
    simp [Inside, ranges, start, postReceivePacketHeader, Effect.range?, Range.Inside, smsHeaderSize, SMS_BUFFER_SIZE]
  have split := (inside_append (start crypto hasHandler).2 rest).trans (and_iff_right posted)
  exact split.trans (run_inside_iff (start_framed crypto hasHandler) continued)

/-- A cipher that leaves payloads as they are. -/
def plain : Cipher := ⟨Unit, fun state payload => (state, payload)⟩

def oversized : Bytes := List.replicate 4 255 ++ List.replicate 124 0

/-- A header that states 4294967295 bytes has a read of that many posted behind it. -/
theorem oversized_payload_posted :
    (@session plain () true [.readSome oversized]).map (fun result => ranges result.2) =
      some [⟨0, 128⟩, ⟨128, 4294967295⟩] ∧
    ¬ (⟨128, 4294967295⟩ : Range).Inside SMS_BUFFER_SIZE := by
  exact ⟨by decide +kernel, by decide⟩

/-- A heartbeat packet of five bytes, received in three parts. -/
def heartbeat : List Event :=
  [.readSome [5, 0, 0, 0, 5, 0], .readSome (List.replicate 122 0), .readSome [1, 2, 3, 4, 5]]

def heartbeatEffects : List Effect :=
  [.read ⟨0, 128⟩, .read ⟨128, 5⟩, .onVideoStreamHeartbeat, .read ⟨0, 128⟩]

theorem heartbeat_inside :
    (∃ final, @session plain () true heartbeat = some (final, heartbeatEffects)) ∧
    ∀ range ∈ ranges heartbeatEffects, range.Inside SMS_BUFFER_SIZE := by
  have effects : (@session plain () true heartbeat).map Prod.snd = some heartbeatEffects := by decide +kernel
  obtain ⟨⟨final, _⟩, ran, rfl⟩ := Option.map_eq_some_iff.mp effects
  refine ⟨⟨final, ran⟩, (@session_inside_iff plain () true _ _ _ ran).mpr ?_⟩
  have cut : headers (arrived heartbeat) = [[5, 0, 0, 0, 5, 0] ++ List.replicate 122 0] := by
    have full : ([5, 0, 0, 0, 5, 0] ++ List.replicate 122 0 : Bytes).length = smsHeaderSize := by
      rw [List.length_append, List.length_replicate]; rfl
    exact (headers_packet full [1, 2, 3, 4, 5]).trans (by rw [headers_short (by decide)])
  rw [cut]
  decide

end Connection
end Apsdk.VideoStream
