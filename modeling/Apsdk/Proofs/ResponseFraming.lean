import Apsdk.Proofs.Framing

/-! Responses on a reversed connection. The completion condition for a body still
consults the request that reversed the connection, and a response without a
body keeps the content of the one before, so that the framing depends on both. -/

namespace Apsdk
open Library

/-- What a blank parser makes of the head; it accepts nothing that `parse` does not get to the end of. -/
def Sent.parsedResponse (message : Sent) : Bool × Parser × Response :=
  (Parser.fresh.parseResponse (.new []) message.head).getD (false, .fresh, .new [])

/-- A head that the response parser accepts, and as many bytes as its
Content-Length, a `long` that is not negative, states. -/
structure Sent.ValidResponse (message : Sent) : Prop where
  headed : message.Headed
  accepted : message.parsedResponse.1 = true
  stated : message.parsedResponse.2.2.contentLength = message.body.length
  small : message.body.length < 2 ^ 63

theorem Sent.ValidResponse.scanned {message : Sent} (valid : message.ValidResponse) :
    message.head.length < 2 ^ 31 ∧ message.parsedResponse = Parser.fresh.scanResponse (.new []) message.head := by
  have parsed := Parser.getD_accepted valid.accepted
  have verdict : message.parsedResponse = (true, message.parsedResponse.2) := Prod.ext valid.accepted rfl
  exact ⟨Parser.parseResponse_accepted parsed, verdict.trans (Parser.parseResponse_some parsed)⟩

/-- The content with which `process_response` is called. -/
def Processed.responseContent : Processed → Option Bytes
  | .request _ => none
  | .response res => some res.content

namespace Connection
variable (reverses : Request → Bool)

/-- Responses sent one at a time: the reads of each are done before the next one arrives. -/
def exchange (conn : Connection) : List (List Bytes) → Option (Connection × List Processed)
  | [] => some (conn, [])
  | cuts :: later => do
    let (middle, first) ← Machine.run (step reverses) conn (cuts.map .bytes)
    if (step reverses middle (.bytes [])).isSome then none
    else
      let (final, rest) ← exchange middle later
      return (final, first ++ rest)

variable {reverses}

/-- A reversed connection between two responses; `stale` is the content of the last one with a body. -/
structure Reversed (conn : Connection) (stale : Bytes) : Prop where
  reversed : conn.isReversed = true
  pending : conn.pending = .head
  empty : conn.inStream = []
  ready : conn.parser.state = .tokenStart ∨ conn.parser.state = .tokenSchemeVersion
  content : conn.response.content = stale

theorem deliver_reversed {conn : Connection} (reversed : conn.isReversed = true) (short : conn.inStream.length < 2 ^ 31) :
    conn.deliver reverses =
      ({ conn with response := { conn.response with content := conn.inStream }, inStream := [], pending := .head },
        [.response { conn.response with content := conn.inStream }]) := by
  rw [deliver_of_lt short]
  simp only [assignContent, process, processResponse, postReceiveMessageHead, reversed, if_true]

theorem deliver_reversed_processed {conn : Connection} (reversed : conn.isReversed = true) :
    (conn.deliver reverses).2 = [.response { conn.response with content := conn.inStream }] := by
  rw [deliver_processed]
  simp only [assignContent, process, processResponse, reversed, if_true]

/-- What becomes of a response whose head is in the buffer, with part of its body behind it. -/
theorem headReceived_response {conn : Connection} {message : Sent} {left : Bytes} (reversed : conn.isReversed = true)
    (ready : conn.parser.state = .tokenStart ∨ conn.parser.state = .tokenSchemeVersion) (valid : message.ValidResponse)
    (short : message.body.length < 2 ^ 31) (buffered : conn.inStream = message.head ++ left) (le : left.length ≤ message.body.length) :
    ∃ res parser, (parser.state = .tokenStart ∨ parser.state = .tokenSchemeVersion) ∧
      res.content = conn.response.content ∧
      conn.headReceived reverses message.head.length =
        if message.body = [] then
          ({ conn with response := res, parser, inStream := left, pending := .head }, [.response res])
        else if left.length = message.body.length then
          ({ conn with response := { res with content := left }, parser, inStream := [], pending := .head },
            [.response { res with content := left }])
        else ({ conn with response := { res with content := [] }, parser, inStream := left, pending := .content }, []) := by
  obtain ⟨counted, scanned⟩ := valid.scanned
  obtain ⟨accepted, length, kept⟩ := Parser.scanResponse_fresh ready conn.response (scanned ▸ valid.accepted)
  have parserReady := Parser.scanResponse_ready conn.parser conn.response valid.headed.ends accepted
  rw [← scanned, valid.stated] at length
  have parsed := Parser.parseResponse_short counted conn.parser conn.response
  rcases outcome : conn.parser.scanResponse conn.response message.head with ⟨_, parser, res⟩
  simp only [outcome] at accepted parserReady length kept parsed
  subst accepted
  refine ⟨res, parser, parserReady, kept, ?_⟩
  have head : conn.inStream.take message.head.length = message.head := by rw [buffered, List.take_left]
  have rest : streambufConsume conn.inStream message.head.length = some left := by
    rw [streambufConsume_of_lt (lt_of_le_of_lt (min_le_left ..) counted), buffered, List.drop_left]
  have none_ : res.contentLength = 0 ↔ message.body = [] := by rw [length, List.length_eq_zero_iff]
  have wraps : sizeSub res.contentLength left.length = 0 ↔ left.length = message.body.length := by
    have small := valid.small
    rw [length, sizeSub_of_le (by omega) le]
    omega
  have nonempty : message.body ≠ [] → left.length = message.body.length → left ≠ [] := by
    rintro some_ same rfl
    exact some_ (List.length_eq_zero_iff.mp same.symm)
  have taken : conn.parseHead (conn.inStream.take message.head.length) = some (true, { conn with parser, response := res }) := by
    rw [head]
    simp only [parseHead, reversed, parsed, if_true, Option.bind_eq_bind, Option.bind_some, Option.pure_def]
  rw [headReceived_accepted taken rest]
  simp only [headAccepted, contentLength, reversed, if_true, none_, ne_eq, wraps]
  by_cases bodyless : message.body = []
  · simp only [if_pos bodyless, process, processResponse, postReceiveMessageHead, if_true]
  by_cases full : left.length = message.body.length
  · simp only [if_neg bodyless, full, not_true_eq_false, if_false, if_true, if_neg (nonempty bodyless full)]
    rw [deliver_reversed rfl (show left.length < 2 ^ 31 by omega)]
  · simp only [if_neg bodyless, full, not_false_eq_true, if_true, postReceiveMessageContent, if_false]

/-- The response is framed correctly: one without a body follows none with a
body; for one with a body the stale request states the same length, or no read
ends before the whole body is in the buffer. -/
def Timed (q : Nat) (stale : Bytes) (message : Sent) (cuts : List Bytes) : Prop :=
  if message.body = [] then stale = []
  else message.body.length = q ∨
    ∀ n, Mark cuts n → n < message.head.length ∨ n = message.head.length + message.body.length

/-- A body is being read to a length that is not its own. -/
structure Misled (q c : Nat) (conn : Connection) : Prop where
  reversed : conn.isReversed = true
  pending : conn.pending = .content
  length : conn.request.contentLength = q
  small : conn.inStream.length ≤ streambufMaxSize
  differs : c ≠ q
  bound : q < 2 ^ 64
  limit : c < 2 ^ 63

/-- How far a connection has got with one response. -/
inductive Reading (q : Nat) (stale : Bytes) (message : Sent) (cuts : List Bytes) (conn : Connection)
    (processed : List Processed) : Prop
  | head (reversed : conn.isReversed = true) (pending : conn.pending = .head)
      (length : conn.request.contentLength = q)
      (ready : conn.parser.state = .tokenStart ∨ conn.parser.state = .tokenSchemeVersion)
      (content : conn.response.content = stale) (read : cuts.flatten = conn.inStream)
      (small : conn.inStream.length ≤ streambufMaxSize) (silent : processed = [])
      (early : ∀ n, Mark cuts n → n < message.head.length ∨ n = cuts.flatten.length)
  | content (reversed : conn.isReversed = true) (pending : conn.pending = .content)
      (length : conn.request.contentLength = q)
      (ready : conn.parser.state = .tokenStart ∨ conn.parser.state = .tokenSchemeVersion)
      (read : cuts.flatten = message.head ++ conn.inStream) (short : conn.inStream.length < message.body.length)
      (silent : processed = []) (same : message.body.length = q)
  | done (answered : Reversed conn (if message.body = [] then stale else message.body))
      (length : conn.request.contentLength = q) (read : cuts.flatten = message.bytes)
      (delivered : processed.map Processed.responseContent = [some message.body]) (timed : Timed q stale message cuts)
  | misled (waiting : Misled q message.body.length conn) (silent : processed = []) (some_ : message.body ≠ [])
      (inside : ∃ n, Mark cuts n ∧ message.head.length ≤ n ∧ n < message.head.length + message.body.length)
  | wrong (other : Option Bytes) (rest : List (Option Bytes)) (differs : other ≠ some message.body)
      (delivered : processed.map Processed.responseContent = other :: rest)
      (untimed : ∀ later, ¬ Timed q stale message (cuts ++ later))
  | stopped (pending : conn.pending = .stopped) (unread : cuts.flatten.length < message.head.length)

variable {q : Nat} {stale : Bytes} {message : Sent} {cuts : List Bytes} {conn next : Connection}
  {processed new : List Processed} {chunk : Bytes}

theorem untimed_of_inside (some_ : message.body ≠ []) (differs : message.body.length ≠ q)
    (inside : ∃ n, Mark cuts n ∧ message.head.length ≤ n ∧ n < message.head.length + message.body.length)
    (later : List Bytes) : ¬ Timed q stale message (cuts ++ later) := by
  obtain ⟨n, ⟨reads, rest, rfl, rfl⟩, low, high⟩ := inside
  rw [Timed, if_neg some_]
  rintro (same | unmarked)
  · exact differs same
  · rcases unmarked _ ⟨reads, rest ++ later, by rw [List.append_assoc], rfl⟩ with before | behind <;> omega

/-- Whatever arrives, a body that is read to another length comes out wrong if it comes out at all. -/
theorem Misled.step {c : Nat} (misled : Misled q c conn)
    (taken : step reverses conn (.bytes chunk) = some (next, new)) :
    (Misled q c next ∧ new = []) ∨
      ∃ content : Bytes, content.length ≠ c ∧ new.map Processed.responseContent = [some content] := by
  obtain ⟨room, -, outcome⟩ := step_content misled.pending taken
  have within : chunk.length ≤ streambufMaxSize - conn.inStream.length := room.trans (Nat.min_le_right _ _)
  have small := misled.small
  have grown : (conn.inStream ++ chunk).length ≤ streambufMaxSize := by
    rw [List.length_append]
    omega
  rcases outcome with ⟨ended, result⟩ | ⟨-, rfl, rfl⟩
  · have handled := @deliver_reversed_processed reverses { conn with inStream := conn.inStream ++ chunk } misled.reversed
    rw [← result] at handled
    obtain rfl : new = _ := handled
    refine Or.inr ⟨conn.inStream ++ chunk, ?_, rfl⟩
    have differs := misled.differs
    have bound := misled.bound
    have limit := misled.limit
    simp only [bodyLimit, bodyCompletionCondition, misled.length, sizeSub, streambufMaxSize] at ended grown
    omega
  · exact Or.inl ⟨⟨misled.reversed, misled.pending, misled.length, grown, misled.differs, misled.bound, misled.limit⟩, rfl⟩

theorem reading_headReceived {left : Bytes} (valid : message.ValidResponse) (limited : message.body.length < 2 ^ 31)
    (reversed : conn.isReversed = true)
    (length : conn.request.contentLength = q) (bound : q < 2 ^ 64)
    (ready : conn.parser.state = .tokenStart ∨ conn.parser.state = .tokenSchemeVersion)
    (content : conn.response.content = stale) (buffered : conn.inStream = message.head ++ left)
    (read : cuts.flatten = conn.inStream) (small : conn.inStream.length ≤ streambufMaxSize)
    (early : ∀ n, Mark cuts n → n < message.head.length ∨ n = cuts.flatten.length)
    (arriving : cuts.flatten <+: message.bytes) :
    Reading q stale message cuts (conn.headReceived reverses message.head.length).1
      (conn.headReceived reverses message.head.length).2 := by
  have leftSmall : left.length ≤ streambufMaxSize := by
    rw [buffered, List.length_append] at small
    omega
  have begins : left <+: message.body := by
    rw [read, buffered, Sent.bytes, List.prefix_append_right_inj] at arriving
    exact arriving
  have current : cuts.flatten.length = message.head.length + left.length := by
    rw [read, buffered, List.length_append]
  obtain ⟨res, parser, parserReady, kept, result⟩ :=
    @headReceived_response reverses conn message left reversed ready valid limited buffered begins.length_le
  rw [result]
  split_ifs with bodyless full
  · obtain rfl : left = [] := List.prefix_nil.mp (bodyless ▸ begins)
    by_cases vacant : stale = []
    · refine .done ⟨reversed, rfl, rfl, parserReady, ?_⟩ length ?_ ?_ ?_
      · rw [if_pos bodyless]
        exact kept.trans content
      · rw [read, buffered, Sent.bytes, bodyless]
      · rw [bodyless, ← vacant, ← content, ← kept]
        rfl
      · rw [Timed, if_pos bodyless]
        exact vacant
    · refine .wrong (some stale) [] (by rw [bodyless]; simpa using vacant) ?_ fun later => ?_
      · rw [← content, ← kept]
        rfl
      · rw [Timed, if_pos bodyless]
        exact vacant
  · have whole : left = message.body := begins.eq_of_length full
    refine .done ⟨reversed, rfl, rfl, parserReady, ?_⟩ length ?_ (by rw [whole]; rfl) ?_
    · rw [if_neg bodyless]
      exact whole
    · rw [read, buffered, Sent.bytes, whole]
    · rw [Timed, if_neg bodyless]
      exact Or.inr fun n mark => (early n mark).imp_right fun last => by omega
  · have short : left.length < message.body.length := Nat.lt_of_le_of_ne begins.length_le full
    by_cases same : message.body.length = q
    · exact .content reversed rfl length parserReady (by rw [read, buffered]) short rfl same
    · exact .misled ⟨reversed, rfl, length, leftSmall, same, bound, valid.small⟩ rfl bodyless
        ⟨_, mark_end cuts, by omega, by omega⟩

theorem reading_head_step (valid : message.ValidResponse) (limited : message.body.length < 2 ^ 31) (bound : q < 2 ^ 64)
    (reversed : conn.isReversed = true)
    (pending : conn.pending = .head) (length : conn.request.contentLength = q)
    (ready : conn.parser.state = .tokenStart ∨ conn.parser.state = .tokenSchemeVersion)
    (content : conn.response.content = stale) (read : cuts.flatten = conn.inStream)
    (small : conn.inStream.length ≤ streambufMaxSize)
    (early : ∀ n, Mark cuts n → n < message.head.length ∨ n = cuts.flatten.length)
    (taken : step reverses conn (.bytes chunk) = some (next, new))
    (arriving : (cuts ++ [chunk]).flatten <+: message.bytes) :
    Reading q stale message (cuts ++ [chunk]) next new := by
  obtain ⟨asked, room, outcome⟩ := step_head pending taken
  have grown : (cuts ++ [chunk]).flatten = conn.inStream ++ chunk := by
    rw [List.flatten_append, read, List.flatten_singleton]
  have small' : (conn.inStream ++ chunk).length ≤ streambufMaxSize := by
    rw [List.length_append]
    omega
  have begins : conn.inStream ++ chunk <+: message.head ++ message.body := grown ▸ arriving
  have found := valid.headed.found begins
  have before := valid.headed.found ((List.prefix_append conn.inStream chunk).trans begins)
  have earlier : ∀ n, Mark (cuts ++ [chunk]) n → n < message.head.length ∨ n = (cuts ++ [chunk]).flatten.length := by
    intro n mark
    rcases (mark_append cuts chunk n).mp mark with old | rfl
    · rcases early n old with low | rfl
      · exact Or.inl low
      · by_cases long : message.head.length ≤ conn.inStream.length
        · rw [if_pos long] at before
          obtain rfl := asked (by rw [before]; rfl)
          exact Or.inr (by rw [grown, read, List.append_nil])
        · rw [read]
          exact Or.inl (Nat.lt_of_not_le long)
    · exact Or.inr rfl
  rcases outcome with ⟨n, complete, result⟩ | ⟨-, -, rfl, rfl⟩ | ⟨open_, -, rfl, rfl⟩
  · rw [complete] at found
    split_ifs at found with long
    obtain rfl := Option.some.inj found
    obtain ⟨left, buffered⟩ := List.prefix_of_prefix_length_le (List.prefix_append message.head _) begins long
    have tracked := @reading_headReceived reverses q stale message (cuts ++ [chunk])
      { conn with inStream := conn.inStream ++ chunk } left valid limited reversed length bound ready content buffered.symm
      grown small' earlier arriving
    rwa [← result] at tracked
  · exact .head reversed pending length ready content grown small' rfl earlier
  · refine .stopped rfl ?_
    rw [open_] at found
    split_ifs at found with long
    rw [grown]
    exact Nat.lt_of_not_le long

/-- Every read of a response keeps track of it. -/
theorem Reading.step (valid : message.ValidResponse) (limited : message.body.length < 2 ^ 31) (bound : q < 2 ^ 64)
    (reading : Reading q stale message cuts conn processed)
    (taken : step reverses conn (.bytes chunk) = some (next, new))
    (arriving : (cuts ++ [chunk]).flatten <+: message.bytes) :
    Reading q stale message (cuts ++ [chunk]) next (processed ++ new) := by
  have grown : (cuts ++ [chunk]).flatten = cuts.flatten ++ chunk := by
    rw [List.flatten_append, List.flatten_singleton]
  cases reading with
  | head reversed pending length ready content read small silent early =>
    rw [silent, List.nil_append]
    exact reading_head_step valid limited bound reversed pending length ready content read small early taken arriving
  | content reversed pending length ready read short silent same =>
    have limit : ∀ buffer : Bytes, buffer.length ≤ message.body.length →
        conn.bodyLimit false buffer = message.body.length - buffer.length := by
      intro buffer le
      simp only [bodyLimit, bodyCompletionCondition, length, ← same, streambufMaxSize]
      rw [sizeSub_of_le (same ▸ bound) le]
      omega
    obtain ⟨room, -, outcome⟩ := step_content pending taken
    rw [limit _ (Nat.le_of_lt short)] at room
    have within : (conn.inStream ++ chunk).length ≤ message.body.length := by
      rw [List.length_append]
      omega
    rw [limit _ within] at outcome
    rw [silent, List.nil_append]
    rcases outcome with ⟨ended, result⟩ | ⟨more, rfl, rfl⟩
    · have whole : conn.inStream ++ chunk = message.body := by
        have begins : conn.inStream ++ chunk <+: message.body := by
          rw [grown, read, List.append_assoc, Sent.bytes, List.prefix_append_right_inj] at arriving
          exact arriving
        exact begins.eq_of_length (by omega)
      have some_ : message.body ≠ [] := by
        rintro none_
        rw [none_] at short
        exact absurd short (Nat.not_lt_zero _)
      rw [@deliver_reversed reverses { conn with inStream := conn.inStream ++ chunk } reversed (by rwa [whole])] at result
      obtain ⟨rfl, rfl⟩ := Prod.mk.inj result
      refine .done ⟨reversed, rfl, rfl, ready, ?_⟩ length ?_ (by rw [whole]; rfl) ?_
      · rw [if_neg some_]
        exact whole
      · rw [grown, read, List.append_assoc, whole, Sent.bytes]
      · rw [Timed, if_neg some_]
        exact Or.inl same
    · exact .content reversed pending length ready (by rw [grown, read, List.append_assoc])
        (show (conn.inStream ++ chunk).length < message.body.length by omega) rfl same
  | done answered length read delivered timed =>
    -- Nothing more of the response is to come, and a read for a head asks for some bytes.
    obtain ⟨asked, -, outcome⟩ := step_head answered.pending taken
    have nothing : chunk = [] := by
      rw [grown, read] at arriving
      have := arriving.length_le
      rw [List.length_append] at this
      exact List.length_eq_zero_iff.mp (by omega)
    rw [answered.empty, nothing] at outcome
    rcases outcome with ⟨n, found, -⟩ | ⟨-, some_, -⟩ | ⟨-, full, -⟩
    · simp [endOfFirst, RNRN_LINE_BREAK] at found
    · exact absurd rfl some_
    · exact absurd full (by decide)
  | misled waiting silent some_ inside =>
    rw [silent, List.nil_append]
    have later : ∃ n, Mark (cuts ++ [chunk]) n ∧ message.head.length ≤ n ∧
        n < message.head.length + message.body.length := by
      obtain ⟨n, mark, low, high⟩ := inside
      exact ⟨n, (mark_append cuts chunk n).mpr (Or.inl mark), low, high⟩
    rcases waiting.step taken with ⟨still, rfl⟩ | ⟨content, differs, delivered⟩
    · exact .misled still rfl some_ later
    · exact .wrong (some content) [] (fun same => differs (congrArg List.length (Option.some.inj same))) delivered
        (untimed_of_inside some_ waiting.differs later)
  | wrong other rest differs delivered untimed =>
    refine .wrong other (rest ++ new.map Processed.responseContent) differs ?_ fun later => ?_
    · rw [List.map_append, delivered, List.cons_append]
    · rw [List.append_assoc]
      exact untimed _
  | stopped pending unread =>
    simp [Connection.step, pending] at taken

theorem run_reading (valid : message.ValidResponse) (limited : message.body.length < 2 ^ 31) (bound : q < 2 ^ 64)
    {final : Connection} {chunks : List Bytes}
    (reading : Reading q stale message cuts conn processed)
    (ran : Machine.run (Connection.step reverses) conn (chunks.map .bytes) = some (final, new))
    (arriving : (cuts ++ chunks).flatten <+: message.bytes) :
    Reading q stale message (cuts ++ chunks) final (processed ++ new) := by
  induction chunks generalizing conn cuts processed new with
  | nil =>
    obtain ⟨rfl, rfl⟩ : conn = final ∧ [] = new := by simpa using ran
    simpa only [List.append_nil] using reading
  | cons chunk rest ih =>
    obtain ⟨middle, first, later, taken, continued, rfl⟩ := Machine.run_cons_eq_some.mp ran
    rw [List.append_cons] at arriving ⊢
    have within : (cuts ++ [chunk]).flatten <+: message.bytes := by
      rw [List.flatten_append] at arriving
      exact (List.prefix_append _ _).trans arriving
    rw [← List.append_assoc]
    exact ih (reading.step valid limited bound taken within) continued arriving

/-- The content that is left in the response object behind a message. -/
def staleAfter (stale : Bytes) (message : Sent) : Bytes := if message.body = [] then stale else message.body

theorem response_outcome (valid : message.ValidResponse) (limited : message.body.length < 2 ^ 31) (bound : q < 2 ^ 64)
    (between : Reversed conn stale)
    (length : conn.request.contentLength = q) {final : Connection}
    (ran : Machine.run (Connection.step reverses) conn (cuts.map .bytes) = some (final, new))
    (whole : cuts.flatten = message.bytes) (idle : Connection.step reverses final (.bytes []) = none) :
    (Reversed final (staleAfter stale message) ∧ final.request.contentLength = q ∧
      new.map Processed.responseContent = [some message.body] ∧ Timed q stale message cuts) ∨
    (¬ Timed q stale message cuts ∧ ((Misled q message.body.length final ∧ new = []) ∨
      ∃ other rest, other ≠ some message.body ∧ new.map Processed.responseContent = other :: rest)) := by
  have begin_ : Reading q stale message [] conn [] := by
    refine .head between.reversed between.pending length between.ready between.content between.empty.symm
      (by rw [between.empty]; exact Nat.zero_le _) rfl ?_
    rintro n ⟨reads, rest, same, rfl⟩
    obtain ⟨rfl, rfl⟩ := List.append_eq_nil_iff.mp same.symm
    exact Or.inr rfl
  have reading := run_reading valid limited bound begin_ ran (by simp only [List.nil_append, whole, List.prefix_refl])
  simp only [List.nil_append] at reading
  cases reading with
  | head reversed pending length ready content read small silent early =>
    have found := valid.headed.found (List.prefix_refl (message.head ++ message.body))
    rw [if_pos (by rw [List.length_append]; omega), ← Sent.bytes, ← whole, read] at found
    exact absurd idle (step_head_found pending found)
  | content reversed pending length ready read short silent same =>
    rw [whole, Sent.bytes] at read
    rw [List.append_cancel_left read] at short
    exact absurd short (lt_irrefl _)
  | done answered length read delivered timed => exact Or.inl ⟨answered, length, delivered, timed⟩
  | misled waiting silent some_ inside =>
    have untimed := @untimed_of_inside q stale message cuts some_ waiting.differs inside []
    rw [List.append_nil] at untimed
    exact Or.inr ⟨untimed, Or.inl ⟨waiting, silent⟩⟩
  | wrong other rest differs delivered untimed =>
    have untimed := untimed []
    rw [List.append_nil] at untimed
    exact Or.inr ⟨untimed, Or.inr ⟨other, rest, differs, delivered⟩⟩
  | stopped pending unread =>
    rw [whole, Sent.bytes, List.length_append] at unread
    omega

theorem run_misled {c : Nat} (misled : Misled q c conn) {chunks : List Bytes} {final : Connection}
    (ran : Machine.run (Connection.step reverses) conn (chunks.map .bytes) = some (final, new)) :
    (Misled q c final ∧ new = []) ∨
      ∃ (content : Bytes) (rest : List (Option Bytes)), content.length ≠ c ∧
        new.map Processed.responseContent = some content :: rest := by
  induction chunks generalizing conn new with
  | nil =>
    obtain ⟨rfl, rfl⟩ : conn = final ∧ [] = new := by simpa using ran
    exact Or.inl ⟨misled, rfl⟩
  | cons chunk rest ih =>
    obtain ⟨middle, first, later, taken, continued, rfl⟩ := Machine.run_cons_eq_some.mp ran
    rcases misled.step taken with ⟨still, rfl⟩ | ⟨content, differs, delivered⟩
    · exact ih still continued
    · exact Or.inr ⟨content, later.map Processed.responseContent, differs, by rw [List.map_append, delivered]; rfl⟩

theorem exchange_cons {later : List (List Bytes)} {final : Connection}
    (ran : exchange reverses conn (cuts :: later) = some (final, new)) :
    ∃ middle first rest, Machine.run (Connection.step reverses) conn (cuts.map .bytes) = some (middle, first) ∧
      Connection.step reverses middle (.bytes []) = none ∧ exchange reverses middle later = some (final, rest) ∧
      new = first ++ rest := by
  obtain ⟨⟨middle, first⟩, read, continued⟩ := Option.bind_eq_some_iff.mp ran
  simp only at continued
  split_ifs at continued with idle
  obtain ⟨⟨last, rest⟩, exchanged, same⟩ := Option.bind_eq_some_iff.mp continued
  obtain ⟨rfl, rfl⟩ := Prod.mk.inj (Option.some.inj same)
  exact ⟨middle, first, rest, read, by simpa using idle, exchanged, rfl⟩

theorem exchange_misled {c : Nat} (misled : Misled q c conn) {later : List (List Bytes)} {final : Connection}
    (ran : exchange reverses conn later = some (final, new)) :
    new = [] ∨ ∃ (content : Bytes) (rest : List (Option Bytes)), content.length ≠ c ∧
      new.map Processed.responseContent = some content :: rest := by
  induction later generalizing conn new with
  | nil => exact Or.inl (Prod.mk.inj (Option.some.inj ran)).2.symm
  | cons cuts later ih =>
    obtain ⟨middle, first, rest, read, -, continued, rfl⟩ := exchange_cons ran
    rcases run_misled misled read with ⟨still, rfl⟩ | ⟨content, others, differs, delivered⟩
    · exact ih still continued
    · exact Or.inr ⟨content, others ++ rest.map Processed.responseContent, differs,
        by rw [List.map_append, delivered]; rfl⟩

def AllTimed (q : Nat) : Bytes → List (Sent × List Bytes) → Prop
  | _, [] => True
  | stale, (message, cuts) :: later => Timed q stale message cuts ∧ AllTimed q (staleAfter stale message) later

theorem exchange_framed_iff {exchanges : List (Sent × List Bytes)} (bound : q < 2 ^ 64) (between : Reversed conn stale)
    (length : conn.request.contentLength = q) (valid : ∀ pair ∈ exchanges, pair.1.ValidResponse)
    (short : ∀ pair ∈ exchanges, pair.1.body.length < 2 ^ 31)
    (whole : ∀ pair ∈ exchanges, pair.2.flatten = pair.1.bytes) {final : Connection}
    (ran : exchange reverses conn (exchanges.map Prod.snd) = some (final, new)) :
    new.map Processed.responseContent = exchanges.map (fun pair => some pair.1.body) ↔ AllTimed q stale exchanges := by
  induction exchanges generalizing conn stale new with
  | nil =>
    obtain rfl := (Prod.mk.inj (Option.some.inj ran)).2
    exact ⟨fun _ => trivial, fun _ => rfl⟩
  | cons pair later ih =>
    obtain ⟨message, cuts⟩ := pair
    obtain ⟨middle, first, rest, read, idle, continued, rfl⟩ := exchange_cons ran
    rw [List.forall_mem_cons] at valid short whole
    simp only [List.map_append, List.map_cons, AllTimed]
    rcases response_outcome valid.1 short.1 bound between length read whole.1 idle with
      ⟨next, kept, delivered, timed⟩ | ⟨untimed, failed⟩
    · rw [delivered, ← ih next kept valid.2 short.2 whole.2 continued]
      simp [timed]
    · refine ⟨fun same => absurd same ?_, fun timed => absurd timed.1 untimed⟩
      rcases failed with ⟨misled, rfl⟩ | ⟨other, others, differs, delivered⟩
      · rcases exchange_misled misled continued with rfl | ⟨content, others, differs, delivered⟩
        · simp
        · rw [delivered]
          intro same
          exact differs (congrArg List.length (Option.some.inj (List.cons.inj same).1))
      · rw [delivered]
        exact fun same => differs (List.cons.inj same).1

/-- A connection that has only received requests so far has an empty response. -/
structure Receiving (conn : Connection) : Prop where
  content : conn.response.content = []
  body : conn.pending = .content → conn.parser.state = .tokenStart ∧ conn.request.contentLength < 2 ^ 64
  switched : conn.isReversed = true → conn.inStream = [] →
    conn.pending = .head ∧ conn.parser.state = .tokenStart ∧ conn.request.contentLength < 2 ^ 64

theorem Receiving.stop (content : conn.response.content = []) (forward : conn.isReversed = false) : Receiving conn.stop :=
  ⟨content, fun reading => Pending.noConfusion reading, fun reversed => absurd (forward.symm.trans reversed) (by decide)⟩

theorem Receiving.undefined (content : conn.response.content = []) (forward : conn.isReversed = false) :
    Receiving conn.undefined :=
  ⟨content, fun reading => Pending.noConfusion reading, fun reversed => absurd (forward.symm.trans reversed) (by decide)⟩

theorem process_forward (reverses : Request → Bool) (forward : conn.isReversed = false) :
    (conn.process reverses).1 = { conn with isReversed := reverses conn.request, pending := .head } := by
  simp only [process, processRequest, postReceiveMessageHead, forward, Bool.false_eq_true, if_false,
    Bool.false_or]

theorem assignContent_forward (forward : conn.isReversed = false) :
    conn.assignContent = { conn with request := { conn.request with content := conn.inStream } } := by
  simp only [assignContent, forward, Bool.false_eq_true, if_false]

theorem Receiving.process (content : conn.response.content = []) (forward : conn.isReversed = false)
    (ready : conn.parser.state = .tokenStart) (length : conn.request.contentLength < 2 ^ 64) :
    Receiving (conn.process reverses).1 := by
  rw [process_forward reverses forward]
  exact ⟨content, fun reading => Pending.noConfusion reading, fun _ _ => ⟨rfl, ready, length⟩⟩

/-- Where the get pointer goes back, the buffer is not empty. -/
theorem Receiving.deliver (forward : conn.isReversed = false) (content : conn.response.content = [])
    (ready : conn.parser.state = .tokenStart) (length : conn.request.contentLength < 2 ^ 64) :
    Receiving (conn.deliver reverses).1 := by
  rcases deliver_cases reverses conn with ⟨left, result⟩ | ⟨some_, result⟩
  · rw [result, assignContent_forward forward]
    exact .process content forward ready length
  · rw [result, assignContent_forward forward]
    simp only [Connection.process, processRequest, postReceiveMessageHead, forward, Bool.false_eq_true, if_false]
    exact ⟨content, fun reading => Pending.noConfusion reading, fun _ empty => absurd empty some_⟩

theorem parseHead_forward (forward : conn.isReversed = false) {head : Bytes} {verdict : Bool} {other : Connection}
    (parsed : conn.parseHead head = some (verdict, other)) :
    ∃ parser req, other = { conn with parser, request := req } ∧ (verdict, parser, req) = conn.parser.scanRequest conn.request head := by
  simp only [parseHead, forward, Bool.false_eq_true, if_false, Option.bind_eq_bind] at parsed
  obtain ⟨⟨accepted, parser, req⟩, read, result⟩ := Option.bind_eq_some_iff.mp parsed
  obtain ⟨rfl, rfl⟩ := Prod.mk.inj (Option.some.inj result)
  exact ⟨parser, req, by rw [← forward], Parser.parseRequest_some read⟩

theorem Receiving.headAccepted (content : conn.response.content = []) (forward : conn.isReversed = false)
    (ready : conn.parser.state = .tokenStart) (length : conn.request.contentLength < 2 ^ 64) :
    Receiving (conn.headAccepted reverses).1 := by
  rw [Connection.headAccepted]
  split_ifs
  · exact .process content forward ready length
  · simp only [postReceiveMessageContent, forward, Bool.false_eq_true, if_false]
    exact ⟨content, fun _ => ⟨ready, length⟩, fun reversed => Bool.noConfusion reversed⟩
  · exact .process content forward ready length
  · exact .deliver forward content ready length

theorem receiving_headReceived (content : conn.response.content = []) (forward : conn.isReversed = false) {n : Nat}
    (ends : RNRN_LINE_BREAK <:+ conn.inStream.take n) : Receiving (conn.headReceived reverses n).1 := by
  rcases headReceived_cases reverses conn n with ⟨accepted, left, parsed, result⟩ | ⟨other, origin, result⟩
  · obtain ⟨parser, req, rfl, scanned⟩ := parseHead_forward forward parsed
    have ready := Parser.scanRequest_ready conn.parser conn.request ends
    have length := @Parser.scanRequest_length_lt conn.parser conn.request (conn.inStream.take n)
    rw [← scanned] at ready length
    rw [result]
    exact .headAccepted content forward (ready rfl) (length rfl)
  · have kept : other.response.content = [] ∧ other.isReversed = false := by
      rcases origin with rfl | ⟨verdict, parsed⟩
      · exact ⟨content, forward⟩
      · obtain ⟨parser, req, rfl, -⟩ := parseHead_forward forward parsed
        exact ⟨content, forward⟩
    rcases result with result | result <;> rw [result]
    · exact .stop kept.1 kept.2
    · exact .undefined kept.1 kept.2

theorem Receiving.step (receiving : Receiving conn) (forward : conn.isReversed = false) {event : Received}
    (taken : Connection.step reverses conn event = some (next, new)) : Receiving next := by
  obtain ⟨request, response, isReversed, inStream, parser, phase⟩ := conn
  obtain rfl : isReversed = false := forward
  have content := receiving.content
  have body := receiving.body
  cases phase with
  | stopped | undefined => cases taken
  | head =>
    simp only [Connection.step] at taken
    obtain ⟨state, -, result⟩ := Option.bind_eq_some_iff.mp taken
    cases state with
    | reading buffer =>
      obtain ⟨rfl, rfl⟩ := Prod.mk.inj (Option.some.inj result)
      exact ⟨content, fun reading => Pending.noConfusion reading, fun reversed => Bool.noConfusion reversed⟩
    | finished failed buffer =>
      obtain rfl := congrArg Prod.fst (Option.some.inj result)
      simp only [onMessageHeadReceived]
      split
      · exact .stop content rfl
      · split
        · exact .stop content rfl
        next found =>
          exact @receiving_headReceived reverses ⟨request, response, false, buffer, parser, .head⟩ content rfl _
            (endOfFirst_suffix found).2
  | content =>
    simp only [Connection.step] at taken
    obtain ⟨state, -, result⟩ := Option.bind_eq_some_iff.mp taken
    cases state with
    | reading buffer =>
      obtain ⟨rfl, rfl⟩ := Prod.mk.inj (Option.some.inj result)
      exact ⟨content, fun _ => body rfl, fun reversed => Bool.noConfusion reversed⟩
    | finished failed buffer =>
      obtain rfl := congrArg Prod.fst (Option.some.inj result)
      simp only [onMessageContentReceived]
      split
      · exact .stop content rfl
      · exact .deliver rfl content (body rfl).1 (body rfl).2

theorem process_isReversed (reversed : conn.isReversed = true) : (conn.process reverses).1.isReversed = true := by
  simp only [process, reversed, if_true, processResponse, postReceiveMessageHead]

theorem assignContent_isReversed (reversed : conn.isReversed = true) : conn.assignContent.isReversed = true := by
  simp only [assignContent, reversed, if_true]

theorem deliver_isReversed (reversed : conn.isReversed = true) : (conn.deliver reverses).1.isReversed = true := by
  rcases deliver_cases reverses conn with ⟨left, result⟩ | ⟨-, result⟩ <;> rw [result]
  · exact process_isReversed (assignContent_isReversed reversed)
  · exact process_isReversed (assignContent_isReversed reversed)

theorem parseHead_isReversed {head : Bytes} {verdict : Bool} {other : Connection}
    (parsed : conn.parseHead head = some (verdict, other)) : other.isReversed = conn.isReversed := by
  rw [parseHead] at parsed
  split_ifs at parsed
  · obtain ⟨_, -, result⟩ := Option.bind_eq_some_iff.mp parsed
    obtain ⟨-, rfl⟩ := Prod.mk.inj (Option.some.inj result)
    rfl
  · obtain ⟨_, -, result⟩ := Option.bind_eq_some_iff.mp parsed
    obtain ⟨-, rfl⟩ := Prod.mk.inj (Option.some.inj result)
    rfl

theorem headAccepted_isReversed (reversed : conn.isReversed = true) : (conn.headAccepted reverses).1.isReversed = true := by
  rw [headAccepted]
  split_ifs
  · exact process_isReversed reversed
  · simp only [postReceiveMessageContent, reversed, if_true]
  · exact process_isReversed reversed
  · exact deliver_isReversed reversed

theorem headReceived_isReversed (reversed : conn.isReversed = true) (n : Nat) :
    (conn.headReceived reverses n).1.isReversed = true := by
  rcases headReceived_cases reverses conn n with ⟨accepted, left, parsed, result⟩ | ⟨other, origin, result⟩
  · rw [result]
    exact headAccepted_isReversed ((parseHead_isReversed parsed).trans reversed)
  · have kept : other.isReversed = true := by
      rcases origin with rfl | ⟨verdict, parsed⟩
      · exact reversed
      · exact (parseHead_isReversed parsed).trans reversed
    rcases result with result | result <;> rw [result] <;> exact kept

/-- A reversed connection stays reversed. -/
theorem step_isReversed (reversed : conn.isReversed = true) {event : Received}
    (taken : Connection.step reverses conn event = some (next, new)) : next.isReversed = true := by
  obtain ⟨request, response, isReversed, inStream, parser, phase⟩ := conn
  obtain rfl : isReversed = true := reversed
  cases phase with
  | stopped | undefined => cases taken
  | head =>
    simp only [Connection.step] at taken
    obtain ⟨state, -, result⟩ := Option.bind_eq_some_iff.mp taken
    cases state with
    | reading buffer =>
      obtain ⟨rfl, -⟩ := Prod.mk.inj (Option.some.inj result)
      rfl
    | finished failed buffer =>
      obtain rfl := congrArg Prod.fst (Option.some.inj result)
      simp only [onMessageHeadReceived]
      split
      · rfl
      · split
        · rfl
        · exact headReceived_isReversed rfl _
  | content =>
    simp only [Connection.step] at taken
    obtain ⟨state, -, result⟩ := Option.bind_eq_some_iff.mp taken
    cases state with
    | reading buffer =>
      obtain ⟨rfl, -⟩ := Prod.mk.inj (Option.some.inj result)
      rfl
    | finished failed buffer =>
      obtain rfl := congrArg Prod.fst (Option.some.inj result)
      simp only [onMessageContentReceived]
      split
      · rfl
      · exact deliver_isReversed rfl

/-- What a connection is like when one of its requests has just reversed it, and nothing was sent behind that request. -/
theorem reversed_of_switch {request response : Nat} {before : List Received} {event : Received} {middle : Connection}
    {earlier : List Processed}
    (received : Machine.run (Connection.step reverses) (start request response) before = some (middle, earlier))
    (forward : middle.isReversed = false) (switched : Connection.step reverses middle event = some (conn, new))
    (reversed : conn.isReversed = true) (alone : conn.inStream = []) :
    Reversed conn [] ∧ conn.request.contentLength < 2 ^ 64 := by
  have begin_ : Receiving (start request response) :=
    ⟨rfl, fun reading => (nomatch reading), fun reversed => (nomatch reversed)⟩
  have keeps : ∀ state event next (outputs : List Processed), (state.isReversed = true ∨ Receiving state) →
      Connection.step reverses state event = some (next, outputs) → (next.isReversed = true ∨ Receiving next) := by
    intro state event next outputs holds taken
    cases forward : state.isReversed with
    | true => exact Or.inl (step_isReversed forward taken)
    | false => exact Or.inr ((holds.resolve_left (by simp [forward])).step forward taken)
  have receiving := (Machine.run_invariant keeps (Or.inr begin_) received).resolve_left (by simp [forward])
  have next := receiving.step forward switched
  obtain ⟨pending, ready, length⟩ := next.switched reversed alone
  exact ⟨⟨reversed, pending, alone, Or.inl ready, next.content⟩, length⟩

/-- A response without a body follows none with a body; one with a body is as
long as the request that reversed the connection states for its own, or the
read that completes its head brings the whole body. -/
def WellTimed (q : Nat) (exchanges : List (Sent × List Bytes)) : Prop :=
  ∀ before message cuts after, exchanges = before ++ (message, cuts) :: after →
    if message.body = [] then ∀ pair ∈ before, pair.1.body = []
    else message.body.length = q ∨
      ∀ n, Mark cuts n → n < message.head.length ∨ n = message.head.length + message.body.length

theorem foldl_staleAfter_eq_nil (stale : Bytes) (messages : List Sent) :
    messages.foldl staleAfter stale = [] ↔ stale = [] ∧ ∀ message ∈ messages, message.body = [] := by
  induction messages generalizing stale with
  | nil => simp
  | cons message later ih =>
    rw [List.foldl_cons, ih, List.forall_mem_cons, staleAfter]
    split_ifs with bodyless <;> simp [bodyless]

theorem allTimed_iff {exchanges : List (Sent × List Bytes)} :
    AllTimed q stale exchanges ↔ ∀ before message cuts after, exchanges = before ++ (message, cuts) :: after →
      Timed q ((before.map Prod.fst).foldl staleAfter stale) message cuts := by
  induction exchanges generalizing stale with
  | nil => simp [AllTimed]
  | cons pair later ih =>
    obtain ⟨message, cuts⟩ := pair
    rw [AllTimed, ih]
    constructor
    · rintro ⟨first, rest⟩ before other reads after split
      cases before with
      | nil =>
        obtain ⟨same, -⟩ := List.cons.inj split
        obtain ⟨rfl, rfl⟩ := Prod.mk.inj same
        exact first
      | cons pair before =>
        obtain ⟨rfl, following⟩ := List.cons.inj split
        exact rest before other reads after following
    · intro all
      refine ⟨all [] message cuts later rfl, fun before other reads after split => ?_⟩
      exact all ((message, cuts) :: before) other reads after (by rw [split]; rfl)

theorem wellTimed_iff {exchanges : List (Sent × List Bytes)} : AllTimed q [] exchanges ↔ WellTimed q exchanges := by
  rw [allTimed_iff]
  refine forall₅_congr fun before message cuts after _ => ?_
  rw [Timed, foldl_staleAfter_eq_nil]
  simp

/-- Once a request has reversed the connection, responses that are sent one at
a time are handed to `process_response` each once and with its own body, if
and only if they are well timed. -/
theorem responses_framed_iff {request response : Nat} {before : List Received} {event : Received} {middle : Connection}
    {earlier : List Processed}
    (received : Machine.run (Connection.step reverses) (start request response) before = some (middle, earlier))
    (forward : middle.isReversed = false) {last : List Processed}
    (switched : Connection.step reverses middle event = some (conn, last))
    (reversed : conn.isReversed = true) (alone : conn.inStream = []) {exchanges : List (Sent × List Bytes)}
    (valid : ∀ pair ∈ exchanges, pair.1.ValidResponse) (short : ∀ pair ∈ exchanges, pair.1.body.length < 2 ^ 31)
    (whole : ∀ pair ∈ exchanges, pair.2.flatten = pair.1.bytes) {final : Connection}
    (ran : exchange reverses conn (exchanges.map Prod.snd) = some (final, processed)) :
    processed.map Processed.responseContent = exchanges.map (fun pair => some pair.1.body) ↔
      WellTimed conn.request.contentLength exchanges := by
  obtain ⟨between, bound⟩ := reversed_of_switch received forward switched reversed alone
  exact (exchange_framed_iff bound between rfl valid short whole ran).trans wellTimed_iff

def reverseRequest : Bytes :=
  ascii "POST /reverse HTTP/1.1" ++ [13, 10] ++ ascii "Content-Length: 0" ++ RNRN_LINE_BREAK

/-- The connection behind the request for its reversal. -/
def switched : Connection := ((step (fun _ => true) (start 0 0) (.bytes reverseRequest)).map Prod.fst).getD (start 0 0)

theorem switched_eq : ∃ processed, step (fun _ => true) (start 0 0) (.bytes reverseRequest) = some (switched, processed) := by
  have some_ : (step (fun _ => true) (start 0 0) (.bytes reverseRequest)).isSome = true := by decide +kernel
  obtain ⟨⟨conn, processed⟩, taken⟩ := Option.isSome_iff_exists.mp some_
  exact ⟨processed, by simp only [switched, taken, Option.map_some, Option.getD_some]⟩

def answered : Sent :=
  ⟨ascii "HTTP/1.1 200 OK" ++ [13, 10] ++ ascii "Content-Length: 3" ++ RNRN_LINE_BREAK, ascii "abc"⟩

theorem answered_valid : answered.ValidResponse :=
  ⟨by decide +kernel, by decide +kernel, by decide +kernel, by decide +kernel⟩

/-- The body of a response arrives after its head: the response is processed
without it, since the request stated a length of zero. -/
theorem late_body_dropped :
    answered.ValidResponse ∧ switched.isReversed = true ∧ switched.inStream = [] ∧
    (exchange (fun _ => true) switched [[answered.head, [], answered.body]]).map
      (fun result => result.2.map Processed.responseContent) = some [some []] :=
  ⟨answered_valid, by decide +kernel, by decide +kernel, by decide +kernel⟩

/-- The same response in one read. -/
theorem prompt_body_delivered :
    ∃ final processed, exchange (fun _ => true) switched [[answered.bytes]] = some (final, processed) ∧
      processed.map Processed.responseContent = [some answered.body] := by
  have some_ : (exchange (fun _ => true) switched [[answered.bytes]]).isSome = true := by decide +kernel
  obtain ⟨⟨final, processed⟩, ran⟩ := Option.isSome_iff_exists.mp some_
  obtain ⟨last, taken⟩ := switched_eq
  have timed : WellTimed switched.request.contentLength [(answered, [answered.bytes])] := by
    rw [← wellTimed_iff, AllTimed, Timed, if_neg (by decide)]
    refine ⟨Or.inr ?_, trivial⟩
    rintro n ⟨reads, later, split, rfl⟩
    cases reads with
    | nil => exact Or.inl (by decide)
    | cons chunk rest =>
      obtain ⟨rfl, nothing⟩ := List.cons.inj split
      obtain ⟨rfl, -⟩ := List.append_eq_nil_iff.mp nothing.symm
      exact Or.inr (by decide)
  have received : Machine.run (step fun _ => true) (start 0 0) [] = some (start 0 0, []) := rfl
  have valid : ∀ pair ∈ [(answered, [answered.bytes])], pair.1.ValidResponse := by simp [answered_valid]
  have short : ∀ pair ∈ [(answered, [answered.bytes])], pair.1.body.length < 2 ^ 31 := by decide +kernel
  have whole : ∀ pair ∈ [(answered, [answered.bytes])], pair.2.flatten = pair.1.bytes := by simp
  exact ⟨final, processed, ran, (responses_framed_iff received rfl taken (by decide +kernel) (by decide +kernel)
    valid short whole ran).mpr timed⟩

end Connection
end Apsdk
