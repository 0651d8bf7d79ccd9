import Apsdk.Proofs.Framing

/-! Requests on a connection that is not reversed. A body is framed correctly when
some read ends inside it or at one of its ends; otherwise the bytes behind it
are in the buffer before its length is known, and the difference wraps. -/

namespace Apsdk
open Library

/-- What a blank parser makes of the head; it accepts nothing that `parse` does not get to the end of. -/
def Sent.parsedRequest (message : Sent) : Bool × Parser × Request :=
  (Parser.fresh.parseRequest (.new [] [] []) message.head).getD (false, .fresh, .new [] [] [])

/-- The request that a blank parser reads from the head, with the body as its content. -/
def Sent.request (message : Sent) : Request := { message.parsedRequest.2.2.wire with content := message.body }

/-- A head that the parser accepts, and as many bytes as its Content-Length states. -/
structure Sent.ValidRequest (message : Sent) : Prop where
  headed : message.Headed
  accepted : message.parsedRequest.1 = true
  stated : message.parsedRequest.2.2.contentLength = message.body.length

/-- The counter of `parse` has room for an accepted head, and plays no part in what is read from it. -/
theorem Sent.ValidRequest.scanned {message : Sent} (valid : message.ValidRequest) :
    message.head.length < 2 ^ 31 ∧ message.parsedRequest = Parser.fresh.scanRequest (.new [] [] []) message.head := by
  have parsed := Parser.getD_accepted valid.accepted
  have verdict : message.parsedRequest = (true, message.parsedRequest.2) := Prod.ext valid.accepted rfl
  exact ⟨Parser.parseRequest_accepted parsed, verdict.trans (Parser.parseRequest_some parsed)⟩

theorem Sent.ValidRequest.body_lt {message : Sent} (valid : message.ValidRequest) : message.body.length < 2 ^ 64 := by
  have accepted := valid.accepted
  rw [valid.scanned.2] at accepted
  have bound := (@Parser.scanRequest_fresh .fresh rfl (.new [] [] []) message.head accepted).2.2.1
  rwa [← valid.scanned.2, valid.stated] at bound

def Processed.wire : Processed → Processed
  | .request req => .request req.wire
  | .response res => .response res

namespace Connection

/-- Handlers that leave the connection as it is. -/
abbrev unreversed : Request → Bool := fun _ => false

theorem deliver_unreversed {conn : Connection} (forward : conn.isReversed = false) (short : conn.inStream.length < 2 ^ 31) :
    conn.deliver unreversed =
      ({ conn with request := { conn.request with content := conn.inStream }, inStream := [], pending := .head },
        [.request { conn.request with content := conn.inStream }]) := by
  rw [deliver_of_lt short]
  simp only [assignContent, process, processRequest, postReceiveMessageHead, forward, Bool.false_eq_true, if_false,
    Bool.or_false]

theorem deliver_unreversed_processed {conn : Connection} (forward : conn.isReversed = false) :
    (conn.deliver unreversed).2 = [.request { conn.request with content := conn.inStream }] := by
  rw [deliver_processed]
  simp only [assignContent, process, processRequest, forward, Bool.false_eq_true, if_false]

/-- What becomes of a request whose head is in the buffer, with `left` behind it. -/
theorem headReceived_request {conn : Connection} {message : Sent} {left : Bytes} (forward : conn.isReversed = false)
    (ready : conn.parser.state = .tokenStart) (valid : message.ValidRequest)
    (short : message.body.length < 2 ^ 31) (buffered : conn.inStream = message.head ++ left) (small : left.length < 2 ^ 64) :
    ∃ req parser, parser.state = .tokenStart ∧ req.contentLength = message.body.length ∧
      (∀ content, { req with content }.wire = { message.request with content }) ∧ req.content = [] ∧
      conn.headReceived unreversed message.head.length =
        if message.body = [] then
          ({ conn with request := req, parser, inStream := left, pending := .head }, [.request req])
        else if left.length = message.body.length then
          ({ conn with request := { req with content := left }, parser, inStream := [], pending := .head },
            [.request { req with content := left }])
        else ({ conn with request := { req with content := [] }, parser, inStream := left, pending := .content }, []) := by
  obtain ⟨counted, scanned⟩ := valid.scanned
  obtain ⟨accepted, same, bound, blank⟩ := Parser.scanRequest_fresh ready conn.request (scanned ▸ valid.accepted)
  rw [← scanned] at same blank
  have parserReady := Parser.scanRequest_ready conn.parser conn.request valid.headed.ends accepted
  have length : (conn.parser.scanRequest conn.request message.head).2.2.contentLength = message.body.length :=
    (congrArg (fun req : Request => req.contentLength) same).trans valid.stated
  have empty : (conn.parser.scanRequest conn.request message.head).2.2.content = [] :=
    (congrArg (fun req : Request => req.content) same).trans blank
  have wire : ∀ content, { (conn.parser.scanRequest conn.request message.head).2.2 with content }.wire =
      { message.request with content } := fun content =>
    congrArg (fun req : Request => { req with content }) same
  have parsed := Parser.parseRequest_short counted conn.parser conn.request
  rcases outcome : conn.parser.scanRequest conn.request message.head with ⟨_, parser, req⟩
  simp only [outcome] at accepted parserReady length empty wire parsed
  subst accepted
  refine ⟨req, parser, parserReady, length, wire, empty, ?_⟩
  have head : conn.inStream.take message.head.length = message.head := by rw [buffered, List.take_left]
  have rest : streambufConsume conn.inStream message.head.length = some left := by
    rw [streambufConsume_of_lt (lt_of_le_of_lt (min_le_left ..) counted), buffered, List.drop_left]
  have none_ : req.contentLength = 0 ↔ message.body = [] := by rw [length, List.length_eq_zero_iff]
  have wraps : sizeSub req.contentLength left.length = 0 ↔ left.length = message.body.length := by
    rw [length]
    rcases Nat.lt_or_ge message.body.length left.length with long | short
    · rw [sizeSub_of_lt long small]
      omega
    · rw [sizeSub_of_le valid.body_lt short]
      omega
  have nonempty : message.body ≠ [] → left.length = message.body.length → left ≠ [] := by
    rintro some_ same rfl
    exact some_ (List.length_eq_zero_iff.mp same.symm)
  have taken : conn.parseHead (conn.inStream.take message.head.length) = some (true, { conn with parser, request := req }) := by
    rw [head]
    simp only [parseHead, forward, parsed, Bool.false_eq_true, if_false, Option.bind_eq_bind, Option.bind_some,
      Option.pure_def]
  rw [headReceived_accepted taken rest]
  simp only [headAccepted, contentLength, forward, Bool.false_eq_true, if_false, none_, ne_eq, wraps]
  by_cases bodyless : message.body = []
  · simp only [if_pos bodyless, process, processRequest, postReceiveMessageHead, Bool.false_eq_true, if_false,
      Bool.or_false]
  by_cases full : left.length = message.body.length
  · simp only [if_neg bodyless, full, not_true_eq_false, if_false, if_true, if_neg (nonempty bodyless full)]
    rw [deliver_unreversed rfl (show left.length < 2 ^ 31 by omega)]
  · simp only [if_neg bodyless, full, not_false_eq_true, if_true, postReceiveMessageContent,
      Bool.false_eq_true, if_false]

/-- Some read ends inside the body of the message that follows `before`, or at one of its ends. -/
def Parted (cuts : List Bytes) (before : List Sent) (message : Sent) : Prop :=
  message.body ≠ [] → ∃ n, Mark cuts n ∧ (stream before ++ message.head).length ≤ n ∧
    n ≤ (stream before ++ message.head).length + message.body.length

theorem Parted.later {cuts : List Bytes} {before : List Sent} {message : Sent} (parted : Parted cuts before message)
    (chunk : Bytes) : Parted (cuts ++ [chunk]) before message := by
  intro some_
  obtain ⟨n, mark, low, high⟩ := parted some_
  exact ⟨n, (mark_append cuts chunk n).mpr (Or.inl mark), low, high⟩

def AllParted (cuts : List Bytes) (messages : List Sent) : Prop :=
  ∀ before message after, messages = before ++ message :: after → Parted cuts before message

theorem AllParted.later {cuts : List Bytes} {messages : List Sent} (parted : AllParted cuts messages)
    (chunk : Bytes) : AllParted (cuts ++ [chunk]) messages :=
  fun before message after split => (parted before message after split).later chunk

theorem AllParted.snoc {cuts : List Bytes} {done : List Sent} {message : Sent} (parted : AllParted cuts done)
    (last : Parted cuts done message) : AllParted cuts (done ++ [message]) := by
  intro before other after split
  rcases List.eq_nil_or_concat after with rfl | ⟨front, final, rfl⟩
  · obtain ⟨rfl, same⟩ := List.append_inj' split rfl
    obtain rfl : message = other := by simpa using same
    exact last
  · rw [List.concat_eq_append, ← List.cons_append, ← List.append_assoc] at split
    exact parted before other front (List.append_inj' split rfl).1

/-- The body of some message is not parted from what follows it, and the reads are beyond it. -/
structure Overrun (messages : List Sent) (cuts : List Bytes) (before : List Sent) (message : Sent) (after : List Sent) :
    Prop where
  split : messages = before ++ message :: after
  some_ : message.body ≠ []
  unmarked : ∀ n, Mark cuts n → ¬ ((stream before ++ message.head).length ≤ n ∧
    n ≤ (stream before ++ message.head).length + message.body.length)
  beyond : (stream before ++ message.head).length + message.body.length < cuts.flatten.length

theorem Overrun.later {messages : List Sent} {cuts : List Bytes} {before after : List Sent} {message : Sent}
    (overrun : Overrun messages cuts before message after) (chunk : Bytes) :
    Overrun messages (cuts ++ [chunk]) before message after := by
  have longer : cuts.flatten.length ≤ (cuts ++ [chunk]).flatten.length := by
    rw [List.flatten_append, List.length_append]
    exact Nat.le_add_right _ _
  have beyond := overrun.beyond
  refine ⟨overrun.split, overrun.some_, fun n mark inside => ?_, by omega⟩
  rcases (mark_append cuts chunk n).mp mark with earlier | rfl
  · exact overrun.unmarked n earlier inside
  · omega

/-- How far a connection has got with a stream of requests. -/
inductive Track (messages : List Sent) (cuts : List Bytes) (conn : Connection) (processed : List Processed) : Prop
  /-- All requests before the next head have been processed, and no read has ended in its body yet. -/
  | head (done rest : List Sent) (split : messages = done ++ rest) (pending : conn.pending = .head)
      (forward : conn.isReversed = false) (ready : conn.parser.state = .tokenStart)
      (read : cuts.flatten = stream done ++ conn.inStream) (small : conn.inStream.length ≤ streambufMaxSize)
      (delivered : processed.map Processed.wire = done.map fun message => .request message.request)
      (parted : AllParted cuts done)
      (early : ∀ message later, rest = message :: later → ∀ n, Mark cuts n →
        n < (stream done ++ message.head).length ∨ n = cuts.flatten.length)
  /-- The head of a request has been processed, and its body is being read. -/
  | content (done : List Sent) (message : Sent) (later : List Sent) (split : messages = done ++ message :: later)
      (pending : conn.pending = .content) (forward : conn.isReversed = false)
      (ready : conn.parser.state = .tokenStart) (length : conn.request.contentLength = message.body.length)
      (wire : ∀ content, { conn.request with content }.wire = { message.request with content })
      (read : cuts.flatten = stream done ++ message.head ++ conn.inStream)
      (short : conn.inStream.length < message.body.length)
      (delivered : processed.map Processed.wire = done.map fun message => .request message.request)
      (parted : AllParted cuts done) (last : Parted cuts done message)
  /-- The buffer holds more than the body that is being read. -/
  | stuck (done : List Sent) (message : Sent) (later : List Sent) (overrun : Overrun messages cuts done message later)
      (pending : conn.pending = .content) (forward : conn.isReversed = false)
      (length : conn.request.contentLength = message.body.length)
      (long : message.body.length < conn.inStream.length) (small : conn.inStream.length ≤ streambufMaxSize)
      (delivered : processed.map Processed.wire = done.map fun message => .request message.request)
  /-- A request has been processed with the wrong content. -/
  | wrong (done : List Sent) (message : Sent) (later : List Sent) (overrun : Overrun messages cuts done message later)
      (other : Processed) (first rest : List Processed) (delivered : processed.map Processed.wire = first ++ other :: rest)
      (place : first.length = done.length) (differs : other ≠ .request message.request)
  | stopped (pending : conn.pending = .stopped) (unread : cuts.flatten.length < (stream messages).length)

variable {messages : List Sent} {cuts : List Bytes} {conn next : Connection} {processed new : List Processed}

theorem track_headReceived {done later : List Sent} {message : Sent} {left : Bytes}
    (split : messages = done ++ message :: later) (valid : message.ValidRequest) (short : message.body.length < 2 ^ 31)
    (forward : conn.isReversed = false) (ready : conn.parser.state = .tokenStart)
    (buffered : conn.inStream = message.head ++ left) (read : cuts.flatten = stream done ++ conn.inStream)
    (small : conn.inStream.length ≤ streambufMaxSize)
    (delivered : processed.map Processed.wire = done.map fun message => .request message.request)
    (parted : AllParted cuts done)
    (early : ∀ n, Mark cuts n → n < (stream done ++ message.head).length ∨ n = cuts.flatten.length)
    (arriving : cuts.flatten <+: stream messages) :
    Track messages cuts (conn.headReceived unreversed message.head.length).1
      (processed ++ (conn.headReceived unreversed message.head.length).2) := by
  have leftSmall : left.length ≤ streambufMaxSize := by
    rw [buffered, List.length_append] at small
    omega
  have begins : left <+: message.body ++ stream later := by
    rw [read, buffered, split, stream_append, stream_cons, ← List.append_assoc, ← List.append_assoc,
      List.prefix_append_right_inj] at arriving
    exact arriving
  have current : cuts.flatten.length = (stream done ++ message.head).length + left.length := by
    rw [read, buffered, ← List.append_assoc, List.length_append]
  obtain ⟨req, parser, parserReady, length, wire, empty, result⟩ :=
    headReceived_request forward ready valid short buffered (Nat.lt_of_le_of_lt leftSmall (by decide))
  rw [result]
  have handled : ∀ content, content = message.body → (processed ++ [Processed.request { req with content }]).map Processed.wire =
      (done ++ [message]).map fun message => Processed.request message.request := by
    rintro _ rfl
    rw [List.map_append, delivered, List.map_append]
    exact congrArg (fun last => _ ++ [Processed.request last]) (wire message.body)
  split_ifs with bodyless full
  · refine .head (done ++ [message]) later (by rw [split, List.append_cons]) rfl forward parserReady ?_ leftSmall ?_
      (parted.snoc fun some_ => absurd bodyless some_) ?_
    · rw [read, buffered, stream_append, stream_cons, bodyless]
      simp
    · have same := handled req.content (by rw [empty, bodyless])
      exact same
    · rintro following rest rfl n mark
      refine (early n mark).imp_left fun before => ?_
      simp only [stream_append, stream_cons, List.length_append] at before ⊢
      omega
  · have whole : left = message.body :=
      (List.prefix_of_prefix_length_le begins (List.prefix_append _ _) (Nat.le_of_eq full)).eq_of_length full
    refine .head (done ++ [message]) later (by rw [split, List.append_cons]) rfl forward parserReady ?_ (Nat.zero_le _)
      (handled left whole) (parted.snoc fun _ => ⟨_, mark_end cuts, by omega, by omega⟩) ?_
    · rw [read, buffered, whole]
      simp
    · rintro following rest rfl n mark
      refine (early n mark).imp_left fun before => ?_
      simp only [stream_append, stream_cons, List.length_append] at before ⊢
      omega
  · rcases Nat.lt_or_gt_of_ne full with short | long
    · rw [List.append_nil]
      exact .content done message later split rfl forward parserReady length wire
        (by rw [read, buffered, List.append_assoc]) short delivered parted
        fun _ => ⟨_, mark_end cuts, by omega, by omega⟩
    · rw [List.append_nil]
      refine .stuck done message later ⟨split, bodyless, fun n mark inside => ?_, by omega⟩ rfl forward length long
        leftSmall delivered
      rcases early n mark with before | rfl <;> omega

theorem track_head_step (valid : ∀ message ∈ messages, message.ValidRequest)
    (short : ∀ message ∈ messages, message.body.length < 2 ^ 31) {chunk : Bytes} {done rest : List Sent}
    (split : messages = done ++ rest) (pending : conn.pending = .head)
    (forward : conn.isReversed = false) (ready : conn.parser.state = .tokenStart)
    (read : cuts.flatten = stream done ++ conn.inStream) (small : conn.inStream.length ≤ streambufMaxSize)
    (delivered : processed.map Processed.wire = done.map fun message => .request message.request)
    (parted : AllParted cuts done)
    (early : ∀ message later, rest = message :: later → ∀ n, Mark cuts n →
      n < (stream done ++ message.head).length ∨ n = cuts.flatten.length)
    (taken : step unreversed conn (.bytes chunk) = some (next, new))
    (arriving : (cuts ++ [chunk]).flatten <+: stream messages) :
    Track messages (cuts ++ [chunk]) next (processed ++ new) := by
  obtain ⟨asked, room, outcome⟩ := step_head pending taken
  have grown : (cuts ++ [chunk]).flatten = stream done ++ (conn.inStream ++ chunk) := by
    rw [List.flatten_append, read, List.flatten_singleton, List.append_assoc]
  have small' : (conn.inStream ++ chunk).length ≤ streambufMaxSize := by
    rw [List.length_append]
    omega
  have begins : conn.inStream ++ chunk <+: stream rest := by
    rw [grown, split, stream_append, List.prefix_append_right_inj] at arriving
    exact arriving
  cases rest with
  | nil =>
    -- Nothing is left to be read, and a read that asks for bytes yields some.
    have empty := List.prefix_nil.mp begins
    obtain ⟨none_, rfl⟩ := List.append_eq_nil_iff.mp empty
    rcases outcome with ⟨n, found, -⟩ | ⟨-, some_, -⟩ | ⟨-, full, -⟩
    · rw [empty] at found
      simp [endOfFirst, RNRN_LINE_BREAK] at found
    · exact absurd rfl some_
    · rw [empty] at full
      exact absurd full (by decide)
  | cons message later =>
    have member : message ∈ messages := by rw [split]; simp
    have sound := valid message member
    rw [stream_cons] at begins
    have found := sound.headed.found begins
    have before := sound.headed.found ((List.prefix_append conn.inStream chunk).trans begins)
    have lengths : (cuts ++ [chunk]).flatten.length = (stream done).length + (conn.inStream ++ chunk).length := by
      rw [grown, List.length_append]
    have earlier : ∀ n, Mark (cuts ++ [chunk]) n →
        n < (stream done ++ message.head).length ∨ n = (cuts ++ [chunk]).flatten.length := by
      intro n mark
      rcases (mark_append cuts chunk n).mp mark with old | rfl
      · rcases early message later rfl n old with low | rfl
        · exact Or.inl low
        -- The read before this one left the head open, or this one is empty.
        · by_cases long : message.head.length ≤ conn.inStream.length
          · rw [if_pos long] at before
            obtain rfl := asked (by rw [before]; rfl)
            exact Or.inr (by rw [grown, read, List.append_nil])
          · rw [read, List.length_append, List.length_append]
            exact Or.inl (by omega)
      · exact Or.inr rfl
    rcases outcome with ⟨n, complete, result⟩ | ⟨open_, -, rfl, rfl⟩ | ⟨open_, -, rfl, rfl⟩
    · rw [complete] at found
      split_ifs at found with long
      obtain rfl := Option.some.inj found
      obtain ⟨left, buffered⟩ := List.prefix_of_prefix_length_le (List.prefix_append message.head _) begins long
      have tracked := @track_headReceived _ _ { conn with inStream := conn.inStream ++ chunk } _ _ _ _ _ split sound
        (short message member) forward ready buffered.symm grown small' delivered (parted.later chunk) earlier arriving
      rwa [← result] at tracked
    · rw [List.append_nil]
      refine .head done (message :: later) split pending forward ready grown small' delivered (parted.later chunk) ?_
      rintro _ _ same
      obtain ⟨rfl, -⟩ := List.cons.inj same
      exact earlier
    · refine .stopped rfl ?_
      rw [open_] at found
      split_ifs at found with long
      rw [lengths, split, stream_append, stream_cons]
      simp only [List.length_append] at long ⊢
      omega

/-- Every read keeps track of the stream. -/
theorem Track.step (valid : ∀ message ∈ messages, message.ValidRequest)
    (limited : ∀ message ∈ messages, message.body.length < 2 ^ 31) {chunk : Bytes}
    (track : Track messages cuts conn processed) (taken : step unreversed conn (.bytes chunk) = some (next, new))
    (arriving : (cuts ++ [chunk]).flatten <+: stream messages) :
    Track messages (cuts ++ [chunk]) next (processed ++ new) := by
  have grown : (cuts ++ [chunk]).flatten = cuts.flatten ++ chunk := by
    rw [List.flatten_append, List.flatten_singleton]
  cases track with
  | head done rest split pending forward ready read small delivered parted early =>
    exact track_head_step valid limited split pending forward ready read small delivered parted early taken arriving
  | content done message later split pending forward ready length wire read short delivered parted last =>
    have bound : conn.request.contentLength < 2 ^ 64 := by
      rw [length]
      exact (valid message (by rw [split]; simp)).body_lt
    obtain ⟨room, -, outcome⟩ := step_content pending taken
    rw [bodyLimit_of_le bound (by omega)] at room
    have within : (conn.inStream ++ chunk).length ≤ conn.request.contentLength := by
      rw [List.length_append]
      omega
    rw [bodyLimit_of_le bound within] at outcome
    rcases outcome with ⟨ended, result⟩ | ⟨more, rfl, rfl⟩
    · have whole : conn.inStream ++ chunk = message.body := by
        have begins : conn.inStream ++ chunk <+: message.body ++ stream later := by
          rw [grown, read, split, stream_append, stream_cons, List.append_assoc, List.append_assoc,
            List.prefix_append_right_inj, List.prefix_append_right_inj] at arriving
          exact arriving
        exact (List.prefix_of_prefix_length_le begins (List.prefix_append _ _) (by omega)).eq_of_length (by omega)
      have body := limited message (by rw [split]; simp)
      rw [@deliver_unreversed { conn with inStream := conn.inStream ++ chunk } forward (by rwa [whole])] at result
      obtain ⟨rfl, rfl⟩ := Prod.mk.inj result
      refine .head (done ++ [message]) later (by rw [split, List.append_cons]) rfl forward ready ?_ (Nat.zero_le _) ?_
        ((parted.later chunk).snoc (last.later chunk)) ?_
      · rw [grown, read, List.append_assoc, whole]
        simp
      · rw [List.map_append, delivered, List.map_append]
        exact congrArg (fun request => _ ++ [Processed.request request]) ((wire _).trans (by rw [whole]; rfl))
      · rintro following rest rfl n mark
        have positive := (valid following (by rw [split]; simp)).headed.head_pos
        have bounded := mark.le
        rw [grown, read, List.append_assoc, whole] at bounded
        refine Or.inl ?_
        simp only [stream_append, stream_cons, stream_nil, List.length_append, List.length_nil] at bounded ⊢
        omega
    · rw [List.append_nil]
      exact .content done message later split pending forward ready length wire
        (by rw [grown, read, List.append_assoc _ conn.inStream])
        (show (conn.inStream ++ chunk).length < message.body.length by omega) delivered (parted.later chunk)
        (last.later chunk)
  | stuck done message later overrun pending forward length long small delivered =>
    obtain ⟨room, -, outcome⟩ := step_content pending taken
    rw [bodyLimit_of_lt (by omega) small] at room
    have longer : message.body.length < (conn.inStream ++ chunk).length := by
      rw [List.length_append]
      omega
    have small' : (conn.inStream ++ chunk).length ≤ streambufMaxSize := by
      rw [List.length_append]
      omega
    rcases outcome with ⟨-, result⟩ | ⟨-, rfl, rfl⟩
    · have handled := @deliver_unreversed_processed { conn with inStream := conn.inStream ++ chunk } forward
      rw [← result] at handled
      obtain rfl : new = _ := handled
      refine .wrong done message later (overrun.later chunk)
        (Processed.wire (.request { conn.request with content := conn.inStream ++ chunk })) (processed.map Processed.wire)
        [] (by rw [List.map_append]; rfl) (by rw [delivered, List.length_map]) ?_
      intro same
      have content := congrArg (fun req : Request => req.content.length) (Processed.request.inj same)
      simp only [Request.wire, Sent.request] at content
      omega
    · rw [List.append_nil]
      exact .stuck done message later (overrun.later chunk) pending forward length longer small' delivered
  | wrong done message later overrun other first rest delivered place differs =>
    refine .wrong done message later (overrun.later chunk) other first (rest ++ new.map Processed.wire) ?_ place differs
    rw [List.map_append, delivered]
    simp
  | stopped pending unread =>
    simp [Connection.step, pending] at taken

theorem track_start (request response : Nat) : Track messages [] (start request response) [] := by
  refine .head [] messages rfl rfl rfl rfl rfl (Nat.zero_le _) rfl ?_ ?_
  · intro before message after split
    simp at split
  · rintro message later - n ⟨reads, rest, same, rfl⟩
    obtain ⟨rfl, rfl⟩ := List.append_eq_nil_iff.mp same.symm
    exact Or.inr rfl

theorem run_track (valid : ∀ message ∈ messages, message.ValidRequest)
    (short : ∀ message ∈ messages, message.body.length < 2 ^ 31) {final : Connection} {chunks : List Bytes}
    (track : Track messages cuts conn processed)
    (ran : Machine.run (step unreversed) conn (chunks.map .bytes) = some (final, new))
    (arriving : (cuts ++ chunks).flatten <+: stream messages) :
    Track messages (cuts ++ chunks) final (processed ++ new) := by
  induction chunks generalizing conn cuts processed new with
  | nil =>
    obtain ⟨rfl, rfl⟩ : conn = final ∧ [] = new := by simpa using ran
    simpa only [List.append_nil] using track
  | cons chunk rest ih =>
    obtain ⟨middle, first, later, taken, continued, rfl⟩ := Machine.run_cons_eq_some.mp ran
    rw [List.append_cons] at arriving ⊢
    have within : (cuts ++ [chunk]).flatten <+: stream messages := by
      rw [List.flatten_append] at arriving
      exact (List.prefix_append _ _).trans arriving
    rw [← List.append_assoc]
    exact ih (track.step valid short taken within) continued arriving

/-- The requests of a stream are handed to `process_request` as they were sent,
each once and with its own body, if and only if between every body and what
follows it the reads do not run on. -/
theorem requests_framed_iff (request response : Nat) (valid : ∀ message ∈ messages, message.ValidRequest)
    (short : ∀ message ∈ messages, message.body.length < 2 ^ 31) {final : Connection} {cuts : List Bytes}
    (ran : Machine.run (step unreversed) (start request response) (cuts.map .bytes) = some (final, processed))
    (whole : cuts.flatten = stream messages)
    (idle : step unreversed final (.bytes []) = none) :
    processed.map Processed.wire = messages.map (fun message => .request message.request) ↔ AllParted cuts messages := by
  have track := @run_track _ [] _ [] _ valid short _ _ (track_start request response) ran
    (by simp only [List.nil_append, whole, List.prefix_refl])
  simp only [List.nil_append] at track
  have overrun_fails : ∀ {before message after}, Overrun messages cuts before message after → ¬ AllParted cuts messages := by
    intro before message after overrun parted
    obtain ⟨n, mark, inside⟩ := parted before message after overrun.split overrun.some_
    exact overrun.unmarked n mark inside
  cases track with
  | head done rest split pending forward ready read small delivered parted early =>
    have unread : final.inStream = stream rest := by
      rw [whole, split, stream_append] at read
      exact (List.append_cancel_left read).symm
    cases rest with
    | nil =>
      rw [List.append_nil] at split
      rw [split]
      exact ⟨fun _ => parted, fun _ => delivered⟩
    | cons message later =>
      have sound := valid message (by rw [split]; simp)
      have found := sound.headed.found (List.prefix_refl (message.head ++ (message.body ++ stream later)))
      rw [if_pos (by rw [List.length_append]; omega), ← stream_cons, ← unread] at found
      exact absurd idle (step_head_found pending found)
  | content done message later split pending forward ready length wire read short delivered parted last =>
    rw [whole, split, stream_append, stream_cons, List.append_assoc] at read
    have unread := congrArg List.length (List.append_cancel_left (List.append_cancel_left read))
    rw [List.length_append] at unread
    omega
  | stuck done message later overrun pending forward length long small delivered =>
    refine ⟨fun same => ?_, fun parted => absurd parted (overrun_fails overrun)⟩
    rw [delivered, overrun.split] at same
    have := congrArg List.length same
    simp at this
  | wrong done message later overrun other first rest delivered place differs =>
    refine ⟨fun same => ?_, fun parted => absurd parted (overrun_fails overrun)⟩
    rw [delivered, overrun.split, List.map_append, List.map_cons] at same
    obtain ⟨-, same⟩ := List.append_inj same (by rw [place, List.length_map])
    exact absurd (List.cons.inj same).1 differs
  | stopped pending unread =>
    rw [whole] at unread
    exact absurd unread (lt_irrefl _)

/-- A request with a body of three bytes, and one without. -/
def posted : Sent :=
  ⟨ascii "POST /a RTSP/1.0" ++ [13, 10] ++ ascii "Content-Length: 3" ++ RNRN_LINE_BREAK, ascii "abc"⟩

def asked : Sent := ⟨ascii "GET /b RTSP/1.0" ++ RNRN_LINE_BREAK, []⟩

theorem posted_valid : posted.ValidRequest := ⟨by decide +kernel, by decide +kernel, by decide +kernel⟩

theorem asked_valid : asked.ValidRequest := ⟨by decide +kernel, by decide +kernel, by decide +kernel⟩

theorem both_valid : ∀ message ∈ [posted, asked], message.ValidRequest := by
  simp [posted_valid, asked_valid]

theorem both_short : ∀ message ∈ [posted, asked], message.body.length < 2 ^ 31 := by decide +kernel

/-- Both requests in one read: neither is processed, and the connection waits for bytes without end. -/
theorem pipelined_requests_lost :
    (∀ message ∈ [posted, asked], message.ValidRequest) ∧
    ∃ final, Machine.run (step unreversed) (start 0 0) [.bytes (stream [posted, asked])] = some (final, []) ∧
      step unreversed final (.bytes []) = none := by
  refine ⟨both_valid, ?_⟩
  have outcome : (Machine.run (step unreversed) (start 0 0) [.bytes (stream [posted, asked])]).map
      (fun result => (result.2, (step unreversed result.1 (.bytes [])).isNone)) = some ([], true) := by decide +kernel
  obtain ⟨⟨final, _⟩, ran, same⟩ := Option.map_eq_some_iff.mp outcome
  obtain ⟨rfl, idle⟩ := Prod.mk.inj same
  exact ⟨final, ran, Option.isNone_iff_eq_none.mp idle⟩

def cutInside : List Bytes := [posted.head ++ ascii "a", ascii "bc", asked.head]

/-- The same requests, cut inside the first body and behind it. -/
theorem parted_requests_framed :
    ∃ final processed, Machine.run (step unreversed) (start 0 0) (cutInside.map .bytes) = some (final, processed) ∧
      processed.map Processed.wire = [posted, asked].map (fun message => .request message.request) := by
  have outcome : (Machine.run (step unreversed) (start 0 0) (cutInside.map .bytes)).map
      (fun result => (step unreversed result.1 (.bytes [])).isNone) = some true := by decide +kernel
  obtain ⟨⟨final, processed⟩, ran, idle⟩ := Option.map_eq_some_iff.mp outcome
  have parted : AllParted cutInside ([posted] ++ [asked]) := by
    have first : AllParted cutInside ([] ++ [posted]) := by
      refine AllParted.snoc (fun before message after split => by simp at split) fun _ => ?_
      exact ⟨_, ⟨[posted.head ++ ascii "a"], [ascii "bc", asked.head], rfl, rfl⟩, by decide +kernel, by decide +kernel⟩
    exact first.snoc fun some_ => absurd rfl some_
  exact ⟨final, processed, ran, (requests_framed_iff 0 0 both_valid both_short ran (by decide +kernel)
    (Option.isNone_iff_eq_none.mp idle)).mpr parted⟩

end Connection
end Apsdk
