import Apsdk.Exchange
import Apsdk.Proofs.Framing
import Apsdk.Proofs.ResponseCorrespondence
import Apsdk.Proofs.ResponseOrder
import Apsdk.Proofs.SerializedHead

/-! Conversations in which each request waits for the response to the one before. However the bytes
are cut on the way, the requests are handled as whole calls, each once and in order, and their
responses are what the client reads. -/

namespace Apsdk
open Library Airplay

namespace Ask

/-- The request as a message on the wire. -/
def message (ask : Ask) : Sent := ⟨ask.head.bytes, ask.body⟩

theorem headed (ask : Ask) : ask.message.Headed := ask.head.block

theorem body_lt (ask : Ask) : ask.body.length < 2 ^ 64 := lt_trans ask.bodyCounted (by decide)

theorem fits (ask : Ask) : ask.head.bytes.length ≤ streambufMaxSize :=
  Nat.le_of_lt (lt_trans ask.headCounted (by decide))

/-- The parser gets to the end of the head, whatever it has read before. -/
theorem parsed (ask : Ask) {p : Parser} (ready : p.state = .tokenStart) (req : Request) :
    ∃ q, q.state = .tokenStart ∧ p.parseRequest req ask.head.bytes = some (true, q, ask.head.parsed req) := by
  obtain ⟨q, again, scanned⟩ := Parser.scanRequest_bytes ready req ask.head
  exact ⟨q, again, scanned ▸ Parser.parseRequest_short ask.headCounted p req⟩

end Ask

section Reading

/-- Nothing of a request has been read. -/
structure Resting (conn : Connection) : Prop where
  pending : conn.pending = .head
  forward : conn.isReversed = false
  ready : conn.parser.state = .tokenStart
  empty : conn.inStream = []

/-- A request is on its way, of which `coming` has not been read. `request` is what was parsed before. -/
inductive Reading (ask : Ask) (request : Request) (coming : Bytes) (conn : Connection) : Prop
  | head (pending : conn.pending = .head) (forward : conn.isReversed = false) (ready : conn.parser.state = .tokenStart)
      (before : conn.request = request) (read : conn.inStream ++ coming = ask.bytes)
      (short : conn.inStream.length < ask.head.bytes.length)
  | content (pending : conn.pending = .content) (forward : conn.isReversed = false)
      (ready : conn.parser.state = .tokenStart) (parsed : conn.request = ask.head.parsed request)
      (read : conn.inStream ++ coming = ask.body) (short : conn.inStream.length < ask.body.length)

variable {reverses : Request → Bool} {conn next : Connection} {ask : Ask} {request : Request} {coming chunk : Bytes}
  {processed : List Processed}

theorem process_request (forward : conn.isReversed = false) (calm : reverses conn.request = false) :
    conn.process reverses = ({ conn with pending := .head }, [.request conn.request]) := by
  simp only [Connection.process, Connection.processRequest, Connection.postReceiveMessageHead, forward, calm,
    Bool.false_eq_true, if_false, Bool.or_false]

theorem deliver_request (forward : conn.isReversed = false) (short : conn.inStream.length < 2 ^ 31) :
    conn.deliver reverses =
      { conn with request := { conn.request with content := conn.inStream }, inStream := [] }.process reverses := by
  rw [Connection.deliver_of_lt short]
  simp only [Connection.assignContent, forward, Bool.false_eq_true, if_false]

/-- What becomes of a request whose head is in the buffer, with part of its body behind it. -/
theorem headReceived_ask {left : Bytes} (forward : conn.isReversed = false) (ready : conn.parser.state = .tokenStart)
    (buffered : conn.inStream = ask.head.bytes ++ left) (within : left.length ≤ ask.body.length)
    (calm : left.length = ask.body.length → reverses (requestOf ask.head conn.request left) = false) :
    ∃ parser, parser.state = .tokenStart ∧ conn.headReceived reverses ask.head.bytes.length =
      if left.length = ask.body.length then
        ({ conn with request := requestOf ask.head conn.request left, parser, inStream := [], pending := .head },
          [.request (requestOf ask.head conn.request left)])
      else ({ conn with request := ask.head.parsed conn.request, parser, inStream := left, pending := .content }, []) := by
  obtain ⟨parser, again, parsed⟩ := ask.parsed ready conn.request
  have head : conn.inStream.take ask.head.bytes.length = ask.head.bytes := by rw [buffered, List.take_left]
  have rest : streambufConsume conn.inStream ask.head.bytes.length = some left := by
    rw [Connection.streambufConsume_of_lt (lt_of_le_of_lt (min_le_left ..) ask.headCounted), buffered, List.drop_left]
  have accepted : conn.parseHead (conn.inStream.take ask.head.bytes.length) =
      some (true, { conn with parser, request := ask.head.parsed conn.request }) := by
    rw [head]
    simp only [Connection.parseHead, forward, parsed, Bool.false_eq_true, if_false, Option.bind_eq_bind, Option.bind_some,
      Option.pure_def]
  have length : (ask.head.parsed conn.request).contentLength = ask.body.length := ask.stated
  have missing := sizeSub_of_le ask.body_lt within
  refine ⟨parser, again, ?_⟩
  rw [Connection.headReceived_accepted accepted rest]
  simp only [Connection.headAccepted, Connection.contentLength, forward, Bool.false_eq_true, if_false, length, missing]
  by_cases bodyless : ask.body.length = 0
  · obtain rfl : left = [] := List.length_eq_zero_iff.mp (by omega)
    rw [if_pos bodyless, if_pos (show ([] : Bytes).length = _ from bodyless.symm)]
    exact process_request rfl (calm bodyless.symm)
  · by_cases full : left.length = ask.body.length
    · have filled : left ≠ [] := fun empty => bodyless (by rw [← full, empty, List.length_nil])
      have counted := ask.bodyCounted
      rw [if_neg bodyless, if_neg (by omega), if_neg filled, if_pos full,
        deliver_request rfl (show left.length < 2 ^ 31 by omega)]
      exact process_request rfl (calm full)
    · rw [if_neg bodyless, if_pos (by omega), if_neg full]
      simp only [Connection.postReceiveMessageContent, Bool.false_eq_true, if_false]
      rfl

/-- A read takes in a part of the request, or the last of it, and then the request is processed. -/
theorem Reading.step (reading : Reading ask request (chunk ++ coming) conn)
    (calm : reverses (requestOf ask.head request ask.body) = false)
    (taken : Connection.step reverses conn (.bytes chunk) = some (next, processed)) :
    chunk ≠ [] ∧ ((processed = [] ∧ Reading ask request coming next) ∨
      (coming = [] ∧ processed = [.request (requestOf ask.head request ask.body)] ∧ Resting next ∧
        next.request = requestOf ask.head request ask.body)) := by
  cases reading with
  | head pending forward ready before read short =>
    obtain ⟨-, -, outcome⟩ := Connection.step_head pending taken
    have begins : conn.inStream ++ chunk <+: ask.message.head ++ ask.message.body :=
      ⟨coming, by rw [List.append_assoc, read]; rfl⟩
    have found := ask.headed.found begins
    have some_ : chunk ≠ [] := by
      rintro rfl
      rcases outcome with ⟨n, complete, -⟩ | ⟨-, filled, -⟩ | ⟨-, full, -⟩
      · rw [complete] at found
        split_ifs at found with long
        rw [List.append_nil] at long
        exact absurd short (Nat.not_lt.mpr long)
      · exact filled rfl
      · have fits := ask.fits
        rw [List.append_nil] at full
        omega
    refine ⟨some_, ?_⟩
    -- The head is complete, or still open, or does not fit into the buffer, which its length excludes.
    rcases outcome with ⟨n, complete, result⟩ | ⟨open_, -, rfl, rfl⟩ | ⟨open_, full, -⟩
    · rw [complete] at found
      split_ifs at found with long
      obtain rfl : n = ask.head.bytes.length := Option.some.inj found
      obtain ⟨left, buffered⟩ := List.prefix_of_prefix_length_le (List.prefix_append ask.message.head _) begins long
      have whole : left ++ coming = ask.body := by
        have same : ask.head.bytes ++ (left ++ coming) = ask.head.bytes ++ ask.body := by
          rw [← List.append_assoc, show ask.head.bytes ++ left = conn.inStream ++ chunk from buffered, List.append_assoc, read]
          rfl
        exact List.append_cancel_left same
      have within : left.length ≤ ask.body.length := by
        rw [← whole, List.length_append]
        exact Nat.le_add_right _ _
      -- Behind the head the read has brought the whole body, or a part of it.
      by_cases full : left.length = ask.body.length
      · obtain rfl : coming = [] := by
          have lengths := congrArg List.length whole
          rw [List.length_append] at lengths
          exact List.length_eq_zero_iff.mp (by omega)
        rw [List.append_nil] at whole
        subst whole
        obtain ⟨parser, again, done⟩ := @headReceived_ask reverses { conn with inStream := conn.inStream ++ chunk } ask _ forward
          ready buffered.symm within (fun _ => by rw [before]; exact calm)
        rw [if_pos rfl] at done
        obtain ⟨rfl, rfl⟩ := Prod.mk.inj (result.trans done)
        exact .inr ⟨rfl, by rw [before], ⟨rfl, forward, again, rfl⟩, by rw [before]⟩
      · obtain ⟨parser, again, more⟩ := @headReceived_ask reverses { conn with inStream := conn.inStream ++ chunk } ask _ forward
          ready buffered.symm within (fun same => absurd same full)
        rw [if_neg full] at more
        obtain ⟨rfl, rfl⟩ := Prod.mk.inj (result.trans more)
        exact .inl ⟨rfl, .content rfl forward again (by rw [before]) whole (Nat.lt_of_le_of_ne within full)⟩
    · refine .inl ⟨rfl, .head pending forward ready before ?_ ?_⟩
      · rw [List.append_assoc, read]
      · rw [open_] at found
        split_ifs at found with long
        exact Nat.lt_of_not_le long
    · rw [open_] at found
      split_ifs at found with long
      have fits := ask.fits
      have less : (conn.inStream ++ chunk).length < ask.head.bytes.length := Nat.lt_of_not_le long
      omega
  | content pending forward ready parsed read short =>
    obtain ⟨-, asked, outcome⟩ := Connection.step_content pending taken
    have length : conn.request.contentLength = ask.body.length := by
      rw [parsed]
      exact ask.stated
    have bound : conn.request.contentLength < 2 ^ 64 := length ▸ ask.body_lt
    have lengths := congrArg List.length read
    simp only [List.length_append] at lengths
    have within : (conn.inStream ++ chunk).length ≤ conn.request.contentLength := by
      rw [List.length_append]
      omega
    rw [Connection.bodyLimit_of_le bound (by omega)] at asked
    rw [Connection.bodyLimit_of_le bound within, List.length_append] at outcome
    refine ⟨fun empty => absurd (asked empty) (by omega), ?_⟩
    rcases outcome with ⟨ended, result⟩ | ⟨more, rfl, rfl⟩
    · obtain rfl : coming = [] := List.length_eq_zero_iff.mp (by omega)
      rw [List.append_nil] at read
      have counted : (conn.inStream ++ chunk).length < 2 ^ 31 := read ▸ ask.bodyCounted
      rw [@deliver_request reverses { conn with inStream := conn.inStream ++ chunk } forward counted] at result
      have same : requestOf ask.head request ask.body = { conn.request with content := conn.inStream ++ chunk } := by
        rw [read, parsed]
        rfl
      rw [@process_request reverses { conn with request := { conn.request with content := conn.inStream ++ chunk }, inStream := [] }
        forward (same ▸ calm)] at result
      obtain ⟨rfl, rfl⟩ := Prod.mk.inj result
      exact .inr ⟨rfl, by rw [same], ⟨rfl, forward, ready, rfl⟩, same.symm⟩
    · refine .inl ⟨rfl, .content pending forward ready parsed ?_ ?_⟩
      · rw [List.append_assoc, read]
      · rw [List.length_append]
        omega

theorem Resting.step_nil (resting : Resting conn) : Connection.step reverses conn (.bytes []) = none := by
  have room : Connection.headLimit false conn.inStream ≠ 0 := by
    rw [resting.empty]
    decide
  simp [Connection.step, resting.pending, ReadLoop.round, room]

theorem round_byte {limit : ReadLimit} {buffer : Bytes} (room : limit false buffer ≠ 0) (byte : UInt8) :
    ∃ state, ReadLoop.round limit buffer (.bytes [byte]) = some state := by
  have allowed : ([byte] : Bytes).length ≤ limit false buffer ∧ ([byte] = [] → limit false buffer = 0) :=
    ⟨Nat.one_le_iff_ne_zero.mpr room, fun empty => absurd empty (List.cons_ne_nil _ _)⟩
  rw [ReadLoop.round, if_pos allowed]
  by_cases ended : [byte] = [] ∨ limit false (buffer ++ [byte]) = 0
  · exact ⟨_, if_pos ended⟩
  · exact ⟨_, if_neg ended⟩

/-- While something of a request is missing, the connection reads on. -/
theorem Reading.enabled {byte : UInt8} (reading : Reading ask request (byte :: coming) conn) :
    (Connection.step reverses conn (.bytes [byte])).isSome = true := by
  cases reading with
  | head pending forward ready before read short =>
    have begins : conn.inStream <+: ask.message.head ++ ask.message.body := ⟨byte :: coming, read⟩
    have open_ := ask.headed.found begins
    rw [if_neg (show ¬ ask.message.head.length ≤ conn.inStream.length from Nat.not_le.mpr short)] at open_
    have room : Connection.headLimit false conn.inStream ≠ 0 := by
      have fits := ask.fits
      simp only [Connection.headLimit, open_, Option.isSome_none, Bool.or_false, Bool.false_eq_true, if_false]
      omega
    obtain ⟨state, taken⟩ := round_byte room byte
    simp only [Connection.step, pending, taken, Option.bind_eq_bind, Option.bind_some]
    cases state with
    | reading buffer => rfl
    | finished failed buffer => rfl
  | content pending forward ready parsed read short =>
    have length : conn.request.contentLength = ask.body.length := by
      rw [parsed]
      exact ask.stated
    have room : conn.bodyLimit false conn.inStream ≠ 0 := by
      rw [Connection.bodyLimit_of_le (length ▸ ask.body_lt) (by omega)]
      omega
    obtain ⟨state, taken⟩ := round_byte room byte
    simp only [Connection.step, pending, taken, Option.bind_eq_bind, Option.bind_some]
    cases state with
    | reading buffer => rfl
    | finished failed buffer => rfl

end Reading

section Sending

/-- A response is on its way, of which the first part has arrived. -/
inductive Sending (data : Bytes) : Sender → Bytes → Prop
  | pending (transferred : Nat) (short : transferred < data.length) :
      Sending data ⟨data, [⟨data, transferred⟩]⟩ (data.take transferred)
  | done : Sending data .idle data

variable {data arrived sent : Bytes} {sender next : Sender}

theorem Sending.post (res : Response) : Sending res.serialize (Sender.idle.postSendResponse res) [] :=
  .pending 0 (List.length_pos_of_ne_nil (Sender.serialize_ne_nil res))

theorem idle_wrote (index count : Nat) : Sender.step .idle (.wroteSome index count) = none := rfl

/-- The socket takes at least one byte more. -/
theorem Sending.step (sending : Sending data sender arrived) {index count : Nat}
    (taken : Sender.step sender (.wroteSome index count) = some (next, sent)) :
    Sending data next (arrived ++ sent) ∧ sent ≠ [] := by
  cases sending with
  | done => cases taken
  | pending transferred short =>
    cases index with
    | succ index => simp [Sender.step] at taken
    | zero =>
      simp only [Sender.step, List.getElem?_cons_zero, Option.bind_eq_bind, Option.bind_some] at taken
      have piece : data.take transferred ++ (data.drop transferred).take count = data.take (transferred + count) :=
        List.take_add.symm
      split_ifs at taken with enabled finished
      · obtain ⟨rfl, rfl⟩ := Prod.mk.inj (Option.some.inj taken)
        have some_ : (data.drop transferred).take count ≠ [] := by
          rw [← List.length_pos_iff, List.length_take, List.length_drop]
          omega
        rw [piece, finished, List.take_length]
        refine ⟨?_, some_⟩
        have idle : Sender.complete ⟨data, [⟨data, transferred⟩]⟩ 0 data.length = .idle := by
          simp [Sender.complete, Sender.idle]
        rw [idle]
        exact .done
      · obtain ⟨rfl, rfl⟩ := Prod.mk.inj (Option.some.inj taken)
        have some_ : (data.drop transferred).take count ≠ [] := by
          rw [← List.length_pos_iff, List.length_take, List.length_drop]
          omega
        rw [piece]
        exact ⟨.pending _ (Nat.lt_of_le_of_ne enabled.2 finished), some_⟩

theorem Sending.enabled (sending : Sending data sender arrived) :
    (sender = .idle ∧ arrived = data) ∨ ∃ next sent, Sender.step sender (.wroteSome 0 1) = some (next, sent) := by
  cases sending with
  | done => exact .inl ⟨rfl, rfl⟩
  | pending transferred short =>
    refine .inr ?_
    have enabled : 0 < 1 ∧ transferred + 1 ≤ data.length := ⟨Nat.one_pos, short⟩
    simp only [Sender.step, List.getElem?_cons_zero, Option.bind_eq_bind, Option.bind_some, if_pos enabled]
    split_ifs
    · exact ⟨_, _, rfl⟩
    · exact ⟨_, _, rfl⟩

theorem Sending.sent_prefix (sending : Sending data sender arrived) : arrived <+: data := by
  cases sending with
  | done => exact List.prefix_refl _
  | pending transferred short => exact List.take_prefix _ _

/-- The response as the client has it, with its length and its type among the headers. -/
def Response.received (res : Response) : Response := { res with headers := res.toMessage.wireHeaders }

theorem readResponse_nil : readResponse [] = none := rfl

/-- Of the bytes behind the head, those that its length asks for. -/
theorem readResponse_of_found {arrived : Bytes} {n : Nat} {res : Response} {q : Parser} {accepted : Bool}
    (found : endOfFirst RNRN_LINE_BREAK arrived = some n)
    (parsed : Parser.fresh.parseResponse (.new []) (arrived.take n) = some (accepted, q, res)) :
    readResponse arrived =
      if accepted ∧ res.contentLength ≤ (arrived.drop n).length then
        some ({ res with content := (arrived.drop n).take res.contentLength }, (arrived.drop n).drop res.contentLength)
      else none := by
  simp only [readResponse, found, Option.bind_eq_bind, Option.bind_some, parsed]

/-- A response that may stand on the wire, is as long as it says, and can be read by a client. -/
structure Response.Readable (res : Response) : Prop where
  writable : res.Writable
  length : res.contentLength = res.content.length
  counted : res.Counted

theorem Response.Readable.parsed {res : Response} (readable : res.Readable) : res.ComesBack .fresh 0 := by
  have counted : res.serialize.length < 2 ^ 31 := readable.counted
  exact (readable.writable.comesBack_iff (p := .fresh) rfl 0).mpr (by omega)

/-- A response is read when it has arrived as a whole. -/
theorem readResponse_serialize {res : Response} (readable : res.Readable) :
    readResponse res.serialize = some (res.received, []) := by
  obtain ⟨n, q, found, content, parsed⟩ := readable.parsed
  have taken : res.content.take res.contentLength = res.content := by rw [readable.length, List.take_length]
  have left : res.content.drop res.contentLength = [] := by rw [readable.length, List.drop_length]
  rw [readResponse_of_found found parsed, content, if_pos ⟨rfl, Nat.le_of_eq readable.length⟩]
  simp only [taken, left]
  rfl

/-- Of a part of a response nothing is read. -/
theorem readResponse_part {res : Response} (readable : res.Readable) {arrived : Bytes} (part : arrived <+: res.serialize)
    (missing : arrived ≠ res.serialize) : readResponse arrived = none := by
  obtain ⟨n, q, found, content, parsed⟩ := readable.parsed
  cases shown : endOfFirst RNRN_LINE_BREAK arrived with
  | none =>
    simp only [readResponse, shown]
    rfl
  | some m =>
    obtain ⟨tail, whole⟩ := part
    have again := endOfFirst_append shown tail
    rw [whole, found] at again
    obtain rfl : n = m := Option.some.inj again
    have inside : n ≤ arrived.length := (endOfFirst_suffix shown).1
    have same : arrived.take n = res.serialize.take n := by rw [← whole, List.take_append_of_le_length inside]
    have some_ : tail ≠ [] := fun empty => missing (by rw [← whole, empty, List.append_nil])
    have shorter : (arrived.drop n).length < res.contentLength := by
      have lengths := congrArg List.length content
      have positive := List.length_pos_of_ne_nil some_
      rw [← whole, List.length_drop, List.length_append] at lengths
      rw [List.length_drop, readable.length]
      omega
    rw [readResponse_of_found shown (same ▸ parsed), if_neg (fun both => absurd both.2 (Nat.not_le.mpr shorter))]

end Sending

section Progress
variable {State Input : Type} {server : Server State Input} {asks done : List Ask} {first between : Between State}
  {posts answers : List Response}

/-- Requests that are handled as whole calls, and their responses. -/
def Server.Handled (server : Server State Input) (first : Between State) (done : List Ask) (between : Between State)
    (posts : List Response) : Prop :=
  ∃ inputs : List Input, inputs.length = done.length ∧ Machine.run server.call first (done.zip inputs) = some (between, posts)

/-- No request reverses the connection, and each that is handled is answered by a response that may stand on the wire. -/
structure Server.Prompt (server : Server State Input) (asks : List Ask) : Prop where
  forward : ∀ ask ∈ asks, ∀ request, server.reverses (requestOf ask.head request ask.body) = false
  answers : ∀ ask ∈ asks, ∀ request input world next posted,
    server.respond input (requestOf ask.head request ask.body) world = some (next, posted) →
      ∃ res, posted = some res ∧ res.Readable

theorem handled_nil : server.Handled first [] first [] := ⟨[], rfl, rfl⟩

/-- A request whose handler returns, as a whole call. -/
theorem Server.call_of_respond {ask : Ask} {input : Input} {world : State} {posted : Option Response}
    (called : server.respond input (requestOf ask.head between.request ask.body) between.world = some (world, posted)) :
    server.call between (ask, input) = some (⟨requestOf ask.head between.request ask.body, world⟩, posted.toList) := by
  obtain ⟨q, -, parsed⟩ := ask.parsed (p := .fresh) rfl between.request
  rw [requestOf] at called ⊢
  simp only [Server.call, parsed, called, Option.bind_eq_bind, Option.bind_some]
  rfl

theorem Server.respond_of_call {ask : Ask} {input : Input} {next : Between State}
    (taken : server.call between (ask, input) = some (next, posts)) :
    ∃ posted, server.respond input (requestOf ask.head between.request ask.body) between.world = some (next.world, posted) ∧
      next.request = requestOf ask.head between.request ask.body ∧ posts = posted.toList := by
  obtain ⟨q, -, parsed⟩ := ask.parsed (p := .fresh) rfl between.request
  simp only [Server.call, parsed, Option.bind_eq_bind, Option.bind_some] at taken
  obtain ⟨⟨world, posted⟩, called, taken⟩ := Option.bind_eq_some_iff.mp taken
  obtain ⟨rfl, rfl⟩ := Prod.mk.inj (Option.some.inj taken)
  exact ⟨posted, called, rfl, rfl⟩

theorem Server.Handled.call (handled : server.Handled first done between posts) {ask : Ask} {input : Input} {world : State}
    {posted : Option Response}
    (taken : server.respond input (requestOf ask.head between.request ask.body) between.world = some (world, posted)) :
    server.Handled first (done ++ [ask]) ⟨requestOf ask.head between.request ask.body, world⟩ (posts ++ posted.toList) := by
  obtain ⟨inputs, length, ran⟩ := handled
  refine ⟨inputs ++ [input], by simp [length], ?_⟩
  rw [List.zip_append length.symm]
  exact Machine.run_concat_eq_some.mpr ⟨between, posts, posted.toList, ran, Server.call_of_respond taken, rfl⟩

/-- The bytes that have been exchanged, and two steps of the client for each request. -/
def cost (done : List Ask) (posts : List Response) : Nat :=
  (done.map fun ask => ask.bytes.length + 1).sum + (posts.map fun res => res.serialize.length + 1).sum

theorem cost_ask (done : List Ask) (ask : Ask) (posts : List Response) :
    cost (done ++ [ask]) posts = cost done posts + (ask.bytes.length + 1) := by
  simp only [cost, List.map_append, List.sum_append, List.map_cons, List.map_nil, List.sum_cons, List.sum_nil]
  omega

theorem cost_post (done : List Ask) (res : Response) (posts : List Response) :
    cost done (posts ++ [res]) = cost done posts + (res.serialize.length + 1) := by
  simp only [cost, List.map_append, List.sum_append, List.map_cons, List.map_nil, List.sum_cons, List.sum_nil]
  omega

/-- How far a conversation has got after `spent` events, when the requests `done` have been handled with the responses
`posts`, and `request` is what was parsed last. -/
inductive Stage (asks : List Ask) (spent : Nat) (done : List Ask) (posts : List Response) (request : Request)
    (state : Exchange State) (answers : List Response) : Prop
  /-- Every response has been read. -/
  | quiet (split : asks = done ++ state.unsent) (parsed : state.conn.request = request) (free : state.awaiting = false)
      (conn : Resting state.conn) (unread : state.requestBytes = []) (sender : state.sender = .idle)
      (heard : state.responseBytes = []) (read : answers = posts.map Response.received) (bound : spent ≤ cost done posts)
  /-- A request is on its way to the connection. -/
  | asking (ask : Ask) (split : asks = done ++ ask :: state.unsent) (busy : state.awaiting = true)
      (conn : Reading ask request state.requestBytes state.conn) (sender : state.sender = .idle)
      (heard : state.responseBytes = []) (read : answers = posts.map Response.received)
      (bound : spent + state.requestBytes.length ≤ cost (done ++ [ask]) posts)
  /-- A response is on its way to the client. -/
  | answering (before : List Response) (res : Response) (latest : posts = before ++ [res])
      (split : asks = done ++ state.unsent) (parsed : state.conn.request = request) (busy : state.awaiting = true)
      (conn : Resting state.conn) (unread : state.requestBytes = [])
      (sending : Sending res.serialize state.sender state.responseBytes) (readable : res.Readable)
      (read : answers = before.map Response.received)
      (bound : spent ≤ cost done before + state.responseBytes.length)

variable {spent : Nat} {state next : Exchange State} {outputs : List Response} {request : Request}

/-- Nothing of it is about the state of the handlers. -/
theorem Stage.elsewhere (stage : Stage asks spent done posts request state answers) (world : State) :
    Stage asks spent done posts request { state with world } answers := by
  cases stage with
  | quiet split parsed free conn unread sender heard read bound =>
    exact .quiet split parsed free conn unread sender heard read bound
  | asking ask split busy conn sender heard read bound => exact .asking ask split busy conn sender heard read bound
  | answering before res latest split parsed busy conn unread sending readable read bound =>
    exact .answering before res latest split parsed busy conn unread sending readable read bound

theorem Stage.send (stage : Stage asks spent done posts request state answers)
    (taken : server.exchange state .send = some (next, outputs)) :
    next.world = state.world ∧ Stage asks (spent + 1) done posts request next (answers ++ outputs) := by
  simp only [Server.exchange] at taken
  split at taken
  next ask later free unsent =>
    obtain ⟨rfl, rfl⟩ := Prod.mk.inj (Option.some.inj taken)
    rw [List.append_nil]
    cases stage with
    | quiet split parsed free conn unread sender heard read bound =>
      refine ⟨rfl, .asking ask ?_ rfl ?_ sender heard read ?_⟩
      · rw [split, unsent]
      · refine .head conn.pending conn.forward conn.ready parsed ?_ ?_
        · rw [conn.empty, unread]
          rfl
        · rw [conn.empty]
          exact ask.headed.head_pos
      · rw [cost_ask]
        simp only [unread, List.nil_append]
        omega
    | asking ask split busy => exact absurd (free.symm.trans busy) (by decide)
    | answering before res latest split parsed busy => exact absurd (free.symm.trans busy) (by decide)
  next => cases taken

/-- A read goes on with a request, or completes it, which is then handled as a whole. -/
theorem Stage.received (prompt : server.Prompt asks) (stage : Stage asks spent done posts request state answers) {count : Nat}
    {input : Input} (taken : server.exchange state (.received count input) = some (next, outputs)) :
    (next.world = state.world ∧ Stage asks (spent + 1) done posts request next (answers ++ outputs)) ∨
      ∃ ask res, server.respond input (requestOf ask.head request ask.body) state.world = some (next.world, some res) ∧
        Stage asks (spent + 1) (done ++ [ask]) (posts ++ [res]) (requestOf ask.head request ask.body) next
          (answers ++ outputs) := by
  simp only [Server.exchange] at taken
  obtain ⟨⟨conn', processed⟩, stepped, taken⟩ := Option.bind_eq_some_iff.mp taken
  obtain ⟨⟨world, posted⟩, responded, taken⟩ := Option.bind_eq_some_iff.mp taken
  obtain ⟨rfl, rfl⟩ := Prod.mk.inj (Option.some.inj taken)
  rw [List.append_nil]
  have nothing : Resting state.conn → state.requestBytes = [] → False := by
    intro conn unread
    rw [unread, List.take_nil, conn.step_nil] at stepped
    cases stepped
  cases stage with
  | quiet split parsed free conn unread => exact (nothing conn unread).elim
  | answering before res latest split parsed busy conn unread => exact (nothing conn unread).elim
  | asking ask split busy conn sender heard read bound =>
    have member : ask ∈ asks := by
      rw [split]
      simp
    rw [← List.take_append_drop count state.requestBytes] at conn
    obtain ⟨some_, outcome⟩ := conn.step (prompt.forward ask member request) stepped
    have lengths : state.requestBytes.length = (state.requestBytes.take count).length + (state.requestBytes.drop count).length := by
      rw [← List.length_append, List.take_append_drop]
    have positive := List.length_pos_of_ne_nil some_
    rcases outcome with ⟨rfl, further⟩ | ⟨whole, rfl, resting, parsed⟩
    · obtain ⟨rfl, rfl⟩ := Prod.mk.inj (Option.some.inj responded)
      exact .inl ⟨rfl, .asking ask split busy further sender heard read (by simp only; omega)⟩
    · simp only [Server.handle] at responded
      obtain ⟨⟨world', answer⟩, called, responded⟩ := Option.bind_eq_some_iff.mp responded
      obtain ⟨rfl, rfl⟩ := Prod.mk.inj (Option.some.inj responded)
      obtain ⟨res, rfl, readable⟩ := prompt.answers ask member request input state.world world' answer called
      refine .inr ⟨ask, res, called, .answering posts res rfl ?_ parsed busy resting whole ?_ readable read ?_⟩
      · rw [split, List.append_cons]
      · simp only [sender, heard]
        exact .post res
      · simp only [heard, List.length_nil]
        omega

theorem Stage.wrote (stage : Stage asks spent done posts request state answers) {index count : Nat}
    (taken : server.exchange state (.wrote index count) = some (next, outputs)) :
    next.world = state.world ∧ Stage asks (spent + 1) done posts request next (answers ++ outputs) := by
  simp only [Server.exchange] at taken
  obtain ⟨⟨sender', sent⟩, stepped, taken⟩ := Option.bind_eq_some_iff.mp taken
  obtain ⟨rfl, rfl⟩ := Prod.mk.inj (Option.some.inj taken)
  rw [List.append_nil]
  cases stage with
  | quiet split parsed free conn unread sender =>
    rw [sender, idle_wrote] at stepped
    cases stepped
  | asking ask split busy conn sender =>
    rw [sender, idle_wrote] at stepped
    cases stepped
  | answering before res latest split parsed busy conn unread sending readable read bound =>
    obtain ⟨further, some_⟩ := sending.step stepped
    have positive := List.length_pos_of_ne_nil some_
    refine ⟨rfl, .answering before res latest split parsed busy conn unread further readable read ?_⟩
    simp only [List.length_append]
    omega

theorem Stage.answered (stage : Stage asks spent done posts request state answers)
    (taken : server.exchange state .answered = some (next, outputs)) :
    next.world = state.world ∧ Stage asks (spent + 1) done posts request next (answers ++ outputs) := by
  simp only [Server.exchange] at taken
  split_ifs at taken with busy
  obtain ⟨⟨res', later⟩, found, taken⟩ := Option.bind_eq_some_iff.mp taken
  obtain ⟨rfl, rfl⟩ := Prod.mk.inj (Option.some.inj taken)
  cases stage with
  | quiet split parsed free => exact absurd (free.symm.trans busy) (by decide)
  | asking ask split busy conn sender heard =>
    rw [heard, readResponse_nil] at found
    cases found
  | answering before res latest split parsed busy conn unread sending readable read bound =>
    -- The client frames the responses by itself: it takes this one only when all of it is there.
    by_cases whole : state.responseBytes = res.serialize
    · rw [whole, readResponse_serialize readable] at found
      obtain ⟨rfl, rfl⟩ := Prod.mk.inj (Option.some.inj found)
      have idle : state.sender = .idle := by
        rcases sending.enabled with ⟨idle, -⟩ | ⟨next, sent, taken⟩
        · exact idle
        · obtain ⟨further, some_⟩ := sending.step taken
          have longer := further.sent_prefix.length_le
          have positive := List.length_pos_of_ne_nil some_
          rw [whole, List.length_append] at longer
          omega
      refine ⟨rfl, .quiet split parsed rfl conn unread idle rfl ?_ ?_⟩
      · rw [read, latest, List.map_append]
        rfl
      · rw [latest, cost_post]
        rw [whole] at bound
        omega
    · rw [readResponse_part readable sending.sent_prefix whole] at found
      cases found

/-- What an event does: it leaves the state of the handlers alone, or it has one request handled. -/
theorem Stage.step (prompt : server.Prompt asks) (stage : Stage asks spent done posts request state answers)
    {event : ExchangeEvent Input} (taken : server.exchange state event = some (next, outputs)) :
    (next.world = state.world ∧ Stage asks (spent + 1) done posts request next (answers ++ outputs)) ∨
      ∃ ask input res, server.respond input (requestOf ask.head request ask.body) state.world = some (next.world, some res) ∧
        Stage asks (spent + 1) (done ++ [ask]) (posts ++ [res]) (requestOf ask.head request ask.body) next
          (answers ++ outputs) := by
  cases event with
  | send => exact .inl (stage.send taken)
  | received count input =>
    exact (stage.received prompt taken).imp_right fun ⟨ask, res, handled⟩ => ⟨ask, input, res, handled⟩
  | wrote index count => exact .inl (stage.wrote taken)
  | answered => exact .inl (stage.answered taken)

/-- What has been handled, with how far the conversation has got. -/
structure Progress (server : Server State Input) (asks : List Ask) (first : Between State) (spent : Nat)
    (state : Exchange State) (answers : List Response) (done : List Ask) (between : Between State)
    (posts : List Response) : Prop where
  stage : Stage asks spent done posts between.request state answers
  handled : server.Handled first done between posts
  world : state.world = between.world

theorem Progress.step (prompt : server.Prompt asks) (progress : Progress server asks first spent state answers done between posts)
    {event : ExchangeEvent Input} (taken : server.exchange state event = some (next, outputs)) :
    ∃ done between posts, Progress server asks first (spent + 1) next (answers ++ outputs) done between posts := by
  rcases progress.stage.step prompt taken with ⟨same, stage⟩ | ⟨ask, input, res, called, stage⟩
  · exact ⟨done, between, posts, stage, progress.handled, same.trans progress.world⟩
  · rw [progress.world] at called
    exact ⟨_, _, _, stage, progress.handled.call called, rfl⟩

theorem run_progress (prompt : server.Prompt asks) {events : List (ExchangeEvent Input)} {final : Exchange State}
    (progress : Progress server asks first spent state answers done between posts)
    (ran : Machine.run server.exchange state events = some (final, outputs)) :
    ∃ done between posts, Progress server asks first (spent + events.length) final (answers ++ outputs) done between posts := by
  induction events generalizing state spent answers outputs done between posts with
  | nil =>
    obtain ⟨rfl, rfl⟩ : state = final ∧ [] = outputs := by simpa using ran
    rw [List.append_nil]
    exact ⟨done, between, posts, progress⟩
  | cons event later ih =>
    obtain ⟨middle, before, rest, taken, continued, rfl⟩ := Machine.run_cons_eq_some.mp ran
    obtain ⟨done', between', posts', further⟩ := progress.step prompt taken
    have all := ih further continued
    rw [List.append_assoc, Nat.add_right_comm, Nat.add_assoc] at all
    exact all

theorem cost_le (done rest : List Ask) (posts : List Response) : cost done posts ≤ cost (done ++ rest) posts := by
  simp only [cost, List.map_append, List.sum_append]
  omega

/-- A property of every response that the handlers give, for the request that it is given for. -/
theorem Server.Handled.related {relation : Ask → Response → Prop}
    (related : ∀ ask ∈ done, ∀ request input world next posted,
      server.respond input (requestOf ask.head request ask.body) world = some (next, posted) →
        ∃ res, posted = some res ∧ relation ask res)
    (handled : server.Handled first done between posts) : List.Forall₂ relation done posts := by
  obtain ⟨inputs, length, ran⟩ := handled
  induction done generalizing first inputs posts with
  | nil =>
    obtain ⟨-, rfl⟩ : first = between ∧ [] = posts := by simpa using ran
    exact .nil
  | cons ask done ih =>
    cases inputs with
    | nil => cases length
    | cons input inputs =>
      obtain ⟨here, others⟩ := List.forall_mem_cons.mp related
      obtain ⟨middle, before, rest, taken, continued, rfl⟩ := Machine.run_cons_eq_some.mp ran
      obtain ⟨posted, called, -, rfl⟩ := Server.respond_of_call taken
      obtain ⟨res, rfl, holds⟩ := here first.request input first.world middle.world posted called
      exact .cons holds (ih others inputs (Nat.succ.inj length) continued)

/-- What the stage says of the responses and of the events. -/
theorem Stage.summary (stage : Stage asks spent done posts request state answers) :
    done <+: asks ∧ answers <+: posts.map Response.received ∧ posts.length ≤ answers.length + 1 ∧ spent ≤ cost asks posts ∧
      (state.awaiting = false → asks = done ++ state.unsent ∧ answers = posts.map Response.received) := by
  cases stage with
  | quiet split parsed free conn unread sender heard read bound =>
    have more := cost_le done state.unsent posts
    rw [← split] at more
    have length : answers.length = posts.length := by rw [read, List.length_map]
    refine ⟨⟨_, split.symm⟩, ?_, ?_, bound.trans more, fun _ => ⟨split, read⟩⟩
    · exact read ▸ List.prefix_refl _
    · omega
  | asking ask split busy conn sender heard read bound =>
    have more := cost_le (done ++ [ask]) state.unsent posts
    rw [← List.append_cons, ← split] at more
    have length : answers.length = posts.length := by rw [read, List.length_map]
    refine ⟨⟨_, split.symm⟩, ?_, ?_, ?_, fun free => absurd (free.symm.trans busy) (by decide)⟩
    · exact read ▸ List.prefix_refl _
    · omega
    · omega
  | answering before res latest split parsed busy conn unread sending readable read bound =>
    subst latest
    have more := cost_le done state.unsent (before ++ [res])
    have part := sending.sent_prefix.length_le
    rw [cost_post, ← split] at more
    have same : answers.length + 1 = (before ++ [res]).length := by
      rw [read, List.length_map, List.length_append, List.length_singleton]
    refine ⟨⟨_, split.symm⟩, ?_, ?_, ?_, fun free => absurd (free.symm.trans busy) (by decide)⟩
    · rw [read, List.map_append]
      exact List.prefix_append _ _
    · exact Nat.le_of_eq same.symm
    · omega

variable {garbage response : Nat} {world : State} {events : List (ExchangeEvent Input)} {final : Exchange State}

theorem start_stage : Stage asks 0 [] [] (.blank garbage) (.start asks garbage response world) [] :=
  .quiet rfl rfl rfl ⟨rfl, rfl, rfl, rfl⟩ rfl rfl rfl rfl (Nat.zero_le _)

theorem start_progress : Progress server asks ⟨.blank garbage, world⟩ 0 (.start asks garbage response world) [] []
    ⟨.blank garbage, world⟩ [] :=
  ⟨start_stage, handled_nil, rfl⟩

/-- However a conversation goes, the connection has handled the first requests, as whole calls, and the client has
read their responses, but for the last of them perhaps. -/
theorem exchange_handled (prompt : server.Prompt asks)
    (ran : Machine.run server.exchange (.start asks garbage response world) events = some (final, answers)) :
    ∃ done between posts, done <+: asks ∧ server.Handled ⟨.blank garbage, world⟩ done between posts ∧
      final.world = between.world ∧ answers <+: posts.map Response.received ∧ posts.length ≤ answers.length + 1 ∧
      events.length ≤ cost asks posts ∧
      (final.awaiting = false → asks = done ++ final.unsent ∧ answers = posts.map Response.received) := by
  obtain ⟨done, between, posts, progress⟩ := run_progress prompt start_progress ran
  have stage := progress.stage
  rw [List.nil_append, Nat.zero_add] at stage
  obtain ⟨begun, read, nearly, bound, settled⟩ := stage.summary
  exact ⟨done, between, posts, begun, progress.handled, progress.world, read, nearly, bound, settled⟩

theorem Reading.coming_ne_nil {ask : Ask} {request : Request} {coming : Bytes} {conn : Connection}
    (reading : Reading ask request coming conn) : coming ≠ [] := by
  rintro rfl
  cases reading with
  | head pending forward ready before read short =>
    rw [List.append_nil] at read
    rw [read, Ask.bytes, List.length_append] at short
    omega
  | content pending forward ready parsed read short =>
    rw [List.append_nil] at read
    rw [read] at short
    exact absurd short (lt_irrefl _)

/-- Where the handlers return, a conversation in which nothing can happen any more is over. -/
theorem Stage.over (prompt : server.Prompt asks) (stage : Stage asks spent done posts request state answers)
    (returns : ∀ ask ∈ asks, ∀ request, ∃ input,
      (server.respond input (requestOf ask.head request ask.body) state.world).isSome = true)
    (ended : ∀ event, server.exchange state event = none) : state.awaiting = false ∧ state.unsent = [] := by
  cases stage with
  | quiet split parsed free =>
    cases unsent : state.unsent with
    | nil =>
      exact ⟨free, rfl⟩
    | cons ask later =>
      have enabled := ended .send
      simp only [Server.exchange, free, unsent] at enabled
      cases enabled
  | asking ask split busy conn =>
    exfalso
    have member : ask ∈ asks := by
      rw [split]
      simp
    obtain ⟨byte, later, coming⟩ := List.exists_cons_of_ne_nil conn.coming_ne_nil
    rw [coming] at conn
    obtain ⟨⟨next, processed⟩, taken⟩ := Option.isSome_iff_exists.mp (@Reading.enabled server.reverses _ _ _ _ _ conn)
    obtain ⟨input, returned⟩ := returns ask member request
    have handles : (server.handle input processed state.world).isSome = true := by
      obtain ⟨-, outcome⟩ := @Reading.step server.reverses _ _ _ _ _ [byte] _ conn (prompt.forward ask member request) taken
      rcases outcome with ⟨rfl, -⟩ | ⟨-, rfl, -, -⟩
      · rfl
      · obtain ⟨result, called⟩ := Option.isSome_iff_exists.mp returned
        simp only [Server.handle, called, Option.bind_eq_bind, Option.bind_some]
        rfl
    obtain ⟨result, handled'⟩ := Option.isSome_iff_exists.mp handles
    have enabled := ended (.received 1 input)
    simp only [Server.exchange, coming, List.take_succ_cons, List.take_zero, taken, handled', Option.bind_eq_bind,
      Option.bind_some] at enabled
    cases enabled
  | answering before res latest split parsed busy conn unread sending readable =>
    exfalso
    rcases sending.enabled with ⟨-, whole⟩ | ⟨next, sent, taken⟩
    · have enabled := ended .answered
      simp only [Server.exchange, busy, if_true, whole, readResponse_serialize readable, Option.bind_eq_bind,
        Option.bind_some] at enabled
      cases enabled
    · have enabled := ended (.wrote 0 1)
      simp only [Server.exchange, taken, Option.bind_eq_bind, Option.bind_some] at enabled
      cases enabled

theorem exchange_over (prompt : server.Prompt asks)
    (returns : ∀ ask ∈ asks, ∀ request world, ∃ input,
      (server.respond input (requestOf ask.head request ask.body) world).isSome = true)
    (ran : Machine.run server.exchange (.start asks garbage response world) events = some (final, answers))
    (ended : ∀ event, server.exchange final event = none) : final.awaiting = false ∧ final.unsent = [] := by
  obtain ⟨done, between, posts, progress⟩ := run_progress prompt start_progress ran
  exact progress.stage.over prompt (fun ask member request => returns ask member request final.world) ended

end Progress
end Apsdk
