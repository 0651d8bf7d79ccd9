import Apsdk.Proofs.Framing

/-! What is read for a body. While bytes of it are missing, the completion condition asks
for just these, so that the buffer never holds more than the body. It is emptied when an `int`
can count the body. -/

namespace Apsdk
open Library

namespace Connection
variable {reverses : Request → Bool} {conn : Connection}

/-- A read completes a head that the parser accepts, and leaves the rest of the buffer behind it. -/
structure HeadAccepted (conn : Connection) (chunk : Bytes) (request : Request) (rest : Bytes) : Prop where
  pending : conn.pending = .head
  direct : conn.isReversed = false
  accepted : ∃ bytesTransferred parser, endOfFirst RNRN_LINE_BREAK (conn.inStream ++ chunk) = some bytesTransferred ∧
    conn.parser.parseRequest conn.request ((conn.inStream ++ chunk).take bytesTransferred) = some (true, parser, request) ∧
    rest = (conn.inStream ++ chunk).drop bytesTransferred

section Content

/-- What the handler gets, once the buffer holds the body. -/
theorem deliver_direct (reverses : Request → Bool) (direct : conn.isReversed = false) :
    (conn.deliver reverses).2 = [.request { conn.request with content := conn.inStream }] := by
  rw [deliver_processed]
  simp only [assignContent, process, processRequest, direct, Bool.false_eq_true, if_false]

/-- The reads for a body: as long as they make up less than it, they are kept in the
buffer; the one that completes it ends with it, and is followed by the handler. -/
theorem run_content {chunks : List Bytes} {final : Connection} {processed : List Processed} (pending : conn.pending = .content)
    (direct : conn.isReversed = false) (bound : conn.request.contentLength < 2 ^ 64)
    (short : conn.inStream.length < conn.request.contentLength)
    (ran : Machine.run (step reverses) conn (chunks.map .bytes) = some (final, processed)) :
    (conn.inStream.length + chunks.flatten.length < conn.request.contentLength →
      final = { conn with inStream := conn.inStream ++ chunks.flatten } ∧ processed = []) ∧
    (conn.request.contentLength ≤ conn.inStream.length + chunks.flatten.length →
      ∃ body later, chunks = body ++ later ∧ conn.inStream.length + body.flatten.length = conn.request.contentLength ∧
        Machine.FirstOutput (step reverses) conn (body.map .bytes)
          ({ conn with inStream := conn.inStream ++ body.flatten }.deliver reverses).1
          [.request { conn.request with content := conn.inStream ++ body.flatten }]) := by
  induction chunks generalizing conn processed with
  | nil =>
    cases ran
    refine ⟨fun _ => ⟨?_, rfl⟩, fun enough => absurd enough ?_⟩
    · rw [List.flatten_nil, List.append_nil]
    · rw [List.flatten_nil, List.length_nil]
      omega
  | cons chunk chunks ih =>
    obtain ⟨next, first, others, taken, continued, rfl⟩ := Machine.run_cons_eq_some.mp ran
    obtain ⟨room, -, outcome⟩ := step_content pending taken
    rw [bodyLimit_of_le bound (Nat.le_of_lt short)] at room
    have size : (conn.inStream ++ chunk).length = conn.inStream.length + chunk.length := List.length_append
    have within : (conn.inStream ++ chunk).length ≤ conn.request.contentLength := by omega
    rw [bodyLimit_of_le bound within] at outcome
    have total : (chunk :: chunks).flatten.length = chunk.length + chunks.flatten.length := by
      rw [List.flatten_cons, List.length_append]
    rcases outcome with ⟨ended, result⟩ | ⟨more, rfl, rfl⟩
    · refine ⟨fun less => absurd less (by omega), fun _ => ⟨[chunk], chunks, rfl, ?_, ?_⟩⟩
      · rw [List.flatten_singleton]
        omega
      · have shown := @deliver_direct { conn with inStream := conn.inStream ++ chunk } reverses direct
        rw [← result] at shown
        obtain rfl : first = _ := shown
        rw [List.flatten_singleton, ← result]
        exact .single taken (List.cons_ne_nil _ _)
    · have missing : (conn.inStream ++ chunk).length < conn.request.contentLength := by omega
      obtain ⟨kept, completed⟩ := @ih { conn with inStream := conn.inStream ++ chunk } others pending direct bound missing continued
      rw [total]
      constructor
      · intro less
        have still : (conn.inStream ++ chunk).length + chunks.flatten.length < conn.request.contentLength := by omega
        obtain ⟨rfl, rfl⟩ := kept still
        refine ⟨?_, rfl⟩
        rw [List.flatten_cons, List.append_assoc]
      · intro enough
        have all : conn.request.contentLength ≤ (conn.inStream ++ chunk).length + chunks.flatten.length := by omega
        obtain ⟨body, later, rfl, exactly, ends⟩ := completed all
        have whole : (conn.inStream ++ chunk).length + body.flatten.length = conn.request.contentLength := exactly
        refine ⟨chunk :: body, later, rfl, ?_, ?_⟩
        · rw [List.flatten_cons, List.length_append]
          omega
        · rw [List.flatten_cons, ← List.append_assoc]
          exact ends.cons taken

/-- While bytes are missing, a read takes some of them and nothing else. -/
theorem step_content_iff (pending : conn.pending = .content) (bound : conn.request.contentLength < 2 ^ 64)
    (short : conn.inStream.length < conn.request.contentLength) (chunk : Bytes) :
    (step reverses conn (.bytes chunk)).isSome = true ↔
      chunk ≠ [] ∧ chunk.length ≤ conn.request.contentLength - conn.inStream.length := by
  have limit : conn.bodyLimit false conn.inStream = conn.request.contentLength - conn.inStream.length :=
    bodyLimit_of_le bound (Nat.le_of_lt short)
  have missing : conn.request.contentLength - conn.inStream.length ≠ 0 := by omega
  simp only [step, pending, ReadLoop.round, limit, missing, imp_false]
  split
  · rename_i allowed
    refine iff_of_true ?_ allowed.symm
    split <;> rfl
  · rename_i refused
    exact iff_of_false (by simp) fun both => refused both.symm

/-- A body that comes in pieces can be read to its end. -/
theorem run_pieces {pieces : List Bytes} (pending : conn.pending = .content) (bound : conn.request.contentLength < 2 ^ 64)
    (some_ : ∀ piece ∈ pieces, piece ≠ [])
    (whole : conn.inStream.length + pieces.flatten.length = conn.request.contentLength) :
    ∃ final processed, Machine.run (step reverses) conn (pieces.map .bytes) = some (final, processed) := by
  induction pieces generalizing conn with
  | nil => exact ⟨conn, [], rfl⟩
  | cons piece pieces ih =>
    obtain ⟨filled, others⟩ := List.forall_mem_cons.mp some_
    have positive := List.length_pos_of_ne_nil filled
    rw [List.flatten_cons, List.length_append] at whole
    obtain ⟨⟨next, first⟩, taken⟩ := Option.isSome_iff_exists.mp
      ((@step_content_iff reverses conn pending bound (by omega) piece).mpr ⟨filled, by omega⟩)
    have size : (conn.inStream ++ piece).length = conn.inStream.length + piece.length := List.length_append
    obtain ⟨-, -, outcome⟩ := step_content pending taken
    rw [bodyLimit_of_le bound (by omega)] at outcome
    rcases outcome with ⟨ended, -⟩ | ⟨more, rfl, rfl⟩
    · have nothing : pieces = [] := by
        refine List.eq_nil_iff_forall_not_mem.mpr fun other member => others other member ?_
        have empty : pieces.flatten = [] := List.length_eq_zero_iff.mp (by omega)
        exact List.flatten_eq_nil_iff.mp empty other member
      subst nothing
      exact ⟨next, first, Machine.run_cons_eq_some.mpr ⟨next, first, [], taken, rfl, (List.append_nil first).symm⟩⟩
    · obtain ⟨final, processed, continued⟩ := @ih { conn with inStream := conn.inStream ++ piece } pending bound others
        (by rw [← whole]; exact (congrArg (· + _) size).trans (Nat.add_assoc ..))
      exact ⟨final, processed, Machine.run_cons_eq_some.mpr ⟨_, [], processed, taken, continued, rfl⟩⟩

end Content

section Head
variable {chunk rest : Bytes} {request : Request}

theorem HeadAccepted.length_lt (head : HeadAccepted conn chunk request rest) : request.contentLength < 2 ^ 64 := by
  obtain ⟨bytesTransferred, parser, -, parsed, -⟩ := head.accepted
  have scanned := Parser.parseRequest_some parsed
  have small := conn.parser.scanRequest_length_lt conn.request (congrArg Prod.fst scanned).symm
  rwa [← scanned] at small

/-- Behind a head with a body, the handler is called at once or the rest of the body is read. -/
theorem step_accepted (head : HeadAccepted conn chunk request rest) (positive : 0 < request.contentLength)
    (fits : rest.length ≤ request.contentLength) {next : Connection} {new : List Processed}
    (taken : step reverses conn (.bytes chunk) = some (next, new)) :
    (rest.length = request.contentLength → new = [.request { request with content := rest }] ∧
      (next.inStream = [] ↔ rest.length < 2 ^ 31)) ∧
    (rest.length < request.contentLength → next.pending = .content ∧ next.isReversed = false ∧
      next.request = { request with content := [] } ∧ next.inStream = rest ∧ new = []) := by
  have bound := head.length_lt
  obtain ⟨bytesTransferred, parser, found, parsed, behind⟩ := head.accepted
  obtain ⟨-, -, outcome⟩ := step_head head.pending taken
  obtain ⟨n, again, result⟩ : ∃ n, endOfFirst RNRN_LINE_BREAK (conn.inStream ++ chunk) = some n ∧
      (next, new) = { conn with inStream := conn.inStream ++ chunk }.headReceived reverses n := by
    rcases outcome with here | ⟨none_, -⟩ | ⟨none_, -⟩
    · exact here
    · rw [found] at none_
      cases none_
    · rw [found] at none_
      cases none_
  obtain rfl := Option.some.inj (found.symm.trans again)
  have counted := Parser.parseRequest_accepted parsed
  rw [List.length_take] at counted
  have consumed : streambufConsume (conn.inStream ++ chunk) bytesTransferred = some rest := by
    rw [streambufConsume_of_lt counted, behind]
  have accepted : { conn with inStream := conn.inStream ++ chunk }.parseHead ((conn.inStream ++ chunk).take bytesTransferred) =
      some (true, { conn with inStream := conn.inStream ++ chunk, parser, request }) := by
    simp only [parseHead, head.direct, parsed, Bool.false_eq_true, if_false, Option.bind_eq_bind, Option.bind_some,
      Option.pure_def]
  rw [headReceived_accepted accepted consumed] at result
  simp only [headAccepted, contentLength, head.direct, Bool.false_eq_true, if_false, Nat.ne_of_gt positive,
    sizeSub_of_le bound fits] at result
  constructor
  · intro whole
    have filled : rest ≠ [] := by
      rintro rfl
      rw [List.length_nil] at whole
      omega
    rw [whole, Nat.sub_self, if_neg (not_not_intro rfl), if_neg filled] at result
    have shown := @deliver_direct { conn with isReversed := false, inStream := rest, parser, request } reverses rfl
    have emptied := @deliver_inStream reverses { conn with isReversed := false, inStream := rest, parser, request }
    rw [← result] at shown emptied
    exact ⟨shown, emptied⟩
  · intro part
    have missing : request.contentLength - rest.length ≠ 0 := by omega
    rw [if_pos missing] at result
    obtain ⟨rfl, rfl⟩ := Prod.mk.inj result
    simp only [postReceiveMessageContent, Bool.false_eq_true, if_false, and_self]

/-- When enough has been read, the handler gets the body: as many bytes behind the head as it has announced. -/
theorem body_handled (head : HeadAccepted conn chunk request rest) (positive : 0 < request.contentLength)
    (fits : rest.length ≤ request.contentLength) {chunks : List Bytes} {final : Connection} {processed : List Processed}
    (ran : Machine.run (step reverses) conn ((chunk :: chunks).map .bytes) = some (final, processed)) {following : Bytes}
    (socket : chunks.flatten <+: following) (enough : request.contentLength - rest.length ≤ chunks.flatten.length) :
    ∃ body later next, chunks = body ++ later ∧ body.flatten.length = request.contentLength - rest.length ∧
      Machine.FirstOutput (step reverses) conn ((chunk :: body).map .bytes) next
        [.request { request with content := (rest ++ following).take request.contentLength }] ∧
      (next.inStream = [] ↔ request.contentLength < 2 ^ 31) := by
  have bound := head.length_lt
  obtain ⟨next, first, others, taken, continued, rfl⟩ := Machine.run_cons_eq_some.mp ran
  obtain ⟨atOnce, reading⟩ := step_accepted head positive fits taken
  rcases Nat.lt_or_eq_of_le fits with part | whole
  · obtain ⟨pending, direct, same, inStream, rfl⟩ := reading part
    have length : next.request.contentLength = request.contentLength := by rw [same]
    obtain ⟨-, completed⟩ := run_content pending direct (by rwa [length]) (by rwa [length, inStream]) continued
    rw [length, inStream] at completed
    have all : request.contentLength ≤ rest.length + chunks.flatten.length := by omega
    obtain ⟨body, later, rfl, exactly, ends⟩ := completed all
    have content : (rest ++ following).take request.contentLength = rest ++ body.flatten := by
      obtain ⟨left, rfl⟩ := (List.flatten_append ▸ (List.prefix_append body.flatten later.flatten)).trans socket
      rw [← List.append_assoc, List.take_append_of_le_length (by rw [List.length_append]; omega)]
      exact List.take_of_length_le (by rw [List.length_append]; omega)
    have emptied := @deliver_inStream reverses { next with inStream := rest ++ body.flatten }
    have size : (rest ++ body.flatten).length = request.contentLength := by rwa [List.length_append]
    rw [size] at emptied
    have missing : body.flatten.length = request.contentLength - rest.length := by
      rw [← exactly, Nat.add_sub_cancel_left]
    refine ⟨body, later, _, rfl, missing, ?_, emptied⟩
    have handled : { next.request with content := rest ++ body.flatten } = { request with content := rest ++ body.flatten } := by
      rw [same]
    rw [content, ← handled]
    exact ends.cons taken
  · obtain ⟨rfl, emptied⟩ := atOnce whole
    rw [whole] at emptied
    refine ⟨[], chunks, next, rfl, by rw [whole, Nat.sub_self]; rfl, ?_, emptied⟩
    have content : (rest ++ following).take request.contentLength = rest := by rw [← whole, List.take_left]
    rw [content]
    exact .single taken (List.cons_ne_nil _ _)

/-- Before that, nothing is handled, and a read takes some of the missing bytes and nothing else. -/
theorem body_missing (head : HeadAccepted conn chunk request rest) (positive : 0 < request.contentLength)
    (fits : rest.length ≤ request.contentLength) {chunks : List Bytes} {final : Connection} {processed : List Processed}
    (ran : Machine.run (step reverses) conn ((chunk :: chunks).map .bytes) = some (final, processed))
    (less : chunks.flatten.length < request.contentLength - rest.length) :
    processed = [] ∧ ∀ more, (step reverses final (.bytes more)).isSome = true ↔
      more ≠ [] ∧ more.length ≤ request.contentLength - rest.length - chunks.flatten.length := by
  have bound := head.length_lt
  obtain ⟨next, first, others, taken, continued, rfl⟩ := Machine.run_cons_eq_some.mp ran
  obtain ⟨-, reading⟩ := step_accepted head positive fits taken
  obtain ⟨pending, direct, same, inStream, rfl⟩ := reading (by omega)
  have length : next.request.contentLength = request.contentLength := by rw [same]
  obtain ⟨kept, -⟩ := run_content pending direct (by rwa [length]) (by rw [length, inStream]; omega) continued
  rw [length, inStream] at kept
  obtain ⟨rfl, rfl⟩ := kept (by omega)
  refine ⟨rfl, fun more => ?_⟩
  have size : (rest ++ chunks.flatten).length = rest.length + chunks.flatten.length := List.length_append
  have short : (rest ++ chunks.flatten).length < next.request.contentLength := by omega
  have further := @step_content_iff reverses { next with inStream := rest ++ chunks.flatten } pending
    (by rwa [length]) short more
  rw [further, length, size, Nat.sub_add_eq]

/-- When the handler has got the body, the buffer is empty if an `int` can count the body, and only then. -/
theorem body_emptied_iff (head : HeadAccepted conn chunk request rest) (positive : 0 < request.contentLength)
    (fits : rest.length ≤ request.contentLength) {chunks : List Bytes} {final : Connection} {processed : List Processed}
    (ran : Machine.run (step reverses) conn ((chunk :: chunks).map .bytes) = some (final, processed)) {following : Bytes}
    (socket : chunks.flatten <+: following) (enough : request.contentLength - rest.length ≤ chunks.flatten.length) :
    (∃ body later next, chunks = body ++ later ∧ body.flatten.length = request.contentLength - rest.length ∧
      Machine.FirstOutput (step reverses) conn ((chunk :: body).map .bytes) next
        [.request { request with content := (rest ++ following).take request.contentLength }] ∧
      next.inStream = []) ↔ request.contentLength < 2 ^ 31 := by
  obtain ⟨body, later, next, split, exactly, handled, emptied⟩ := body_handled head positive fits ran socket enough
  constructor
  · rintro ⟨body', later', next', split', -, handled', empty⟩
    have within : (chunk :: body).map Received.bytes <+: (chunk :: chunks).map Received.bytes :=
      ⟨later.map .bytes, by rw [split, List.map_cons, List.map_cons, List.map_append, List.cons_append]⟩
    have within' : (chunk :: body').map Received.bytes <+: (chunk :: chunks).map Received.bytes :=
      ⟨later'.map .bytes, by rw [split', List.map_cons, List.map_cons, List.map_append, List.cons_append]⟩
    obtain ⟨-, rfl, -⟩ := handled.unique handled' within within'
    exact emptied.mp empty
  · intro short
    exact ⟨body, later, next, split, exactly, handled, emptied.mpr short⟩

/-- The reads behind a head take the rest of its body and nothing else, the handler gets
the body, and the buffer is empty then, if and only if the body is one that an `int` can count. -/
theorem body_taken_iff (head : HeadAccepted conn chunk request rest) (positive : 0 < request.contentLength)
    (fits : rest.length ≤ request.contentLength) {chunks : List Bytes} {final : Connection} {processed : List Processed}
    (ran : Machine.run (step reverses) conn ((chunk :: chunks).map .bytes) = some (final, processed)) {following : Bytes}
    (socket : chunks.flatten <+: following) :
    (request.contentLength - rest.length ≤ chunks.flatten.length →
      ((∃ body later next, chunks = body ++ later ∧ body.flatten.length = request.contentLength - rest.length ∧
          Machine.FirstOutput (step reverses) conn ((chunk :: body).map .bytes) next
            [.request { request with content := (rest ++ following).take request.contentLength }] ∧
          next.inStream = []) ↔
        request.contentLength < 2 ^ 31)) ∧
    (chunks.flatten.length < request.contentLength - rest.length → processed = [] ∧
      ∀ more, (step reverses final (.bytes more)).isSome = true ↔
        more ≠ [] ∧ more.length ≤ request.contentLength - rest.length - chunks.flatten.length) :=
  ⟨body_emptied_iff head positive fits ran socket, body_missing head positive fits ran⟩

end Head

/-- The head of a request with a body of so many bytes. -/
def postedHead (length : Nat) : Bytes := ascii "POST /a RTSP/1.0\r\nContent-Length: " ++ decimal length ++ RNRN_LINE_BREAK

def postedParse (length : Nat) : Bool × Parser × Request :=
  (Parser.fresh.parseRequest (start 0 0).request (postedHead length)).getD (false, .fresh, .new [] [] [])

/-- One byte of the body comes with the head and two come one by one, and another head follows. -/
theorem split_body_taken : ∃ body later next, [ascii "b", ascii "c"] = body ++ later ∧ body.flatten.length = 2 ∧
    Machine.FirstOutput (step fun _ => false) (start 0 0) (((postedHead 3 ++ ascii "a") :: body).map .bytes) next
      [.request { (postedParse 3).2.2 with content := ascii "abc" }] ∧ next.inStream = [] := by
  have head : HeadAccepted (start 0 0) (postedHead 3 ++ ascii "a") (postedParse 3).2.2 (ascii "a") :=
    ⟨rfl, rfl, (postedHead 3).length, (postedParse 3).2.1, by decide +kernel, by decide +kernel, by decide +kernel⟩
  have runs : (Machine.run (step fun _ => false) (start 0 0)
      (((postedHead 3 ++ ascii "a") :: [ascii "b", ascii "c"]).map .bytes)).isSome = true := by decide +kernel
  obtain ⟨⟨final, processed⟩, ran⟩ := Option.isSome_iff_exists.mp runs
  have socket : [ascii "b", ascii "c"].flatten <+: ascii "bcGET /b RTSP/1.0" := ⟨ascii "GET /b RTSP/1.0", by decide +kernel⟩
  have length : (postedParse 3).2.2.contentLength = 3 := by decide +kernel
  have taken := (body_taken_iff head (by rw [length]; decide) (by rw [length]; decide) ran socket).1
  rw [length] at taken
  exact (taken (by decide)).mpr (by decide)

theorem longHead_accepted : HeadAccepted (start 0 0) (postedHead (2 ^ 31)) (postedParse (2 ^ 31)).2.2 [] :=
  ⟨rfl, rfl, (postedHead (2 ^ 31)).length, (postedParse (2 ^ 31)).2.1, by decide +kernel, by decide +kernel, by decide +kernel⟩

theorem longHead_states : (postedParse (2 ^ 31)).2.2.contentLength = 2 ^ 31 := by decide +kernel

/-- However the bytes of a body of 2147483648 bytes come in, they are read and are not taken from the buffer. -/
theorem long_body_pieces {pieces : List Bytes} (some_ : ∀ piece ∈ pieces, piece ≠ []) (size : pieces.flatten.length = 2 ^ 31) :
    (∃ final processed, Machine.run (step fun _ => false) (start 0 0)
      ((postedHead (2 ^ 31) :: pieces).map .bytes) = some (final, processed)) ∧
    ¬ ∃ body later next, pieces = body ++ later ∧ body.flatten.length = 2 ^ 31 ∧
      Machine.FirstOutput (step fun _ => false) (start 0 0) ((postedHead (2 ^ 31) :: body).map .bytes) next
        [.request { (postedParse (2 ^ 31)).2.2 with content := pieces.flatten.take (2 ^ 31) }] ∧
      next.inStream = [] := by
  have length := longHead_states
  have runs : ∃ final processed, Machine.run (step fun _ => false) (start 0 0)
      ((postedHead (2 ^ 31) :: pieces).map .bytes) = some (final, processed) := by
    have begun : (step (fun _ => false) (start 0 0) (.bytes (postedHead (2 ^ 31)))).isSome = true := by decide +kernel
    obtain ⟨⟨next, first⟩, taken⟩ := Option.isSome_iff_exists.mp begun
    obtain ⟨pending, -, same, inStream, rfl⟩ :=
      (step_accepted longHead_accepted (by rw [length]; decide) (by rw [length]; decide) taken).2 (by rw [length]; decide)
    have again : next.request.contentLength = 2 ^ 31 := by rw [same, length]
    obtain ⟨final, processed, continued⟩ := @run_pieces (fun _ => false) next pieces pending (by rw [again]; decide) some_
      (by rw [inStream, size, again, List.length_nil, Nat.zero_add])
    exact ⟨final, processed, Machine.run_cons_eq_some.mpr ⟨next, [], processed, taken, continued, rfl⟩⟩
  refine ⟨runs, fun kept => ?_⟩
  obtain ⟨final, processed, ran⟩ := runs
  have emptied := body_emptied_iff longHead_accepted (by rw [length]; decide) (by rw [length]; decide) ran
    (List.prefix_refl pieces.flatten) (by rw [length, size]; decide)
  rw [length, List.nil_append, List.length_nil, Nat.sub_zero] at emptied
  exact absurd (emptied.mp kept) (lt_irrefl _)

/-- A body of so many pieces of 512 bytes. -/
def pieces (n : Nat) : List Bytes := List.replicate n (List.replicate 512 97)

theorem pieces_length (n : Nat) : (pieces n).flatten.length = n * 512 := by
  rw [pieces, List.length_flatten, List.map_replicate, List.sum_replicate_nat, List.length_replicate]

theorem pieces_some (n : Nat) : ∀ piece ∈ pieces n, piece ≠ [] := by
  intro piece member
  rw [List.eq_of_mem_replicate member]
  decide

/-- The body in reads of 512 bytes. -/
theorem long_body_kept :
    HeadAccepted (start 0 0) (postedHead (2 ^ 31)) (postedParse (2 ^ 31)).2.2 [] ∧
    (postedParse (2 ^ 31)).2.2.contentLength = 2 ^ 31 ∧
    (∃ final processed, Machine.run (step fun _ => false) (start 0 0)
      ((postedHead (2 ^ 31) :: pieces (2 ^ 22)).map .bytes) = some (final, processed)) ∧
    ¬ ∃ body later next, pieces (2 ^ 22) = body ++ later ∧ body.flatten.length = 2 ^ 31 ∧
      Machine.FirstOutput (step fun _ => false) (start 0 0) ((postedHead (2 ^ 31) :: body).map .bytes) next
        [.request { (postedParse (2 ^ 31)).2.2 with content := (pieces (2 ^ 22)).flatten.take (2 ^ 31) }] ∧
      next.inStream = [] :=
  ⟨longHead_accepted, longHead_states, long_body_pieces (pieces_some _) ((pieces_length _).trans (by decide))⟩

end Connection
end Apsdk
