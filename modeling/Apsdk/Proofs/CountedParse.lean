import Apsdk.Proofs.HeadGrammar

/-! The counter of `parse`. As long as it stays in the range of an `int`, a head
is read as its bytes alone decide; a head that is still accepted when the range
is used up is read no further. -/

namespace Apsdk
open Library Apsdk.Parser

namespace Parser
variable {α : Type} {consume : Parser → α → UInt8 → ParseResult × Parser × α}

theorem parseLoop_cons {i : Nat} (counts : i + 1 < 2 ^ 31) (p : Parser) (message : α) (input : UInt8) (rest : Bytes) :
    parseLoop consume i p message (input :: rest) =
      if (consume p message input).1 = .parseFail then
        some (false, settle .parseFail (consume p message input).2.1, (consume p message input).2.2)
      else parseLoop consume (i + 1) (settle (consume p message input).1 (consume p message input).2.1)
        (consume p message input).2.2 rest := by
  rcases taken : consume p message input with ⟨result, next, parsed⟩
  cases result <;> simp [-Nat.reducePow, parseLoop, counts, taken, settle]

/-- The bytes that the counter has room for decide whether the loop ends. -/
theorem parseLoop_eq {i : Nat} (counts : i < 2 ^ 31) (p : Parser) (message : α) (data : Bytes) :
    parseLoop consume i p message data =
      if i + data.length < 2 ^ 31 ∨ (scan consume p message (data.take (2 ^ 31 - 1 - i))).1 = false then
        some (scan consume p message data)
      else none := by
  induction data generalizing i p message with
  | nil => simp [-Nat.reducePow, parseLoop, scan, counts]
  | cons input rest ih =>
    by_cases more : i + 1 < 2 ^ 31
    · have room : 2 ^ 31 - 1 - i = (2 ^ 31 - 1 - (i + 1)) + 1 := by omega
      have length : i + (input :: rest).length = i + 1 + rest.length := by
        rw [List.length_cons]
        omega
      rw [parseLoop_cons more, ih more, length, room, List.take_succ_cons, scan_cons, scan_cons]
      split_ifs <;> simp_all
    · have last : i = 2 ^ 31 - 1 := by omega
      have none : parseLoop consume i p message (input :: rest) = none := by
        rw [parseLoop, if_neg more]
      rw [none, last, Nat.sub_self, List.take_zero, List.length_cons, scan, if_neg]
      rintro (short | rejected)
      · omega
      · cases rejected

/-- Whatever says that the counter has room for the data says whether the loop ends. -/
theorem parseLoop_counted {room : Prop} {p : Parser} {message : α} {data : Bytes}
    (enough : room ↔ data.length < 2 ^ 31 ∨ (scan consume p message (data.take (2 ^ 31 - 1))).1 = false) :
    (room → parseLoop consume 0 p message data = some (scan consume p message data)) ∧
      (¬ room → parseLoop consume 0 p message data = none) := by
  have ends := @parseLoop_eq α consume 0 (by decide) p message data
  rw [Nat.zero_add, Nat.sub_zero] at ends
  rw [enough]
  exact ⟨fun counted => ends.trans (if_pos counted), fun full => ends.trans (if_neg full)⟩

theorem parseLoop_short {i : Nat} {data : Bytes} (short : i + data.length < 2 ^ 31) (p : Parser) (message : α) :
    parseLoop consume i p message data = some (scan consume p message data) := by
  rw [parseLoop_eq (by omega), if_pos (Or.inl short)]

theorem parseLoop_some {i : Nat} (counts : i < 2 ^ 31) {p : Parser} {message : α} {data : Bytes}
    {outcome : Bool × Parser × α} (parsed : parseLoop consume i p message data = some outcome) :
    outcome = scan consume p message data := by
  rw [parseLoop_eq counts] at parsed
  split_ifs at parsed
  exact (Option.some.inj parsed).symm

/-- No more than the counter has room for is accepted. -/
theorem parseLoop_accepted {i : Nat} (counts : i < 2 ^ 31) {p : Parser} {message : α} {data : Bytes}
    {outcome : Parser × α} (parsed : parseLoop consume i p message data = some (true, outcome)) :
    i + data.length < 2 ^ 31 := by
  rw [parseLoop_eq counts] at parsed
  split_ifs at parsed with room
  rcases room with short | rejected
  · exact short
  · have accepted : (scan consume p message data).1 = true := congrArg Prod.fst (Option.some.inj parsed)
    rw [← List.take_append_drop (2 ^ 31 - 1 - i) data] at accepted
    rw [(scan_append p message _ _ accepted).1] at rejected
    cases rejected

/-- What a parse accepts is no stand-in for a parse without an end. -/
theorem getD_accepted {outcome : Option (Bool × α)} {blank : α}
    (accepted : (outcome.getD (false, blank)).1 = true) : outcome = some (true, (outcome.getD (false, blank)).2) := by
  cases outcome with
  | none => cases accepted
  | some result => exact congrArg some (Prod.ext accepted rfl)

variable {p q : Parser} {data : Bytes}

theorem parseRequest_short (short : data.length < 2 ^ 31) (p : Parser) (req : Request) :
    p.parseRequest req data = some (p.scanRequest req data) :=
  parseLoop_short (by omega) p (clearRequest req)

theorem parseRequest_some {req : Request} {outcome : Bool × Parser × Request}
    (parsed : p.parseRequest req data = some outcome) : outcome = p.scanRequest req data :=
  parseLoop_some (by decide) parsed

theorem parseRequest_accepted {req : Request} {outcome : Parser × Request}
    (parsed : p.parseRequest req data = some (true, outcome)) : data.length < 2 ^ 31 := by
  simpa using parseLoop_accepted (by decide) parsed

theorem parseResponse_short (short : data.length < 2 ^ 31) (p : Parser) (res : Response) :
    p.parseResponse res data = some (p.scanResponse res data) :=
  parseLoop_short (by omega) p (clearResponse res)

theorem parseResponse_some {res : Response} {outcome : Bool × Parser × Response}
    (parsed : p.parseResponse res data = some outcome) : outcome = p.scanResponse res data :=
  parseLoop_some (by decide) parsed

theorem parseResponse_accepted {res : Response} {outcome : Parser × Response}
    (parsed : p.parseResponse res data = some (true, outcome)) : data.length < 2 ^ 31 := by
  simpa using parseLoop_accepted (by decide) parsed

end Parser

/-- A text without carriage returns, followed by header lines, ends at the first empty line. -/
theorem block_of_lines {first : Bytes} (open_ : 13 ∉ first) (lines : List HeaderLine) :
    IsBlock (first ++ RN_LINE_BREAK ++ headerBlock lines) := by
  have skipped := endOfFirst_skip [10, 13, 10] open_
  induction lines generalizing first with
  | nil =>
    have found := skipped RNRN_LINE_BREAK
    have same : first ++ RN_LINE_BREAK ++ headerBlock [] = first ++ RNRN_LINE_BREAK := by
      simp [headerBlock, RN_LINE_BREAK, RNRN_LINE_BREAK]
    rw [IsBlock, same, RNRN_LINE_BREAK, List.length_append, Nat.add_comm]
    exact found
  | cons line lines ih =>
    obtain ⟨start, later, named⟩ := List.exists_cons_of_ne_nil line.token.named
    have begins : start ≠ 13 := not_lineEnd (line.token.plain start (named ▸ List.mem_cons_self ..))
    have text : 13 ∉ 10 :: line.text := by
      intro member
      rcases List.mem_cons.mp member with feed | inside
      · exact absurd feed (by decide)
      · rcases List.mem_append.mp inside with inside | inside
        · exact not_lineEnd (line.token.plain 13 inside) rfl
        · rcases List.mem_cons.mp inside with colon | inside
          · exact absurd colon (by decide)
          · rcases List.mem_cons.mp inside with blank | inside
            · exact absurd blank (by decide)
            · exact not_lineEnd_of_isCtl (line.plain 13 inside) rfl
    have rest := ih text (endOfFirst_skip _ text)
    have split : first ++ RN_LINE_BREAK ++ headerBlock (line :: lines) =
        first ++ 13 :: (10 :: line.text ++ RN_LINE_BREAK ++ headerBlock lines) := by
      simp [headerBlock, HeaderLine.bytes, RN_LINE_BREAK]
    have elsewhere : ¬ ([13, 10, 13, 10] : Bytes).isPrefixOf
        (13 :: (10 :: line.text ++ RN_LINE_BREAK ++ headerBlock lines)) := by
      simp [List.isPrefixOf, HeaderLine.text, named, Ne.symm begins]
    rw [IsBlock, RNRN_LINE_BREAK] at rest ⊢
    rw [split, skipped, endOfFirst, if_neg elsewhere, rest]
    simp [Nat.add_assoc, Nat.add_comm]

theorem IsToken.lineEnd_not_mem {text : Bytes} (token : IsToken text) : 13 ∉ text :=
  fun member => not_lineEnd (token.plain 13 member) rfl

theorem IsLineText.lineEnd_not_mem {text : Bytes} (plain : IsLineText text) : 13 ∉ text :=
  fun member => (plain 13 member).1 rfl

theorem RequestHead.lineEnd_not_mem (head : RequestHead) : 13 ∉ head.firstLine := by
  have uri : 13 ∉ head.uri := fun member => not_lineEnd_of_isCtl (head.plain 13 member).2.2 rfl
  simp [RequestHead.firstLine, head.token.lineEnd_not_mem, uri, head.text.lineEnd_not_mem]

theorem RequestHead.block (head : RequestHead) : IsBlock head.bytes := block_of_lines head.lineEnd_not_mem head.lines

/-- The empty line may also stand in the version of a response. -/
theorem ResponseHead.block (head : ResponseHead) (plain : 13 ∉ head.version) : IsBlock head.bytes := by
  have code : 13 ∉ head.code := fun member => absurd (head.digits 13 member) (by decide)
  apply block_of_lines
  rw [ResponseHead.firstLine]
  simp [plain, code, head.plain.lineEnd_not_mem]

/-- What has been read among the header lines can be completed to a head. -/
theorem HeaderProgress.completed {IsHead : Bytes → Prop} (continues : Continues IsHead) {read : Bytes}
    {state : ParserState} (progress : HeaderProgress IsHead read state) : ∃ rest, IsHead (read ++ rest) := by
  cases state with
  | tokenExpectingNewLine => exact ⟨10 :: RN_LINE_BREAK, progress⟩
  | tokenHeaderLineStart => exact ⟨RN_LINE_BREAK, progress⟩
  | tokenHeaderName =>
    obtain ⟨before, name, head, token, rfl⟩ := progress
    refine ⟨58 :: 32 :: (RN_LINE_BREAK ++ RN_LINE_BREAK), ?_⟩
    have next := continues before ⟨name, [], token, by simp [IsValue]⟩ head
    simpa [headerBlock, HeaderLine.bytes, HeaderLine.text] using next
  | tokenSpaceBeforeHeaderValue =>
    obtain ⟨before, name, head, token, rfl⟩ := progress
    refine ⟨32 :: (RN_LINE_BREAK ++ RN_LINE_BREAK), ?_⟩
    have next := continues before ⟨name, [], token, by simp [IsValue]⟩ head
    simpa [headerBlock, HeaderLine.bytes, HeaderLine.text] using next
  | tokenHeaderValue =>
    obtain ⟨before, name, value, head, token, plain, rfl⟩ := progress
    refine ⟨RN_LINE_BREAK ++ RN_LINE_BREAK, ?_⟩
    have next := continues before ⟨name, value, token, plain⟩ head
    simpa [headerBlock, HeaderLine.bytes, HeaderLine.text] using next
  | tokenExpectingLastLine => exact ⟨[10], progress⟩
  | tokenStart | tokenMethod | tokenUri | tokenSchemeVersion | tokenStatusCode | tokenStatusText => exact progress.elim

/-- Inside its header lines, a request is read as every head is. -/
theorem RequestProgress.among {read : Bytes} {state : ParserState} (progress : RequestProgress read state)
    (inside : InHeaders state) : HeaderProgress IsRequestHead read state := by
  cases state with
  | tokenStart | tokenMethod | tokenUri | tokenSchemeVersion | tokenStatusCode | tokenStatusText => exact inside.elim
  | _ => exact progress

theorem RequestProgress.completed {read : Bytes} {state : ParserState} (progress : RequestProgress read state) :
    ∃ head : RequestHead, read <+: head.bytes := by
  by_cases inside : InHeaders state
  · obtain ⟨rest, head, same⟩ := HeaderProgress.completed isRequestHead_continues (progress.among inside)
    exact ⟨head, rest, same⟩
  · cases state with
    | tokenStart =>
      rcases progress with rfl | ⟨head, rfl⟩
      · exact ⟨⟨[71], [], [], [], isToken_single (by decide), by simp, by simp [IsLineText]⟩, List.nil_prefix⟩
      · exact ⟨head, List.prefix_rfl⟩
    | tokenMethod =>
      refine ⟨⟨read, [], [], [], progress, by simp, by simp [IsLineText]⟩, ?_⟩
      simp [RequestHead.bytes, RequestHead.firstLine]
    | tokenUri =>
      obtain ⟨method, uri, token, plain, rfl⟩ := progress
      refine ⟨⟨method, uri, [], [], token, plain, by simp [IsLineText]⟩, ?_⟩
      simp [RequestHead.bytes, RequestHead.firstLine]
    | tokenSchemeVersion =>
      obtain ⟨method, uri, version, token, plain, text, rfl⟩ := progress
      refine ⟨⟨method, uri, version, [], token, plain, text⟩, ?_⟩
      simp [RequestHead.bytes, RequestHead.firstLine]
    | tokenStatusCode | tokenStatusText => exact progress.elim
    | _ => exact absurd trivial inside

theorem ResponseProgress.among {read : Bytes} {state : ParserState} (progress : ResponseProgress read state)
    (inside : InHeaders state) : HeaderProgress IsResponseHead read state := by
  cases state with
  | tokenStart | tokenMethod | tokenUri | tokenSchemeVersion | tokenStatusCode | tokenStatusText => exact inside.elim
  | _ => exact progress

theorem ResponseProgress.completed {read : Bytes} {state : ParserState} (progress : ResponseProgress read state) :
    ∃ head : ResponseHead, read <+: head.bytes := by
  by_cases inside : InHeaders state
  · obtain ⟨rest, head, same⟩ := HeaderProgress.completed isResponseHead_continues (progress.among inside)
    exact ⟨head, rest, same⟩
  · cases state with
    | tokenStart =>
      rcases progress with rfl | ⟨head, rfl⟩
      · exact ⟨⟨[72], [], [], [], isVersion_single (by decide), by simp, by simp [IsLineText]⟩, List.nil_prefix⟩
      · exact ⟨head, List.prefix_rfl⟩
    | tokenSchemeVersion =>
      refine ⟨⟨read, [], [], [], progress, by simp, by simp [IsLineText]⟩, ?_⟩
      simp [ResponseHead.bytes, ResponseHead.firstLine]
    | tokenStatusCode =>
      obtain ⟨version, code, begins, digits, rfl⟩ := progress
      refine ⟨⟨version, code, [], [], begins, digits, by simp [IsLineText]⟩, ?_⟩
      simp [ResponseHead.bytes, ResponseHead.firstLine]
    | tokenStatusText =>
      obtain ⟨version, code, text, begins, digits, plain, rfl⟩ := progress
      refine ⟨⟨version, code, text, [], begins, digits, plain⟩, ?_⟩
      simp [ResponseHead.bytes, ResponseHead.firstLine]
    | tokenMethod | tokenUri => exact progress.elim
    | _ => exact absurd trivial inside

/-- The counter has room for the block, or for enough of it to see that no head begins with it. -/
def CountedRequest (data : Bytes) : Prop :=
  data.length < 2 ^ 31 ∨ ∀ head : RequestHead, ¬ data.take (2 ^ 31 - 1) <+: head.bytes

def CountedResponse (data : Bytes) : Prop :=
  data.length < 2 ^ 31 ∨ ∀ head : ResponseHead, ¬ data.take (2 ^ 31 - 1) <+: head.bytes

theorem RequestHead.counted_iff (head : RequestHead) : CountedRequest head.bytes ↔ head.bytes.length < 2 ^ 31 :=
  or_iff_left fun none => none head (List.take_prefix ..)

theorem ResponseHead.counted_iff (head : ResponseHead) : CountedResponse head.bytes ↔ head.bytes.length < 2 ^ 31 :=
  or_iff_left fun none => none head (List.take_prefix ..)

namespace Parser
variable {p q : Parser} {data : Bytes}

/-- The part of a block that is not refused is one that a head begins with. -/
theorem scanRequest_take (ready : p.state = .tokenStart) (req : Request) (block : IsBlock data) (n : Nat) :
    (p.scanRequest req (data.take n)).1 = true ↔ ∃ head : RequestHead, data.take n <+: head.bytes := by
  constructor
  · intro accepted
    have started : RequestProgress [] p.state := by
      rw [ready]
      exact Or.inl rfl
    exact (scan_progress (fun req => consumeRequest_progress req) (data.take n) started
      (show IsBlock ([] ++ data.take n ++ data.drop n) by simpa using block) accepted).completed
  · rintro ⟨head, rest, same⟩
    obtain ⟨_, -, parsed⟩ := scanRequest_bytes ready req head
    rw [← same] at parsed
    exact (scan_append p (clearRequest req) (data.take n) rest (congrArg Prod.fst parsed)).1

theorem scanResponse_take (ready : p.state = .tokenStart) (res : Response) (block : IsBlock data) (n : Nat) :
    (p.scanResponse res (data.take n)).1 = true ↔ ∃ head : ResponseHead, data.take n <+: head.bytes := by
  constructor
  · intro accepted
    have started : ResponseProgress [] p.state := by
      rw [ready]
      exact Or.inl rfl
    exact (scan_progress (fun res => consumeResponse_progress res) (data.take n) started
      (show IsBlock ([] ++ data.take n ++ data.drop n) by simpa using block) accepted).completed
  · rintro ⟨head, rest, same⟩
    obtain ⟨_, -, parsed⟩ := scanResponse_bytes ready res head
    rw [← same] at parsed
    exact (scan_append p (clearResponse res) (data.take n) rest (congrArg Prod.fst parsed)).1

theorem parseRequest_eq (ready : p.state = .tokenStart) (req : Request) (block : IsBlock data) :
    (CountedRequest data → p.parseRequest req data = some (p.scanRequest req data)) ∧
    (¬ CountedRequest data → p.parseRequest req data = none) := by
  apply parseLoop_counted
  rw [CountedRequest, ← not_exists, ← scanRequest_take ready req block, Bool.not_eq_true]
  rfl

theorem parseResponse_eq (ready : p.state = .tokenStart) (res : Response) (block : IsBlock data) :
    (CountedResponse data → p.parseResponse res data = some (p.scanResponse res data)) ∧
    (¬ CountedResponse data → p.parseResponse res data = none) := by
  apply parseLoop_counted
  rw [CountedResponse, ← not_exists, ← scanResponse_take ready res block, Bool.not_eq_true]
  rfl

/-- The parse ends, accepts the grammar, reads the parts of a head from it, and
leaves the parser ready for the next head. -/
def ReadsGrammar (p : Parser) (req : Request) (data : Bytes) : Prop :=
  ∃ accepted q parsed, p.parseRequest req data = some (accepted, q, parsed) ∧
    (accepted = true ↔ ∃ head : RequestHead, data = head.bytes) ∧
    (∀ head : RequestHead, data = head.bytes →
      parsed.method = head.method ∧
      parsed.uri = head.uri ∧
      parsed.schemeVersion = head.version ∧
      (∀ name, parsed.headers.find? name = lastValue name head.lines) ∧
      parsed.contentLength =
        ((lastValue HEADER_CONTENT_LENGTH head.lines).map fun value => sizeOfLong (strtol value)).getD 0) ∧
    q.state = .tokenStart

theorem readsGrammar_of_counted (ready : p.state = .tokenStart) (req : Request) (block : IsBlock data)
    (counted : CountedRequest data) : ReadsGrammar p req data :=
  ⟨_, _, _, (parseRequest_eq ready req block).1 counted, scanRequest_grammar ready req block⟩

/-- The parser for requests works for the blocks that its counter has room for, or
of which enough is read to see that they are no head, and for no others. -/
theorem parseRequest_grammar_iff (ready : p.state = .tokenStart) (req : Request)
    (block : endOfFirst RNRN_LINE_BREAK data = some data.length) :
    ReadsGrammar p req data ↔
      data.length < 2 ^ 31 ∨ ∀ head : RequestHead, ¬ data.take (2 ^ 31 - 1) <+: head.bytes := by
  constructor
  · rintro ⟨accepted, q, parsed, ended, -⟩
    by_contra full
    rw [(parseRequest_eq ready req block).2 full] at ended
    cases ended
  · exact readsGrammar_of_counted ready req block

def optionsHead : Bytes := ascii "OPTIONS * RTSP/1.0\r\nCSeq: 1\r\n\r\n"

theorem optionsHead_of_grammar : ReadsGrammar fresh (.new [] [] []) optionsHead :=
  (parseRequest_grammar_iff rfl (.new [] [] []) (by decide +kernel)).mpr (Or.inl (by decide +kernel))

/-- A request without a version or headers, whose uri has the letter a so many times. -/
def longHead (n : Nat) : RequestHead where
  method := [71]
  uri := List.replicate n 97
  version := []
  lines := []
  token := isToken_single (by decide)
  plain := by
    intro byte member
    obtain rfl := List.eq_of_mem_replicate member
    decide
  text := by simp [IsLineText]

theorem longHead_length (n : Nat) : n ≤ (longHead n).bytes.length := by
  simp only [RequestHead.bytes, RequestHead.firstLine, longHead, List.length_append, List.length_cons,
    List.length_replicate]
  omega

/-- The counter overflows before the end of a head of the grammar is seen. -/
theorem longHead_not_read :
    IsBlock (longHead (2 ^ 31)).bytes ∧ IsRequestHead (longHead (2 ^ 31)).bytes ∧
    ¬ ReadsGrammar fresh (.new [] [] []) (longHead (2 ^ 31)).bytes := by
  have block := (longHead (2 ^ 31)).block
  refine ⟨block, ⟨_, rfl⟩, ?_⟩
  rintro ⟨accepted, q, parsed, ended, -⟩
  rw [(parseRequest_eq rfl _ block).2 (by
    rw [RequestHead.counted_iff]
    exact not_lt_of_ge (longHead_length _))] at ended
  cases ended

end Parser
end Apsdk
