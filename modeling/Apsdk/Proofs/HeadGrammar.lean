import Apsdk.Proofs.HeaderBlock

/-! The automaton accepts the heads of the grammar and nothing else. Reading a
head from left to right shows what it is made into; looking back from every
state at what has been read so far shows that no other block is accepted. -/

namespace Apsdk
open Library Apsdk.Parser

namespace Parser

theorem consumeRequest_reads (req : Request) :
    ReadsHeaders true (fun message => { req with toMessage := message }) consumeRequest := by
  intro p message input inside
  obtain ⟨state, code, name, value⟩ := p
  cases state with
  | tokenStart | tokenMethod | tokenUri | tokenSchemeVersion | tokenStatusCode | tokenStatusText => exact inside.elim
  | _ => rfl

theorem consumeResponse_reads (res : Response) :
    ReadsHeaders false (fun message => { res with toMessage := message }) consumeResponse := by
  intro p message input inside
  obtain ⟨state, code, name, value⟩ := p
  cases state with
  | tokenStart | tokenMethod | tokenUri | tokenSchemeVersion | tokenStatusCode | tokenStatusText => exact inside.elim
  | _ => rfl

end Parser

/-- What a head makes of a request: `parse` does not clear the content type. -/
def RequestHead.parsed (head : RequestHead) (req : Request) : Request where
  method := head.method
  uri := head.uri
  schemeVersion := head.version
  headers := headerMap head.lines
  contentLength := contentLengthOf head.lines
  contentType := (lastValue HEADER_CONTENT_TYPE head.lines).getD req.contentType
  content := []

/-- What a head makes of a response: `parse` clears neither headers nor content. -/
def ResponseHead.parsed (head : ResponseHead) (res : Response) : Response where
  schemeVersion := head.version
  statusCode := statusOfLong (strtol head.code)
  statusText := head.text
  headers := res.headers.insertAll (head.lines.map HeaderLine.entry)
  contentLength := contentLengthOf head.lines
  contentType := (lastValue HEADER_CONTENT_TYPE head.lines).getD []
  content := res.content

namespace Parser

theorem scan_requestLine {p : Parser} (ready : p.state = .tokenStart) (req : Request) (head : RequestHead)
    (rest : Bytes) :
    scan consumeRequest p (clearRequest req) (head.firstLine ++ 13 :: rest) =
      scan consumeRequest { p with state := .tokenExpectingNewLine }
        { clearRequest req with method := head.method, uri := head.uri, schemeVersion := head.version } rest := by
  obtain ⟨state, code, name, value⟩ := p
  obtain rfl : state = .tokenStart := ready
  obtain ⟨first, later, named⟩ := List.exists_cons_of_ne_nil head.token.named
  have begins : barred first = false := head.token.plain first (named ▸ List.mem_cons_self ..)
  have method_stretch := scan_stretch consumeRequest
    (fun read => (⟨.tokenMethod, code, name, value⟩, { clearRequest req with method := read })) later
    (fun read byte member => by
      have plain : barred byte = false := head.token.plain byte (named ▸ List.mem_cons_of_mem _ member)
      simp [consumeRequest, not_blank plain, plain]) [first] (32 :: (head.uri ++ 32 :: (head.version ++ 13 :: rest)))
  have uri_stretch := scan_stretch consumeRequest
    (fun read => (⟨.tokenUri, code, name, value⟩, { clearRequest req with method := head.method, uri := read })) head.uri
    (fun read byte member => by
      obtain ⟨blank, char, control⟩ := head.plain byte member
      simp [consumeRequest, blank, char, control]) [] (32 :: (head.version ++ 13 :: rest))
  have version_stretch := scan_stretch consumeRequest
    (fun read => (⟨.tokenSchemeVersion, code, name, value⟩,
      { clearRequest req with method := head.method, uri := head.uri, schemeVersion := read })) head.version
    (fun read byte member => by
      obtain ⟨lineEnd, char⟩ := head.text byte member
      simp [consumeRequest, lineEnd, char]) [] (13 :: rest)
  calc scan consumeRequest ⟨.tokenStart, code, name, value⟩ (clearRequest req) (head.firstLine ++ 13 :: rest)
      _ = scan consumeRequest ⟨.tokenMethod, code, name, value⟩ { clearRequest req with method := [first] }
            (later ++ 32 :: (head.uri ++ 32 :: (head.version ++ 13 :: rest))) := by
        simp [RequestHead.firstLine, named, scan, consumeRequest, begins, clearRequest]
      _ = scan consumeRequest ⟨.tokenMethod, code, name, value⟩ { clearRequest req with method := head.method }
            (32 :: (head.uri ++ 32 :: (head.version ++ 13 :: rest))) := by
        rw [method_stretch, named]
        rfl
      _ = scan consumeRequest ⟨.tokenUri, code, name, value⟩ { clearRequest req with method := head.method }
            (head.uri ++ 32 :: (head.version ++ 13 :: rest)) := scan_more rfl _
      _ = scan consumeRequest ⟨.tokenUri, code, name, value⟩
            { clearRequest req with method := head.method, uri := head.uri } (32 :: (head.version ++ 13 :: rest)) :=
        uri_stretch
      _ = scan consumeRequest ⟨.tokenSchemeVersion, code, name, value⟩
            { clearRequest req with method := head.method, uri := head.uri } (head.version ++ 13 :: rest) :=
        scan_more rfl _
      _ = scan consumeRequest ⟨.tokenSchemeVersion, code, name, value⟩
            { clearRequest req with method := head.method, uri := head.uri, schemeVersion := head.version }
            (13 :: rest) := version_stretch
      _ = _ := scan_more rfl _

/-- A head of the grammar is accepted, whatever the parser and the request were before. -/
theorem scanRequest_bytes {p : Parser} (ready : p.state = .tokenStart) (req : Request) (head : RequestHead) :
    ∃ q, q.state = .tokenStart ∧ p.scanRequest req head.bytes = (true, q, head.parsed req) := by
  obtain ⟨q, done, parsed⟩ := (consumeRequest_reads { clearRequest req with method := head.method, uri := head.uri }
    ).reads_block head.lines (p := { p with state := .tokenExpectingNewLine }) rfl
    { (clearRequest req).toMessage with schemeVersion := head.version }
  refine ⟨q, done, ?_⟩
  have split : head.bytes = head.firstLine ++ 13 :: 10 :: headerBlock head.lines := by
    simp [RequestHead.bytes, RN_LINE_BREAK]
  rw [scanRequest, split, scan_requestLine ready, parsed, foldl_accept]
  rfl

theorem scan_statusLine {p : Parser} (ready : p.state = .tokenStart) (res : Response) (head : ResponseHead)
    (rest : Bytes) :
    scan consumeResponse p (clearResponse res) (head.firstLine ++ 13 :: rest) =
      scan consumeResponse { p with state := .tokenExpectingNewLine, code := head.code }
        { clearResponse res with
          schemeVersion := head.version, statusCode := statusOfLong (strtol head.code), statusText := head.text } rest := by
  obtain ⟨state, code, name, value⟩ := p
  obtain rfl : state = .tokenStart := ready
  obtain ⟨first, later, named, begins⟩ := head.begins.begins
  have version_stretch := scan_stretch consumeResponse
    (fun read => (⟨.tokenSchemeVersion, code, name, value⟩, { clearResponse res with schemeVersion := read })) later
    (fun read byte member => by
      obtain ⟨blank, char⟩ := head.begins.plain byte (named ▸ List.mem_cons_of_mem _ member)
      simp [consumeResponse, blank, char]) [first] (32 :: (head.code ++ 32 :: (head.text ++ 13 :: rest)))
  have code_stretch := scan_stretch consumeResponse
    (fun read => (⟨.tokenStatusCode, read, name, value⟩, { clearResponse res with schemeVersion := head.version }))
    head.code
    (fun read byte member => by
      have digit := head.digits byte member
      have blank : byte ≠ 32 := by
        rintro rfl
        exact absurd digit (by decide)
      have control : isCtl byte = false := by
        simp only [isDigit, Bool.and_eq_true, decide_eq_true_eq] at digit
        simp only [isCtl, Bool.or_eq_false_iff, decide_eq_false_iff_not]
        omega
      simp [consumeResponse, blank, digit, control]) [] (32 :: (head.text ++ 13 :: rest))
  have text_stretch := scan_stretch consumeResponse
    (fun read => (⟨.tokenStatusText, head.code, name, value⟩,
      { clearResponse res with schemeVersion := head.version, statusCode := statusOfLong (strtol head.code), statusText := read }))
    head.text
    (fun read byte member => by
      obtain ⟨lineEnd, char⟩ := head.plain byte member
      simp [consumeResponse, lineEnd, char]) [] (13 :: rest)
  calc scan consumeResponse ⟨.tokenStart, code, name, value⟩ (clearResponse res) (head.firstLine ++ 13 :: rest)
      _ = scan consumeResponse ⟨.tokenSchemeVersion, code, name, value⟩
            { clearResponse res with schemeVersion := [first] }
            (later ++ 32 :: (head.code ++ 32 :: (head.text ++ 13 :: rest))) := by
        simp [ResponseHead.firstLine, named, scan, consumeResponse, begins, clearResponse]
      _ = scan consumeResponse ⟨.tokenSchemeVersion, code, name, value⟩
            { clearResponse res with schemeVersion := head.version }
            (32 :: (head.code ++ 32 :: (head.text ++ 13 :: rest))) := by
        rw [version_stretch, named]
        rfl
      _ = scan consumeResponse ⟨.tokenStatusCode, [], name, value⟩
            { clearResponse res with schemeVersion := head.version }
            (head.code ++ 32 :: (head.text ++ 13 :: rest)) := scan_more rfl _
      _ = scan consumeResponse ⟨.tokenStatusCode, head.code, name, value⟩
            { clearResponse res with schemeVersion := head.version } (32 :: (head.text ++ 13 :: rest)) := code_stretch
      _ = scan consumeResponse ⟨.tokenStatusText, head.code, name, value⟩
            { clearResponse res with schemeVersion := head.version, statusCode := statusOfLong (strtol head.code) }
            (head.text ++ 13 :: rest) := scan_more rfl _
      _ = scan consumeResponse ⟨.tokenStatusText, head.code, name, value⟩
            { clearResponse res with
              schemeVersion := head.version, statusCode := statusOfLong (strtol head.code), statusText := head.text }
            (13 :: rest) := text_stretch
      _ = _ := scan_more rfl _

theorem scanResponse_bytes {p : Parser} (ready : p.state = .tokenStart) (res : Response) (head : ResponseHead) :
    ∃ q, q.state = .tokenStart ∧ p.scanResponse res head.bytes = (true, q, head.parsed res) := by
  obtain ⟨q, done, parsed⟩ := (consumeResponse_reads
    { clearResponse res with statusCode := statusOfLong (strtol head.code), statusText := head.text }).reads_block head.lines
    (p := { p with state := .tokenExpectingNewLine, code := head.code }) rfl
    { (clearResponse res).toMessage with schemeVersion := head.version }
  refine ⟨q, done, ?_⟩
  have split : head.bytes = head.firstLine ++ 13 :: 10 :: headerBlock head.lines := by
    simp [ResponseHead.bytes, RN_LINE_BREAK]
  rw [scanResponse, split, scan_statusLine ready, parsed, foldl_accept]
  rfl

end Parser

def IsRequestHead (data : Bytes) : Prop := ∃ head : RequestHead, data = head.bytes

def IsResponseHead (data : Bytes) : Prop := ∃ head : ResponseHead, data = head.bytes

theorem headerBlock_append (first second : List HeaderLine) :
    headerBlock (first ++ second) = first.flatMap HeaderLine.bytes ++ headerBlock second := by
  simp [headerBlock]

theorem isRequestHead_continues : Continues IsRequestHead := by
  intro before line ⟨head, same⟩
  refine ⟨{ head with lines := head.lines ++ [line] }, ?_⟩
  have known : before = head.firstLine ++ RN_LINE_BREAK ++ head.lines.flatMap HeaderLine.bytes :=
    List.append_cancel_right (same.trans (by simp [RequestHead.bytes, headerBlock]))
  simp [known, RequestHead.bytes, RequestHead.firstLine, headerBlock_append]

theorem isResponseHead_continues : Continues IsResponseHead := by
  intro before line ⟨head, same⟩
  refine ⟨{ head with lines := head.lines ++ [line] }, ?_⟩
  have known : before = head.firstLine ++ RN_LINE_BREAK ++ head.lines.flatMap HeaderLine.bytes :=
    List.append_cancel_right (same.trans (by simp [ResponseHead.bytes, headerBlock]))
  simp [known, ResponseHead.bytes, ResponseHead.firstLine, headerBlock_append]

/-- The line end before the header lines and the empty line behind them. -/
theorem headerBlock_ends (before : Bytes) (lines : List HeaderLine) :
    RNRN_LINE_BREAK <:+ before ++ RN_LINE_BREAK ++ headerBlock lines := by
  rcases List.eq_nil_or_concat lines with rfl | ⟨earlier, line, rfl⟩
  · exact ⟨before, by simp [headerBlock, RNRN_LINE_BREAK, RN_LINE_BREAK]⟩
  · refine ⟨before ++ RN_LINE_BREAK ++ earlier.flatMap HeaderLine.bytes ++ line.text, ?_⟩
    simp [headerBlock, HeaderLine.bytes, RNRN_LINE_BREAK, RN_LINE_BREAK]

theorem IsBlock.ends {data : Bytes} (block : IsBlock data) : RNRN_LINE_BREAK <:+ data := by
  have suffix := (endOfFirst_suffix block).2
  rwa [List.take_length] at suffix

/-- A block goes on after every part of it that has an empty line at its end. -/
theorem IsBlock.open {read rest : Bytes} (block : IsBlock (read ++ rest)) (more : rest ≠ []) :
    ¬ RNRN_LINE_BREAK <:+ read := by
  intro suffix
  obtain ⟨n, bound, found⟩ := endOfFirst_of_suffix suffix
  have same := Option.some.inj (block.symm.trans (endOfFirst_append found rest))
  have positive := List.length_pos_of_ne_nil more
  rw [List.length_append] at same
  omega

/-- What has been read of a request, by the state the automaton is in. -/
def RequestProgress (read : Bytes) : ParserState → Prop
  | .tokenStart => read = [] ∨ IsRequestHead read
  | .tokenMethod => IsToken read
  | .tokenUri => ∃ method uri, IsToken method ∧
    (∀ byte ∈ uri, byte ≠ 32 ∧ isChar byte = true ∧ isCtl byte = false) ∧ read = method ++ 32 :: uri
  | .tokenSchemeVersion => ∃ method uri version, IsToken method ∧
    (∀ byte ∈ uri, byte ≠ 32 ∧ isChar byte = true ∧ isCtl byte = false) ∧ IsLineText version ∧
    read = method ++ 32 :: uri ++ 32 :: version
  | state => HeaderProgress IsRequestHead read state

theorem HeaderProgress.request {read : Bytes} {state : ParserState} (progress : HeaderProgress IsRequestHead read state) :
    RequestProgress read state := by
  cases state with
  | tokenStart | tokenMethod | tokenUri | tokenSchemeVersion => exact progress.elim
  | _ => exact progress

theorem IsLineText.snoc {text : Bytes} (plain : IsLineText text) {byte : UInt8} (inside : byte ≠ 13)
    (char : isChar byte = true) : IsLineText (text ++ [byte]) :=
  List.forall_mem_append.mpr ⟨plain, List.forall_mem_singleton.mpr ⟨inside, char⟩⟩

namespace Parser
variable {p : Parser} {read : Bytes} {input : UInt8}

theorem consumeRequest_progress (req : Request) (progress : RequestProgress read p.state)
    (unfinished : ¬ RNRN_LINE_BREAK <:+ read) (accepted : (p.consumeRequest req input).1 ≠ .parseFail) :
    RequestProgress (read ++ [input])
      (settle (p.consumeRequest req input).1 (p.consumeRequest req input).2.1).state := by
  obtain ⟨state, code, name, value⟩ := p
  cases state with
  | tokenStart =>
    rcases progress with rfl | ⟨head, rfl⟩
    · by_cases plain : barred input = false
      · simpa [consumeRequest, plain, settle, RequestProgress] using isToken_single plain
      · simp [consumeRequest, plain] at accepted
    · exact absurd (headerBlock_ends head.firstLine head.lines) unfinished
  | tokenMethod =>
    by_cases blank : input = 32
    · simp only [consumeRequest, blank, if_true, settle]
      exact ⟨read, [], progress, by simp, rfl⟩
    · by_cases plain : barred input = false
      · simpa [consumeRequest, blank, plain, settle, RequestProgress] using IsToken.snoc progress plain
      · simp [consumeRequest, blank, plain] at accepted
  | tokenUri =>
    obtain ⟨method, uri, token, plain, rfl⟩ := progress
    by_cases blank : input = 32
    · simp only [consumeRequest, blank, if_true, settle]
      exact ⟨method, uri, [], token, plain, by simp [IsLineText], rfl⟩
    · by_cases allowed : isChar input = true ∧ isCtl input = false
      · simp only [consumeRequest, blank, if_false, allowed.1, allowed.2, Bool.not_true, Bool.false_or,
          Bool.false_eq_true, settle]
        exact ⟨method, uri ++ [input], token,
          List.forall_mem_append.mpr ⟨plain, List.forall_mem_singleton.mpr ⟨blank, allowed⟩⟩, by simp⟩
      · have rejected : (!isChar input || isCtl input) = true := by
          cases char : isChar input <;> cases control : isCtl input <;> simp_all
        simp [consumeRequest, blank, rejected] at accepted
  | tokenSchemeVersion =>
    obtain ⟨method, uri, version, token, plain, text, rfl⟩ := progress
    by_cases lineEnd : input = 13
    · simp only [consumeRequest, lineEnd, if_true, settle, RequestProgress, HeaderProgress]
      exact ⟨⟨method, uri, version, [], token, plain, text⟩, by
        simp [RequestHead.bytes, RequestHead.firstLine, headerBlock, RN_LINE_BREAK]⟩
    · by_cases char : isChar input = true
      · simp only [consumeRequest, lineEnd, if_false, char, Bool.not_true, Bool.false_eq_true, settle]
        exact ⟨method, uri, version ++ [input], token, plain, text.snoc lineEnd char, by simp⟩
      · simp [consumeRequest, lineEnd, char] at accepted
  | tokenStatusCode | tokenStatusText => exact progress.elim
  | tokenExpectingNewLine | tokenHeaderLineStart | tokenHeaderName | tokenSpaceBeforeHeaderValue | tokenHeaderValue
      | tokenExpectingLastLine =>
    refine ((consumeRequest_reads req).progress isRequestHead_continues req.toMessage read ?_ accepted).elim ?_ ?_
    · exact progress
    · rintro ⟨done, head⟩
      rw [done]
      exact Or.inr head
    · rintro ⟨more, next⟩
      rw [more]
      exact next.request

/-- A step that keeps track of what has been read keeps track of it to the end of a block. -/
theorem scan_progress {α : Type} {consume : Parser → α → UInt8 → ParseResult × Parser × α}
    {Progress : Bytes → ParserState → Prop}
    (step : ∀ {p : Parser} {read : Bytes} {input : UInt8} (message : α), Progress read p.state →
      ¬ RNRN_LINE_BREAK <:+ read → (consume p message input).1 ≠ .parseFail →
      Progress (read ++ [input]) (settle (consume p message input).1 (consume p message input).2.1).state)
    (data : Bytes) {p : Parser} {read : Bytes} {message : α} (progress : Progress read p.state)
    {later : Bytes} (block : IsBlock (read ++ data ++ later)) (accepted : (scan consume p message data).1 = true) :
    Progress (read ++ data) (scan consume p message data).2.1.state := by
  induction data generalizing p read message with
  | nil => rwa [List.append_nil]
  | cons input rest ih =>
    have unfinished : ¬ RNRN_LINE_BREAK <:+ read := by
      rw [List.append_assoc] at block
      exact block.open (List.cons_ne_nil input (rest ++ later))
    rw [scan_cons] at accepted ⊢
    split_ifs at accepted with rejected
    rw [if_neg rejected]
    have split : read ++ input :: rest = read ++ [input] ++ rest := by simp
    rw [split] at block ⊢
    exact ih (step message progress unfinished rejected) block accepted

theorem scan_rejected {α : Type} {consume : Parser → α → UInt8 → ParseResult × Parser × α} (p : Parser)
    (message : α) (data : Bytes) (rejected : (scan consume p message data).1 = false) :
    (scan consume p message data).2.1.state = .tokenStart := by
  induction data generalizing p message with
  | nil => cases rejected
  | cons input rest ih =>
    rw [scan_cons] at rejected ⊢
    split_ifs at rejected ⊢ with failed
    · rfl
    · exact ih _ _ rejected

/-- The parser is ready for the next head after every head, accepted or not. -/
theorem scanRequest_state (p : Parser) (req : Request) {data : Bytes} (block : IsBlock data) :
    (p.scanRequest req data).2.1.state = .tokenStart := by
  cases outcome : (p.scanRequest req data).1 with
  | true => exact scanRequest_ready p req block.ends outcome
  | false => exact scan_rejected p (clearRequest req) data outcome

theorem scanRequest_accepts_iff {p : Parser} (ready : p.state = .tokenStart) (req : Request) {data : Bytes}
    (block : IsBlock data) : (p.scanRequest req data).1 = true ↔ IsRequestHead data := by
  constructor
  · intro accepted
    have started : RequestProgress [] p.state := by
      rw [ready]
      exact Or.inl rfl
    have progress := scan_progress (fun req => consumeRequest_progress req) data started
      (show IsBlock ([] ++ data ++ []) by rwa [List.append_nil]) accepted
    have finished := scanRequest_ready p req (block.ends) accepted
    rw [scanRequest] at finished
    rw [finished, List.nil_append] at progress
    rcases progress with rfl | head
    · cases block
    · exact head
  · rintro ⟨head, rfl⟩
    obtain ⟨q, -, parsed⟩ := scanRequest_bytes ready req head
    rw [parsed]

/-- The automaton for requests accepts its grammar, reads the parts of the head
from it, and is ready for the next head afterwards. -/
theorem scanRequest_grammar {p : Parser} (ready : p.state = .tokenStart) (req : Request) {data : Bytes}
    (block : endOfFirst RNRN_LINE_BREAK data = some data.length) :
    ((p.scanRequest req data).1 = true ↔ ∃ head : RequestHead, data = head.bytes) ∧
    (∀ head : RequestHead, data = head.bytes →
      (p.scanRequest req data).2.2.method = head.method ∧
      (p.scanRequest req data).2.2.uri = head.uri ∧
      (p.scanRequest req data).2.2.schemeVersion = head.version ∧
      (∀ name, (p.scanRequest req data).2.2.headers.find? name = lastValue name head.lines) ∧
      (p.scanRequest req data).2.2.contentLength =
        ((lastValue HEADER_CONTENT_LENGTH head.lines).map fun value => sizeOfLong (strtol value)).getD 0) ∧
    (p.scanRequest req data).2.1.state = .tokenStart := by
  refine ⟨scanRequest_accepts_iff ready req block, ?_, scanRequest_state p req block⟩
  rintro head rfl
  obtain ⟨q, -, parsed⟩ := scanRequest_bytes ready req head
  rw [parsed]
  exact ⟨rfl, rfl, rfl, fun name => by simp [RequestHead.parsed, headerMap, lastValue], rfl⟩

end Parser

/-- What has been read of a response, by the state the automaton is in. -/
def ResponseProgress (read : Bytes) : ParserState → Prop
  | .tokenStart => read = [] ∨ IsResponseHead read
  | .tokenSchemeVersion => IsVersion read
  | .tokenStatusCode => ∃ version code, IsVersion version ∧ (∀ byte ∈ code, isDigit byte = true) ∧
    read = version ++ 32 :: code
  | .tokenStatusText => ∃ version code text, IsVersion version ∧ (∀ byte ∈ code, isDigit byte = true) ∧
    IsLineText text ∧ read = version ++ 32 :: code ++ 32 :: text
  | state => HeaderProgress IsResponseHead read state

theorem HeaderProgress.response {read : Bytes} {state : ParserState}
    (progress : HeaderProgress IsResponseHead read state) : ResponseProgress read state := by
  cases state with
  | tokenStart | tokenSchemeVersion | tokenStatusCode | tokenStatusText => exact progress.elim
  | _ => exact progress

theorem IsVersion.snoc {text : Bytes} (version : IsVersion text) {byte : UInt8} (inside : byte ≠ 32)
    (char : isChar byte = true) : IsVersion (text ++ [byte]) := by
  obtain ⟨first, later, rfl, begins⟩ := version.begins
  exact ⟨⟨first, later ++ [byte], rfl, begins⟩,
    List.forall_mem_append.mpr ⟨version.plain, List.forall_mem_singleton.mpr ⟨inside, char⟩⟩⟩

theorem isVersion_single {byte : UInt8} (plain : barred byte = false) : IsVersion [byte] := by
  refine ⟨⟨byte, [], rfl, plain⟩, List.forall_mem_singleton.mpr ⟨not_blank plain, ?_⟩⟩
  simp only [barred, Bool.or_eq_false_iff, Bool.not_eq_false'] at plain
  exact plain.1.1

namespace Parser
variable {p : Parser} {read : Bytes} {input : UInt8}

theorem consumeResponse_progress (res : Response) (progress : ResponseProgress read p.state)
    (unfinished : ¬ RNRN_LINE_BREAK <:+ read) (accepted : (p.consumeResponse res input).1 ≠ .parseFail) :
    ResponseProgress (read ++ [input])
      (settle (p.consumeResponse res input).1 (p.consumeResponse res input).2.1).state := by
  obtain ⟨state, code, name, value⟩ := p
  cases state with
  | tokenStart =>
    rcases progress with rfl | ⟨head, rfl⟩
    · by_cases plain : barred input = false
      · simpa [consumeResponse, plain, settle, ResponseProgress] using isVersion_single plain
      · simp [consumeResponse, plain] at accepted
    · exact absurd (headerBlock_ends head.firstLine head.lines) unfinished
  | tokenSchemeVersion =>
    by_cases blank : input = 32
    · simp only [consumeResponse, blank, if_true, settle]
      exact ⟨read, [], progress, by simp, rfl⟩
    · by_cases char : isChar input = true
      · simpa [consumeResponse, blank, char, settle, ResponseProgress] using IsVersion.snoc progress blank char
      · simp [consumeResponse, blank, char] at accepted
  | tokenStatusCode =>
    obtain ⟨version, number, begins, digits, rfl⟩ := progress
    by_cases blank : input = 32
    · simp only [consumeResponse, blank, if_true, settle]
      exact ⟨version, number, [], begins, digits, by simp [IsLineText], rfl⟩
    · by_cases allowed : isDigit input = true ∧ isCtl input = false
      · simp only [consumeResponse, blank, if_false, allowed.1, allowed.2, Bool.not_true, Bool.false_or,
          Bool.false_eq_true, settle]
        exact ⟨version, number ++ [input], begins,
          List.forall_mem_append.mpr ⟨digits, List.forall_mem_singleton.mpr allowed.1⟩, by simp⟩
      · have rejected : (!isDigit input || isCtl input) = true := by
          cases digit : isDigit input <;> cases control : isCtl input <;> simp_all
        simp [consumeResponse, blank, rejected] at accepted
  | tokenStatusText =>
    obtain ⟨version, number, text, begins, digits, plain, rfl⟩ := progress
    by_cases lineEnd : input = 13
    · simp only [consumeResponse, lineEnd, if_true, settle, ResponseProgress, HeaderProgress]
      exact ⟨⟨version, number, text, [], begins, digits, plain⟩, by
        simp [ResponseHead.bytes, ResponseHead.firstLine, headerBlock, RN_LINE_BREAK]⟩
    · by_cases char : isChar input = true
      · simp only [consumeResponse, lineEnd, if_false, char, Bool.not_true, Bool.false_eq_true, settle]
        exact ⟨version, number, text ++ [input], begins, digits, plain.snoc lineEnd char, by simp⟩
      · simp [consumeResponse, lineEnd, char] at accepted
  | tokenMethod | tokenUri => exact progress.elim
  | tokenExpectingNewLine | tokenHeaderLineStart | tokenHeaderName | tokenSpaceBeforeHeaderValue | tokenHeaderValue
      | tokenExpectingLastLine =>
    refine ((consumeResponse_reads res).progress isResponseHead_continues res.toMessage read ?_ accepted).elim ?_ ?_
    · exact progress
    · rintro ⟨done, head⟩
      rw [done]
      exact Or.inr head
    · rintro ⟨more, next⟩
      rw [more]
      exact next.response

/-- A block without a blank is taken for a version that has not ended yet. -/
theorem scanResponse_version (ready : p.state = .tokenStart) (res : Response) {data : Bytes} (version : IsVersion data) :
    p.scanResponse res data =
      (true, { p with state := .tokenSchemeVersion }, { clearResponse res with schemeVersion := data }) := by
  obtain ⟨state, code, name, value⟩ := p
  obtain rfl : state = .tokenStart := ready
  obtain ⟨first, later, rfl, begins⟩ := version.begins
  have stretch := scan_stretch consumeResponse
    (fun read => (⟨.tokenSchemeVersion, code, name, value⟩, { clearResponse res with schemeVersion := read })) later
    (fun read byte member => by
      obtain ⟨blank, char⟩ := version.plain byte (List.mem_cons_of_mem _ member)
      simp [consumeResponse, blank, char]) [first] []
  rw [List.append_nil] at stretch
  calc scanResponse ⟨.tokenStart, code, name, value⟩ res (first :: later)
      _ = scan consumeResponse ⟨.tokenSchemeVersion, code, name, value⟩
            { clearResponse res with schemeVersion := [first] } later := by
        simp [scanResponse, scan, consumeResponse, begins, clearResponse]
      _ = _ := stretch

theorem scanResponse_accepts_iff (ready : p.state = .tokenStart) (res : Response) {data : Bytes}
    (block : IsBlock data) : (p.scanResponse res data).1 = true ↔ IsResponseHead data ∨ IsVersion data := by
  constructor
  · intro accepted
    have started : ResponseProgress [] p.state := by
      rw [ready]
      exact Or.inl rfl
    have progress := scan_progress (fun res => consumeResponse_progress res) data started
      (show IsBlock ([] ++ data ++ []) by rwa [List.append_nil]) accepted
    have finished := scanResponse_ready p res block.ends accepted
    rw [scanResponse] at finished
    rw [List.nil_append] at progress
    rcases finished with finished | finished
    · rw [finished] at progress
      rcases progress with rfl | head
      · cases block
      · exact Or.inl head
    · rw [finished] at progress
      exact Or.inr progress
  · rintro (⟨head, rfl⟩ | version)
    · obtain ⟨q, -, parsed⟩ := scanResponse_bytes ready res head
      rw [parsed]
    · rw [scanResponse_version ready res version]

end Parser
end Apsdk
