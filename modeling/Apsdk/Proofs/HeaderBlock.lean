import Apsdk.MessageGrammar
import Apsdk.Proofs.MessageHead

/-! The header lines of a head, which both kinds of message have in common: what
the automaton makes of a block of them, and what it has read when it stops. -/

namespace Apsdk
open Library Apsdk.Parser

namespace Parser
variable {α : Type} {consume : Parser → α → UInt8 → ParseResult × Parser × α}

theorem scan_more {p next : Parser} {message parsed : α} {input : UInt8}
    (taken : consume p message input = (.parseMore, next, parsed)) (rest : Bytes) :
    scan consume p message (input :: rest) = scan consume next parsed rest := by
  simp [scan, taken]

/-- A stretch whose bytes are collected one by one. -/
theorem scan_stretch (consume : Parser → α → UInt8 → ParseResult × Parser × α)
    (reached : Bytes → Parser × α) (stretch : Bytes)
    (collects : ∀ read, ∀ byte ∈ stretch, consume (reached read).1 (reached read).2 byte =
      (.parseMore, (reached (read ++ [byte])).1, (reached (read ++ [byte])).2)) (read rest : Bytes) :
    scan consume (reached read).1 (reached read).2 (stretch ++ rest) =
      scan consume (reached (read ++ stretch)).1 (reached (read ++ stretch)).2 rest := by
  induction stretch generalizing read with
  | nil => rw [List.append_nil, List.nil_append]
  | cons byte stretch ih =>
    have later := ih (fun read other member => collects read other (List.mem_cons_of_mem _ member)) (read ++ [byte])
    rw [List.cons_append, scan_more (collects read byte (List.mem_cons_self ..)), later, List.append_assoc]
    rfl

theorem not_colon {byte : UInt8} (plain : barred byte = false) : byte ≠ 58 := by
  rintro rfl
  exact absurd plain (by decide)

theorem not_lineEnd {byte : UInt8} (plain : barred byte = false) : byte ≠ 13 := by
  rintro rfl
  exact absurd plain (by decide)

theorem not_blank {byte : UInt8} (plain : barred byte = false) : byte ≠ 32 := by
  rintro rfl
  exact absurd plain (by decide)

theorem not_lineEnd_of_isCtl {byte : UInt8} (plain : isCtl byte = false) : byte ≠ 13 := by
  rintro rfl
  exact absurd plain (by decide)

end Parser

/-- The message after a header line. -/
def HeaderLine.accept (message : Message) (line : HeaderLine) : Message :=
  Parser.acceptHeader ⟨.tokenHeaderValue, [], line.name, line.value⟩ message

theorem acceptHeader_eq (p : Parser) (message : Message) (line : HeaderLine) (named : p.name = line.name)
    (valued : p.value = line.value) : p.acceptHeader message = line.accept message := by
  simp only [HeaderLine.accept, Parser.acceptHeader, named, valued]

namespace Parser
variable (request : Bool)

/-- One header line, from the line feed of the line before to its own carriage return. -/
theorem scan_headerLine {p : Parser} (ready : p.state = .tokenExpectingNewLine) (message : Message)
    (line : HeaderLine) (rest : Bytes) :
    ∃ q, q.state = .tokenExpectingNewLine ∧ q.code = p.code ∧
      scan (consumeHeaders request) p message (10 :: (line.text ++ 13 :: rest)) =
        scan (consumeHeaders request) q (line.accept message) rest := by
  obtain ⟨state, code, name, value⟩ := p
  obtain rfl : state = .tokenExpectingNewLine := ready
  obtain ⟨first, later, named⟩ := List.exists_cons_of_ne_nil line.token.named
  have begins : barred first = false := line.token.plain first (named ▸ List.mem_cons_self ..)
  have name_stretch := scan_stretch (consumeHeaders request)
    (fun read => (⟨.tokenHeaderName, code, read, value⟩, message)) later
    (fun read byte member => by
      have plain : barred byte = false := line.token.plain byte (named ▸ List.mem_cons_of_mem _ member)
      simp [consumeHeaders, not_colon plain, plain]) [first] (58 :: 32 :: (line.value ++ 13 :: rest))
  have value_stretch := scan_stretch (consumeHeaders request)
    (fun read => (⟨.tokenHeaderValue, code, line.name, read⟩, message)) line.value
    (fun read byte member => by
      have plain : isCtl byte = false := line.plain byte member
      simp [consumeHeaders, not_lineEnd_of_isCtl plain, plain]) [] (13 :: rest)
  refine ⟨⟨.tokenExpectingNewLine, code, line.name, line.value⟩, rfl, rfl, ?_⟩
  calc scan (consumeHeaders request) ⟨.tokenExpectingNewLine, code, name, value⟩ message
        (10 :: (line.text ++ 13 :: rest))
      _ = scan (consumeHeaders request) ⟨.tokenHeaderName, code, [first], value⟩ message
            (later ++ 58 :: 32 :: (line.value ++ 13 :: rest)) := by
        simp [HeaderLine.text, named, scan, consumeHeaders, begins, not_lineEnd begins]
      _ = scan (consumeHeaders request) ⟨.tokenHeaderName, code, line.name, value⟩ message
            (58 :: 32 :: (line.value ++ 13 :: rest)) := by
        rw [name_stretch, named]
        rfl
      _ = scan (consumeHeaders request) ⟨.tokenHeaderValue, code, line.name, []⟩ message
            (line.value ++ 13 :: rest) := by
        cases request <;> simp [scan, consumeHeaders]
      _ = scan (consumeHeaders request) ⟨.tokenHeaderValue, code, line.name, line.value⟩ message (13 :: rest) :=
        value_stretch
      _ = scan (consumeHeaders request) ⟨.tokenExpectingNewLine, code, line.name, line.value⟩
            (line.accept message) rest := scan_more (by simp [consumeHeaders, acceptHeader_eq _ _ line]) rest

/-- A block of header lines is accepted, line after line. -/
theorem scan_headerBlock (lines : List HeaderLine) {p : Parser} (ready : p.state = .tokenExpectingNewLine)
    (message : Message) :
    ∃ q, q.state = .tokenStart ∧
      scan (consumeHeaders request) p message (10 :: headerBlock lines) =
        (true, q, lines.foldl HeaderLine.accept message) := by
  induction lines generalizing p message with
  | nil =>
    obtain ⟨state, code, name, value⟩ := p
    obtain rfl : state = .tokenExpectingNewLine := ready
    refine ⟨⟨.tokenStart, code, [], value⟩, rfl, ?_⟩
    simp [headerBlock, RN_LINE_BREAK, scan, consumeHeaders]
  | cons line lines ih =>
    obtain ⟨q, next, -, same⟩ := scan_headerLine request ready message line (10 :: headerBlock lines)
    obtain ⟨final, done, later⟩ := ih next (line.accept message)
    refine ⟨final, done, ?_⟩
    rw [List.foldl_cons, ← later, ← same]
    simp [headerBlock, HeaderLine.bytes, RN_LINE_BREAK]

end Parser

/-- What the fold over the header lines leaves in a message. -/
theorem foldl_accept (lines : List HeaderLine) (message : Message) :
    lines.foldl HeaderLine.accept message =
      { message with
        headers := message.headers.insertAll (lines.map HeaderLine.entry)
        contentLength := ((lastValue HEADER_CONTENT_LENGTH lines).map fun value => sizeOfLong (strtol value)).getD
          message.contentLength
        contentType := (lastValue HEADER_CONTENT_TYPE lines).getD message.contentType } := by
  induction lines generalizing message with
  | nil => rfl
  | cons line lines ih =>
    rw [List.foldl_cons, ih]
    have distinct : HEADER_CONTENT_LENGTH ≠ HEADER_CONTENT_TYPE := by decide
    have next : ∀ name, lastValue name (line :: lines) =
        (lastValue name lines).or (if line.name = name then some line.value else none) := by
      intro name
      by_cases same : line.name = name <;> simp [lastValue, SortedMap.lastValue, HeaderLine.entry, same]
    have headers : ∀ map : HeaderMap, map.insertAll ((line :: lines).map HeaderLine.entry) =
        (map.insert line.name line.value).insertAll (lines.map HeaderLine.entry) := fun _ => rfl
    simp only [next, headers, HeaderLine.accept, acceptHeader]
    by_cases length : line.name = HEADER_CONTENT_LENGTH
    · simp only [length, if_true, if_neg distinct]
      cases lastValue HEADER_CONTENT_LENGTH lines <;> simp
    · by_cases type : line.name = HEADER_CONTENT_TYPE
      · simp only [type, if_true, if_neg distinct.symm]
        cases lastValue HEADER_CONTENT_TYPE lines <;> simp
      · simp [length, type]

/-- A part of a head that lacks only the empty line is continued by a header line. -/
def Continues (IsHead : Bytes → Prop) : Prop :=
  ∀ (before : Bytes) (line : HeaderLine), IsHead (before ++ RN_LINE_BREAK) → IsHead (before ++ headerBlock [line])

/-- What has been read of a head, by the state among its header lines. -/
def HeaderProgress (IsHead : Bytes → Prop) (read : Bytes) : ParserState → Prop
  | .tokenExpectingNewLine => IsHead (read ++ 10 :: RN_LINE_BREAK)
  | .tokenHeaderLineStart => IsHead (read ++ RN_LINE_BREAK)
  | .tokenHeaderName => ∃ before name, IsHead (before ++ RN_LINE_BREAK) ∧ IsToken name ∧ read = before ++ name
  | .tokenSpaceBeforeHeaderValue =>
    ∃ before name, IsHead (before ++ RN_LINE_BREAK) ∧ IsToken name ∧ read = before ++ name ++ [58]
  | .tokenHeaderValue => ∃ before name value,
    IsHead (before ++ RN_LINE_BREAK) ∧ IsToken name ∧ IsValue value ∧ read = before ++ name ++ 58 :: 32 :: value
  | .tokenExpectingLastLine => IsHead (read ++ [10])
  | _ => False

theorem IsToken.snoc {text : Bytes} (token : IsToken text) {byte : UInt8} (plain : barred byte = false) :
    IsToken (text ++ [byte]) :=
  ⟨by simp, List.forall_mem_append.mpr ⟨token.plain, List.forall_mem_singleton.mpr plain⟩⟩

theorem isToken_single {byte : UInt8} (plain : barred byte = false) : IsToken [byte] :=
  ⟨by simp, List.forall_mem_singleton.mpr plain⟩

theorem IsValue.snoc {text : Bytes} (value : IsValue text) {byte : UInt8} (plain : isCtl byte = false) :
    IsValue (text ++ [byte]) :=
  List.forall_mem_append.mpr ⟨value, List.forall_mem_singleton.mpr plain⟩

theorem consumeHeaders_progress {IsHead : Bytes → Prop} (continues : Continues IsHead) (request : Bool) {p : Parser}
    {message : Message} {read : Bytes} (progress : HeaderProgress IsHead read p.state) (input : UInt8)
    (accepted : (p.consumeHeaders request message input).1 ≠ .parseFail) :
    ((p.consumeHeaders request message input).1 = .parseDone ∧ IsHead (read ++ [input])) ∨
    ((p.consumeHeaders request message input).1 = .parseMore ∧
      HeaderProgress IsHead (read ++ [input]) (p.consumeHeaders request message input).2.1.state) := by
  obtain ⟨state, code, name, value⟩ := p
  cases state with
  | tokenExpectingNewLine =>
    by_cases feed : input = 10
    · right
      simpa [Parser.consumeHeaders, feed, HeaderProgress] using progress
    · simp [Parser.consumeHeaders, feed] at accepted
  | tokenHeaderLineStart =>
    by_cases lineEnd : input = 13
    · right
      simpa [Parser.consumeHeaders, lineEnd, HeaderProgress, RN_LINE_BREAK] using progress
    · by_cases plain : barred input = false
      · right
        simp only [Parser.consumeHeaders, lineEnd, plain, if_false, Bool.false_eq_true, true_and]
        exact ⟨read, [input], progress, isToken_single plain, rfl⟩
      · simp [Parser.consumeHeaders, lineEnd, plain] at accepted
  | tokenHeaderName =>
    obtain ⟨before, name, head, token, rfl⟩ := progress
    by_cases colon : input = 58
    · right
      simp only [Parser.consumeHeaders, colon, if_true, true_and]
      exact ⟨before, name, head, token, rfl⟩
    · by_cases plain : barred input = false
      · right
        simp only [Parser.consumeHeaders, colon, plain, if_false, Bool.false_eq_true, true_and]
        exact ⟨before, name ++ [input], head, token.snoc plain, List.append_assoc ..⟩
      · simp [Parser.consumeHeaders, colon, plain] at accepted
  | tokenSpaceBeforeHeaderValue =>
    obtain ⟨before, name, head, token, rfl⟩ := progress
    by_cases blank : input = 32
    · right
      simp only [Parser.consumeHeaders, blank, if_true, true_and]
      exact ⟨before, name, [], head, token, by simp [IsValue], by simp⟩
    · simp [Parser.consumeHeaders, blank] at accepted
  | tokenHeaderValue =>
    obtain ⟨before, name, value, head, token, plain, rfl⟩ := progress
    by_cases lineEnd : input = 13
    · right
      have next := continues before ⟨name, value, token, plain⟩ head
      simpa [Parser.consumeHeaders, lineEnd, HeaderProgress, headerBlock, HeaderLine.bytes, HeaderLine.text,
        RN_LINE_BREAK] using next
    · by_cases control : isCtl input = false
      · right
        simp only [Parser.consumeHeaders, lineEnd, control, if_false, Bool.false_eq_true, true_and]
        exact ⟨before, name, value ++ [input], head, token, plain.snoc control, by simp⟩
      · simp [Parser.consumeHeaders, lineEnd, control] at accepted
  | tokenExpectingLastLine =>
    by_cases feed : input = 10
    · left
      subst feed
      exact ⟨by simp [Parser.consumeHeaders], progress⟩
    · simp [Parser.consumeHeaders, feed] at accepted
  | tokenStart | tokenMethod | tokenUri | tokenSchemeVersion | tokenStatusCode | tokenStatusText =>
    exact progress.elim

namespace Parser
variable {α : Type} {consume : Parser → α → UInt8 → ParseResult × Parser × α} {embed : Message → α} {request : Bool}

/-- The states among the header lines. -/
def InHeaders : ParserState → Prop
  | .tokenExpectingNewLine | .tokenHeaderLineStart | .tokenHeaderName | .tokenSpaceBeforeHeaderValue | .tokenHeaderValue
  | .tokenExpectingLastLine => True
  | _ => False

theorem inHeaders_of_accepted {p : Parser} {message : Message} {input : UInt8}
    (accepted : (p.consumeHeaders request message input).1 ≠ .parseFail) : InHeaders p.state := by
  obtain ⟨state, code, name, value⟩ := p
  cases state with
  | tokenStart | tokenMethod | tokenUri | tokenSchemeVersion | tokenStatusCode | tokenStatusText => exact absurd rfl accepted
  | _ => trivial

theorem inHeaders_of_progress {IsHead : Bytes → Prop} {read : Bytes} {state : ParserState}
    (progress : HeaderProgress IsHead read state) : InHeaders state := by
  cases state with
  | tokenStart | tokenMethod | tokenUri | tokenSchemeVersion | tokenStatusCode | tokenStatusText => exact progress.elim
  | _ => trivial

/-- An overload of `consume` that reads header lines into the message inside of its object. -/
def ReadsHeaders (request : Bool) (embed : Message → α) (consume : Parser → α → UInt8 → ParseResult × Parser × α) : Prop :=
  ∀ p message input, InHeaders p.state → consume p (embed message) input =
    ((p.consumeHeaders request message input).1, (p.consumeHeaders request message input).2.1,
      embed (p.consumeHeaders request message input).2.2)

theorem ReadsHeaders.reads_block (reads : ReadsHeaders request embed consume) (lines : List HeaderLine) {p : Parser}
    (ready : p.state = .tokenExpectingNewLine) (message : Message) :
    ∃ q, q.state = .tokenStart ∧
      scan consume p (embed message) (10 :: headerBlock lines) = (true, q, embed (lines.foldl HeaderLine.accept message)) := by
  obtain ⟨q, done, parsed⟩ := scan_headerBlock request lines ready message
  have accepted : (scan (consumeHeaders request) p message (10 :: headerBlock lines)).1 = true := by
    rw [parsed]
  have related : ∀ p message q other input, q = p ∧ other = embed message →
      (consumeHeaders request p message input).1 ≠ .parseFail →
      (consume q other input).1 = (consumeHeaders request p message input).1 ∧
      (settle (consumeHeaders request p message input).1 (consume q other input).2.1 =
          settle (consumeHeaders request p message input).1 (consumeHeaders request p message input).2.1 ∧
        (consume q other input).2.2 = embed (consumeHeaders request p message input).2.2) := by
    rintro p message q other input ⟨rfl, rfl⟩ taken
    rw [reads q message input (inHeaders_of_accepted taken)]
    exact ⟨rfl, rfl, rfl⟩
  obtain ⟨again, same, embedded⟩ := scan_related (fun p message q other => q = p ∧ other = embed message) related
    (10 :: headerBlock lines) ⟨rfl, rfl⟩ accepted
  rw [parsed] at same embedded
  exact ⟨q, done, Prod.ext again (Prod.ext same embedded)⟩

theorem ReadsHeaders.progress (reads : ReadsHeaders request embed consume) {IsHead : Bytes → Prop} (continues : Continues IsHead)
    {p : Parser} (message : Message) (read : Bytes) {input : UInt8} (progress : HeaderProgress IsHead read p.state)
    (accepted : (consume p (embed message) input).1 ≠ .parseFail) :
    ((consume p (embed message) input).1 = .parseDone ∧ IsHead (read ++ [input])) ∨
    ((consume p (embed message) input).1 = .parseMore ∧
      HeaderProgress IsHead (read ++ [input]) (consume p (embed message) input).2.1.state) := by
  rw [reads p message input (inHeaders_of_progress progress)] at accepted ⊢
  exact consumeHeaders_progress continues request progress input accepted

end Parser

end Apsdk
