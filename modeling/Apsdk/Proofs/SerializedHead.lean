import Apsdk.Proofs.CountedParse

/-! Serialised messages. The head that `serialize` writes is one of the grammar,
with the first empty line at its end, and parsing it gives the message back. -/

namespace Apsdk
open Library Apsdk.Parser

namespace Parser

theorem strtolDigits_append (value : Nat) {digits : Bytes}
    (plain : ∀ byte ∈ digits, 48 ≤ byte.toNat ∧ byte.toNat ≤ 57) (rest : Bytes) :
    strtolDigits value (digits ++ rest) = strtolDigits (strtolDigits value digits) rest := by
  induction digits generalizing value with
  | nil => rfl
  | cons byte digits ih =>
    obtain ⟨digit, later⟩ := List.forall_mem_cons.mp plain
    simp only [List.cons_append, strtolDigits, digit, and_self, if_true]
    exact ih _ later

theorem strtolDigits_decimal (n : Nat) : strtolDigits 0 (decimal n) = n := by
  have single : ∀ d < 10, strtolDigits 0 [UInt8.ofNat (48 + d)] = d := by decide
  apply decimal_induction (P := fun n text => strtolDigits 0 text = n) single
  intro n d small ih
  have digit : 48 ≤ (UInt8.ofNat (48 + d)).toNat ∧ (UInt8.ofNat (48 + d)).toNat ≤ 57 ∧
      (UInt8.ofNat (48 + d)).toNat - 48 = d := by
    rw [UInt8.toNat_ofNat']
    omega
  rw [strtolDigits_append _ (decimal_digits n), ih]
  simp only [strtolDigits, digit.1, digit.2.1, and_self, if_true, digit.2.2]

/-- `strtol` reads back a number that fits a `long`. -/
theorem strtol_decimal {n : Nat} (fits : n < 2 ^ 63) : strtol (decimal n) = n := by
  obtain ⟨first, later, split⟩ := List.exists_cons_of_ne_nil (decimal_ne_nil n)
  have digit := decimal_digits n first (split ▸ List.mem_cons_self ..)
  have visible : isSpace first = false := by
    simp only [isSpace, Bool.or_eq_false_iff, decide_eq_false_iff_not, Bool.and_eq_false_iff]
    refine ⟨?_, Or.inr (by omega)⟩
    rintro rfl
    exact absurd digit.1 (by decide)
  have unsigned : first ≠ 45 ∧ first ≠ 43 := by
    constructor <;>
    · rintro rfl
      exact absurd digit.1 (by decide)
  have value : strtolDigits 0 (first :: later) = n := split ▸ strtolDigits_decimal n
  rw [strtol, split, List.dropWhile_cons_of_neg (by simp [visible])]
  simp only [unsigned, if_false, value]
  omega

theorem strtol_printInt {code : Int} (low : 0 ≤ code) (high : code < 2 ^ 63) : strtol (printInt code) = code := by
  obtain ⟨n, rfl⟩ := Int.eq_ofNat_of_zero_le low
  exact strtol_decimal (by omega)

theorem isValue_decimal (n : Nat) : IsValue (decimal n) := by
  intro byte member
  have digit := decimal_digits n byte member
  simp only [isCtl, Bool.or_eq_false_iff, decide_eq_false_iff_not]
  omega

end Parser

/-- Header lines for entries that may stand in a head. -/
theorem exists_lines (entries : List (Bytes × Bytes)) (plain : ∀ entry ∈ entries, IsToken entry.1 ∧ IsValue entry.2) :
    ∃ lines : List HeaderLine, lines.map HeaderLine.entry = entries := by
  induction entries with
  | nil => exact ⟨[], rfl⟩
  | cons entry entries ih =>
    obtain ⟨⟨token, value⟩, later⟩ := List.forall_mem_cons.mp plain
    obtain ⟨lines, same⟩ := ih later
    exact ⟨⟨entry.1, entry.2, token, value⟩ :: lines, by simp [HeaderLine.entry, same]⟩

theorem flatMap_bytes (lines : List HeaderLine) :
    lines.flatMap HeaderLine.bytes =
      (lines.map HeaderLine.entry).flatMap (fun header => Message.serializeHeader header.1 header.2) := by
  rw [List.flatMap_map]
  congr 1
  funext line
  simp [HeaderLine.bytes, HeaderLine.text, HeaderLine.entry, Message.serializeHeader, CHAR_COLON, CHAR_BLANK]

namespace Message

/-- The headers may be written as they are: none of them stands for a field. -/
structure Headed (message : Message) : Prop where
  plain : ∀ entry ∈ message.headers.entries, IsToken entry.1 ∧ IsValue entry.2
  noLength : message.headers.find? HEADER_CONTENT_LENGTH = none
  noType : message.headers.find? HEADER_CONTENT_TYPE = none
  type : IsValue message.contentType
  length : message.contentLength < 2 ^ 63

/-- The entries in the order in which `serialize` writes them. -/
def written (message : Message) : List (Bytes × Bytes) :=
  message.headers.entries ++ [(HEADER_CONTENT_LENGTH, decimal message.contentLength)] ++
    (if message.contentType = [] then [] else [(HEADER_CONTENT_TYPE, message.contentType)])

/-- The headers that come back: those of the message, and one for each field that is written as a header. -/
def wireHeaders (message : Message) : HeaderMap :=
  let headers := message.headers.insert HEADER_CONTENT_LENGTH (decimal message.contentLength)
  if message.contentType = [] then headers else headers.insert HEADER_CONTENT_TYPE message.contentType

theorem Headed.exists_lines {message : Message} (headed : message.Headed) :
    ∃ lines : List HeaderLine, lines.map HeaderLine.entry = message.written ∧
      message.serialize = headerBlock lines ++ message.content := by
  have token : IsToken HEADER_CONTENT_LENGTH ∧ IsToken HEADER_CONTENT_TYPE :=
    ⟨⟨by decide +kernel, by decide +kernel⟩, ⟨by decide +kernel, by decide +kernel⟩⟩
  have plain : ∀ entry ∈ message.written, IsToken entry.1 ∧ IsValue entry.2 := by
    intro entry member
    rcases List.mem_append.mp member with inside | type
    · rcases List.mem_append.mp inside with own | length
      · exact headed.plain entry own
      · obtain rfl := List.mem_singleton.mp length
        exact ⟨token.1, isValue_decimal _⟩
    · split_ifs at type with empty
      · cases type
      · obtain rfl := List.mem_singleton.mp type
        exact ⟨token.2, headed.type⟩
  obtain ⟨lines, same⟩ := Apsdk.exists_lines message.written plain
  refine ⟨lines, same, ?_⟩
  rw [headerBlock, flatMap_bytes, same, written, serialize]
  split_ifs <;> simp

theorem Headed.lastValue_length {message : Message} :
    SortedMap.lastValue HEADER_CONTENT_LENGTH message.written = some (decimal message.contentLength) := by
  have distinct : HEADER_CONTENT_TYPE ≠ HEADER_CONTENT_LENGTH := by decide
  simp only [written, SortedMap.lastValue_append]
  split_ifs <;> simp [SortedMap.lastValue, distinct]

theorem Headed.lastValue_type {message : Message} (headed : message.Headed) :
    (SortedMap.lastValue HEADER_CONTENT_TYPE message.written).getD [] = message.contentType := by
  have distinct : HEADER_CONTENT_LENGTH ≠ HEADER_CONTENT_TYPE := by decide
  simp only [written, SortedMap.lastValue_append, SortedMap.lastValue_entries, headed.noType]
  split_ifs with empty <;> simp [SortedMap.lastValue, distinct, empty]

theorem insertAll_written (message : Message) : SortedMap.empty.insertAll message.written = message.wireHeaders := by
  apply SortedMap.ext_find?
  intro name
  simp only [SortedMap.find?_insertAll, written, wireHeaders, SortedMap.lastValue_append, SortedMap.lastValue_entries]
  by_cases length : HEADER_CONTENT_LENGTH = name <;> by_cases type : HEADER_CONTENT_TYPE = name
  all_goals
    split_ifs <;> simp [SortedMap.lastValue, length, type]

end Message

/-- A request whose parts may stand in a head. -/
structure Request.Writable (req : Request) : Prop where
  method : IsToken req.method
  uri : ∀ byte ∈ req.uri, byte ≠ 32 ∧ isChar byte = true ∧ isCtl byte = false
  version : IsLineText req.schemeVersion
  headed : req.toMessage.Headed

structure Response.Writable (res : Response) : Prop where
  version : IsVersion res.schemeVersion
  line : 13 ∉ res.schemeVersion
  status : 0 ≤ res.statusCode ∧ res.statusCode < 2 ^ 32
  text : IsLineText res.statusText
  headed : res.toMessage.Headed

theorem Request.Writable.head {req : Request} (writable : req.Writable) :
    ∃ head : RequestHead, req.serialize = head.bytes ++ req.content ∧ head.method = req.method ∧ head.uri = req.uri ∧
      head.version = req.schemeVersion ∧ head.lines.map HeaderLine.entry = req.toMessage.written := by
  obtain ⟨lines, same, serialized⟩ := writable.headed.exists_lines
  refine ⟨⟨req.method, req.uri, req.schemeVersion, lines, writable.method, writable.uri, writable.version⟩, ?_,
    rfl, rfl, rfl, same⟩
  simp [Request.serialize, serialized, RequestHead.bytes, RequestHead.firstLine, CHAR_BLANK]

theorem isDigit_printInt {code : Int} (low : 0 ≤ code) : ∀ byte ∈ printInt code, isDigit byte = true := by
  obtain ⟨n, rfl⟩ := Int.eq_ofNat_of_zero_le low
  intro byte member
  simpa [isDigit] using decimal_digits n byte member

theorem Response.Writable.head {res : Response} (writable : res.Writable) :
    ∃ head : ResponseHead, res.serialize = head.bytes ++ res.content ∧ head.version = res.schemeVersion ∧
      head.code = printInt res.statusCode ∧ head.text = res.statusText ∧
      head.lines.map HeaderLine.entry = res.toMessage.written := by
  obtain ⟨lines, same, serialized⟩ := writable.headed.exists_lines
  refine ⟨⟨res.schemeVersion, printInt res.statusCode, res.statusText, lines, writable.version,
    isDigit_printInt writable.status.1, writable.text⟩, ?_, rfl, rfl, rfl, same⟩
  simp [Response.serialize, serialized, ResponseHead.bytes, ResponseHead.firstLine, CHAR_BLANK]

/-- What header lines with the written entries make of the length and the type. -/
theorem Message.Headed.fields {message : Message} (headed : message.Headed) {lines : List HeaderLine}
    (same : lines.map HeaderLine.entry = message.written) :
    contentLengthOf lines = message.contentLength ∧ (lastValue HEADER_CONTENT_TYPE lines).getD [] = message.contentType := by
  refine ⟨?_, by rw [lastValue, same, headed.lastValue_type]⟩
  have fits := headed.length
  rw [contentLengthOf, lastValue, same, Headed.lastValue_length, Option.map_some, Option.getD_some, strtol_decimal fits,
    sizeOfLong]
  omega

/-- A request as a constructor leaves it, its length unset. -/
def Request.blank (length : Nat) : Request := { Request.new [] [] [] with contentLength := length }

/-- Parsing the head of the serialised message into a new object gives the message
back, with its length and type among the headers; the content follows the head. -/
def Request.ComesBack (p : Parser) (garbage : Nat) (req : Request) : Prop :=
  ∃ n q, endOfFirst RNRN_LINE_BREAK req.serialize = some n ∧ req.serialize.drop n = req.content ∧
    p.parseRequest (.blank garbage) (req.serialize.take n) =
      some (true, q, { req with headers := req.toMessage.wireHeaders, content := [] })

def Response.ComesBack (p : Parser) (garbage : Nat) (res : Response) : Prop :=
  ∃ n q, endOfFirst RNRN_LINE_BREAK res.serialize = some n ∧ res.serialize.drop n = res.content ∧
    p.parseResponse { Response.new [] with contentLength := garbage } (res.serialize.take n) =
      some (true, q, { res with headers := res.toMessage.wireHeaders, content := [] })

/-- What the grammar makes of a serialised head, if the counter of `parse` has room for it. -/
theorem Request.Writable.parsed {req : Request} (writable : req.Writable) (garbage : Nat) :
    ∃ head : RequestHead, req.serialize = head.bytes ++ req.content ∧
      head.parsed (.blank garbage) = { req with headers := req.toMessage.wireHeaders, content := [] } := by
  obtain ⟨head, serialized, method, uri, version, same⟩ := writable.head
  obtain ⟨length, type⟩ := writable.headed.fields same
  refine ⟨head, serialized, ?_⟩
  simp only [RequestHead.parsed, headerMap, method, uri, version, same, length, Message.insertAll_written,
    Request.blank, Request.new, Message.new, type]

theorem Response.Writable.parsed {res : Response} (writable : res.Writable) (garbage : Nat) :
    ∃ head : ResponseHead, res.serialize = head.bytes ++ res.content ∧ 13 ∉ head.version ∧
      head.parsed { Response.new [] with contentLength := garbage } =
        { res with headers := res.toMessage.wireHeaders, content := [] } := by
  obtain ⟨head, serialized, version, code, text, same⟩ := writable.head
  obtain ⟨length, type⟩ := writable.headed.fields same
  have status : statusOfLong (strtol (printInt res.statusCode)) = res.statusCode := by
    rw [strtol_printInt writable.status.1 (lt_trans writable.status.2 (by decide)), statusOfLong]
    exact Int.emod_eq_of_lt writable.status.1 writable.status.2
  refine ⟨head, serialized, version ▸ writable.line, ?_⟩
  simp only [ResponseHead.parsed, version, code, text, same, length, status, Response.new, Message.new,
    Message.insertAll_written, type]

/-- A message whose head is parsed if its bytes can be counted comes back just then. -/
theorem comesBack_iff_counted {α : Type} {parse : Bytes → Option (Bool × Parser × α)} {serialized head content : Bytes} {message : α}
    (split : serialized = head ++ content) (block : IsBlock head)
    (ends : head.length < 2 ^ 31 → ∃ q, parse head = some (true, q, message))
    (overflows : ¬ head.length < 2 ^ 31 → parse head = none) :
    (∃ n q, endOfFirst RNRN_LINE_BREAK serialized = some n ∧ serialized.drop n = content ∧
        parse (serialized.take n) = some (true, q, message)) ↔
      serialized.length < content.length + 2 ^ 31 := by
  have found := endOfFirst_append block content
  rw [← split] at found
  have short : serialized.length < content.length + 2 ^ 31 ↔ head.length < 2 ^ 31 := by
    rw [split, List.length_append]
    omega
  rw [short]
  constructor
  · rintro ⟨n, q, cut, -, parsed⟩
    obtain rfl : head.length = n := Option.some.inj (found.symm.trans cut)
    by_contra full
    rw [split, List.take_left, overflows full] at parsed
    cases parsed
  · intro counted
    obtain ⟨q, parsed⟩ := ends counted
    refine ⟨head.length, q, found, by rw [split, List.drop_left], ?_⟩
    rw [split, List.take_left, parsed]

theorem Request.Writable.comesBack_iff {p : Parser} (ready : p.state = .tokenStart) (garbage : Nat) {req : Request}
    (writable : req.Writable) :
    req.ComesBack p garbage ↔ req.serialize.length < req.content.length + 2 ^ 31 := by
  obtain ⟨head, serialized, back⟩ := writable.parsed garbage
  obtain ⟨ends, overflows⟩ := parseRequest_eq ready (.blank garbage) head.block
  rw [head.counted_iff] at ends overflows
  obtain ⟨q, -, scanned⟩ := scanRequest_bytes ready (.blank garbage) head
  exact comesBack_iff_counted serialized head.block (fun counted => ⟨q, by rw [ends counted, scanned, back]⟩) overflows

theorem Response.Writable.comesBack_iff {p : Parser} (ready : p.state = .tokenStart) (garbage : Nat) {res : Response}
    (writable : res.Writable) :
    res.ComesBack p garbage ↔ res.serialize.length < res.content.length + 2 ^ 31 := by
  obtain ⟨head, serialized, line, back⟩ := writable.parsed garbage
  obtain ⟨ends, overflows⟩ := parseResponse_eq ready { Response.new [] with contentLength := garbage } (head.block line)
  rw [head.counted_iff] at ends overflows
  obtain ⟨q, -, scanned⟩ := scanResponse_bytes ready { Response.new [] with contentLength := garbage } head
  exact comesBack_iff_counted serialized (head.block line) (fun counted => ⟨q, by rw [ends counted, scanned, back]⟩) overflows

def playRequest : Request :=
  { Request.new (ascii "HTTP/1.1") (ascii "POST") (ascii "/play") with
    headers := SortedMap.empty.insert (ascii "CSeq") (ascii "3"), contentType := ascii "text/parameters",
    content := ascii "a: b", contentLength := 4 }

def okResponse : Response := { Response.new (ascii "HTTP/1.1") with content := ascii "ok", contentLength := 2 }

theorem playRequest_writable : playRequest.Writable where
  method := ⟨by decide +kernel, by decide +kernel⟩
  uri := by decide +kernel
  version := by decide +kernel
  headed := by
    refine ⟨?_, by decide +kernel, by decide +kernel, by decide +kernel, by decide +kernel⟩
    intro entry member
    obtain rfl := List.mem_singleton.mp member
    exact ⟨⟨by decide +kernel, by decide +kernel⟩, by decide +kernel⟩

theorem okResponse_writable : okResponse.Writable where
  version := ⟨⟨72, ascii "TTP/1.1", by decide +kernel, by decide +kernel⟩, by decide +kernel⟩
  line := by decide +kernel
  status := by decide +kernel
  text := by decide +kernel
  headed := by
    refine ⟨?_, by decide +kernel, by decide +kernel, by decide +kernel, by decide +kernel⟩
    intro entry member
    cases member

/-- A request with so many letters in its uri. -/
def longRequest (n : Nat) : Request := .new [] [71] (List.replicate n 97)

theorem longRequest_writable (n : Nat) : (longRequest n).Writable where
  method := isToken_single (by decide)
  uri := by
    intro byte member
    obtain rfl := List.eq_of_mem_replicate member
    decide
  version := List.forall_mem_nil _
  headed := {
    plain := List.forall_mem_nil _
    noLength := rfl
    noType := rfl
    type := List.forall_mem_nil _
    length := Nat.two_pow_pos 63 }

end Apsdk
