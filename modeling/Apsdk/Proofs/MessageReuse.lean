import Apsdk.Proofs.CountedParse

/-! What a message object keeps from the message it held before. `parse` clears
most fields and sets others from the head, but the content type of a request, and
the headers and the content of a response, survive where the head is silent. -/

namespace Apsdk
open Library Apsdk.Parser

theorem lastValue_eq_none_iff (name : Bytes) (lines : List HeaderLine) :
    lastValue name lines = none ↔ ∀ line ∈ lines, line.name ≠ name := by
  rw [lastValue, SortedMap.lastValue_eq_none_iff, List.forall_mem_map]
  rfl

/-- A head that sets the field leaves nothing of the old value. -/
theorem getD_eq_iff {α : Type} (set : Option α) (old old' : α) :
    set.getD old = set.getD old' ↔ old = old' ∨ set ≠ none := by
  cases set <;> simp

theorem parsed_request_eq_iff (head : RequestHead) (first second : Request) :
    head.parsed first = head.parsed second ↔
      first.contentType = second.contentType ∨ ∃ line ∈ head.lines, line.name = HEADER_CONTENT_TYPE := by
  have set : lastValue HEADER_CONTENT_TYPE head.lines ≠ none ↔ ∃ line ∈ head.lines, line.name = HEADER_CONTENT_TYPE := by
    rw [ne_eq, lastValue_eq_none_iff]
    simp
  simp only [RequestHead.parsed, Request.mk.injEq, Message.mk.injEq, true_and, and_true]
  rw [getD_eq_iff, set]

theorem insertAll_eq_iff (lines : List HeaderLine) (first second : HeaderMap) :
    first.insertAll (lines.map HeaderLine.entry) = second.insertAll (lines.map HeaderLine.entry) ↔
      ∀ name, (∀ line ∈ lines, line.name ≠ name) → first.find? name = second.find? name := by
  constructor
  · intro same name unset
    have found := congrArg (fun map => SortedMap.find? map name) same
    have absent := (lastValue_eq_none_iff name lines).mpr unset
    rw [lastValue] at absent
    simpa [absent] using found
  · intro same
    apply SortedMap.ext_find?
    intro name
    rw [SortedMap.find?_insertAll, SortedMap.find?_insertAll]
    cases set : SortedMap.lastValue name (lines.map HeaderLine.entry) with
    | none => simpa using same name ((lastValue_eq_none_iff name lines).mp set)
    | some value => simp

theorem parsed_response_eq_iff (head : ResponseHead) (first second : Response) :
    head.parsed first = head.parsed second ↔
      first.content = second.content ∧
      ∀ name, (∀ line ∈ head.lines, line.name ≠ name) → first.headers.find? name = second.headers.find? name := by
  simp only [ResponseHead.parsed, Response.mk.injEq, Message.mk.injEq, true_and, and_true, insertAll_eq_iff]
  exact And.comm

namespace Parser
variable {p q : Parser} {data : Bytes}

/-- Both parses end with one verdict, and accepted messages are equal. -/
def Forgets {α : Type} : Option (Bool × Parser × α) → Option (Bool × Parser × α) → Prop
  | some (verdict, _, first), some (verdict', _, second) => verdict = verdict' ∧ (verdict = true → first = second)
  | none, _ | some _, none => False

instance {α : Type} [DecidableEq α] : (first second : Option (Bool × Parser × α)) → Decidable (Forgets first second)
  | some (_, _, _), some (_, _, _) => inferInstanceAs (Decidable (_ ∧ _))
  | none, _ | some _, none => inferInstanceAs (Decidable False)

theorem forgets_iff {α : Type} {room sets : Prop} {first second : Option (Bool × Parser × α)} {scanned scanned' : Bool × Parser × α}
    (ends : room → first = some scanned ∧ second = some scanned') (overflows : ¬ room → first = none)
    (same : Forgets (some scanned) (some scanned') ↔ sets) : Forgets first second ↔ room ∧ sets := by
  by_cases counted : room
  · obtain ⟨parsed, parsed'⟩ := ends counted
    rw [parsed, parsed', same, and_iff_right counted]
  · rw [overflows counted]
    exact iff_of_false id fun both => counted both.1

/-- Two requests that are parsed from one head do not show what they held before. -/
def RequestForgets (p q : Parser) (data : Bytes) (first second : Request) : Prop :=
  Forgets (p.parseRequest first data) (q.parseRequest second data)

def ResponseForgets (p q : Parser) (data : Bytes) (first second : Response) : Prop :=
  Forgets (p.parseResponse first data) (q.parseResponse second data)

instance (p q : Parser) (data : Bytes) (first second : Request) : Decidable (RequestForgets p q data first second) :=
  inferInstanceAs (Decidable (Forgets _ _))

instance (p q : Parser) (data : Bytes) (first second : Response) : Decidable (ResponseForgets p q data first second) :=
  inferInstanceAs (Decidable (Forgets _ _))

/-- The head is silent about no field in which the two requests differ. -/
def SetsRequest (data : Bytes) (first second : Request) : Prop :=
  ∀ head : RequestHead, data = head.bytes →
    first.contentType = second.contentType ∨ ∃ line ∈ head.lines, line.name = HEADER_CONTENT_TYPE

/-- The contents are equal, and the head names every header in which the two
responses differ; a block that is all version names none. -/
def SetsResponse (data : Bytes) (first second : Response) : Prop :=
  (∀ head : ResponseHead, data = head.bytes →
    first.content = second.content ∧
    ∀ name, (∀ line ∈ head.lines, line.name ≠ name) → first.headers.find? name = second.headers.find? name) ∧
  (IsVersion data → first.content = second.content ∧ first.headers = second.headers)

/-- What is left of the comparison once both parses are known to end. -/
theorem scanRequest_forgets_iff (ready : p.state = .tokenStart) (ready' : q.state = .tokenStart)
    (block : IsBlock data) (first second : Request) :
    Forgets (some (p.scanRequest first data)) (some (q.scanRequest second data)) ↔ SetsRequest data first second := by
  have verdict : (p.scanRequest first data).1 = (q.scanRequest second data).1 := by
    rw [Bool.eq_iff_iff, scanRequest_accepts_iff ready first block, scanRequest_accepts_iff ready' second block]
  have outcome : ∀ head : RequestHead, data = head.bytes →
      ((p.scanRequest first data).2.2 = (q.scanRequest second data).2.2 ↔
        first.contentType = second.contentType ∨ ∃ line ∈ head.lines, line.name = HEADER_CONTENT_TYPE) := by
    rintro head rfl
    obtain ⟨_, -, parsed⟩ := scanRequest_bytes ready first head
    obtain ⟨_, -, parsed'⟩ := scanRequest_bytes ready' second head
    rw [parsed, parsed', parsed_request_eq_iff]
  simp only [Forgets, verdict, true_and, SetsRequest, scanRequest_accepts_iff ready' second block]
  constructor
  · intro forgets head same
    exact (outcome head same).mp (forgets ⟨head, same⟩)
  · intro sets ⟨head, same⟩
    exact (outcome head same).mpr (sets head same)

theorem scanResponse_forgets_iff (ready : p.state = .tokenStart) (ready' : q.state = .tokenStart)
    (block : IsBlock data) (first second : Response) :
    Forgets (some (p.scanResponse first data)) (some (q.scanResponse second data)) ↔ SetsResponse data first second := by
  have verdict : (p.scanResponse first data).1 = (q.scanResponse second data).1 := by
    rw [Bool.eq_iff_iff, scanResponse_accepts_iff ready first block, scanResponse_accepts_iff ready' second block]
  have outcome : ∀ head : ResponseHead, data = head.bytes →
      ((p.scanResponse first data).2.2 = (q.scanResponse second data).2.2 ↔
        first.content = second.content ∧
        ∀ name, (∀ line ∈ head.lines, line.name ≠ name) → first.headers.find? name = second.headers.find? name) := by
    rintro head rfl
    obtain ⟨_, -, parsed⟩ := scanResponse_bytes ready first head
    obtain ⟨_, -, parsed'⟩ := scanResponse_bytes ready' second head
    rw [parsed, parsed', parsed_response_eq_iff]
  have unfinished : IsVersion data →
      ((p.scanResponse first data).2.2 = (q.scanResponse second data).2.2 ↔
        first.content = second.content ∧ first.headers = second.headers) := by
    intro version
    rw [scanResponse_version ready first version, scanResponse_version ready' second version]
    simp [clearResponse, and_comm]
  simp only [Forgets, verdict, true_and, SetsResponse, scanResponse_accepts_iff ready' second block]
  constructor
  · intro forgets
    exact ⟨fun head same => (outcome head same).mp (forgets (Or.inl ⟨head, same⟩)),
      fun version => (unfinished version).mp (forgets (Or.inr version))⟩
  · rintro ⟨sets, keeps⟩ accepted
    rcases accepted with ⟨head, same⟩ | version
    · exact (outcome head same).mpr (sets head same)
    · exact (unfinished version).mpr (keeps version)

theorem requestForgets_iff (ready : p.state = .tokenStart) (ready' : q.state = .tokenStart)
    (block : IsBlock data) (first second : Request) :
    RequestForgets p q data first second ↔ CountedRequest data ∧ SetsRequest data first second := by
  have parsed := parseRequest_eq ready first block
  have parsed' := parseRequest_eq ready' second block
  exact forgets_iff (fun counted => ⟨parsed.1 counted, parsed'.1 counted⟩) parsed.2
    (scanRequest_forgets_iff ready ready' block first second)

theorem responseForgets_iff (ready : p.state = .tokenStart) (ready' : q.state = .tokenStart)
    (block : IsBlock data) (first second : Response) :
    ResponseForgets p q data first second ↔ CountedResponse data ∧ SetsResponse data first second := by
  have parsed := parseResponse_eq ready first block
  have parsed' := parseResponse_eq ready' second block
  exact forgets_iff (fun counted => ⟨parsed.1 counted, parsed'.1 counted⟩) parsed.2
    (scanResponse_forgets_iff ready ready' block first second)

/-- Parsing one head into two objects makes them equal exactly when it is read to
its end and sets every field in which they differed and which `parse` does not clear. -/
theorem parse_forgets_iff (ready : p.state = .tokenStart) (ready' : q.state = .tokenStart)
    (block : endOfFirst RNRN_LINE_BREAK data = some data.length) (req req' : Request) (res res' : Response) :
    (RequestForgets p q data req req' ↔ CountedRequest data ∧ SetsRequest data req req') ∧
    (ResponseForgets p q data res res' ↔ CountedResponse data ∧ SetsResponse data res res') :=
  ⟨requestForgets_iff ready ready' block req req', responseForgets_iff ready ready' block res res'⟩

/-- A request without a content type, after one with a content type and after none. -/
def silentHead : Bytes := ascii "POST /play HTTP/1.1" ++ RNRN_LINE_BREAK

def silentAnswer : Bytes := ascii "HTTP/1.1 200 OK" ++ RNRN_LINE_BREAK

/-- The request keeps the content type, the response its headers and content. -/
theorem stale_fields_survive :
    IsBlock silentHead ∧ IsBlock silentAnswer ∧
    ¬ RequestForgets fresh fresh silentHead
      { Request.new [] [] [] with contentType := ascii "text/parameters" } (.new [] [] []) ∧
    ¬ ResponseForgets fresh fresh silentAnswer { Response.new [] with content := ascii "a" } (.new []) ∧
    ¬ ResponseForgets fresh fresh silentAnswer
      { Response.new [] with headers := SortedMap.empty.insert (ascii "X") (ascii "a") } (.new []) := by
  decide +kernel

/-- An earlier type makes a difference, and a block that names its type hides it. -/
def typedHead : Bytes := ascii "POST /play HTTP/1.1\r\nContent-Type: text/parameters" ++ RNRN_LINE_BREAK

theorem typedHead_forgets :
    SetsRequest typedHead { Request.new [] [] [] with contentType := ascii "a" } (.new [] [] []) ∧
    ¬ SetsResponse silentAnswer { Response.new [] with content := ascii "a" } (.new []) := by
  have block : endOfFirst RNRN_LINE_BREAK typedHead = some typedHead.length := by decide +kernel
  have block' : endOfFirst RNRN_LINE_BREAK silentAnswer = some silentAnswer.length := by decide +kernel
  constructor
  · exact ((parse_forgets_iff (p := fresh) (q := fresh) rfl rfl block
      { Request.new [] [] [] with contentType := ascii "a" } (.new [] [] []) (.new []) (.new [])).1.mp (by decide +kernel)).2
  · intro sets
    have counted : CountedResponse silentAnswer := Or.inl (by decide +kernel)
    have forgets := (parse_forgets_iff (p := fresh) (q := fresh) rfl rfl block' (.new [] [] []) (.new [] [] [])
      { Response.new [] with content := ascii "a" } (.new [])).2.mpr ⟨counted, sets⟩
    revert forgets
    decide +kernel

end Parser
end Apsdk
