import Apsdk.MessageParser
import Mathlib.Tactic.MkIffOfInductiveProp

/-! What the automaton makes of a head depends on the head alone, up to the
fields that are not cleared before, and an accepted head leaves the parser
where it began. -/

namespace Apsdk
open Library

namespace Parser
variable {α β : Type} {consume : Parser → α → UInt8 → ParseResult × Parser × α}
  {consume' : Parser → β → UInt8 → ParseResult × Parser × β}

/-- The parser as one byte leaves it. -/
def settle : ParseResult → Parser → Parser
  | .parseMore, p => p
  | .parseDone, p => { p with state := .tokenStart }
  | .parseFail, p => { p with state := .tokenStart }

theorem scan_cons (p : Parser) (message : α) (input : UInt8) (rest : Bytes) :
    scan consume p message (input :: rest) =
      if (consume p message input).1 = .parseFail then
        (false, settle .parseFail (consume p message input).2.1, (consume p message input).2.2)
      else scan consume (settle (consume p message input).1 (consume p message input).2.1)
        (consume p message input).2.2 rest := by
  rcases taken : consume p message input with ⟨result, next, parsed⟩
  cases result <;> simp [scan, taken, settle]

/-- What the first of two related parses accepts, the second accepts as well. -/
theorem scan_related (R : Parser → α → Parser → β → Prop)
    (keeps : ∀ p message q other input, R p message q other → (consume p message input).1 ≠ .parseFail →
      (consume' q other input).1 = (consume p message input).1 ∧
      R (settle (consume p message input).1 (consume p message input).2.1) (consume p message input).2.2
        (settle (consume p message input).1 (consume' q other input).2.1) (consume' q other input).2.2)
    (data : Bytes) {p q : Parser} {message : α} {other : β} (related : R p message q other)
    (accepted : (scan consume p message data).1 = true) :
    (scan consume' q other data).1 = true ∧
    R (scan consume p message data).2.1 (scan consume p message data).2.2
      (scan consume' q other data).2.1 (scan consume' q other data).2.2 := by
  induction data generalizing p q message other with
  | nil => exact ⟨rfl, related⟩
  | cons input rest ih =>
    rw [scan_cons] at accepted ⊢
    split_ifs at accepted with rejected
    obtain ⟨same, next⟩ := keeps p message q other input related rejected
    rw [scan_cons, same, if_neg rejected, if_neg rejected]
    exact ih next accepted

theorem scan_append (p : Parser) (message : α) (first second : Bytes)
    (accepted : (scan consume p message (first ++ second)).1 = true) :
    (scan consume p message first).1 = true ∧
    scan consume p message (first ++ second) =
      scan consume (scan consume p message first).2.1 (scan consume p message first).2.2 second := by
  induction first generalizing p message with
  | nil => exact ⟨rfl, rfl⟩
  | cons input rest ih =>
    rw [List.cons_append, scan_cons] at accepted ⊢
    rw [scan_cons]
    split_ifs at accepted ⊢ with rejected
    · exact ih _ _ accepted

end Parser

theorem sizeOfLong_lt (value : Int) : sizeOfLong value < 2 ^ 64 := by
  simp only [sizeOfLong]
  omega

/-- A request without its content type, which `parse` does not clear. -/
def Request.wire (req : Request) : Request := { req with contentType := [] }

namespace Parser

/-- The parsers have got to the same place, with the same line so far. -/
@[mk_iff] structure SamePlace (p q : Parser) : Prop where
  state : p.state = q.state
  name : p.state = .tokenHeaderLineStart ∨ p.state = .tokenHeaderName ∨ p.state = .tokenSpaceBeforeHeaderValue ∨
    p.state = .tokenHeaderValue → p.name = q.name
  value : p.state = .tokenHeaderValue → p.value = q.value

/-- Requests agree on everything that `parse` sets, and so do the values that precede a blank. -/
def SameRequest (p : Parser) (req : Request) (q : Parser) (other : Request) : Prop :=
  SamePlace p q ∧ (p.state = .tokenSpaceBeforeHeaderValue → p.value = q.value) ∧ req.wire = other.wire ∧
    req.contentLength < 2 ^ 64 ∧ req.content = []

theorem consumeRequest_related (p : Parser) (req : Request) (q : Parser) (other : Request) (input : UInt8)
    (related : SameRequest p req q other) (accepted : (consumeRequest p req input).1 ≠ .parseFail) :
    (consumeRequest q other input).1 = (consumeRequest p req input).1 ∧
    SameRequest (settle (consumeRequest p req input).1 (consumeRequest p req input).2.1)
      (consumeRequest p req input).2.2
      (settle (consumeRequest p req input).1 (consumeRequest q other input).2.1)
      (consumeRequest q other input).2.2 := by
  obtain ⟨⟨state, name, value⟩, cleared, same, bound, blank⟩ := related
  obtain ⟨state, code, pname, pvalue⟩ := p
  obtain ⟨_, code', qname, qvalue⟩ := q
  obtain rfl := state
  obtain ⟨⟨version, length, type, headers, content⟩, method, uri⟩ := req
  obtain ⟨⟨version', length', type', headers', content'⟩, method', uri'⟩ := other
  simp only [Request.wire, Request.mk.injEq, Message.mk.injEq] at same bound blank
  obtain ⟨⟨rfl, rfl, -, rfl, rfl⟩, rfl, rfl⟩ := same
  cases state
  case tokenStatusCode | tokenStatusText => exact absurd rfl accepted
  case tokenHeaderLineStart | tokenHeaderName =>
    obtain rfl : pname = qname := name (by simp)
    simp only [consumeRequest, consumeHeaders]
    split_ifs <;> simp [-Nat.reducePow, settle, SameRequest, samePlace_iff, Request.wire, bound, blank]
  case tokenSpaceBeforeHeaderValue =>
    obtain rfl : pname = qname := name (by simp)
    obtain rfl : pvalue = qvalue := cleared rfl
    simp only [consumeRequest, consumeHeaders]
    split_ifs <;> simp [-Nat.reducePow, settle, SameRequest, samePlace_iff, Request.wire, bound, blank]
  case tokenHeaderValue =>
    obtain rfl : pname = qname := name (by simp)
    obtain rfl : pvalue = qvalue := value rfl
    simp only [consumeRequest, consumeHeaders]
    split_ifs <;> simp [-Nat.reducePow, settle, SameRequest, samePlace_iff, Request.wire, acceptHeader, bound, blank]
    split_ifs <;> simp [-Nat.reducePow, sizeOfLong_lt, bound]
  all_goals
    simp only [consumeRequest, consumeHeaders]
    split_ifs <;> simp [-Nat.reducePow, settle, SameRequest, samePlace_iff, Request.wire, bound, blank]

/-- A parser that is about to take a head reads the same request from it as a
fresh one does into a blank request, whatever it has read before. -/
theorem scanRequest_fresh {p : Parser} (ready : p.state = .tokenStart) (req : Request) {head : Bytes}
    (accepted : (fresh.scanRequest (.new [] [] []) head).1 = true) :
    (p.scanRequest req head).1 = true ∧
    (p.scanRequest req head).2.2.wire = (fresh.scanRequest (.new [] [] []) head).2.2.wire ∧
    (fresh.scanRequest (.new [] [] []) head).2.2.contentLength < 2 ^ 64 ∧
    (fresh.scanRequest (.new [] [] []) head).2.2.content = [] := by
  have related : SameRequest fresh (clearRequest (.new [] [] [])) p (clearRequest req) :=
    ⟨⟨ready.symm, by simp [fresh], by simp [fresh]⟩, by simp [fresh], rfl, Nat.two_pow_pos 64, rfl⟩
  obtain ⟨again, -, -, same, rest⟩ := scan_related SameRequest consumeRequest_related head related accepted
  exact ⟨again, same.symm, rest⟩

theorem scanRequest_length_lt (p : Parser) (req : Request) {head : Bytes} (accepted : (p.scanRequest req head).1 = true) :
    (p.scanRequest req head).2.2.contentLength < 2 ^ 64 := by
  have related : SameRequest p (clearRequest req) p (clearRequest req) :=
    ⟨⟨rfl, fun _ => rfl, fun _ => rfl⟩, fun _ => rfl, rfl, Nat.two_pow_pos 64, rfl⟩
  exact (scan_related SameRequest consumeRequest_related head related accepted).2.2.2.2.1

/-- A response is read from its first byte on as if the parser had been put back,
and a parse leaves the content of the response alone. -/
def SameResponse (content : Bytes) (p : Parser) (res : Response) (q : Parser) (other : Response) : Prop :=
  (SamePlace p q ∨ (p.state = .tokenStart ∧ q.state = .tokenSchemeVersion)) ∧
    res.contentLength = other.contentLength ∧ other.content = content

theorem consumeResponse_related (content : Bytes) (p : Parser) (res : Response) (q : Parser) (other : Response)
    (input : UInt8) (related : SameResponse content p res q other)
    (accepted : (consumeResponse p res input).1 ≠ .parseFail) :
    (consumeResponse q other input).1 = (consumeResponse p res input).1 ∧
    SameResponse content (settle (consumeResponse p res input).1 (consumeResponse p res input).2.1)
      (consumeResponse p res input).2.2
      (settle (consumeResponse p res input).1 (consumeResponse q other input).2.1)
      (consumeResponse q other input).2.2 := by
  obtain ⟨place, lengths, kept⟩ := related
  obtain ⟨state, code, pname, pvalue⟩ := p
  obtain ⟨state', code', qname, qvalue⟩ := q
  obtain ⟨⟨version, length, type, headers, content⟩, status, text⟩ := res
  obtain ⟨⟨version', length', type', headers', content'⟩, status', text'⟩ := other
  simp only at lengths kept
  subst lengths kept
  rcases place with ⟨same, name, value⟩ | ⟨first, later⟩
  · obtain rfl : state = state' := same
    cases state
    case tokenMethod | tokenUri => exact absurd rfl accepted
    case tokenHeaderLineStart | tokenHeaderName | tokenSpaceBeforeHeaderValue =>
      obtain rfl : pname = qname := name (by simp)
      simp only [consumeResponse, consumeHeaders, Bool.false_eq_true, if_false]
      split_ifs <;> simp [settle, SameResponse, samePlace_iff]
    case tokenHeaderValue =>
      obtain rfl : pname = qname := name (by simp)
      obtain rfl : pvalue = qvalue := value rfl
      simp only [consumeResponse, consumeHeaders]
      split_ifs <;> simp [settle, SameResponse, samePlace_iff, acceptHeader]
      split_ifs <;> simp
    all_goals
      simp only [consumeResponse, consumeHeaders]
      split_ifs <;> simp [settle, SameResponse, samePlace_iff]
  · obtain rfl : state = .tokenStart := first
    obtain rfl : state' = .tokenSchemeVersion := later
    have token : barred input = false := by
      by_contra rejected
      exact accepted (by simp [consumeResponse, Bool.eq_true_of_not_eq_false rejected])
    have char : isChar input = true := by
      simp only [barred, Bool.or_eq_false_iff, Bool.not_eq_false'] at token
      exact token.1.1
    have blank : input ≠ 32 := by
      rintro rfl
      exact absurd token (by decide)
    simp [consumeResponse, token, char, blank, settle, SameResponse, samePlace_iff]

theorem scanResponse_fresh {p : Parser} (ready : p.state = .tokenStart ∨ p.state = .tokenSchemeVersion)
    (res : Response) {head : Bytes} (accepted : (fresh.scanResponse (.new []) head).1 = true) :
    (p.scanResponse res head).1 = true ∧
    (p.scanResponse res head).2.2.contentLength = (fresh.scanResponse (.new []) head).2.2.contentLength ∧
    (p.scanResponse res head).2.2.content = res.content := by
  have related : SameResponse res.content fresh (clearResponse (.new [])) p (clearResponse res) := by
    refine ⟨?_, rfl, rfl⟩
    rcases ready with ready | ready
    · exact Or.inl ⟨ready.symm, by simp [fresh], by simp [fresh]⟩
    · exact Or.inr ⟨rfl, ready⟩
  obtain ⟨again, -, lengths, kept⟩ :=
    scan_related (SameResponse res.content) (consumeResponse_related res.content) head related accepted
  exact ⟨again, lengths.symm, kept⟩

theorem lineEnd_barred : barred 13 = true := by decide

/-- An accepted empty line at the end of a head finishes the request. -/
theorem scanRequest_ready (p : Parser) (req : Request) {head : Bytes} (ends : RNRN_LINE_BREAK <:+ head)
    (accepted : (p.scanRequest req head).1 = true) : (p.scanRequest req head).2.1.state = .tokenStart := by
  obtain ⟨before, rfl⟩ := ends
  obtain ⟨-, same⟩ := scan_append p (clearRequest req) before RNRN_LINE_BREAK accepted
  simp only [scanRequest, same] at accepted ⊢
  generalize (scan consumeRequest p (clearRequest req) before).2.2 = other at accepted
  obtain ⟨state, code, name, value⟩ := (scan consumeRequest p (clearRequest req) before).2.1
  cases state <;>
    simp [RNRN_LINE_BREAK, scan, consumeRequest, consumeHeaders, lineEnd_barred, isCtl] at accepted ⊢

/-- The version of a response takes in line ends as well, so that a head without
a blank in it is accepted and leaves the parser there. -/
theorem scanResponse_ready (p : Parser) (res : Response) {head : Bytes} (ends : RNRN_LINE_BREAK <:+ head)
    (accepted : (p.scanResponse res head).1 = true) :
    (p.scanResponse res head).2.1.state = .tokenStart ∨ (p.scanResponse res head).2.1.state = .tokenSchemeVersion := by
  obtain ⟨before, rfl⟩ := ends
  obtain ⟨-, same⟩ := scan_append p (clearResponse res) before RNRN_LINE_BREAK accepted
  simp only [scanResponse, same] at accepted ⊢
  generalize (scan consumeResponse p (clearResponse res) before).2.2 = other at accepted
  obtain ⟨state, code, name, value⟩ := (scan consumeResponse p (clearResponse res) before).2.1
  cases state <;>
    simp [RNRN_LINE_BREAK, scan, consumeResponse, consumeHeaders, lineEnd_barred, isCtl, isChar, isDigit] at accepted ⊢

end Parser
end Apsdk
