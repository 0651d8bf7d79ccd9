import Apsdk.Message

/-! `http_message_parser`: a state machine that takes the bytes of a message head
one at a time. Its state outlives a call of `parse`; only a finished or a failed
head puts it back to `token_start`. -/

namespace Apsdk
open Library

/-- `strtol` base 10 for 64-bit `long`: leading blanks, a sign, the digits up to the first other byte. -/
def strtolDigits : Nat → Bytes → Nat
  | value, [] => value
  | value, byte :: rest =>
    if 48 ≤ byte.toNat ∧ byte.toNat ≤ 57 then strtolDigits (value * 10 + (byte.toNat - 48)) rest else value

def isSpace (byte : UInt8) : Bool := byte = 32 || (9 ≤ byte.toNat && byte.toNat ≤ 13)

def strtol (text : Bytes) : Int :=
  match text.dropWhile isSpace with
  | [] => 0
  | sign :: digits =>
    if sign = 45 then max (-(strtolDigits 0 digits : Int)) (-2 ^ 63)
    else if sign = 43 then min (strtolDigits 0 digits) (2 ^ 63 - 1)
    else min (strtolDigits 0 (sign :: digits)) (2 ^ 63 - 1)

/-- The conversion of a `long` to `size_t`. -/
def sizeOfLong (value : Int) : Nat := (value % 2 ^ 64).toNat

/-- The cast of a `long` to `status_type_t`, which has 32 bits and no sign. -/
def statusOfLong (value : Int) : Int := value % 2 ^ 32

inductive ParserState where
  | tokenStart
  | tokenMethod
  | tokenUri
  | tokenSchemeVersion
  | tokenStatusCode
  | tokenStatusText
  | tokenExpectingNewLine
  | tokenHeaderLineStart
  | tokenHeaderName
  | tokenSpaceBeforeHeaderValue
  | tokenHeaderValue
  | tokenExpectingLastLine
deriving DecidableEq, Repr

inductive ParseResult where
  | parseMore
  | parseDone
  | parseFail
deriving DecidableEq, Repr

structure Parser where
  state : ParserState
  code : Bytes
  name : Bytes
  value : Bytes
deriving DecidableEq, Repr

namespace Parser

def fresh : Parser := ⟨.tokenStart, [], [], []⟩

def isChar (c : UInt8) : Bool := c.toNat ≤ 127
def isCtl (c : UInt8) : Bool := c.toNat ≤ 31 || c.toNat = 127

/-- `()<>@,;:\"/[]?={}`, the blank and the tab. -/
def isTspecial (c : UInt8) : Bool :=
  c.toNat ∈ [40, 41, 60, 62, 64, 44, 59, 58, 92, 34, 47, 91, 93, 63, 61, 123, 125, 32, 9]

def isDigit (c : UInt8) : Bool := 48 ≤ c.toNat && c.toNat ≤ 57

/-- The byte may not stand in a token. -/
def barred (c : UInt8) : Bool := !isChar c || isCtl c || isTspecial c

/-- The bookkeeping at the end of a header line. -/
def acceptHeader (p : Parser) (message : Message) : Message :=
  let message := if p.name = HEADER_CONTENT_LENGTH then { message with contentLength := sizeOfLong (strtol p.value) } else message
  let message := if p.name = HEADER_CONTENT_TYPE then { message with contentType := p.value } else message
  { message with headers := message.headers.insert p.name p.value }

/-- The header lines, which the two overloads of `consume` treat alike: the one
for requests clears `value_` at the colon, the one for responses at the blank. -/
def consumeHeaders (request : Bool) (p : Parser) (message : Message) (input : UInt8) : ParseResult × Parser × Message :=
  match p.state with
  | .tokenExpectingNewLine =>
    if input = 10 then (.parseMore, { p with name := [], state := .tokenHeaderLineStart }, message)
    else (.parseFail, p, message)
  | .tokenHeaderLineStart =>
    if input = 13 then (.parseMore, { p with state := .tokenExpectingLastLine }, message)
    else if barred input then (.parseFail, p, message)
    else (.parseMore, { p with name := p.name ++ [input], state := .tokenHeaderName }, message)
  | .tokenHeaderName =>
    if input = 58 then
      (.parseMore, { p with value := if request then [] else p.value, state := .tokenSpaceBeforeHeaderValue }, message)
    else if barred input then (.parseFail, p, message)
    else (.parseMore, { p with name := p.name ++ [input] }, message)
  | .tokenSpaceBeforeHeaderValue =>
    if input = 32 then
      (.parseMore, { p with value := if request then p.value else [], state := .tokenHeaderValue }, message)
    else (.parseFail, p, message)
  | .tokenHeaderValue =>
    if input = 13 then (.parseMore, { p with state := .tokenExpectingNewLine }, p.acceptHeader message)
    else if isCtl input then (.parseFail, p, message)
    else (.parseMore, { p with value := p.value ++ [input] }, message)
  | .tokenExpectingLastLine =>
    if input = 10 then (.parseDone, p, message) else (.parseFail, p, message)
  | _ => (.parseFail, p, message)

def consumeRequest (p : Parser) (req : Request) (input : UInt8) : ParseResult × Parser × Request :=
  match p.state with
  | .tokenStart =>
    if barred input then (.parseFail, p, req)
    else (.parseMore, { p with state := .tokenMethod }, { req with method := req.method ++ [input] })
  | .tokenMethod =>
    if input = 32 then (.parseMore, { p with state := .tokenUri }, req)
    else if barred input then (.parseFail, p, req)
    else (.parseMore, p, { req with method := req.method ++ [input] })
  | .tokenUri =>
    if input = 32 then (.parseMore, { p with state := .tokenSchemeVersion }, req)
    else if !isChar input || isCtl input then (.parseFail, p, req)
    else (.parseMore, p, { req with uri := req.uri ++ [input] })
  | .tokenSchemeVersion =>
    if input = 13 then (.parseMore, { p with state := .tokenExpectingNewLine }, req)
    else if !isChar input then (.parseFail, p, req)
    else (.parseMore, p, { req with schemeVersion := req.schemeVersion ++ [input] })
  | _ =>
    let (result, p, message) := p.consumeHeaders true req.toMessage input
    (result, p, { req with toMessage := message })

def consumeResponse (p : Parser) (res : Response) (input : UInt8) : ParseResult × Parser × Response :=
  match p.state with
  | .tokenStart =>
    if barred input then (.parseFail, p, res)
    else (.parseMore, { p with state := .tokenSchemeVersion }, { res with schemeVersion := res.schemeVersion ++ [input] })
  | .tokenSchemeVersion =>
    if input = 32 then (.parseMore, { p with state := .tokenStatusCode, code := [] }, res)
    else if !isChar input then (.parseFail, p, res)
    else (.parseMore, p, { res with schemeVersion := res.schemeVersion ++ [input] })
  | .tokenStatusCode =>
    if input = 32 then (.parseMore, { p with state := .tokenStatusText }, { res with statusCode := statusOfLong (strtol p.code) })
    else if !isDigit input || isCtl input then (.parseFail, p, res)
    else (.parseMore, { p with code := p.code ++ [input] }, res)
  | .tokenStatusText =>
    if input = 13 then (.parseMore, { p with state := .tokenExpectingNewLine }, res)
    else if !isChar input then (.parseFail, p, res)
    else (.parseMore, p, { res with statusText := res.statusText ++ [input] })
  | _ =>
    let (result, p, message) := p.consumeHeaders false res.toMessage input
    (result, p, { res with toMessage := message })

/-- The loop that both overloads of `parse` run over the bytes of a head. It counts them in an `int`;
where `i++` would leave the range of the type, nothing is defined any more. -/
def parseLoop {α : Type} (consume : Parser → α → UInt8 → ParseResult × Parser × α) :
    Nat → Parser → α → Bytes → Option (Bool × Parser × α)
  | _, p, message, [] => some (true, p, message)
  | i, p, message, input :: rest =>
    if i + 1 < 2 ^ 31 then
      match consume p message input with
      | (.parseMore, p, message) => parseLoop consume (i + 1) p message rest
      | (.parseDone, p, message) => parseLoop consume (i + 1) { p with state := .tokenStart } message rest
      | (.parseFail, p, message) => some (false, { p with state := .tokenStart }, message)
    else none

/-- Note that `content_type` is left as it was. -/
def clearRequest (req : Request) : Request :=
  { req with method := [], uri := [], schemeVersion := [], headers := .empty, content := [], contentLength := 0 }

/-- Note that `headers` and `content` are left as they were. -/
def clearResponse (res : Response) : Response :=
  { res with schemeVersion := [], statusCode := ok, statusText := [], contentLength := 0, contentType := [] }

def parseRequest (p : Parser) (req : Request) (data : Bytes) : Option (Bool × Parser × Request) :=
  parseLoop consumeRequest 0 p (clearRequest req) data

def parseResponse (p : Parser) (res : Response) (data : Bytes) : Option (Bool × Parser × Response) :=
  parseLoop consumeResponse 0 p (clearResponse res) data

/-- What the bytes make of a parser and a message, one after the other and up to the first that is refused. -/
def scan {α : Type} (consume : Parser → α → UInt8 → ParseResult × Parser × α) : Parser → α → Bytes → Bool × Parser × α
  | p, message, [] => (true, p, message)
  | p, message, input :: rest =>
    match consume p message input with
    | (.parseMore, p, message) => scan consume p message rest
    | (.parseDone, p, message) => scan consume { p with state := .tokenStart } message rest
    | (.parseFail, p, message) => (false, { p with state := .tokenStart }, message)

/-- `parse` without its counter, for heads that are known by their grammar. -/
def scanRequest (p : Parser) (req : Request) (data : Bytes) : Bool × Parser × Request :=
  scan consumeRequest p (clearRequest req) data

def scanResponse (p : Parser) (res : Response) (data : Bytes) : Bool × Parser × Response :=
  scan consumeResponse p (clearResponse res) data

end Parser
end Apsdk
