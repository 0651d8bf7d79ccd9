import Apsdk.MessageParser

/-! The heads of requests and responses as texts, apart from the automaton that
reads them. A head carries the proof that its parts are made of the right bytes. -/

namespace Apsdk
open Library Apsdk.Parser

/-- A method or the name of a header. -/
structure IsToken (text : Bytes) : Prop where
  named : text ≠ []
  plain : ∀ byte ∈ text, barred byte = false

/-- A value may hold every byte but the control characters. -/
def IsValue (text : Bytes) : Prop := ∀ byte ∈ text, isCtl byte = false

/-- A version of a request, and the text behind a status code. -/
def IsLineText (text : Bytes) : Prop := ∀ byte ∈ text, byte ≠ 13 ∧ isChar byte = true

instance (text : Bytes) : Decidable (IsValue text) := inferInstanceAs (Decidable (∀ byte ∈ text, _))

instance (text : Bytes) : Decidable (IsLineText text) := inferInstanceAs (Decidable (∀ byte ∈ text, _))

structure HeaderLine where
  name : Bytes
  value : Bytes
  token : IsToken name
  plain : IsValue value

namespace HeaderLine

def entry (line : HeaderLine) : Bytes × Bytes := (line.name, line.value)

/-- A header line without its line end. -/
def text (line : HeaderLine) : Bytes := line.name ++ 58 :: 32 :: line.value

def bytes (line : HeaderLine) : Bytes := line.text ++ RN_LINE_BREAK

end HeaderLine

/-- What follows the first line of a head. -/
def headerBlock (lines : List HeaderLine) : Bytes := lines.flatMap HeaderLine.bytes ++ RN_LINE_BREAK

/-- The value that the last line with the name gives it. -/
def lastValue (name : Bytes) (lines : List HeaderLine) : Option Bytes :=
  SortedMap.lastValue name (lines.map HeaderLine.entry)

def contentLengthOf (lines : List HeaderLine) : Nat :=
  ((lastValue HEADER_CONTENT_LENGTH lines).map fun value => sizeOfLong (strtol value)).getD 0

/-- The map in which the last value of each name wins. -/
def headerMap (lines : List HeaderLine) : HeaderMap := SortedMap.empty.insertAll (lines.map HeaderLine.entry)

structure RequestHead where
  method : Bytes
  uri : Bytes
  version : Bytes
  lines : List HeaderLine
  token : IsToken method
  plain : ∀ byte ∈ uri, byte ≠ 32 ∧ isChar byte = true ∧ isCtl byte = false
  text : IsLineText version

namespace RequestHead

def firstLine (head : RequestHead) : Bytes := head.method ++ 32 :: head.uri ++ 32 :: head.version

def bytes (head : RequestHead) : Bytes := head.firstLine ++ RN_LINE_BREAK ++ headerBlock head.lines

end RequestHead

/-- A version that a response may begin with: line ends are allowed in it. -/
structure IsVersion (text : Bytes) : Prop where
  begins : ∃ first later, text = first :: later ∧ barred first = false
  plain : ∀ byte ∈ text, byte ≠ 32 ∧ isChar byte = true

structure ResponseHead where
  version : Bytes
  code : Bytes
  text : Bytes
  lines : List HeaderLine
  begins : IsVersion version
  digits : ∀ byte ∈ code, isDigit byte = true
  plain : IsLineText text

namespace ResponseHead

def firstLine (head : ResponseHead) : Bytes := head.version ++ 32 :: head.code ++ 32 :: head.text

def bytes (head : ResponseHead) : Bytes := head.firstLine ++ RN_LINE_BREAK ++ headerBlock head.lines

end ResponseHead

/-- What `async_read_until` delivers: the first empty line ends the block. -/
def IsBlock (data : Bytes) : Prop := endOfFirst RNRN_LINE_BREAK data = some data.length

instance (data : Bytes) : Decidable (IsBlock data) := inferInstanceAs (Decidable (_ = _))

end Apsdk
