import Apsdk.Library.Regex

/-! The patterns of ECMAScript, with the named classes that `std::regex` adds to them.
A pattern that does not belong to the grammar has no expression. -/

namespace Library.Regex

/-- An expression that has been read, the number of groups up to its end, and the rest of the pattern. -/
abbrev Read := Regex × Nat × Bytes

/-- A byte that stands for itself. -/
def ordinary (byte : UInt8) : Bool := !(ascii "^$\\.*+?()[]\x7b\x7d|").contains byte

def DOT : UInt8 := '.'.toUInt8

def number (digits : Bytes) : Nat := digits.foldl (fun value byte => value * 10 + (byte.toNat - 48)) 0

/-- The rest of a quantifier in braces. -/
def braces (pattern : Bytes) : Option (Nat × Option Nat × Bytes) :=
  let (low, rest) := pattern.span digit
  if low = [] then none
  else match rest with
    | [] => none
    | byte :: rest =>
      if byte = 125 then some (number low, some (number low), rest)
      else if byte ≠ ','.toUInt8 then none
      else
        let (high, rest) := rest.span digit
        if rest.head? ≠ some 125 then none
        else if high = [] then some (number low, none, rest.tail)
        else if number high < number low then none
        else some (number low, some (number high), rest.tail)

/-- An atom with the quantifier behind it. -/
def quantified (before : Nat) (atom : Regex) (groups : Nat) : Bytes → Option Read
  | [] => some (atom, groups, [])
  | byte :: rest =>
    let bounds : Option (Option (Nat × Option Nat × Bytes)) :=
      if byte = '*'.toUInt8 then some (some (0, none, rest))
      else if byte = '+'.toUInt8 then some (some (1, none, rest))
      else if byte = '?'.toUInt8 then some (some (0, some 1, rest))
      else if byte = 123 then (braces rest).map some
      else some none
    match bounds with
    | none => none
    | some none => some (atom, groups, byte :: rest)
    | some (some (least, most, rest)) =>
      let greedy := rest.head? ≠ some '?'.toUInt8
      some (.repeated atom least most greedy (before + 1) (groups - before), groups, if greedy then rest else rest.tail)

def hexDigit (byte : UInt8) : Option Nat :=
  if digit byte then some (byte.toNat - 48)
  else if 97 ≤ byte && byte ≤ 102 then some (byte.toNat - 87)
  else if 65 ≤ byte && byte ≤ 70 then some (byte.toNat - 55)
  else none

/-- A number of hexadecimal digits for one byte. -/
def hexadecimal (count : Nat) (pattern : Bytes) : Option (UInt8 × Bytes) := do
  let digits ← (pattern.take count).mapM hexDigit
  let value := digits.foldl (fun value digit => value * 16 + digit) 0
  if digits.length = count ∧ value < 256 then some (UInt8.ofNat value, pattern.drop count) else none

def letter (byte : UInt8) : Bool := 65 ≤ byte && byte ≤ 90 || 97 ≤ byte && byte ≤ 122

def space (byte : UInt8) : Bool := 9 ≤ byte && byte ≤ 13 || byte = 32

/-- The classes of `\\d`, `\\s` and `\\w`, and their complements. -/
def classEscape (byte : UInt8) : Option (UInt8 → Bool) :=
  if byte = 'd'.toUInt8 then some digit
  else if byte = 'D'.toUInt8 then some fun other => !digit other
  else if byte = 's'.toUInt8 then some space
  else if byte = 'S'.toUInt8 then some fun other => !space other
  else if byte = 'w'.toUInt8 then some wordByte
  else if byte = 'W'.toUInt8 then some fun other => !wordByte other
  else none

/-- The byte that an escape stands for. -/
def characterEscape : Bytes → Option (UInt8 × Bytes)
  | [] => none
  | byte :: rest =>
    if byte = 'f'.toUInt8 then some (12, rest)
    else if byte = 'n'.toUInt8 then some (10, rest)
    else if byte = 'r'.toUInt8 then some (13, rest)
    else if byte = 't'.toUInt8 then some (9, rest)
    else if byte = 'v'.toUInt8 then some (11, rest)
    else if byte = '0'.toUInt8 then if rest.head?.any digit then none else some (0, rest)
    else if byte = 'c'.toUInt8 then
      match rest with
      | [] => none
      | control :: rest => if letter control then some (UInt8.ofNat (control.toNat % 32), rest) else none
    else if byte = 'x'.toUInt8 then hexadecimal 2 rest
    else if byte = 'u'.toUInt8 then hexadecimal 4 rest
    else if wordByte byte then none
    else some (byte, rest)

/-- What stands behind a backslash outside of a class. -/
def escape : Bytes → Option (Regex × Bytes)
  | [] => none
  | byte :: rest =>
    if digit byte ∧ byte ≠ '0'.toUInt8 then
      let (digits, rest) := (byte :: rest).span digit
      some (.backreference (number digits), rest)
    else match classEscape byte with
      | some members => some (.set members, rest)
      | none => (characterEscape (byte :: rest)).map fun (value, rest) => (.char value, rest)

def namedClass (name : Bytes) : Option (UInt8 → Bool) :=
  let graph := fun byte : UInt8 => 33 ≤ byte && byte ≤ 126
  let alnum := fun byte => letter byte || digit byte
  ([("alnum", alnum), ("alpha", letter), ("blank", fun byte => byte = 9 || byte = 32),
    ("cntrl", fun byte => byte < 32 || byte = 127), ("digit", digit), ("d", digit), ("graph", graph),
    ("lower", fun byte => 97 ≤ byte && byte ≤ 122), ("print", fun byte => graph byte || byte = 32),
    ("punct", fun byte => graph byte && !alnum byte), ("space", space), ("s", space),
    ("upper", fun byte => 65 ≤ byte && byte ≤ 90), ("w", wordByte),
    ("xdigit", fun byte => (hexDigit byte).isSome)].find? fun entry => ascii entry.1 = name).map Prod.snd

/-- A name between brackets, such as `[:alpha:]` without its first two bytes. -/
def bracketed (mark : UInt8) (pattern : Bytes) : Option (Bytes × Bytes) :=
  let (name, rest) := pattern.span (· ≠ mark)
  if [mark, ']'.toUInt8].isPrefixOf rest then some (name, rest.drop 2) else none

inductive ClassAtom where
  | byte (value : UInt8)
  | members (bytes : UInt8 → Bool)

def ClassAtom.contains : ClassAtom → UInt8 → Bool
  | .byte value => (· == value)
  | .members bytes => bytes

def classAtom : Bytes → Option (ClassAtom × Bytes)
  | [] => none
  | byte :: rest =>
    if byte = '\\'.toUInt8 then
      match rest with
      | [] => none
      | escaped :: later =>
        if escaped = 'b'.toUInt8 then some (.byte 8, later)
        else match classEscape escaped with
          | some members => some (.members members, later)
          | none => (characterEscape rest).map fun (value, later) => (.byte value, later)
    else if (ascii "[:").isPrefixOf (byte :: rest) then do
      let (name, later) ← bracketed ':'.toUInt8 rest.tail
      let members ← namedClass name
      some (.members members, later)
    else if (ascii "[.").isPrefixOf (byte :: rest) ∨ (ascii "[=").isPrefixOf (byte :: rest) then
      match rest with
      | [] => none
      | mark :: inner =>
        match bracketed mark inner with
        | some ([value], later) => some (.byte value, later)
        | _ => none
    else some (.byte byte, rest)

/-- The members of a class up to its closing bracket. -/
def classItems : Nat → (UInt8 → Bool) → Bytes → Option ((UInt8 → Bool) × Bytes)
  | 0, _, _ => none
  | fuel + 1, members, pattern =>
    if pattern.head? = some ']'.toUInt8 then some (members, pattern.tail)
    else do
      let (first, rest) ← classAtom pattern
      if rest.head? = some '-'.toUInt8 ∧ rest.tail.head? ≠ some ']'.toUInt8 then
        let (last, rest) ← classAtom rest.tail
        match first, last with
        | .byte low, .byte high =>
          if low ≤ high then classItems fuel (fun byte => members byte || low ≤ byte && byte ≤ high) rest else none
        | _, _ => none
      else classItems fuel (fun byte => members byte || first.contains byte) rest

/-- A class behind its opening bracket. -/
def characterClass (pattern : Bytes) : Option (Regex × Bytes) :=
  let negated := pattern.head? = some '^'.toUInt8
  let pattern := if negated then pattern.tail else pattern
  (classItems (pattern.length + 1) (fun _ => false) pattern).map fun (members, rest) =>
    (.set fun byte => members byte != negated, rest)

def closed (pattern : Bytes) : Option Bytes := if pattern.head? = some ')'.toUInt8 then some pattern.tail else none

mutual

def disjunction : Nat → Nat → Bytes → Option Read
  | 0, _, _ => none
  | fuel + 1, groups, pattern => do
    let (first, groups, rest) ← alternative fuel groups pattern
    if rest.head? = some '|'.toUInt8 then
      let (second, groups, rest) ← disjunction fuel groups rest.tail
      some (.either first second, groups, rest)
    else some (first, groups, rest)

def alternative : Nat → Nat → Bytes → Option Read
  | 0, _, _ => none
  | _, groups, [] => some (.empty, groups, [])
  | fuel + 1, groups, byte :: rest =>
    if byte = '|'.toUInt8 ∨ byte = ')'.toUInt8 then some (.empty, groups, byte :: rest)
    else do
      let (first, groups, rest) ← term fuel groups byte rest
      let (second, groups, rest) ← alternative fuel groups rest
      some (.sequence first second, groups, rest)

def term : Nat → Nat → UInt8 → Bytes → Option Read
  | 0, _, _, _ => none
  | fuel + 1, groups, byte, rest =>
    if ordinary byte then quantified groups (.char byte) groups rest
    else if byte = DOT then quantified groups .any groups rest
    else if byte = '^'.toUInt8 then some (.start, groups, rest)
    else if byte = '$'.toUInt8 then some (.finish, groups, rest)
    else if byte = '\\'.toUInt8 then
      if rest.head? = some 'b'.toUInt8 then some (.boundary true, groups, rest.tail)
      else if rest.head? = some 'B'.toUInt8 then some (.boundary false, groups, rest.tail)
      else do
        let (atom, rest) ← escape rest
        quantified groups atom groups rest
    else if byte = '['.toUInt8 then do
      let (atom, rest) ← characterClass rest
      quantified groups atom groups rest
    else if byte = '('.toUInt8 then
      if (ascii "?=").isPrefixOf rest ∨ (ascii "?!").isPrefixOf rest then do
        let (body, after, later) ← disjunction fuel groups (rest.drop 2)
        some (.look ((ascii "?=").isPrefixOf rest) body, after, ← closed later)
      else if (ascii "?:").isPrefixOf rest then do
        let (body, after, later) ← disjunction fuel groups (rest.drop 2)
        quantified groups body after (← closed later)
      else do
        let (body, after, later) ← disjunction fuel (groups + 1) rest
        quantified groups (.group (groups + 1) body) after (← closed later)
    else none

end

/-- Every backreference is to one of the groups. -/
def refersWithin (groups : Nat) : Regex → Bool
  | .backreference index => index ≤ groups
  | .look _ body => body.refersWithin groups
  | .group _ body => body.refersWithin groups
  | .sequence first second => first.refersWithin groups && second.refersWithin groups
  | .either first second => first.refersWithin groups && second.refersWithin groups
  | .repeated body _ _ _ _ _ => body.refersWithin groups
  | _ => true

/-- The expression of a pattern. -/
def parse (pattern : Bytes) : Option Regex := do
  let (regex, groups, rest) ← disjunction (3 * pattern.length + 3) 0 pattern
  if rest = [] ∧ regex.refersWithin groups then some regex else none

end Library.Regex
