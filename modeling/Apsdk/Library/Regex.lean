import Apsdk.Library.Text

/-! Regular expressions as ECMAScript defines them: matching by backtracking, searching,
and replacing all matches by a format. -/

namespace Library

inductive Regex where
  | empty
  /-- One byte. -/
  | set (members : UInt8 → Bool)
  | backreference (group : Nat)
  | start
  | finish
  | boundary (expected : Bool)
  | look (expected : Bool) (body : Regex)
  | group (index : Nat) (body : Regex)
  | sequence (first second : Regex)
  | either (first second : Regex)
  /-- Every iteration clears the groups of the body: `count` of them, from `first` on. -/
  | repeated (body : Regex) (least : Nat) (most : Option Nat) (greedy : Bool) (first count : Nat)

namespace Regex

def digit (byte : UInt8) : Bool := 48 ≤ byte && byte ≤ 57

def wordByte (byte : UInt8) : Bool := digit byte || 65 ≤ byte && byte ≤ 90 || 97 ≤ byte && byte ≤ 122 || byte = 95

def char (byte : UInt8) : Regex := .set (· == byte)

/-- Anything but the end of a line. -/
def any : Regex := .set fun byte => byte ≠ 10 && byte ≠ 13

structure State where
  position : Nat
  captures : Nat → Option (Nat × Nat)

def State.clear (state : State) (first count : Nat) : State :=
  { state with captures := fun group => if first ≤ group ∧ group < first + count then none else state.captures group }

def State.capture (state : State) (index start : Nat) : State :=
  { state with captures := fun group => if group = index then some (start, state.position) else state.captures group }

def slice (text : Bytes) (first last : Nat) : Bytes := (text.drop first).take (last - first)

def atBoundary (text : Bytes) (position : Nat) : Bool :=
  (0 < position && text[position - 1]?.any wordByte) != text[position]?.any wordByte

/-- What a part of an expression does in a state, given what is to follow. -/
abbrev Matcher := State → (State → Option State) → Option State

def iterate (body : Matcher) (clear : State → State) (greedy : Bool) : Nat → Nat → Option Nat → Matcher
  | 0, _, _, _, _ => none
  | fuel + 1, least, most, state, next =>
    if most = some 0 then next state
    else
      let again := body (clear state) fun later =>
        -- An iteration beyond the least number must not be empty.
        if least = 0 ∧ later.position = state.position then none
        else iterate body clear greedy fuel (least - 1) (most.map (· - 1)) later next
      if 0 < least then again
      else if greedy then again.or (next state)
      else (next state).or again

def run (text : Bytes) : Regex → Matcher
  | .empty => fun state next => next state
  | .set members => fun state next =>
    if text[state.position]?.any members then next { state with position := state.position + 1 } else none
  | .backreference index => fun state next =>
    match state.captures index with
    | none => next state
    | some (first, last) =>
      if (slice text first last).isPrefixOf (text.drop state.position) then
        next { state with position := state.position + (last - first) }
      else none
  | .start => fun state next => if state.position = 0 then next state else none
  | .finish => fun state next => if state.position = text.length then next state else none
  | .boundary expected => fun state next => if atBoundary text state.position = expected then next state else none
  | .look expected body => fun state next =>
    match run text body state some with
    | some later => if expected then next { later with position := state.position } else none
    | none => if expected then none else next state
  | .group index body => fun state next => run text body state fun later => next (later.capture index state.position)
  | .sequence first second => fun state next => run text first state fun later => run text second later next
  | .either first second => fun state next => (run text first state next).or (run text second state next)
  | .repeated body least most greedy first count =>
    -- Iterations beyond the least number advance, so that the text bounds them.
    iterate (run text body) (fun state => state.clear first count) greedy (least + text.length + 1) least most

structure Match where
  start : Nat
  stop : Nat
  captures : Nat → Option (Nat × Nat)

/-- The text of a group; the whole match is group 0. -/
def Match.str (found : Match) (text : Bytes) (group : Nat) : Bytes :=
  if group = 0 then slice text found.start found.stop
  else (found.captures group).elim [] fun (first, last) => slice text first last

section Searching
variable (regex : Regex) (text : Bytes)

/-- Where an empty match has been found, the next one at the same place is `filled`. -/
def matchAt (filled : Bool) (position : Nat) : Option Match :=
  (run text regex ⟨position, fun _ => none⟩ fun state =>
    if filled ∧ state.position = position then none else some state).map fun state =>
      ⟨position, state.position, state.captures⟩

def searchFrom : Nat → Nat → Option Match
  | 0, _ => none
  | count + 1, position => (matchAt regex text false position).or (searchFrom count (position + 1))

/-- `regex_search`. -/
def search : Option Match := searchFrom regex text (text.length + 1) 0

/-- The step of a `regex_iterator`. -/
def following (found : Match) : Option Match :=
  if found.start = found.stop then
    if found.stop = text.length then none
    else (matchAt regex text true found.stop).or (searchFrom regex text (text.length - found.stop) (found.stop + 1))
  else searchFrom regex text (text.length + 1 - found.stop) found.stop

def matchesFrom : Nat → Option Match → List Match
  | 0, _ => []
  | _, none => []
  | fuel + 1, some found => found :: matchesFrom fuel (following regex text found)

/-- No more than two matches begin at a position. -/
def allMatches : List Match := matchesFrom regex text (2 * text.length + 2) (search regex text)

end Searching

/-- What a dollar in a format introduces. -/
inductive Directive where
  | dollar
  | whole
  | before
  | behind
  | group (index : Nat)

/-- The directive behind a dollar, and its length. -/
def directive : Bytes → Option (Directive × Nat)
  | [] => none
  | byte :: rest =>
    if byte = '$'.toUInt8 then some (.dollar, 1)
    else if byte = '&'.toUInt8 then some (.whole, 1)
    else if byte = 96 then some (.before, 1)
    else if byte = 39 then some (.behind, 1)
    else if digit byte then
      match rest with
      | [] => some (.group (byte.toNat - 48), 1)
      | second :: _ =>
        if digit second then some (.group ((byte.toNat - 48) * 10 + (second.toNat - 48)), 2)
        else some (.group (byte.toNat - 48), 1)
    else none

/-- `last` is the end of the match before. -/
def Directive.text (found : Match) (text : Bytes) (last : Nat) : Directive → Bytes
  | .dollar => ['$'.toUInt8]
  | .whole => found.str text 0
  | .before => slice text last found.start
  | .behind => text.drop found.stop
  | .group index => found.str text index

def formatFrom (found : Match) (text : Bytes) (last : Nat) : Nat → Bytes → Bytes
  | _, [] => []
  | skip + 1, _ :: rest => formatFrom found text last skip rest
  | 0, byte :: rest =>
    if byte = '$'.toUInt8 then
      match directive rest with
      | some (directive, length) => directive.text found text last ++ formatFrom found text last length rest
      | none => byte :: formatFrom found text last 0 rest
    else byte :: formatFrom found text last 0 rest

def substitute (format text : Bytes) : Nat → List Match → Bytes
  | last, [] => text.drop last
  | last, found :: rest =>
    slice text last found.start ++ formatFrom found text last 0 format ++ substitute format text found.stop rest

/-- `regex_replace`. -/
def replace (regex : Regex) (format text : Bytes) : Bytes := substitute format text 0 (allMatches regex text)

end Regex

end Library
