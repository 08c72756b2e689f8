/-
CallSignature.Shape.Reader — reading a pattern into a shape.

A token is classified first.  A token that is one whole group in curly or
square brackets is an object or an array pattern, a token that begins with
three dots is a spread, and everything else is a leaf.

A pattern is read level by level, and the number of levels is limited.  The
reader carries the ROOM that is left, and the recursion is on the room; a
token that is met without any room is the fault.
-/
import CallSignature.Options.Document
import CallSignature.Segment.Assignment
import CallSignature.Shape.Source
import CallSignature.Word

namespace CallSignature

/-! ## Classes of tokens -/

/-- What a token looks like from outside. -/
inductive TokenClass
  /-- One whole group in curly brackets. -/
  | object
  /-- One whole group in square brackets. -/
  | array
  /-- Three dots, and something behind them. -/
  | spread
  | leaf
  deriving DecidableEq, Repr

/-- Whether the group that is closed first, of the characters of the code, is
closed by the last character of the text. -/
def isWholeGroup (t : Text) (visits : List Visit) : Bool :=
  (visits.find? (·.closesGroup)).any fun visit => visit.offset + 1 == t.width

/-- The class of a text with these characters of the code. -/
def TokenClass.ofVisits (t : Text) (visits : List Visit) : TokenClass :=
  if t.head? = some '{' ∧ isWholeGroup t visits then .object
  else if t.head? = some '[' ∧ isWholeGroup t visits then .array
  else if Shape.dots.isPrefixOf t then .spread
  else .leaf

/-- The class of a token.  Its literals and groups must be in order. -/
def tokenClass (token : Segment) : Except Fault TokenClass :=
  shiftFault token.offset ((scan token.text).map (TokenClass.ofVisits token.text))

/-! ## Leaves -/

/-- The quote and the words of a text that is one whole literal. -/
def wholeLiteral? (t : Text) : Option (Char × Text) :=
  match t.head?, closingQuote t with
  | some quote, some last => if last + 1 = t.width then some (quote, t.slice 1 last) else none
  | _, _ => none

/-- A token that is no pattern. -/
def Shape.ofLeaf (t : Text) : Shape :=
  if t = "true".toList then .bool true
  else if t = "false".toList then .bool false
  else
    match wholeLiteral? t with
    | some (quote, words) => .text words (some quote)
    | none => .bare t

/-! ## Entries of object patterns -/

/-- An entry of an object pattern before its value is read. -/
inductive EntryForm
  /-- Three dots and a name: the whole entry is read as the value. -/
  | rest (key : Text)
  | shorthand (key : Text)
  | valued (key : Text) (value : Segment)
  deriving DecidableEq, Repr

/-- The form of an entry behind the sign that divides it. -/
def EntryForm.ofDivided (entry : Segment) (offset : Nat) (separator : Char) :
    Except Fault EntryForm :=
  let value := entry.sliceFrom (offset + 1)
  if value.isEmpty then
    .error ((Cause.entryWithoutValue separator).located (entry.offset + offset))
  else .ok (.valued (entry.text.takeBytes offset).trim value)

/-- The form of an entry. -/
def EntryForm.ofSegment (entry : Segment) : Except Fault EntryForm :=
  if entry.isEmpty then .error (Cause.entryEmpty.located entry.offset)
  else
    match Text.afterPrefix? Shape.dots entry.text with
    | some operand =>
      if isIdentifier operand.trim then .ok (.rest operand.trim)
      else
        .error (((Cause.restKeyNotBindable operand.trim).located entry.offset).withHint
          .restMustBeIdentifier)
    | none =>
      match entry.divider with
      | .error fault => .error fault
      | .ok none => .ok (.shorthand entry.text)
      | .ok (some (offset, separator)) => EntryForm.ofDivided entry offset separator

/-! ## Patterns -/

/-- An element of an array pattern, where `read` reads the next level. -/
def readItem (read : Segment → Except Fault Shape) (element : Segment) : Except Fault Shape :=
  if element.isEmpty then .ok .hole else read element

/-- An entry of an object pattern, where `read` reads the next level.  A
value is read before its key is missed. -/
def readEntry (read : Segment → Except Fault Shape) (entry : Segment) :
    Except Fault Entry := do
  match ← EntryForm.ofSegment entry with
  | .rest key => return .valued key (← read entry)
  | .shorthand key => return .shorthand key
  | .valued key value =>
    let shape ← read value
    if key.isEmpty then throw (Cause.entryWithoutKey.located entry.offset)
    return .valued key shape

/-- What three dots stand before, where `read` reads the next level. -/
def readSpread (read : Segment → Except Fault Shape) (token : Segment) : Except Fault Shape :=
  let operand := token.sliceFrom 3
  if operand.isEmpty then .error (Cause.spreadWithoutOperand.located token.offset)
  else (read operand).map .spread

/-- A token as a shape, where `read` reads the next level. -/
def readToken (read : Segment → Except Fault Shape) (token : Segment) :
    Except Fault Shape := do
  match ← tokenClass token with
  | .object => return .mapping (← (← token.interior.elements).mapM (readEntry read))
  | .array => return .sequence (← (← token.interior.elements).mapM (readItem read))
  | .spread => readSpread read token
  | .leaf => return Shape.ofLeaf token.text

/-- A token as a shape, with room for this many levels of the `limit` and the
one above it. -/
def shapeWithin (limit : Nat) : Nat → Segment → Except Fault Shape
  | 0, token =>
    .error (((Cause.nestingTooDeep limit).located token.offset).withHint .raiseMaxDepth)
  | room + 1, token => readToken (shapeWithin limit room) token

/-- A token as a shape. -/
def Options.shape (options : Options) (token : Segment) : Except Fault Shape :=
  shapeWithin options.maxDepth (options.maxDepth + 1) token

/-- The shape of a pattern that is read by itself, under the default options. -/
def readShape (token : Text) : Except Fault Shape :=
  Options.shape {} (Segment.ofText token)

end CallSignature
