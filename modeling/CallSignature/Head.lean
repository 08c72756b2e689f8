/-
CallSignature.Head — what stands before the body of a callable.

The head of a callable gives its name, its form and its parameter list.  A
class has a head of its own, with the reference to its supertype and the
parameter list of its constructor.

`closerDistance` finds the end of a group, and `ParameterList.ofCursor` reads
a parameter list in parentheses.
-/
import CallSignature.Cursor
import CallSignature.Nesting.Survey

namespace CallSignature

/-! ## Heads -/

/-- A parameter list without its parentheses and comments. -/
structure ParameterList where
  text : Text := []
  /-- Where the text stands in the source it was taken from. -/
  offset : Nat := 0
  deriving DecidableEq, Repr

/-- The marks of a callable's form. -/
structure Form where
  isAsync : Bool := false
  isArrow : Bool := false
  isGenerator : Bool := false
  isClass : Bool := false
  deriving DecidableEq, Repr

/-- The form in a word. -/
def Form.label (form : Form) : Text :=
  if form.isClass then "class".toList
  else if form.isArrow then "arrow".toList
  else if form.isGenerator then "generator".toList
  else "function".toList

/-- The head of a callable. -/
structure Head where
  /-- The name in the source, or nothing if there is none. -/
  name : Text := []
  form : Form := {}
  parameters : ParameterList := {}
  /-- The supertype that the parameters were taken from, if they were.  The
  offset of the parameters is one in the source of that supertype. -/
  inheritedFrom : Option Text := none
  deriving DecidableEq, Repr

/-- The head of a class, and the parameters of its own constructor. -/
structure ClassHead where
  name : Text
  superclass : Option Text
  constructor : Option ParameterList
  deriving DecidableEq, Repr

/-! ## Groups -/

/-- A fault inside a group that begins at byte `offset`, as the reason why
the group has no end. -/
def closerFault (offset : Nat) (fault : Fault) : Fault :=
  { fault.shifted offset with cause := .boundaryMissing fault.cause }

/-- How far the closing bracket is from the beginning of `rest`, which begins
with the opening one and stands at byte `offset`. -/
def closerDistance (offset : Nat) (rest : Text) : Except Fault Nat :=
  match closingBracket rest with
  | .ok last => .ok last
  | .error fault => .error (closerFault offset fault)

/-- The parameter list in parentheses before which the cursor stands, and the
cursor behind it. -/
def ParameterList.ofCursor (c : Cursor) : Except Fault (ParameterList × Cursor) :=
  if c.peek = '(' then
    match closerDistance c.offset c.rest with
    | .ok last => .ok (⟨c.rest.slice 1 last, c.offset + 1⟩, c.seek (c.offset + last + 1))
    | .error fault => .error fault
  else .error ((Cause.parameterListExpected.located c.offset).withHint .expectCallable)

end CallSignature
