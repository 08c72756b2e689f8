/-
CallSignature.Head.Class — the heads of classes.

Behind the word `class` come the name, which may be missing, the supertype
behind the word `extends`, which may be missing too, and the body.  The
supertype is any expression: everything up to the first curly bracket that
stands outside literals and groups.
-/
import CallSignature.Head.Constructor

namespace CallSignature

/-- The name of the class, and the cursor behind it. -/
def className (c : Cursor) : Text × Cursor :=
  if c.startsWithWord "extends".toList then ([], c) else c.identifier.getD ([], c)

/-- How far the class body is from the cursor. -/
def bodyDistance (c : Cursor) : Except Fault Nat :=
  match firstVisit (·.isTopLevel '{') c.rest with
  | .error fault => .error (fault.shifted c.offset)
  | .ok none => .error (Cause.classBodyMissing.located c.offset)
  | .ok (some visit) => .ok visit.offset

/-- The supertype behind the word `extends`, and the cursor behind it. -/
def supertypeReference (c : Cursor) : Except Fault (Text × Cursor) :=
  match bodyDistance c with
  | .error fault => .error fault
  | .ok distance =>
    if (c.rest.takeBytes distance).trim.isEmpty then
      .error (Cause.supertypeMissing.located c.offset)
    else .ok ((c.rest.takeBytes distance).trim, c.seek (c.offset + distance))

/-- The supertype of the class, if it has one, and the cursor behind it. -/
def extendsClause (c : Cursor) : Except Fault (Option Text × Cursor) :=
  match c.matchWord "extends".toList with
  | none => .ok (none, c)
  | some next =>
    (supertypeReference next).map fun (reference, behind) => (some reference, behind)

/-- The parameters of the constructor in the class body before which the
cursor stands. -/
def bodyConstructor (c : Cursor) : Except Fault (Option ParameterList) :=
  if c.peek = '{' then
    match closerDistance c.offset c.rest with
    | .error fault => .error fault
    | .ok last => ownConstructor c.text (c.offset + 1) (c.offset + last)
  else .error (Cause.classBodyExpected.located c.offset)

/-- The head of a class behind the word `class`. -/
def ClassHead.ofCursor (c : Cursor) : Except Fault ClassHead := do
  let (name, c) := className c.skipWhiteSpace
  let (superclass, c) ← extendsClause c.skipWhiteSpace
  let constructor ← bodyConstructor c.skipWhiteSpace
  return { name, superclass, constructor }

end CallSignature
