/-
CallSignature.Head.Callable — the heads of functions and methods.

Four forms are read: `(…) =>` and `name =>`, with or without `async` before
them; `function name(…)`; and the method `name(…) {`, where the name may be
quoted or computed.  A function and a method may have the modifiers of a
class member before them, and an asterisk before the name.

The words are words only by their place.  `async`, `get`, `set` and `static`
are names where a modifier would have nothing to modify, and so the forms are
tried in the order above, each from the same place.
-/
import CallSignature.Head

namespace CallSignature

/-- The source that begins like no callable, from the cursor on. -/
def headFault (c : Cursor) : Fault :=
  ((Cause.headUnrecognised (c.text.trim.take 60)).located c.offset).withHint .expectCallable

/-! ## Arrows -/

/-- The parameters of an arrow: a list in parentheses or one bare name. -/
def ParameterList.ofArrow (c : Cursor) : Except Fault (Option (ParameterList × Cursor)) :=
  if c.peek = '(' then (ParameterList.ofCursor c).map some
  else .ok (c.identifier.map fun (name, next) => (⟨name, c.offset⟩, next))

/-- The head of an arrow function, up to and including the arrow, and the
cursor behind it.  If there is none, the cursor is back where it was. -/
def Head.arrow (isAsync : Bool) (c : Cursor) : Except Fault (Option Head × Cursor) :=
  match ParameterList.ofArrow c with
  | .error fault => .error fault
  | .ok none => .ok (none, c)
  | .ok (some (parameters, next)) =>
    match next.skipWhiteSpace.matchText ['=', '>'] with
    | some behind => .ok (some { form := { isAsync, isArrow := true }, parameters }, behind)
    | none => .ok (none, next.seek c.offset)

/-! ## Modifiers and marks -/

/-- Whether a word that is followed by this character, white space apart, is
a name and no modifier. -/
def endsName (c : Char) : Bool :=
  c == '(' || c == '=' || c == '{' || c == '\x00'

/-- Whether the modifiers before which the cursor stands include `async`, and
the cursor behind them. -/
def modifiers (isAsync : Bool) (c : Cursor) : Bool × Cursor :=
  match _ : c.identifier with
  | none => (isAsync, c)
  | some (word, next) =>
    if isMemberModifier word && !endsName next.skipWhiteSpace.peek then
      modifiers (isAsync || word == "async".toList) next.skipWhiteSpace
    else (isAsync, c)
termination_by c.rest.length
decreasing_by
  exact Nat.lt_of_le_of_lt (Cursor.rest_skipWhile_le _ _)
    (Cursor.rest_lt_of_identifier (by assumption))

/-- Whether an asterisk is next, and the cursor behind it. -/
def generatorMark (c : Cursor) : Bool × Cursor :=
  match c.matchChar '*' with
  | some next => (true, next.skipWhiteSpace)
  | none => (false, c)

/-! ## Functions and methods -/

/-- The head of a function behind the word `function`. -/
def Head.function (isAsync : Bool) (c : Cursor) : Except Fault Head := do
  let (isGenerator, c) := generatorMark c
  let (name, c) := c.identifier.getD ([], c)
  let (parameters, _) ← ParameterList.ofCursor c.skipWhiteSpace
  return { name, form := { isAsync, isGenerator }, parameters }

/-- The name of a method, and the cursor behind it.  A computed name keeps
its brackets, a quoted one loses its quotes. -/
def memberName (c : Cursor) : Except Fault (Text × Cursor) :=
  match c.identifier with
  | some found => .ok found
  | none =>
    if c.peek = '[' then
      match closerDistance c.offset c.rest with
      | .ok last => .ok (c.rest.slice 0 (last + 1), c.seek (c.offset + last + 1))
      | .error fault => .error fault
    else if c.peek = '\'' ∨ c.peek = '"' then
      match closingQuote c.rest with
      | some last => .ok (c.rest.slice 1 last, c.seek (c.offset + last + 1))
      | none => .error (headFault c)
    else .error (headFault c)

/-- The head of a method, up to and including the bracket that opens its
body. -/
def Head.method (isAsync : Bool) (c : Cursor) : Except Fault Head := do
  let (isGenerator, c) := generatorMark c
  let (name, c) ← memberName c
  let (parameters, c) ← ParameterList.ofCursor c.skipWhiteSpace
  if c.skipWhiteSpace.peek ≠ '{' then throw (headFault c.skipWhiteSpace)
  return { name, form := { isAsync, isGenerator }, parameters }

/-- The head of a function or a method, with its modifiers. -/
def Head.member (c : Cursor) : Except Fault Head :=
  let (isAsync, c) := modifiers false c
  match c.matchWord "function".toList with
  | some next => Head.function isAsync next.skipWhiteSpace
  | none => Head.method isAsync c

/-- The head of an arrow function behind the word `async`. -/
def Head.asyncArrow (c : Cursor) : Except Fault (Option Head) :=
  match c.matchWord "async".toList with
  | none => .ok none
  | some next => (Head.arrow true next.skipWhiteSpace).map (·.1)

/-- The head of a callable that is no class. -/
def Head.ofCursor (c : Cursor) : Except Fault Head := do
  match (← Head.arrow false c).1 with
  | some head => return head
  | none =>
    match ← Head.asyncArrow c with
    | some head => return head
    | none => Head.member c

end CallSignature
