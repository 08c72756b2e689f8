/-
CallSignature.Nesting.Tracker — keeping count of open groups.

Round, square and curly brackets make groups, and every closing bracket must
match the innermost group that is open.  Inside a quoted literal brackets are
text.  The tracker is fed a text character by character and says of each at
what DEPTH it stands: the number of groups around it, where a bracket counts
as standing outside the group it bounds.
-/
import CallSignature.Fault
import CallSignature.Literal

namespace CallSignature

/-! ## Brackets -/

/-- The closing bracket for an opening one. -/
def closerOf? (c : Char) : Option Char :=
  if c = '(' then some ')'
  else if c = '[' then some ']'
  else if c = '{' then some '}'
  else none

/-- Whether the character is a closing bracket. -/
def isCloser (c : Char) : Bool :=
  c == ')' || c == ']' || c == '}'

/-! ## The tracker -/

/-- A group that is open: the bracket it waits for, and where it began. -/
structure OpenGroup where
  closer : Char
  openedAt : Nat
  deriving DecidableEq, Repr

/-- The groups that are open, innermost first, and the state of the quotes. -/
structure Tracker where
  groups : List OpenGroup := []
  quotes : QuoteState := .outside
  deriving DecidableEq, Repr

/-- What the tracker says of a character. -/
inductive Sighting
  /-- Part of a literal. -/
  | literal
  /-- Part of the code, inside this many groups. -/
  | code (depth : Nat)
  deriving DecidableEq, Repr

namespace Tracker

/-- The tracker after a closing bracket, and what it says of it.  The
innermost group is given up even if the bracket does not match it. -/
def close (t : Tracker) (offset : Nat) (c : Char) : Tracker × Except Fault Sighting :=
  match t.groups with
  | [] => (t, .error (((Cause.closerUnmatched c).located offset).withHint .checkBrackets))
  | group :: outer =>
    if group.closer = c then ({ t with groups := outer }, .ok (.code outer.length))
    else
      ({ t with groups := outer },
        .error (((Cause.closerMismatch group.closer c).located offset).withHint
          (.groupNeverClosed group.openedAt)))

/-- The tracker after the character at byte `offset`, and what it says of it. -/
def feed (t : Tracker) (offset : Nat) (c : Char) : Tracker × Except Fault Sighting :=
  if t.quotes.covers c then ({ t with quotes := t.quotes.step offset c }, .ok .literal)
  else
    match closerOf? c with
    | some closer =>
      ({ t with groups := ⟨closer, offset⟩ :: t.groups }, .ok (.code t.groups.length))
    | none =>
      if isCloser c then t.close offset c
      else (t, .ok (.code t.groups.length))

/-- What is wrong if the text ends here: a literal that is open, or else the
innermost group that is. -/
def unfinished? (t : Tracker) : Option Fault :=
  match t.quotes.openLiteral? with
  | some (quote, openedAt) => some ((Cause.literalUnterminated quote).located openedAt)
  | none =>
    match t.groups with
    | [] => none
    | group :: _ => some ((Cause.groupUnclosed group.closer).located group.openedAt)

end Tracker

end CallSignature
