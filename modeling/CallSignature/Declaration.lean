/-
CallSignature.Declaration — what a source declares.

A blank source and one whose body says that it is native cannot be inspected.
In every other one the comments are blanked out first, and then the word
`class` decides: unless a parameter list follows it, which makes it the name
of a method, the source declares a class.
-/
import CallSignature.Comment
import CallSignature.Head.Callable
import CallSignature.Head.Class

namespace CallSignature

/-- What a source declares. -/
inductive Declaration
  | callable (head : Head)
  | ofClass (head : ClassHead)
  deriving DecidableEq, Repr

/-! ## Native code -/

/-- What stands before the mark at the end of a text, white space apart. -/
def beforeMark? (mark : Text) (t : Text) : Option Text :=
  (Text.afterPrefix? mark.reverse t.trimEnd.reverse).map List.reverse

/-- Whether the source ends in a body that says it is native code. -/
def isNative (source : Text) : Bool :=
  (beforeMark? ['}'] source
    |>.bind (beforeMark? "[native code]".toList)
    |>.bind (beforeMark? ['{'])).isSome

/-! ## Reading a source -/

/-- Whether the source declares a class, and the cursor behind the word. -/
def classStart? (c : Cursor) : Option Cursor :=
  match c.matchWord "class".toList with
  | some behind => if behind.skipWhiteSpace.peek = '(' then none else some behind
  | none => none

/-- What the source, its comments blanked out, declares. -/
def Declaration.ofCode (source : Text) : Except Fault Declaration :=
  let start := (Cursor.ofText source).skipWhiteSpace
  match classStart? start with
  | some behind => (ClassHead.ofCursor behind).map .ofClass
  | none => (Head.ofCursor start).map .callable

/-- What the source declares. -/
def Declaration.ofSource (source : Text) : Except Fault Declaration :=
  if source.isBlank then .error { cause := .sourceBlank }
  else if isNative source then .error { cause := .sourceNative source.trim }
  else
    match withoutComments source with
    | .error fault => .error fault
    | .ok stripped => Declaration.ofCode stripped

end CallSignature
