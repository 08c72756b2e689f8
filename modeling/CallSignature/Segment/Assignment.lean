/-
CallSignature.Segment.Assignment — the signs that divide a segment.

An equals sign outside literals and groups divides what is bound from its
default, unless it is part of a comparison (`==`, `!=`, `<=`, `>=`) or of an
arrow (`=>`).  In an entry of an object pattern a colon divides too.

A default is everything behind the first sign, so that the default of `a` in
`a = b = 1` is `b = 1`.
-/
import CallSignature.Segment

namespace CallSignature

namespace Segment

/-- Whether the equals sign at byte `offset` assigns: it does not continue a
comparison that the character before it began, and neither `=` nor `>`
follows. -/
def assigns (t : Text) (offset : Nat) : Bool :=
  !(t.takeBytes offset).getLast?.any (fun c => c == '=' || c == '!' || c == '<' || c == '>')
    && !(t.dropBytes (offset + 1)).head?.any (fun c => c == '=' || c == '>')

/-- Whether the visit is to an equals sign outside groups that assigns. -/
def assignsAt (t : Text) (v : Visit) : Bool :=
  v.isTopLevel '=' && assigns t v.offset

/-- The positions of the equals signs that divide a text. -/
def assignmentCuts (t : Text) : Except Fault (List Nat) :=
  (scan t).map fun visits => (visits.filter (assignsAt t)).map (·.offset)

/-- All pieces of the segment between its equals signs. -/
def assignmentPieces (s : Segment) : Except Fault (List Segment) :=
  shiftFault s.offset ((assignmentCuts s.text).map (s.pieces 0))

/-- What the segment binds, and the default for it, if there is one. -/
def bindingAndDefault (s : Segment) : Except Fault (Segment × Option Segment) :=
  shiftFault s.offset ((assignmentCuts s.text).map fun
    | [] => (s, none)
    | cut :: _ => (s.slice 0 cut, some (s.sliceFrom (cut + 1))))

/-- Whether the visit is to a sign that divides an entry of an object pattern. -/
def separatesAt (t : Text) (v : Visit) : Bool :=
  v.isTopLevel ':' || assignsAt t v

/-- The first sign that divides an entry of an object pattern, and its
position in the text of the entry. -/
def divider (entry : Segment) : Except Fault (Option (Nat × Char)) :=
  shiftFault entry.offset ((firstVisit (separatesAt entry.text) entry.text).map
    (·.map fun v => (v.offset, v.char)))

end Segment

/-- The texts of the pieces of a segment between its equals signs. -/
def assignmentTexts (t : Text) : Except Fault (List Text) :=
  (Segment.ofText t).assignmentPieces.map (·.map (·.text))

end CallSignature
