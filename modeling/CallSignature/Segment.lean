/-
CallSignature.Segment — parts of a source that know where they are.

A segment is a text without white space around it, and the position at which
it stands in the source.  A part of a segment is a segment again, and its
position is its position in the same source.

`Segment.elements` cuts a list at its commas.  Only commas outside literals
and groups count; a comma at the very end is allowed and adds no element; any
other missing element is kept as an empty segment, and its position is that
of the comma behind it.
-/
import CallSignature.Nesting.Survey

namespace CallSignature

open Unicode

/-- A part of a source, and its position there. -/
structure Segment where
  text : Text
  offset : Nat
  deriving DecidableEq, Repr

namespace Segment

/-! ## Parts -/

/-- The text that stands at `offset`, without the white space around it. -/
def trimmed (t : Text) (offset : Nat) : Segment :=
  ⟨t.trim, offset + Text.width (t.takeWhile isWhiteSpace)⟩

/-- The segment of a source that is read by itself. -/
def ofText (t : Text) : Segment :=
  trimmed t 0

/-- The part of the segment from byte `first` up to but excluding byte `last`
of its text. -/
def slice (s : Segment) (first last : Nat) : Segment :=
  trimmed (s.text.slice first last) (s.offset + first)

/-- The part of the segment from byte `first` of its text on. -/
def sliceFrom (s : Segment) (first : Nat) : Segment :=
  s.slice first s.text.width

/-- The part of the segment between its first and its last byte. -/
def interior (s : Segment) : Segment :=
  s.slice 1 (s.text.width - 1)

/-- Whether there is nothing in the segment. -/
def isEmpty (s : Segment) : Bool :=
  s.text.isEmpty

/-- The pieces of the segment from byte `first` of its text on, cut at
one-byte separators that stand at the positions `cuts`. -/
def pieces (s : Segment) (first : Nat) : List Nat → List Segment
  | [] => [s.sliceFrom first]
  | cut :: cuts => s.slice first cut :: s.pieces (cut + 1) cuts

theorem pieces_ne_nil (s : Segment) (first : Nat) (cuts : List Nat) :
    s.pieces first cuts ≠ [] := by
  cases cuts <;> simp [pieces]

/-! ## Elements of a list -/

/-- The positions of the commas outside literals and groups. -/
def commas (t : Text) : Except Fault (List Nat) :=
  (scan t).map fun visits => (visits.filter (·.isTopLevel ',')).map (·.offset)

/-- The pieces without the last one, if that is empty and not the only one. -/
def withoutTrailing (parts : List Segment) : List Segment :=
  if 1 < parts.length ∧ parts.getLast?.any isEmpty then parts.dropLast else parts

/-- The elements of a list, which commas separate.  A blank list has none. -/
def elements (list : Segment) : Except Fault (List Segment) :=
  if list.text.isBlank then .ok []
  else shiftFault list.offset
    ((commas list.text).map fun cuts => withoutTrailing (list.pieces 0 cuts))

end Segment

/-- The texts of the elements of a list. -/
def elementTexts (list : Text) : Except Fault (List Text) :=
  (Segment.ofText list).elements.map (·.map (·.text))

end CallSignature
