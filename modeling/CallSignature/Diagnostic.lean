/-
CallSignature.Diagnostic — a fault shown in its source.

A diagnostic is a few lines: the headline of the fault; the label of the
source and, if the fault has an offset, the line and column; then the line of
the source with a caret under the column; and the hint, if there is one.
-/
import CallSignature.Fault
import CallSignature.Position

namespace CallSignature

namespace Diagnostic

/-- A line number, at the right of a column of two. -/
def gutter (line : Nat) : Text :=
  List.replicate (2 - (Text.ofNat line).length) ' ' ++ Text.ofNat line

/-- The line of the source at a position.  A position that is on no line of
the source is on an empty one. -/
def sourceLine (source : Text) (p : Position) : Text :=
  source.lines.getD (p.line - 1) []

/-- The lines that show a position of the source. -/
def snippet (label source : Text) (p : Position) : List Text :=
  ["  --> ".toList ++ label ++ ":".toList ++ Text.ofNat p.line ++ ":".toList
      ++ Text.ofNat (p.column + 1),
   "   |".toList,
   gutter p.line ++ " | ".toList ++ sourceLine source p,
   "   | ".toList ++ List.replicate p.column ' ' ++ "^".toList]

/-- Where the fault lies in the source, if it has an offset. -/
def position? (source : Text) (fault : Fault) : Option Position :=
  fault.offset.map (Position.locate source)

/-- The lines of the diagnostic for a fault in a source. -/
def lines (label source : Text) (fault : Fault) : List Text :=
  fault.headline ::
    (match position? source fault with
      | some p => snippet label source p
      | none => ["  --> ".toList ++ label])
    ++ (match fault.help with
      | some help => ["help: ".toList ++ help]
      | none => [])

/-- The diagnostic for a fault in a source. -/
def render (label source : Text) (fault : Fault) : Text :=
  (lines label source fault).flatMap (· ++ ['\n'])

end Diagnostic

end CallSignature
