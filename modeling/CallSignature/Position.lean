/-
CallSignature.Position — lines and columns.

Offsets count bytes; a reader counts lines and characters.  `Position.locate`
goes from the one to the other: it is where a reader stands who has read every
character that begins before the offset.  An offset inside a character is
therefore the position behind that character, and an offset past the end is
the end.
-/
import CallSignature.Text

namespace CallSignature

/-- A place in a source as a reader counts it: lines from one, columns from
zero and in characters. -/
structure Position where
  line : Nat
  column : Nat
  deriving DecidableEq, Repr

namespace Position

/-- The beginning of a source. -/
def start : Position := ⟨1, 0⟩

/-- The place behind the character. -/
def after (p : Position) (c : Char) : Position :=
  if c = '\n' then ⟨p.line + 1, 0⟩ else ⟨p.line, p.column + 1⟩

/-- The place of a byte offset. -/
def locate (source : Text) (offset : Nat) : Position :=
  (source.takeBytes offset).foldl after start

end Position

/-- The lines of a text.  A line ends with a line feed, and a carriage return
before that belongs to the end; what follows the last line feed is a line
unless it is empty. -/
def Text.lines : Text → List Text
  | [] => []
  | '\n' :: rest => [] :: Text.lines rest
  | '\r' :: '\n' :: rest => [] :: Text.lines rest
  | c :: rest =>
    match Text.lines rest with
    | [] => [[c]]
    | line :: behind => (c :: line) :: behind

end CallSignature
