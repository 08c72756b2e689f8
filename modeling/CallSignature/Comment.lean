/-
CallSignature.Comment — taking the comments out of a source.

A line comment goes from two slashes up to the end of the line; a block
comment from slash and star through the first star and slash behind them.
Neither begins inside a quoted literal.  Each character of a comment is
overwritten with as many spaces as it has bytes, and line breaks stay, so
that every position in the result is a position in the source.
-/
import CallSignature.Fault
import CallSignature.Literal

namespace CallSignature

/-- What stands in the place of a character of a comment. -/
def blank (c : Char) : Text :=
  if c = '\n' ∨ c = '\r' then [c] else List.replicate c.utf8Size ' '

/-- What a reader of comments is in the middle of. -/
inductive Zone
  /-- Code or a literal. -/
  | code (quotes : QuoteState)
  /-- A line comment. -/
  | line
  /-- The star that makes the slash before it open a block comment. -/
  | blockOpening (openedAt : Nat)
  /-- A block comment. -/
  | block (openedAt : Nat)
  /-- The slash that makes the star before it close a block comment. -/
  | blockClosing (openedAt : Nat)
  deriving DecidableEq, Repr

namespace Zone

/-- The zone behind a slash of the code, by the character behind it. -/
def behindSlash (offset : Nat) : Option Char → Zone
  | some '/' => line
  | some '*' => blockOpening offset
  | _ => code .outside

/-- The zone behind the character at byte `offset`, which is followed by
`next`. -/
def step (offset : Nat) (c : Char) (next : Option Char) : Zone → Zone
  | code quotes =>
    if !quotes.covers c && c = '/' then behindSlash offset next
    else code (quotes.step offset c)
  | line => if c = '\n' then code .outside else line
  | blockOpening openedAt => block openedAt
  | block openedAt =>
    if c = '*' ∧ next = some '/' then blockClosing openedAt else block openedAt
  | blockClosing _ => code .outside

/-- Whether the character, read in this zone and followed by `next`, belongs
to a comment. -/
def covers (c : Char) (next : Option Char) : Zone → Bool
  | code quotes => !quotes.covers c && c == '/' && (next == some '/' || next == some '*')
  | line => c != '\n'
  | blockOpening _ | block _ | blockClosing _ => true

/-- What is wrong if the source ends here. -/
def unfinished? : Zone → Option Fault
  | code _ | line => none
  | blockOpening openedAt | block openedAt | blockClosing openedAt =>
    some ((Cause.commentUnterminated.located openedAt).withHint .closeComment)

end Zone

/-- The rest of a source that begins at byte `offset` in this zone, without
its comments. -/
def withoutCommentsFrom (zone : Zone) (offset : Nat) : Text → Except Fault Text
  | [] =>
    match zone.unfinished? with
    | none => .ok []
    | some fault => .error fault
  | c :: rest =>
    match withoutCommentsFrom (zone.step offset c rest.head?) (offset + c.utf8Size) rest with
    | .error fault => .error fault
    | .ok stripped =>
      .ok ((if zone.covers c rest.head? then blank c else [c]) ++ stripped)

/-- The source without its comments. -/
def withoutComments (source : Text) : Except Fault Text :=
  withoutCommentsFrom (.code .outside) 0 source

end CallSignature
