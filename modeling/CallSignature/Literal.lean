/-
CallSignature.Literal — quoted literals.

A literal begins with one of the three quote characters and ends at the next
equal one that no backslash escapes.  The quotes belong to the literal.

`QuoteState` is the state of a reader that goes through a text character by
character; `closingQuote` looks only at a literal that begins where the text
does, and finds its closing quote.
-/
import CallSignature.Text

namespace CallSignature

/-- Whether the character opens a literal. -/
def isQuote (c : Char) : Bool :=
  c == '\'' || c == '"' || c == '`'

/-- Where a reader stands with respect to literals. -/
inductive QuoteState
  /-- Outside every literal. -/
  | outside
  /-- Inside the literal whose quote stands at byte `openedAt`; `escaped`
  says that the next character is escaped. -/
  | inside (quote : Char) (openedAt : Nat) (escaped : Bool)
  deriving DecidableEq, Repr

namespace QuoteState

/-- The state after the character at byte `offset`. -/
def step (offset : Nat) (c : Char) : QuoteState → QuoteState
  | outside => if isQuote c then inside c offset false else outside
  | inside quote openedAt escaped =>
    if escaped then inside quote openedAt false
    else if c = '\\' then inside quote openedAt true
    else if c = quote then outside
    else inside quote openedAt false

/-- Whether the character, read in this state, belongs to a literal. -/
def covers (c : Char) : QuoteState → Bool
  | outside => isQuote c
  | inside .. => true

/-- Whether a literal is open. -/
def isOpen : QuoteState → Bool
  | outside => false
  | inside .. => true

/-- The quote and the position of the literal that is still open, if any. -/
def openLiteral? : QuoteState → Option (Char × Nat)
  | outside => none
  | inside quote openedAt _ => some (quote, openedAt)

@[simp] theorem step_outside_of_not_isQuote {c : Char} (h : isQuote c = false) (offset : Nat) :
    outside.step offset c = outside := by
  simp [step, h]

end QuoteState

/-- The position of the quote that closes a literal whose first quote has
been read already. -/
def closingQuoteFrom (quote : Char) (escaped : Bool) (offset : Nat) : Text → Option Nat
  | [] => none
  | c :: rest =>
    if escaped then closingQuoteFrom quote false (offset + c.utf8Size) rest
    else if c = '\\' then closingQuoteFrom quote true (offset + c.utf8Size) rest
    else if c = quote then some offset
    else closingQuoteFrom quote false (offset + c.utf8Size) rest

/-- The position of the quote that closes the literal the text begins with. -/
def closingQuote : Text → Option Nat
  | [] => none
  | c :: rest => if isQuote c then closingQuoteFrom c false c.utf8Size rest else none

end CallSignature
