/-
CallSignature.Fault — why a callable could not be described.

A fault has a CAUSE, which says what is wrong and carries the words and
characters its message names; an optional byte OFFSET into the text that was
being read; and an optional HINT, which says what to do about it.  The kind
of a fault and its stable code follow from its cause.

The wording of every message is in `Cause.message` and of every hint in
`Hint.wording`, and nowhere else.
-/
import CallSignature.Text

namespace CallSignature

/-! ## Kinds -/

/-- The four kinds of failure. -/
inductive Kind
  /-- There is no source text to read. -/
  | notInspectable
  /-- The head of the callable, or the end of its parameter list, could not be found. -/
  | extractionFailure
  /-- The parameter text is structurally broken. -/
  | decompositionFailure
  /-- A token is not a pattern that a parameter can have. -/
  | unknownShape
  deriving DecidableEq, Repr

namespace Kind

/-- The stable code of the kind. -/
def code : Kind → Text
  | notInspectable => "S0001".toList
  | extractionFailure => "S0002".toList
  | decompositionFailure => "S0003".toList
  | unknownShape => "S0004".toList

/-- The kind in words. -/
def label : Kind → Text
  | notInspectable => "not inspectable".toList
  | extractionFailure => "extraction failure".toList
  | decompositionFailure => "decomposition failure".toList
  | unknownShape => "unknown shape".toList

end Kind

/-! ## Causes -/

/-- What is wrong. -/
inductive Cause
  /-- A closing bracket stands where the innermost open group needs another one. -/
  | closerMismatch (expected found : Char)
  /-- A closing bracket stands where no group is open. -/
  | closerUnmatched (found : Char)
  /-- The text ends inside a quoted literal. -/
  | literalUnterminated (quote : Char)
  /-- The text ends inside a group. -/
  | groupUnclosed (expected : Char)
  /-- A bracketed group was asked for and no bracket closes one. -/
  | groupExpected
  /-- The text ends inside a block comment. -/
  | commentUnterminated
  /-- A pattern is nested deeper than the limit. -/
  | nestingTooDeep (limit : Nat)
  /-- A rest parameter has a default. -/
  | restWithDefault
  /-- A rest parameter is followed by another parameter. -/
  | restNotLast (name : Text)
  /-- Three dots stand without anything behind them. -/
  | spreadWithoutOperand
  /-- Two commas of an object pattern have nothing between them. -/
  | entryEmpty
  /-- What follows the three dots of an object pattern is not a name. -/
  | restKeyNotBindable (key : Text)
  /-- An object entry ends at its separator. -/
  | entryWithoutValue (separator : Char)
  /-- An object entry begins with its separator. -/
  | entryWithoutKey
  /-- A parameter has neither a name nor a pattern. -/
  | bindingMissing
  /-- A parameter ends at its `=`. -/
  | defaultMissing
  /-- What a parameter binds is neither a name nor a pattern. -/
  | bindingNotBindable (binding : Text)
  /-- The source begins like no callable. -/
  | headUnrecognised (excerpt : Text)
  /-- A head is not followed by a parameter list. -/
  | parameterListExpected
  /-- The group that should hold the parameters, or the class body, is broken. -/
  | boundaryMissing (reason : Cause)
  /-- There is no class body after the supertype. -/
  | classBodyMissing
  /-- There is no class body after the class head. -/
  | classBodyExpected
  /-- The word `extends` is followed by no reference. -/
  | supertypeMissing
  /-- The chain of supertypes comes back to a class it has passed. -/
  | supertypeCycle (name reference : Text)
  /-- The chain of supertypes is longer than the limit. -/
  | supertypeChainTooLong (name : Text) (limit : Nat)
  /-- Nobody registered a source for the supertype. -/
  | supertypeUnregistered (reference : Text)
  /-- The source is blank. -/
  | sourceBlank
  /-- The source says that the callable is native. -/
  | sourceNative (source : Text)
  /-- The callable came without a source. -/
  | sourceAbsent
  /-- A failure of some kind, reported from outside in words of its own. -/
  | reported (kind : Kind) (message : Text)
  deriving DecidableEq, Repr

namespace Cause

/-- The kind of failure that the cause leads to. -/
def kind : Cause → Kind
  | closerMismatch .. | closerUnmatched .. | literalUnterminated .. | groupUnclosed ..
  | groupExpected | commentUnterminated | nestingTooDeep .. | restWithDefault
  | restNotLast .. => .decompositionFailure
  | spreadWithoutOperand | entryEmpty | restKeyNotBindable .. | entryWithoutValue ..
  | entryWithoutKey | bindingMissing | defaultMissing | bindingNotBindable .. => .unknownShape
  | headUnrecognised .. | parameterListExpected | boundaryMissing .. | classBodyMissing
  | classBodyExpected | supertypeMissing | supertypeCycle ..
  | supertypeChainTooLong .. => .extractionFailure
  | supertypeUnregistered .. | sourceBlank | sourceNative .. | sourceAbsent => .notInspectable
  | reported kind _ => kind

/-- A text between single quotation marks. -/
def quoted (t : Text) : Text :=
  '\'' :: t ++ ['\'']

/-- The message that states the cause. -/
def message : Cause → Text
  | closerMismatch expected found =>
    "expected ".toList ++ quoted [expected] ++ " but found ".toList ++ quoted [found]
  | closerUnmatched found => "unmatched ".toList ++ quoted [found]
  | literalUnterminated quote => "unterminated ".toList ++ [quote] ++ " literal".toList
  | groupUnclosed expected => "unclosed group, expected ".toList ++ quoted [expected]
  | groupExpected => "expected a bracketed group".toList
  | commentUnterminated => "unterminated block comment".toList
  | nestingTooDeep limit => "pattern nesting exceeds the limit of ".toList ++ Text.ofNat limit
  | restWithDefault => "a rest parameter cannot have a default".toList
  | restNotLast name =>
    "rest parameter ".toList ++ quoted name ++ " must be the last parameter".toList
  | spreadWithoutOperand => "spread marker without an operand".toList
  | entryEmpty => "empty entry in object pattern".toList
  | restKeyNotBindable key =>
    quoted key ++ " cannot collect the rest of an object pattern".toList
  | entryWithoutValue separator =>
    "object entry has ".toList ++ quoted [separator] ++ " but no value".toList
  | entryWithoutKey => "object entry without a key".toList
  | bindingMissing => "parameter has no name or pattern".toList
  | defaultMissing => "default value is missing after '='".toList
  | bindingNotBindable binding =>
    quoted binding ++ " is not a bindable parameter name".toList
  | headUnrecognised excerpt => "unrecognised callable shape: ".toList ++ excerpt
  | parameterListExpected => "expected '(' to open the parameter list".toList
  | boundaryMissing reason =>
    "no balanced parameter-list boundary: ".toList ++ reason.message
  | classBodyMissing => "class has no body".toList
  | classBodyExpected => r"expected '{' to open the class body".toList
  | supertypeMissing => "'extends' without a superclass".toList
  | supertypeCycle name reference =>
    "supertype chain of ".toList ++ quoted name ++ " is cyclic at ".toList ++ quoted reference
  | supertypeChainTooLong name limit =>
    "supertype chain of ".toList ++ quoted name ++ " is longer than ".toList
      ++ Text.ofNat limit ++ " hops".toList
  | supertypeUnregistered reference =>
    "supertype ".toList ++ quoted reference ++ " has no registered source".toList
  | sourceBlank => "callable has no source text".toList
  | sourceNative source => "native callables cannot be described: ".toList ++ source
  | sourceAbsent => "callable has no inspectable source text".toList
  | reported _ message => message

end Cause

/-! ## Hints -/

/-- What to do about a fault. -/
inductive Hint
  | groupNeverClosed (openedAt : Nat)
  | checkBrackets
  | closeComment
  | raiseMaxDepth
  | restMustBeIdentifier
  | removeStraySeparator
  | giveDefault
  | expectCallable
  | raiseMaxHops
  | registerSupertype
  | raisedInSupertype (reference : Text) (offset : Option Nat)
  | hostProvided
  | moveRestToEnd
  /-- Advice from outside, in words of its own. -/
  | note (words : Text)
  deriving DecidableEq, Repr

/-- The hint in words. -/
def Hint.wording : Hint → Text
  | groupNeverClosed openedAt =>
    "the group opened at offset ".toList ++ Text.ofNat openedAt ++ " is never closed".toList
  | checkBrackets => "check the brackets in the parameter list".toList
  | closeComment => "close the comment with '*/'".toList
  | raiseMaxDepth => "raise `max_depth` in the describe options".toList
  | restMustBeIdentifier => "an object rest entry must be a plain identifier".toList
  | removeStraySeparator => "remove the stray ',' or '=' from the parameter list".toList
  | giveDefault => "give the parameter a default expression or drop the '='".toList
  | expectCallable => "expected a function, arrow function, method or class declaration".toList
  | raiseMaxHops => "raise `max_supertype_hops` in the describe options".toList
  | registerSupertype =>
    "register the supertype's source text before describing subclasses".toList
  | raisedInSupertype reference offset =>
    "raised in the source of supertype ".toList ++ Cause.quoted reference ++
      match offset with
      | some offset => " at offset ".toList ++ Text.ofNat offset
      | none => []
  | hostProvided => "native and host-provided callables cannot be described".toList
  | moveRestToEnd => "move the rest parameter to the end of the list".toList
  | note words => words

/-! ## Faults -/

/-- A failure to describe a callable. -/
structure Fault where
  cause : Cause
  /-- Where the cause lies, in bytes from the start of the text being read. -/
  offset : Option Nat := none
  hint : Option Hint := none
  deriving DecidableEq, Repr

namespace Fault

/-- The kind of failure. -/
def kind (f : Fault) : Kind := f.cause.kind

/-- The stable code of the failure. -/
def code (f : Fault) : Text := f.kind.code

/-- The message of the failure. -/
def message (f : Fault) : Text := f.cause.message

/-- The advice that goes with the failure, if any. -/
def help (f : Fault) : Option Text := f.hint.map Hint.wording

/-- The one-line form of the failure: its code and its message. -/
def headline (f : Fault) : Text :=
  "error[".toList ++ f.code ++ "]: ".toList ++ f.message

/-- The fault, located at a byte offset. -/
def located (f : Fault) (offset : Nat) : Fault :=
  { f with offset := some offset }

/-- The fault with advice. -/
def withHint (f : Fault) (hint : Hint) : Fault :=
  { f with hint := some hint }

/-- The fault of a part that begins at byte `base`, seen from the whole.  A
fault without an offset stays without one. -/
def shifted (f : Fault) (base : Nat) : Fault :=
  { f with offset := f.offset.map (· + base) }

@[simp] theorem cause_shifted (f : Fault) (base : Nat) :
    (f.shifted base).cause = f.cause := rfl

@[simp] theorem hint_shifted (f : Fault) (base : Nat) : (f.shifted base).hint = f.hint := rfl

/-- Seeing a part from a part of the whole is seeing it from the whole. -/
theorem shifted_shifted (f : Fault) (a b : Nat) :
    (f.shifted a).shifted b = f.shifted (a + b) := by
  cases f with
  | mk cause offset hint => cases offset <;> simp [shifted, Nat.add_assoc]

end Fault

/-- A fault with this cause at this offset. -/
def Cause.located (cause : Cause) (offset : Nat) : Fault :=
  { cause, offset := some offset }

/-- The result of reading a part that begins at byte `base`, with its fault
seen from the whole. -/
def shiftFault {α : Type} (base : Nat) : Except Fault α → Except Fault α
  | .ok value => .ok value
  | .error fault => .error (fault.shifted base)

end CallSignature
