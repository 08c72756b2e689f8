/-
CallSignature.Word — the words of a source.

Two notions of a name live side by side.  A READABLE name is what the head
of a callable is scanned for: it begins with a character for which
`isNameStart` holds and goes on while `isNameContinue` does, by the
properties Alphabetic and number.  A BINDABLE name is what a parameter may be
called: `isIdentifier`, by the properties XID_Start and XID_Continue, with
the reserved words left out.  Neither contains the other.
-/
import CallSignature.Text
import CallSignature.Unicode.Alphabetic
import CallSignature.Unicode.Identifier
import CallSignature.Unicode.Numeric

namespace CallSignature

open Unicode

/-! ## Readable names -/

/-- Whether a readable name may begin with the character. -/
def isNameStart (c : Char) : Bool :=
  isAlphabetic c || c == '_' || c == '$'

/-- Whether a readable name may go on with the character. -/
def isNameContinue (c : Char) : Bool :=
  isAlphabetic c || isNumeric c || c == '_' || c == '$'

theorem isNameContinue_of_isNameStart {c : Char} (h : isNameStart c = true) :
    isNameContinue c = true := by
  simp only [isNameStart, isNameContinue, Bool.or_eq_true] at h ⊢
  exact h.imp_left (Or.imp_left Or.inl)

/-! ## Bindable names -/

/-- The words that cannot name a binding.  Words that are special only in
some contexts (`async`, `get`, `set`, `static`, `of`, `let`, `yield`,
`await`) are not among them. -/
def reservedWords : List Text :=
  ["break".toList, "case".toList, "catch".toList, "class".toList, "const".toList,
   "continue".toList, "debugger".toList, "default".toList, "delete".toList, "do".toList,
   "else".toList, "enum".toList, "export".toList, "extends".toList, "false".toList,
   "finally".toList, "for".toList, "function".toList, "if".toList, "import".toList,
   "in".toList, "instanceof".toList, "new".toList, "null".toList, "return".toList,
   "super".toList, "switch".toList, "this".toList, "throw".toList, "true".toList,
   "try".toList, "typeof".toList, "var".toList, "void".toList, "while".toList,
   "with".toList]

/-- Whether the word is reserved. -/
def isReserved (word : Text) : Bool :=
  reservedWords.contains word

/-- Whether an identifier may begin with the character. -/
def isIdentifierStart (c : Char) : Bool :=
  isXidStart c || c == '_' || c == '$'

/-- Whether an identifier may go on with the character.  The zero-width
joiner and non-joiner are allowed. -/
def isIdentifierContinue (c : Char) : Bool :=
  isXidContinue c || c == '$' || c == '\u200c' || c == '\u200d'

/-- Whether the word has the form of an identifier, reserved or not. -/
def hasIdentifierForm : Text → Bool
  | [] => false
  | c :: rest => isIdentifierStart c && rest.all isIdentifierContinue

/-- Whether a parameter may be called by the word. -/
def isIdentifier (word : Text) : Bool :=
  hasIdentifierForm word && !isReserved word

/-! ## Modifiers -/

/-- The words that may stand before the name of a class member. -/
def memberModifiers : List Text :=
  ["static".toList, "async".toList, "get".toList, "set".toList]

/-- Whether the word may stand before the name of a class member. -/
def isMemberModifier (word : Text) : Bool :=
  memberModifiers.contains word

end CallSignature
