/-
CallSignature.Options.Document — what a caller may tune, and how it is written
as a TOML document.

A document sets the options it names and leaves the others as they are by
default.  The three options are numbers and a truth value, so of TOML only
this much can occur in a document that is accepted: lines that are blank, or
hold a comment, or set one option; keys that are bare or quoted; whole numbers
in the four bases, within the range of a signed 64-bit integer and not
negative; and the two truth values.  A document with anything else, with an
unknown key, or with one key twice is refused as a whole.
-/
import CallSignature.Position

namespace CallSignature

/-- The limits and choices that a description is made under. -/
structure Options where
  /-- How many levels down a pattern is read. -/
  maxDepth : Nat := 64
  /-- How many supertypes are looked up for one class. -/
  maxSupertypeHops : Nat := 32
  /-- Whether a reported length takes the place of a lower bound that
  disagrees with it. -/
  trustDeclaredLength : Bool := true
  deriving DecidableEq, Repr

namespace Document

/-! ## Characters -/

/-- White space within a line. -/
def isBlank (c : Char) : Bool :=
  c == ' ' || c == '\t'

/-- The characters that comments and quoted keys may hold: no control
characters except the tabulator. -/
def isPrintable (c : Char) : Bool :=
  c == '\t' || (0x20 ≤ c.toNat && c.toNat != 0x7f)

/-- The characters of bare keys. -/
def isBareKeyChar (c : Char) : Bool :=
  c.isAlphanum || c == '_' || c == '-'

/-- The value of a digit in a base up to sixteen. -/
def digit? (base : Nat) (c : Char) : Option Nat :=
  let value :=
    if c.isDigit then c.toNat - '0'.toNat
    else if 'a' ≤ c ∧ c ≤ 'f' then c.toNat - 'a'.toNat + 10
    else if 'A' ≤ c ∧ c ≤ 'F' then c.toNat - 'A'.toNat + 10
    else base
  if value < base then some value else none

/-! ## Keys -/

/-- The character with this code in hexadecimal digits, if there is one. -/
def charOfDigits? (digits : Text) : Option Char := do
  let values ← digits.mapM (digit? 16)
  let code := values.foldl (fun n d => 16 * n + d) 0
  if h : code.isValidChar then some (Char.ofNatAux code h) else none

/-- The character that a backslash and this letter stand for. -/
def escaped? (c : Char) : Option Char :=
  if c = 'b' then some '\x08'
  else if c = 't' then some '\t'
  else if c = 'n' then some '\n'
  else if c = 'f' then some '\x0c'
  else if c = 'r' then some '\r'
  else if c = '"' then some '"'
  else if c = '\\' then some '\\'
  else none

/-- Puts a character before what was read. -/
def putBefore (c : Char) (found : Text × Text) : Text × Text :=
  (c :: found.1, found.2)

/-- The rest of a key in double quotes, and what follows its closing quote. -/
def basicKey : Text → Option (Text × Text)
  | [] => none
  | '\\' :: 'u' :: a :: b :: c :: d :: rest => do
    let char ← charOfDigits? [a, b, c, d]
    return putBefore char (← basicKey rest)
  | '\\' :: 'U' :: a :: b :: c :: d :: e :: f :: g :: h :: rest => do
    let char ← charOfDigits? [a, b, c, d, e, f, g, h]
    return putBefore char (← basicKey rest)
  | '\\' :: c :: rest => do
    let char ← escaped? c
    return putBefore char (← basicKey rest)
  | c :: rest =>
    if c = '"' then some ([], rest)
    else if isPrintable c ∧ c ≠ '\\' then (basicKey rest).map (putBefore c)
    else none

/-- The rest of a key in single quotes, and what follows its closing quote. -/
def literalKey : Text → Option (Text × Text)
  | [] => none
  | c :: rest =>
    if c = '\'' then some ([], rest)
    else if isPrintable c then (literalKey rest).map (putBefore c)
    else none

/-- The key that the text begins with, and what follows it. -/
def key : Text → Option (Text × Text)
  | '"' :: rest => basicKey rest
  | '\'' :: rest => literalKey rest
  | t =>
    if (t.takeWhile isBareKeyChar).isEmpty then none
    else some (t.takeWhile isBareKeyChar, t.dropWhile isBareKeyChar)

/-! ## Values -/

/-- The digits of a numeral, between which single underscores may stand. -/
def numeralDigits? (base : Nat) : Text → Option (List Nat)
  | [] => none
  | [c] => (digit? base c).map ([·])
  | c :: '_' :: rest => do return (← digit? base c) :: (← numeralDigits? base rest)
  | c :: rest => do return (← digit? base c) :: (← numeralDigits? base rest)

/-- The first number that is too large for a signed 64-bit integer. -/
def numeralLimit : Nat := 0x8000000000000000

/-- The number that a numeral writes, if it is in range. -/
def natural? (base : Nat) (t : Text) : Option Nat := do
  let n := (← numeralDigits? base t).foldl (fun n d => base * n + d) 0
  if n < numeralLimit then some n else none

/-- The number that a decimal numeral without a sign writes.  Only the
numeral of zero begins with the digit zero. -/
def decimal? : Text → Option Nat
  | ['0'] => some 0
  | '0' :: _ => none
  | t => natural? 10 t

/-- The number that a word writes.  The only one with a minus sign that is
not negative is zero. -/
def count? : Text → Option Nat
  | '0' :: 'x' :: rest => natural? 16 rest
  | '0' :: 'o' :: rest => natural? 8 rest
  | '0' :: 'b' :: rest => natural? 2 rest
  | '+' :: rest => decimal? rest
  | '-' :: rest => (decimal? rest).filter (· == 0)
  | t => decimal? t

/-- The truth value that a word writes. -/
def truth? (word : Text) : Option Bool :=
  if word = "true".toList then some true
  else if word = "false".toList then some false
  else none

/-! ## Lines -/

/-- Whether only a comment, or nothing, is left of a line. -/
def isFinished (t : Text) : Bool :=
  match t.dropWhile isBlank with
  | [] => true
  | c :: rest => c == '#' && rest.all isPrintable

/-- The key and the word that a line sets it to. -/
def setting? (line : Text) : Option (Text × Text) := do
  let (name, rest) ← key (line.dropWhile isBlank)
  let afterSign ← Text.afterPrefix? ['='] (rest.dropWhile isBlank)
  let value := afterSign.dropWhile isBlank
  let endsWord (c : Char) : Bool := isBlank c || c == '#'
  if isFinished (value.dropWhile (!endsWord ·)) then
    some (name, value.takeWhile (!endsWord ·))
  else none

/-- What a line sets, which may be nothing. -/
def line? (line : Text) : Option (Option (Text × Text)) :=
  if isFinished line then some none else (setting? line).map some

/-! ## Documents -/

/-- The options with one of them set to the value of the word. -/
def set? (options : Options) (setting : Text × Text) : Option Options :=
  if setting.1 = "max_depth".toList then
    (count? setting.2).map fun n => { options with maxDepth := n }
  else if setting.1 = "max_supertype_hops".toList then
    (count? setting.2).map fun n => { options with maxSupertypeHops := n }
  else if setting.1 = "trust_declared_length".toList then
    (truth? setting.2).map fun b => { options with trustDeclaredLength := b }
  else none

/-- The document without the byte order mark it may begin with. -/
def withoutMark (t : Text) : Text :=
  (Text.afterPrefix? ['\ufeff'] t).getD t

/-- The options that a document sets, the others as they are by default. -/
def options? (document : Text) : Option Options := do
  let settings := (← (withoutMark document).lines.mapM line?).filterMap id
  if (settings.map (·.1)).Nodup then settings.foldlM set? {} else none

end Document

end CallSignature
