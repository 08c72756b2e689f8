/-
CallSignature.Json — JSON values and their two written forms.

`compact` writes a value without any white space.  `pretty` puts every
element and every member on a line of its own, two spaces deeper than the
brackets around it; an empty array or object stays on one line.

The members of an object keep their order, and a key may come twice.  In a
string the quotation mark, the backslash and the characters below U+0020 are
escaped, and nothing else.
-/
import CallSignature.Text

namespace CallSignature

/-- A JSON value.  Its numbers are natural numbers. -/
inductive Json
  | null
  | bool (value : Bool)
  | number (value : Nat)
  | string (value : Text)
  | array (elements : List Json)
  | object (members : List (Text × Json))

namespace Json

/-! ## Strings -/

/-- A digit of a hexadecimal numeral. -/
def hexDigit (n : Nat) : Char :=
  Nat.digitChar n

/-- The character as it stands in a string. -/
def escape (c : Char) : Text :=
  if c = '"' then ['\\', '"']
  else if c = '\\' then ['\\', '\\']
  else if c = '\x08' then ['\\', 'b']
  else if c = '\x0c' then ['\\', 'f']
  else if c = '\n' then ['\\', 'n']
  else if c = '\r' then ['\\', 'r']
  else if c = '\t' then ['\\', 't']
  else if c.toNat < 0x20 then
    ['\\', 'u', '0', '0', hexDigit (c.toNat / 16), hexDigit (c.toNat % 16)]
  else [c]

/-- The text as a string. -/
def quote (t : Text) : Text :=
  '"' :: t.flatMap escape ++ ['"']

/-- A truth value in words. -/
def ofBool (value : Bool) : Text :=
  if value then "true".toList else "false".toList

/-! ## Without white space -/

mutual

/-- The value without any white space. -/
def compact : Json → Text
  | null => "null".toList
  | bool value => ofBool value
  | number value => Text.ofNat value
  | string value => quote value
  | array elements => '[' :: [','].intercalate (compactElements elements) ++ [']']
  | object members => '{' :: [','].intercalate (compactMembers members) ++ ['}']

/-- The elements of an array, each without white space. -/
def compactElements : List Json → List Text
  | [] => []
  | element :: rest => compact element :: compactElements rest

/-- The members of an object, each without white space. -/
def compactMembers : List (Text × Json) → List Text
  | [] => []
  | (key, value) :: rest => (quote key ++ ':' :: compact value) :: compactMembers rest

end

/-! ## On several lines -/

/-- A line break, and the white space before what stands `depth` brackets deep. -/
def lineBreak (depth : Nat) : Text :=
  '\n' :: List.replicate (2 * depth) ' '

/-- The parts of an array or object between its brackets, which stand `depth`
brackets deep. -/
def enclose (depth : Nat) (opener closer : Char) (parts : List Text) : Text :=
  match parts with
  | [] => [opener, closer]
  | parts =>
    opener :: [','].intercalate (parts.map (lineBreak (depth + 1) ++ ·))
      ++ lineBreak depth ++ [closer]

mutual

/-- The value, `depth` brackets deep, with a line for each of its parts. -/
def prettyAt (depth : Nat) : Json → Text
  | null => "null".toList
  | bool value => ofBool value
  | number value => Text.ofNat value
  | string value => quote value
  | array elements => enclose depth '[' ']' (prettyElements (depth + 1) elements)
  | object members => enclose depth '{' '}' (prettyMembers (depth + 1) members)

/-- The elements of an array, `depth` brackets deep. -/
def prettyElements (depth : Nat) : List Json → List Text
  | [] => []
  | element :: rest => prettyAt depth element :: prettyElements depth rest

/-- The members of an object, `depth` brackets deep. -/
def prettyMembers (depth : Nat) : List (Text × Json) → List Text
  | [] => []
  | (key, value) :: rest =>
    (quote key ++ ": ".toList ++ prettyAt depth value) :: prettyMembers depth rest

end

/-- The value with a line for each of its parts. -/
def pretty (value : Json) : Text :=
  prettyAt 0 value

end Json

end CallSignature
