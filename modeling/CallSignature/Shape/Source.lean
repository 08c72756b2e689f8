/-
CallSignature.Shape.Source — a shape written as a pattern.

Elements and entries are separated by a comma and a space.  Two rules keep
what the plain form would lose: a hole at the end of a sequence is followed
by one more comma, because a comma at the very end adds no element; and an
entry that collects the rest under its key is written as the three dots and
the key.
-/
import CallSignature.Shape

namespace CallSignature

namespace Shape

/-- What stands between two elements or entries. -/
def separator : Text := [',', ' ']

/-- The three dots of a spread. -/
def dots : Text := ['.', '.', '.']

/-- What stands behind the last item: a comma if that is a hole. -/
def holeMark (items : List Shape) : Text :=
  if items.getLast?.any isHole then [','] else []

mutual

/-- The shape as a pattern. -/
def source : Shape → Text
  | bool value => if value then "true".toList else "false".toList
  | text words .none => words
  | text words (some quote) => quote :: words ++ [quote]
  | sequence items =>
    '[' :: separator.intercalate (sourceOfItems items) ++ holeMark items ++ [']']
  | mapping entries => '{' :: separator.intercalate (sourceOfEntries entries) ++ ['}']
  | spread operand => dots ++ operand.source

/-- Each item as a pattern. -/
def sourceOfItems : List Shape → List Text
  | [] => []
  | item :: rest => item.source :: sourceOfItems rest

/-- Each entry as it stands in a pattern. -/
def sourceOfEntries : List Entry → List Text
  | [] => []
  | .shorthand key :: rest => key :: sourceOfEntries rest
  | .valued key value :: rest =>
    (if value.collects key then dots ++ key else key ++ [':', ' '] ++ value.source)
      :: sourceOfEntries rest

end

end Shape

end CallSignature
