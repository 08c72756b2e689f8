/-
CallSignature.Head.Constructor — the constructor in a class body.

The constructor is the first member of the body that is called `constructor`
and has a parameter list and a body of its own.  The word must stand outside
literals and groups; it must not be the end of a longer word or follow a dot,
a number sign or an asterisk; it must not follow a modifier, for then the
member is a method that has the name by chance; and it must not follow an
operator, for then it is called in the value of a field.
-/
import CallSignature.Head

namespace CallSignature

open Unicode

/-- The word that names a constructor. -/
def constructorWord : Text := "constructor".toList

/-- How far the opening parenthesis is from the beginning of the text, if the
text begins with the word and the parenthesis follows it. -/
def constructorOpener? (t : Text) : Option Nat :=
  match Text.afterPrefix? constructorWord t with
  | none => none
  | some behind =>
    if behind.trimStart.head? = some '(' then
      some (constructorWord.width + Text.width (behind.takeWhile isWhiteSpace))
    else none

/-- Whether a word may begin behind this text. -/
def endsWord (before : Text) : Bool :=
  !before.getLast?.any fun c =>
    isXidContinue c || c == '$' || c == '#' || c == '.' || c == '*'

/-- The characters a readable name may go on with at the end of the text. -/
def lastWord (t : Text) : Text :=
  (t.reverse.takeWhile isNameContinue).reverse

/-- The characters behind which a value stands and no member. -/
def operators : Text := "=([,:?!&|+-*/%<>~^".toList

/-- Whether a member may begin behind this text. -/
def endsMember (before : Text) : Bool :=
  !isMemberModifier (lastWord before.trimEnd)
    && !before.trimEnd.getLast?.any operators.contains

/-- The parameter list of the constructor whose opening parenthesis stands at
byte `opener`, if a body follows it. -/
def constructorList (source : Text) (opener : Nat) : Except Fault (Option ParameterList) :=
  match closerDistance opener (source.dropBytes opener) with
  | .error fault => .error fault
  | .ok last =>
    if (source.dropBytes (opener + last + 1)).trimStart.head? = some '{' then
      .ok (some ⟨source.slice (opener + 1) (opener + last), opener + 1⟩)
    else .ok none

/-- The parameter list of the constructor whose word begins at byte `place`
of the class body, which begins at byte `start` of the source. -/
def constructorAt (source : Text) (start : Nat) (body : Text) (place : Nat) :
    Except Fault (Option ParameterList) :=
  match constructorOpener? (body.dropBytes place) with
  | none => .ok none
  | some distance =>
    if endsWord (body.takeBytes place) && endsMember (body.takeBytes place) then
      constructorList source (start + place + distance)
    else .ok none

/-- The first parameter list that `find` finds at one of the places. -/
def firstFound (find : Nat → Except Fault (Option ParameterList)) :
    List Nat → Except Fault (Option ParameterList)
  | [] => .ok none
  | place :: rest =>
    match find place with
    | .error fault => .error fault
    | .ok (some found) => .ok (some found)
    | .ok none => firstFound find rest

/-- The parameter list of the constructor in the class body that goes from
byte `start` up to but excluding byte `stop` of the source. -/
def ownConstructor (source : Text) (start stop : Nat) : Except Fault (Option ParameterList) :=
  let body := source.slice start stop
  match scan body with
  | .error fault => .error (fault.shifted start)
  | .ok visits =>
    firstFound (constructorAt source start body)
      ((visits.filter (·.isTopLevel 'c')).map (·.offset))

end CallSignature
