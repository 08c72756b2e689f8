/-
CallSignature.Descriptor — the description of a callable.

A descriptor gives the name, the form and the parameters of a callable, and
the numbers of arguments it can be called with.  At least the parameters at
the front must be given that have no default and are not rest parameters; at
most as many arguments as there are parameters are taken, or any number if
there is a rest parameter, which must be the last.

In the JSON value of a descriptor the words of a literal stand without quotes.
-/
import CallSignature.Head
import CallSignature.Json
import CallSignature.Parameter

namespace CallSignature

/-! ## Bounds -/

/-- The largest number of arguments. -/
inductive MaxArity
  | bounded (count : Nat)
  | unbounded
  deriving DecidableEq, Repr

namespace MaxArity

/-- Whether the number of arguments is not too large. -/
def admits (count : Nat) : MaxArity → Bool
  | bounded most => count ≤ most
  | unbounded => true

/-- The bound in words. -/
def wording : MaxArity → Text
  | bounded most => Text.ofNat most
  | unbounded => "unbounded".toList

/-- The bound as a JSON value. -/
def json : MaxArity → Json
  | bounded most => .number most
  | unbounded => .string "unbounded".toList

end MaxArity

/-- The number of arguments that must be given: the required parameters before
the first one that is not. -/
def minArity (parameters : List Parameter) : Nat :=
  (parameters.takeWhile Parameter.isRequired).length

/-- The number of arguments that are taken. -/
def maxArity (parameters : List Parameter) : MaxArity :=
  if parameters.any Parameter.isSpread then .unbounded else .bounded parameters.length

/-! ## Descriptors -/

/-- The description of a callable. -/
structure Descriptor where
  name : Text
  form : Form
  parameters : List Parameter
  minArity : Nat
  maxArity : MaxArity
  deriving DecidableEq

namespace Descriptor

/-- Whether the callable can be called with this number of arguments. -/
def accepts (d : Descriptor) (count : Nat) : Bool :=
  d.minArity ≤ count && d.maxArity.admits count

/-- Whether the callable has a rest parameter. -/
def hasSpread (d : Descriptor) : Bool :=
  d.parameters.any Parameter.isSpread

end Descriptor

/-- Refuses parameters one of which collects the rest before the last. -/
def checkRestLast (parameters : List Parameter) : Except Fault Unit :=
  match parameters.dropLast.find? Parameter.isSpread with
  | none => .ok ()
  | some early => .error { cause := .restNotLast early.name, hint := some .moveRestToEnd }

/-- The description of a callable with this head and these parameters. -/
def Descriptor.ofHead (head : Head) (parameters : List Parameter) : Except Fault Descriptor :=
  match checkRestLast parameters with
  | .error fault => .error fault
  | .ok () =>
    .ok
      { name := head.name, form := head.form, parameters
        minArity := CallSignature.minArity parameters
        maxArity := CallSignature.maxArity parameters }

/-! ## JSON -/

namespace Shape

mutual

/-- The shape as a JSON value.  Quotes are left out, an entry without a value
has the value null, and a spread is the string of its written form. -/
def json : Shape → Json
  | bool value => .bool value
  | text words _ => .string words
  | sequence items => .array (jsonOfItems items)
  | mapping entries => .object (jsonOfEntries entries)
  | spread operand => .string (dots ++ operand.source)

/-- Each item as a JSON value. -/
def jsonOfItems : List Shape → List Json
  | [] => []
  | item :: rest => item.json :: jsonOfItems rest

/-- Each entry as a member of a JSON object. -/
def jsonOfEntries : List Entry → List (Text × Json)
  | [] => []
  | .shorthand key :: rest => (key, .null) :: jsonOfEntries rest
  | .valued key value :: rest => (key, value.json) :: jsonOfEntries rest

end

end Shape

/-- The parameter as a JSON value. -/
def Parameter.json (p : Parameter) : Json :=
  .object <|
    [("name".toList, .string p.name),
     ("rawShape".toList, p.shape.json),
     ("destructureKind".toList, .string p.kind.label),
     ("hasDefault".toList, .bool p.hasDefault)]
    ++ match p.defaultSource with
      | some source => [("defaultSource".toList, .string source)]
      | none => []

/-- The description as a JSON value. -/
def Descriptor.json (d : Descriptor) : Json :=
  .object
    [("name".toList, .string d.name),
     ("isAsync".toList, .bool d.form.isAsync),
     ("isArrowForm".toList, .bool d.form.isArrow),
     ("isGeneratorForm".toList, .bool d.form.isGenerator),
     ("isClassForm".toList, .bool d.form.isClass),
     ("parameters".toList, .array (d.parameters.map Parameter.json)),
     ("minArity".toList, .number d.minArity),
     ("maxArity".toList, d.maxArity.json)]

end CallSignature
