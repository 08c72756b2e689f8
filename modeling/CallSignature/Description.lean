/-
CallSignature.Description — describing a callable.

The caller gives the source of a callable, if there is one, and what else is
known about it: a name, which counts if the source has none, and a length,
the number of arguments it is said to need.  If the length disagrees with the
lower bound that the parameters lead to, the options say which of them holds.
-/
import CallSignature.Descriptor
import CallSignature.Supertype

namespace CallSignature

/-- A callable as a caller knows it. -/
structure Callable where
  source : Option Text := none
  /-- The name it is reported to have. -/
  name : Option Text := none
  /-- The number of arguments it is reported to need. -/
  declaredLength : Option Nat := none
  deriving DecidableEq, Repr

/-! ## Reported facts -/

/-- The head with the name it is reported to have, if it has none itself. -/
def Callable.named (callable : Callable) (head : Head) : Head :=
  if head.name.isEmpty then { head with name := callable.name.getD [] } else head

/-- The reported length, if it says something else than the lower bound of the
descriptor.  Beside a rest parameter it says nothing. -/
def Callable.disagreement? (callable : Callable) (d : Descriptor) : Option Nat :=
  callable.declaredLength.filter fun declared => !d.hasSpread && declared != d.minArity

/-- The descriptor with the reported length as its lower bound, if that
disagrees, is trusted and does not exceed the number of parameters. -/
def Options.settleLength (options : Options) (callable : Callable) (d : Descriptor) :
    Descriptor :=
  match callable.disagreement? d with
  | some declared =>
    if options.trustDeclaredLength ∧ declared ≤ d.parameters.length then
      { d with minArity := declared }
    else d
  | none => d

/-! ## Describing -/

/-- The parameters of a head.  The offset of a fault is one in the source, or,
if the parameters were inherited, part of the hint. -/
def Options.parametersOf (options : Options) (head : Head) : Except Fault (List Parameter) :=
  let found := shiftFault head.parameters.offset (options.parameters head.parameters.text)
  match head.inheritedFrom with
  | none => found
  | some reference => readInSupertype reference found

/-- The description of a callable by its source alone. -/
def Options.describeBySource (options : Options) (registry : Registry) (callable : Callable) :
    Except Fault Descriptor :=
  match callable.source with
  | none => .error { cause := .sourceAbsent, hint := some .hostProvided }
  | some source => do
    let head ← options.head registry source
    let parameters ← options.parametersOf head
    Descriptor.ofHead (callable.named head) parameters

/-- The description of a callable. -/
def Options.describe (options : Options) (registry : Registry) (callable : Callable) :
    Except Fault Descriptor :=
  (options.describeBySource registry callable).map (options.settleLength callable)

/-- The description of a callable, under the default options. -/
def describe (registry : Registry) (callable : Callable) : Except Fault Descriptor :=
  Options.describe {} registry callable

/-- The description of a source that needs no supertypes, under the default
options. -/
def describeText (source : Text) : Except Fault Descriptor :=
  describe Registry.empty { source := some source }

end CallSignature
