/-
CallSignature.Parameter — one parameter of a callable.

A parameter binds a name or a pattern, and may have a default.  What it binds
is divided from the default at the first equals sign; the default is kept as
text and never read further.

A parameter is called by the name that it binds.  One that binds a pattern,
or collects the remaining arguments into a pattern, has no name.
-/
import CallSignature.Comment
import CallSignature.Shape.Reader

namespace CallSignature

/-- A parameter. -/
structure Parameter where
  /-- The name it binds, or nothing if it binds a pattern. -/
  name : Text
  /-- What it binds. -/
  shape : Shape
  /-- The text of its default, if it has one. -/
  defaultSource : Option Text
  deriving DecidableEq

namespace Parameter

/-- How the parameter binds its argument. -/
def kind (p : Parameter) : BindingKind := p.shape.kind

/-- Whether the parameter has a default. -/
def hasDefault (p : Parameter) : Bool := p.defaultSource.isSome

/-- Whether the parameter collects the remaining arguments. -/
def isSpread (p : Parameter) : Bool := p.kind == .spread

/-- Whether a call must give an argument for the parameter: it has no default
and is no rest parameter. -/
def isRequired (p : Parameter) : Bool := !p.hasDefault && !p.isSpread

end Parameter

/-! ## Names -/

/-- The name that a binding with this shape binds. -/
def boundName (binding : Segment) (shape : Shape) : Except Fault Text :=
  match shape.bareWords? with
  | some name =>
    if isIdentifier name then .ok name
    else .error ((Cause.bindingNotBindable binding.text).located binding.offset)
  | none => .error ((Cause.bindingNotBindable binding.text).located binding.offset)

/-- The name of a parameter that binds this shape. -/
def parameterName (binding : Segment) : Shape → Except Fault Text
  | .sequence _ | .mapping _ => .ok []
  | .spread (.sequence _) | .spread (.mapping _) => .ok []
  | .spread operand => boundName binding operand
  | shape => boundName binding shape

/-! ## Reading parameters -/

/-- Refuses a parameter without a binding and one whose default is missing
behind its equals sign. -/
def checkParts (binding : Segment) (default? : Option Segment) : Except Fault Unit :=
  if binding.isEmpty then
    .error ((Cause.bindingMissing.located binding.offset).withHint .removeStraySeparator)
  else
    match default?.filter (·.isEmpty) with
    | some missing =>
      .error ((Cause.defaultMissing.located missing.offset).withHint .giveDefault)
    | none => .ok ()

/-- Refuses a default of a rest parameter. -/
def checkRest (shape : Shape) (default? : Option Segment) : Except Fault Unit :=
  match shape, default? with
  | .spread _, some source => .error (Cause.restWithDefault.located source.offset)
  | _, _ => .ok ()

/-- The parameter that a segment without comments declares. -/
def Options.parameter (options : Options) (segment : Segment) : Except Fault Parameter := do
  let (binding, default?) ← segment.bindingAndDefault
  checkParts binding default?
  let shape ← options.shape binding
  let name ← parameterName binding shape
  checkRest shape default?
  return { name, shape, defaultSource := default?.map (·.text) }

/-- The parameters that a list declares, comments included.  Offsets of
faults count from the beginning of the list. -/
def Options.parameters (options : Options) (list : Text) : Except Fault (List Parameter) := do
  let clean ← withoutComments list
  (← (Segment.ofText clean).elements).mapM options.parameter

/-- The parameter that a text declares, comments included, under the default
options. -/
def readParameter (source : Text) : Except Fault Parameter := do
  Options.parameter {} (Segment.ofText (← withoutComments source))

end CallSignature
