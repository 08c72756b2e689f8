/-
CallSignature.Supertype — taking parameters from a supertype.

A class without a constructor is called with the arguments of its supertype,
and so on upwards, until a class has a constructor or no supertype, or a
supertype turns out to be a function.  The sources of supertypes come from a
registry, which is asked by reference.

`ascend` walks up.  It keeps the references it has asked for, so that it
never asks twice, and it has a number of lookups left, on which it recurs.
Its result is the list of its lookups beside what they led to.
-/
import CallSignature.Declaration
import CallSignature.Options.Document

namespace CallSignature

/-- The source of a type, by the reference to it. -/
abbrev Registry := Text → Option Text

/-- The registry that knows no type. -/
def Registry.empty : Registry := fun _ => none

/-- A fault in the source of a supertype.  Its offset is one in that source,
so it goes into the hint. -/
def faultInSupertype (reference : Text) (fault : Fault) : Fault :=
  { cause := fault.cause, hint := some (.raisedInSupertype reference fault.offset) }

/-- The result of reading something in the source of a supertype, with its
fault told as one that was inherited. -/
def readInSupertype {α : Type} (reference : Text) : Except Fault α → Except Fault α
  | .ok value => .ok value
  | .error fault => .error (faultInSupertype reference fault)

/-- A walk up the supertypes: the references that were looked up, in order,
and what the walk led to. -/
structure Ascent where
  lookups : List Text
  outcome : Except Fault Head

namespace Ascent

/-- The walk that ends here. -/
def ended (outcome : Except Fault Head) : Ascent := ⟨[], outcome⟩

/-- The walk that looks up a reference first. -/
def behind (reference : Text) (walk : Ascent) : Ascent :=
  ⟨reference :: walk.lookups, walk.outcome⟩

end Ascent

/-- The head of a class called `name` with parameters that it may have taken
from a supertype. -/
def headOfClass (name : Text) (parameters : ParameterList) (inheritedFrom : Option Text) :
    Head :=
  { name, form := { isClass := true }, parameters, inheritedFrom }

/-- The rest of the walk that began at the class called `name` and has come
to the class `here` by way of the supertype `via`.  The references in
`visited` have been passed, and `left` lookups of the `limit` are left. -/
def ascendFrom (registry : Registry) (name : Text) (limit : Nat) (left : Nat)
    (visited : List Text) (via : Option Text) (here : ClassHead) : Ascent :=
  match here.constructor, here.superclass with
  | some parameters, _ => .ended (.ok (headOfClass name parameters via))
  | none, none => .ended (.ok (headOfClass name {} via))
  | none, some reference =>
    if visited.contains reference then
      .ended (.error { cause := .supertypeCycle name reference })
    else
      match left with
      | 0 =>
        .ended (.error
          { cause := .supertypeChainTooLong name limit, hint := some .raiseMaxHops })
      | left + 1 =>
        .behind reference <|
          match registry reference with
          | none =>
            .ended (.error
              { cause := .supertypeUnregistered reference, hint := some .registerSupertype })
          | some source =>
            match Declaration.ofSource source with
            | .error fault => .ended (.error (faultInSupertype reference fault))
            | .ok (.callable head) =>
              .ended (.ok (headOfClass name head.parameters (some reference)))
            | .ok (.ofClass next) =>
              ascendFrom registry name limit left (reference :: visited) (some reference) next

/-- The references that a class with this name has passed before it looks up
any: its own name, if it has one. -/
def ownName (name : Text) : List Text :=
  if name.isEmpty then [] else [name]

/-- The walk up from a class. -/
def ascend (registry : Registry) (limit : Nat) (start : ClassHead) : Ascent :=
  ascendFrom registry start.name limit limit (ownName start.name) none start

/-- The head of the callable that the source declares, with the parameters
that a class takes from its supertypes. -/
def Options.head (options : Options) (registry : Registry) (source : Text) :
    Except Fault Head :=
  match Declaration.ofSource source with
  | .error fault => .error fault
  | .ok (.callable head) => .ok head
  | .ok (.ofClass start) => (ascend registry options.maxSupertypeHops start).outcome

end CallSignature
