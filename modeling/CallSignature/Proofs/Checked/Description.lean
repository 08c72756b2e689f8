/-
CallSignature.Proofs.Checked.Description — a description refuses no cut.

The readers with checked cuts come together here.  Whatever the source, the
registry and the options are, describing a callable makes every cut between
two boundaries of a text, in order, and looks into its tables only where they
have an entry (`run_describe`).  So the description is what it is without the
checks, a descriptor or a fault, and there is always one.
-/
import CallSignature.Description
import CallSignature.Proofs.Checked.Classes
import CallSignature.Proofs.Checked.Shapes

namespace CallSignature

namespace Checked

/-! ## Declarations -/

/-- Whether the source declares a class, and the cursor behind the word. -/
def classStart? (c : Cursor) : Checked (Option Cursor) := do
  match ← matchWord "class".toList c with
  | some behind => return if behind.skipWhiteSpace.peek = '(' then none else some behind
  | none => return none

/-- What the source, its comments blanked out, declares. -/
def ofCode (source : Text) : Checked Declaration := do
  let start := (Cursor.ofText source).skipWhiteSpace
  match ← classStart? start with
  | some behind => return .ofClass (← classHead behind)
  | none => return .callable (← head start)

/-- What the source declares. -/
def ofSource (source : Text) : Checked Declaration := do
  if source.isBlank then throw { cause := .sourceBlank }
  else if isNative source then throw { cause := .sourceNative source.trim }
  else ofCode (← of (withoutComments source))

section

theorem classStart?_eq (c : Cursor) : classStart? c = pure (CallSignature.classStart? c) := by
  rw [classStart?, matchWord_eq, pure_bind, CallSignature.classStart?]
  cases c.matchWord "class".toList <;> rfl

theorem ofCode_eq (source : Text) : ofCode source = of (Declaration.ofCode source) := by
  rw [ofCode, classStart?_eq, pure_bind, Declaration.ofCode]
  cases CallSignature.classStart? (Cursor.ofText source).skipWhiteSpace with
  | some behind =>
    dsimp only
    rw [classHead_eq]
    exact of_map _ _
  | none =>
    dsimp only
    rw [head_eq]
    exact of_map _ _

theorem ofSource_eq (source : Text) : ofSource source = of (Declaration.ofSource source) := by
  unfold ofSource Declaration.ofSource
  split
  · rfl
  · split
    · rfl
    · cases withoutComments source with
      | error fault => rfl
      | ok code => exact ofCode_eq code

end

/-! ## Supertypes -/

/-- The reading of the source of a supertype, with its fault told as one that
was inherited. -/
def inherited {α : Type} (reference : Text) (x : Checked α) : Checked α :=
  ExceptT.mk (x.run.map (readInSupertype reference))

/-- The head of the class called `name`, with the parameters that it takes
from the class `here` or from one of its supertypes. -/
def ascendFrom (registry : Registry) (name : Text) (limit : Nat) (left : Nat)
    (visited : List Text) (via : Option Text) (here : ClassHead) : Checked Head :=
  match here.constructor, here.superclass with
  | some parameters, _ => return headOfClass name parameters via
  | none, none => return headOfClass name {} via
  | none, some reference =>
    if visited.contains reference then throw { cause := .supertypeCycle name reference }
    else
      match left with
      | 0 => throw { cause := .supertypeChainTooLong name limit, hint := some .raiseMaxHops }
      | left + 1 =>
        match registry reference with
        | none =>
          throw { cause := .supertypeUnregistered reference, hint := some .registerSupertype }
        | some source => do
          match ← inherited reference (ofSource source) with
          | .callable head => return headOfClass name head.parameters (some reference)
          | .ofClass next =>
            ascendFrom registry name limit left (reference :: visited) (some reference) next

/-- The head of the callable that the source declares, with the parameters
that a class takes from its supertypes. -/
def headOf (options : Options) (registry : Registry) (source : Text) : Checked Head := do
  match ← ofSource source with
  | .callable head => return head
  | .ofClass start =>
    ascendFrom registry start.name options.maxSupertypeHops options.maxSupertypeHops
      (ownName start.name) none start

section

variable {α : Type}

theorem inherited_of (reference : Text) (x : Except Fault α) :
    inherited reference (of x) = of (readInSupertype reference x) := rfl

theorem ascendFrom_eq (registry : Registry) (name : Text) (limit left : Nat)
    (visited : List Text) (via : Option Text) (here : ClassHead) :
    ascendFrom registry name limit left visited via here
      = of (CallSignature.ascendFrom registry name limit left visited via here).outcome := by
  -- on the lookups that are left, for any class that the walk has come to
  induction left generalizing visited via here with
  | zero =>
    unfold ascendFrom CallSignature.ascendFrom
    cases here.constructor with
    | some parameters => rfl
    | none =>
      cases here.superclass with
      | none => rfl
      | some reference =>
        dsimp only
        split <;> rfl
  | succ left ih =>
    unfold ascendFrom CallSignature.ascendFrom
    cases here.constructor with
    | some parameters => rfl
    | none =>
      cases here.superclass with
      | none => rfl
      | some reference =>
        dsimp only
        split
        · rfl
        · cases registry reference with
          | none => rfl
          | some source =>
            dsimp only
            rw [ofSource_eq, inherited_of]
            cases Declaration.ofSource source with
            | error fault => rfl
            | ok declaration =>
              cases declaration with
              | callable head => rfl
              | ofClass next => exact ih _ _ _

theorem headOf_eq (options : Options) (registry : Registry) (source : Text) :
    headOf options registry source = of (options.head registry source) := by
  rw [headOf, ofSource_eq, Options.head]
  cases Declaration.ofSource source with
  | error fault => rfl
  | ok declaration =>
    cases declaration with
    | callable head => rfl
    | ofClass start => exact ascendFrom_eq _ _ _ _ _ _ _

end

/-! ## Describing -/

/-- The parameters of a head. -/
def parametersOf (options : Options) (head : Head) : Checked (List Parameter) :=
  let found := shift head.parameters.offset (parameters options head.parameters.text)
  match head.inheritedFrom with
  | none => found
  | some reference => inherited reference found

/-- Refuses parameters the first rest parameter of which is not the last.  The
fault tells its name, which is looked up. -/
def checkRestLast (parameters : List Parameter) : Checked Unit :=
  match parameters.findIdx? Parameter.isSpread with
  | none => return ()
  | some place =>
    if place + 1 = parameters.length then return ()
    else do
      let early ← entry parameters place
      throw { cause := .restNotLast early.name, hint := some .moveRestToEnd }

/-- The description of a callable with this head and these parameters. -/
def descriptor (head : Head) (parameters : List Parameter) : Checked Descriptor := do
  checkRestLast parameters
  return { name := head.name, form := head.form, parameters,
           minArity := minArity parameters, maxArity := maxArity parameters }

/-- The description of a callable by its source alone. -/
def describeBySource (options : Options) (registry : Registry) (callable : Callable) :
    Checked Descriptor :=
  match callable.source with
  | none => throw { cause := .sourceAbsent, hint := some .hostProvided }
  | some source => do
    let head ← headOf options registry source
    let parameters ← parametersOf options head
    descriptor (callable.named head) parameters

/-- The description of a callable. -/
def describe (options : Options) (registry : Registry) (callable : Callable) :
    Checked Descriptor := do
  return options.settleLength callable (← describeBySource options registry callable)

section

theorem parametersOf_eq (options : Options) (head : Head) :
    parametersOf options head = of (options.parametersOf head) := by
  rw [parametersOf, parameters_eq, shift_of, Options.parametersOf]
  cases head.inheritedFrom <;> rfl

/-- A rest parameter before the last is found where the first one stands. -/
theorem find?_dropLast {parameters : List Parameter} {place : Nat}
    (h : parameters.findIdx? Parameter.isSpread = some place) :
    parameters.dropLast.find? Parameter.isSpread
      = if place + 1 = parameters.length then none else parameters[place]? := by
  obtain ⟨hplace, hspread, hfirst⟩ := List.findIdx?_eq_some_iff_getElem.1 h
  split
  · rw [List.find?_eq_none]
    intro p hp
    obtain ⟨i, hi, rfl⟩ := List.mem_iff_getElem.1 hp
    have hless := hi
    rw [List.length_dropLast] at hless
    rw [List.getElem_dropLast]
    exact hfirst i (by omega)
  · have hbefore : place < parameters.dropLast.length := by
      rw [List.length_dropLast]
      omega
    rw [List.getElem?_eq_getElem hplace, List.find?_eq_some_iff_getElem]
    refine ⟨hspread, place, hbefore, List.getElem_dropLast hbefore, fun i hi => ?_⟩
    rw [List.getElem_dropLast, Bool.not_eq_true', Bool.eq_false_iff]
    exact hfirst i hi

theorem checkRestLast_eq (parameters : List Parameter) :
    checkRestLast parameters = of (CallSignature.checkRestLast parameters) := by
  unfold checkRestLast CallSignature.checkRestLast
  cases hfirst : parameters.findIdx? Parameter.isSpread with
  | none =>
    have hnone : parameters.dropLast.find? Parameter.isSpread = none :=
      List.find?_eq_none.2 fun p hp => by
        simp [List.findIdx?_eq_none_iff.1 hfirst p ((List.dropLast_sublist _).subset hp)]
    rw [hnone]
    rfl
  | some place =>
    obtain ⟨hplace, -⟩ := List.findIdx?_eq_some_iff_getElem.1 hfirst
    rw [find?_dropLast hfirst]
    dsimp only
    split
    · rfl
    · rw [entry, List.getElem?_eq_getElem hplace]
      rfl

theorem descriptor_eq (head : Head) (parameters : List Parameter) :
    descriptor head parameters = of (Descriptor.ofHead head parameters) := by
  rw [descriptor, checkRestLast_eq, Descriptor.ofHead]
  cases CallSignature.checkRestLast parameters <;> rfl

theorem describeBySource_eq (options : Options) (registry : Registry) (callable : Callable) :
    describeBySource options registry callable
      = of (options.describeBySource registry callable) := by
  unfold describeBySource Options.describeBySource
  cases callable.source with
  | none => rfl
  | some source =>
    dsimp only
    rw [headOf_eq]
    refine of_bind fun head _ => ?_
    rw [parametersOf_eq]
    exact of_bind fun parameters _ => descriptor_eq _ _

end

/-- Describing a callable refuses no cut and no lookup: the description with
all of them checked is the description. -/
theorem run_describe (options : Options) (registry : Registry) (callable : Callable) :
    (describe options registry callable).run = some (options.describe registry callable) := by
  rw [describe, describeBySource_eq]
  exact of_map _ _

end Checked

end CallSignature
