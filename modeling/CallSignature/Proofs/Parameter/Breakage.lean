/-
CallSignature.Proofs.Parameter.Breakage — orderly text never breaks further in.

Broken brackets, quotes and comments are met where a text is looked at first.
What an orderly text is cut into is orderly again: its elements, the binding
and the default of a parameter, the key and the value of an entry, the
operand of a spread.  So nothing that is read in an orderly parameter list
fails by its structure (`parameters_failOnlyBy`); a shape can only be unknown
or too deep (`shapeWithin_failsOnlyBy`).
-/
import CallSignature.Parameter
import CallSignature.Proofs.Comment.Cleaning
import CallSignature.Proofs.Segment.Signs
import CallSignature.Proofs.Shape.Inquiries

namespace CallSignature

open Shape Unicode

/-! ## Causes -/

namespace Cause

/-- Whether brackets, quotes or comments are broken. -/
def isStructural : Cause → Bool
  | closerMismatch .. | closerUnmatched .. | literalUnterminated .. | groupUnclosed ..
  | groupExpected | commentUnterminated => true
  | boundaryMissing reason => reason.isStructural
  | _ => false

/-- Whether a pattern is refused for what it says, or for its depth. -/
def IsShapeCause (cause : Cause) : Prop :=
  cause.kind = .unknownShape ∧ cause.isStructural = false ∨
    ∃ limit, cause = .nestingTooDeep limit

theorem IsShapeCause.isStructural_eq_false {cause : Cause} (h : cause.IsShapeCause) :
    cause.isStructural = false := by
  rcases h with ⟨-, h⟩ | ⟨limit, rfl⟩
  · exact h
  · rfl

theorem isStructural_of_kind {cause : Cause} (h : cause.kind = .unknownShape) :
    cause.isStructural = false := by
  cases cause <;> first | rfl | cases h

end Cause

/-! ## Segments -/

/-- What an orderly text binds is orderly, and so is its default. -/
theorem exists_bindingAndDefault {s : Segment} (h : Orderly s.text) :
    ∃ binding default?, s.bindingAndDefault = .ok (binding, default?) ∧
      Orderly binding.text := by
  rcases bindingAndDefault_cases h with ⟨-, hbinding⟩ | ⟨a, b, -, ha, -, -, hbinding⟩
  · exact ⟨s, none, hbinding, h⟩
  · exact ⟨_, _, hbinding, ha.trim⟩

/-! ## Shapes -/

/-- The reader fails for an orderly token only for what it says or its depth. -/
def FailsForShape (read : Segment → Except Fault Shape) : Prop :=
  ∀ ⦃token : Segment⦄, Orderly token.text → FailsOnlyBy Cause.IsShapeCause (read token)

/-- No level below an orderly token is broken. -/
theorem shapeWithin_failsOnlyBy (limit room : Nat) :
    FailsForShape (shapeWithin limit room) := by
  intro token h fault hfault
  rcases isShapeFault_of_orderly limit room h fault hfault with hkind | ⟨place, rfl⟩
  · exact .inl ⟨hkind, Cause.isStructural_of_kind hkind⟩
  · exact .inr ⟨limit, rfl⟩

/-! ## Parameters -/

theorem failsOnlyBy_unknown {α : Type} {fault : Fault} (h : fault.cause.kind = .unknownShape) :
    FailsOnlyBy Cause.IsShapeCause (.error fault : Except Fault α) :=
  .error (.inl ⟨h, Cause.isStructural_of_kind h⟩)

theorem boundName_failsOnlyBy (binding : Segment) (shape : Shape) :
    FailsOnlyBy Cause.IsShapeCause (boundName binding shape) := by
  unfold boundName
  split
  · split
    · exact .ok _
    · exact failsOnlyBy_unknown rfl
  · exact failsOnlyBy_unknown rfl

theorem parameterName_failsOnlyBy (binding : Segment) (shape : Shape) :
    FailsOnlyBy Cause.IsShapeCause (parameterName binding shape) := by
  rw [parameterName.eq_def]
  split
  · exact .ok _
  · exact .ok _
  · exact .ok _
  · exact .ok _
  · exact boundName_failsOnlyBy binding _
  · exact boundName_failsOnlyBy binding _

theorem checkParts_failsOnlyBy (binding : Segment) (default? : Option Segment) :
    FailsOnlyBy Cause.IsShapeCause (checkParts binding default?) := by
  unfold checkParts
  split
  · exact failsOnlyBy_unknown rfl
  · split
    · exact failsOnlyBy_unknown rfl
    · exact .ok _

theorem checkRest_failsOnlyBy (shape : Shape) (default? : Option Segment) :
    FailsOnlyBy (·.isStructural = false) (checkRest shape default?) := by
  rw [checkRest.eq_def]
  split
  · exact .error rfl
  · exact .ok _

/-- A parameter whose text is orderly is not broken further in. -/
theorem parameter_failsOnlyBy (options : Options) {segment : Segment}
    (h : Orderly segment.text) :
    FailsOnlyBy (·.isStructural = false) (options.parameter segment) := by
  have hshape : ∀ cause : Cause, cause.IsShapeCause → cause.isStructural = false :=
    fun _ hcause => hcause.isStructural_eq_false
  obtain ⟨binding, default?, hparts, horderly⟩ := exists_bindingAndDefault h
  refine FailsOnlyBy.bind (by rw [hparts]; exact .ok _) fun found hfound => ?_
  obtain rfl := Except.ok.inj (hparts.symm.trans hfound)
  refine ((checkParts_failsOnlyBy binding default?).mono hshape).bind fun _ _ => ?_
  refine ((shapeWithin_failsOnlyBy _ _ horderly).mono hshape).bind fun shape _ => ?_
  refine ((parameterName_failsOnlyBy binding shape).mono hshape).bind fun name _ => ?_
  exact (checkRest_failsOnlyBy shape default?).bind fun _ _ => .ok _

/-- Reading the parameters of an orderly list without comments does not fail
by brackets, quotes or comments. -/
theorem parameters_failsOnlyBy (options : Options) {list : Text} (h : Orderly list)
    (hclean : withoutComments list = .ok list) :
    FailsOnlyBy (·.isStructural = false) (options.parameters list) := by
  refine FailsOnlyBy.bind (by rw [hclean]; exact .ok _) fun clean heq => ?_
  obtain rfl := Except.ok.inj (hclean.symm.trans heq)
  obtain ⟨parts, hparts⟩ :=
    exists_elements (show Orderly (Segment.ofText list).text from h.trim)
  refine FailsOnlyBy.bind (by rw [hparts]; exact .ok _) fun found hfound => ?_
  exact .mapM fun part hpart => parameter_failsOnlyBy options
    (isPiece_of_mem_elements hfound hpart).2.1

end CallSignature
