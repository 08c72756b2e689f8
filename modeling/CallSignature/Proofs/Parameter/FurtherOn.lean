/-
CallSignature.Proofs.Parameter.FurtherOn — one text, read at two places.

Readers of segments do not look at where a segment stands, and every fault
they give has a place.  Together: of the same text further on they read the
same, with the parts that they give further on, or they give the same fault,
with the same advice, further on (`readFurtherOn_trimmed`).  No fault goes
without the move and none is moved twice.
-/
import CallSignature.Proofs.Parameter.Edges
import CallSignature.Proofs.Parameter.Lists

namespace CallSignature

open Segment

/-- The second answer is the first one `base` bytes further on: what `f` makes
of the answer, or the same fault with its place moved. -/
inductive FurtherOn {α : Type} (base : Nat) (f : α → α) :
    Except Fault α → Except Fault α → Prop
  | read (a : α) : FurtherOn base f (.ok a) (.ok (f a))
  | failed (cause : Cause) (place : Nat) (hint : Option Hint) :
      FurtherOn base f (.error ⟨cause, some place, hint⟩)
        (.error ⟨cause, some (place + base), hint⟩)

/-- All readings of the second segment are those of the first one `base` bytes
further on.  A shape, a class and a parameter hold no places, and the place of
a divider is one in the entry. -/
structure ReadFurtherOn (options : Options) (base : Nat) (near far : Segment) : Prop where
  shape : FurtherOn base id (options.shape near) (options.shape far)
  tokenClass : FurtherOn base id (tokenClass near) (tokenClass far)
  elements : FurtherOn base (List.map (moved base)) near.elements far.elements
  pieces : FurtherOn base (List.map (moved base)) near.assignmentPieces far.assignmentPieces
  default :
    FurtherOn base (fun (binding, source) => (binding.moved base, source.map (moved base)))
      near.bindingAndDefault far.bindingAndDefault
  divider : FurtherOn base id near.divider far.divider
  parameter : FurtherOn base id (options.parameter near) (options.parameter far)

variable {α : Type} {read : Segment → Except Fault α} {s : Segment}

/-- A fault that has a place is moved with the segment. -/
theorem furtherOn_of_liesIn (hplace : FaultsSatisfy (Fault.LiesIn s) (read s)) {base : Nat}
    {f : α → α} (hmoved : read (s.moved base) = shiftFault base ((read s).map f)) :
    FurtherOn base f (read s) (read (s.moved base)) := by
  rw [hmoved]
  cases hread : read s with
  | ok a => exact .read a
  | error fault =>
    obtain ⟨place, hfault, -⟩ := (hplace fault hread).exists_edge
    obtain ⟨cause, offset, hint⟩ := fault
    obtain rfl : offset = some place := hfault
    exact .failed cause place hint

theorem Translates.furtherOn (hread : Translates read) (hplace : FaultsLieIn read)
    (s : Segment) (base : Nat) : FurtherOn base id (read s) (read (s.moved base)) := by
  refine furtherOn_of_liesIn (hplace s) ?_
  rw [hread]
  cases read s <;> rfl

/-- A text that stands `base` bytes further on is read alike. -/
theorem readFurtherOn_trimmed (options : Options) (t : Text) (base : Nat) :
    ReadFurtherOn options base (.trimmed t 0) (.trimmed t base) := by
  have hmoved : Segment.trimmed t base = (Segment.trimmed t 0).moved base := by
    have := trimmed_moved t 0 base
    rwa [Nat.zero_add] at this
  generalize Segment.trimmed t 0 = s at hmoved
  rw [hmoved]
  exact
    { shape := (translates_shape options).furtherOn (shape_liesIn options) s base
      tokenClass := Translates.furtherOn tokenClass_moved tokenClass_liesIn s base
      elements := furtherOn_of_liesIn (elements_liesIn s) (elements_moved s base)
      pieces := furtherOn_of_liesIn (assignmentPieces_liesIn s) (assignmentPieces_moved s base)
      default :=
        furtherOn_of_liesIn (bindingAndDefault_liesIn s) (bindingAndDefault_moved s base)
      divider := Translates.furtherOn divider_moved divider_liesIn s base
      parameter := (translates_parameter options).furtherOn (parameter_liesIn options) s base }

end CallSignature
