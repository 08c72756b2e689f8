/-
CallSignature.Proofs.Segment.Moved — the same segment further on.

Where a segment stands decides nothing: a segment that stands `base` bytes
further on is cut into the same parts, each `base` bytes further on, and if it
cannot be cut the fault is the same one, `base` bytes further on.  Each
lemma here is that sentence about one way of cutting.

The offset of a segment is only ever added to, and so every proof comes down
to `shiftFault_map`: a part of a part is moved like the part.
-/
import CallSignature.Proofs.Success
import CallSignature.Segment.Assignment

namespace CallSignature

variable {α β : Type}

/-! ## Faults seen from further off -/

@[simp] theorem shiftFault_ok (base : Nat) (a : α) :
    shiftFault base (.ok a : Except Fault α) = .ok a := rfl

@[simp] theorem shiftFault_error (base : Nat) (fault : Fault) :
    shiftFault base (.error fault : Except Fault α) = .error (fault.shifted base) := rfl

theorem shiftFault_bind (base : Nat) (x : Except Fault α) (f : α → Except Fault β) :
    shiftFault base (x >>= f) = shiftFault base x >>= fun a => shiftFault base (f a) := by
  cases x <;> rfl

theorem shiftFault_shiftFault (base offset : Nat) (x : Except Fault α) :
    shiftFault base (shiftFault offset x) = shiftFault (offset + base) x := by
  cases x with
  | error fault => exact congrArg Except.error (fault.shifted_shifted offset base)
  | ok a => rfl

/-- What is seen from a part `base` bytes further on, and then given as `g`
says, is seen from the whole. -/
theorem shiftFault_map {γ : Type} (base offset : Nat) (x : Except Fault α) {f : α → β}
    {f' : α → γ} {g : β → γ} (h : ∀ a, f' a = g (f a)) :
    shiftFault (offset + base) (x.map f')
      = shiftFault base ((shiftFault offset (x.map f)).map g) := by
  cases x with
  | error fault => exact congrArg Except.error (fault.shifted_shifted offset base).symm
  | ok a => exact congrArg Except.ok (h a)

/-! ## Segments -/

namespace Segment

/-- The same text `base` bytes further on. -/
def moved (base : Nat) (s : Segment) : Segment :=
  ⟨s.text, s.offset + base⟩

@[simp] theorem text_moved (base : Nat) (s : Segment) : (s.moved base).text = s.text := rfl

@[simp] theorem offset_moved (base : Nat) (s : Segment) :
    (s.moved base).offset = s.offset + base := rfl

@[simp] theorem isEmpty_moved (base : Nat) (s : Segment) :
    (s.moved base).isEmpty = s.isEmpty := rfl

theorem trimmed_moved (t : Text) (offset base : Nat) :
    trimmed t (offset + base) = (trimmed t offset).moved base := by
  rw [trimmed, trimmed, moved, Nat.add_right_comm]

theorem slice_moved (s : Segment) (base first last : Nat) :
    (s.moved base).slice first last = (s.slice first last).moved base := by
  rw [slice, slice, ← trimmed_moved, text_moved, offset_moved, Nat.add_right_comm]

theorem sliceFrom_moved (s : Segment) (base first : Nat) :
    (s.moved base).sliceFrom first = (s.sliceFrom first).moved base :=
  slice_moved s base first _

theorem interior_moved (s : Segment) (base : Nat) :
    (s.moved base).interior = s.interior.moved base :=
  slice_moved s base 1 _

theorem pieces_moved (s : Segment) (base first : Nat) (cuts : List Nat) :
    (s.moved base).pieces first cuts = (s.pieces first cuts).map (moved base) := by
  induction cuts generalizing first with
  | nil => simp only [pieces, sliceFrom_moved, List.map_cons, List.map_nil]
  | cons cut cuts ih => simp only [pieces, slice_moved, ih, List.map_cons]

theorem withoutTrailing_moved (base : Nat) (parts : List Segment) :
    withoutTrailing (parts.map (moved base)) = (withoutTrailing parts).map (moved base) := by
  have hlast :
      ((parts.map (moved base)).getLast?.any isEmpty) = parts.getLast?.any isEmpty := by
    rw [List.getLast?_map, Option.any_map]
    rfl
  rw [withoutTrailing, withoutTrailing, List.length_map, hlast]
  split
  · exact (List.map_dropLast ..).symm
  · rfl

theorem elements_moved (list : Segment) (base : Nat) :
    (list.moved base).elements = shiftFault base (list.elements.map (·.map (moved base))) := by
  unfold elements
  rw [text_moved, offset_moved]
  split
  · rfl
  · exact shiftFault_map base list.offset _ fun cuts => by
      rw [pieces_moved, withoutTrailing_moved]

theorem assignmentPieces_moved (s : Segment) (base : Nat) :
    (s.moved base).assignmentPieces
      = shiftFault base (s.assignmentPieces.map (·.map (moved base))) :=
  shiftFault_map base s.offset _ (pieces_moved s base 0)

theorem bindingAndDefault_moved (s : Segment) (base : Nat) :
    (s.moved base).bindingAndDefault
      = shiftFault base (s.bindingAndDefault.map fun (binding, default?) =>
          (binding.moved base, default?.map (moved base))) := by
  refine shiftFault_map base s.offset _ fun cuts => ?_
  cases cuts with
  | nil => rfl
  | cons cut cuts => simp only [slice_moved, sliceFrom_moved, Option.map_some]

theorem divider_moved (entry : Segment) (base : Nat) :
    (entry.moved base).divider = shiftFault base entry.divider :=
  (shiftFault_shiftFault base entry.offset _).symm

end Segment

/-! ## Readers -/

/-- The reader does not look at where a segment stands: of a segment further
on it reads the same, or gives the same fault further on. -/
def Translates (read : Segment → Except Fault α) : Prop :=
  ∀ (s : Segment) (base : Nat), read (s.moved base) = shiftFault base (read s)

theorem Translates.mapM {read : Segment → Except Fault α} (hread : Translates read)
    (parts : List Segment) (base : Nat) :
    (parts.map (Segment.moved base)).mapM read = shiftFault base (parts.mapM read) := by
  induction parts with
  | nil => rfl
  | cons part parts ih =>
    rw [List.map_cons, List.mapM_cons, List.mapM_cons, hread, ih, shiftFault_bind]
    refine congrArg _ (funext fun a => ?_)
    rw [shiftFault_bind]
    rfl

/-- A list further on is read as the list is, element by element. -/
theorem Translates.elements {read : Segment → Except Fault α} (hread : Translates read)
    (f : List α → β) :
    Translates fun list => list.elements >>= fun parts => f <$> parts.mapM read := by
  intro list base
  simp only [list.elements_moved, shiftFault_bind]
  cases list.elements with
  | error fault => rfl
  | ok parts =>
    show f <$> (parts.map (Segment.moved base)).mapM read
      = shiftFault base (f <$> parts.mapM read)
    rw [hread.mapM]
    cases parts.mapM read <;> rfl

end CallSignature
