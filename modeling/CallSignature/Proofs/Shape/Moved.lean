/-
CallSignature.Proofs.Shape.Moved — the same pattern further on.

A shape holds no offsets, and so a token that stands further on is read as the
same shape (`translates_shapeWithin`).  A step of the reader that hands on a
part of the token hands on the same part further on, and the induction is on
the room that is left.
-/
import CallSignature.Proofs.Segment.Moved
import CallSignature.Shape.Reader

namespace CallSignature

open Segment

theorem tokenClass_moved (token : Segment) (base : Nat) :
    tokenClass (token.moved base) = shiftFault base (tokenClass token) :=
  (shiftFault_shiftFault base token.offset _).symm

/-! ## Entries -/

/-- The same form of an entry `base` bytes further on. -/
def EntryForm.moved (base : Nat) : EntryForm → EntryForm
  | rest key => rest key
  | shorthand key => shorthand key
  | valued key value => valued key (value.moved base)

theorem ofDivided_moved (entry : Segment) (base offset : Nat) (separator : Char) :
    EntryForm.ofDivided (entry.moved base) offset separator
      = shiftFault base ((EntryForm.ofDivided entry offset separator).map (.moved base)) := by
  unfold EntryForm.ofDivided
  simp only [sliceFrom_moved, isEmpty_moved]
  split
  · simp only [Except.map, shiftFault_error, Cause.located, Fault.shifted, Option.map_some,
      offset_moved, Nat.add_right_comm]
  · rfl

theorem ofSegment_moved (entry : Segment) (base : Nat) :
    EntryForm.ofSegment (entry.moved base)
      = shiftFault base ((EntryForm.ofSegment entry).map (.moved base)) := by
  unfold EntryForm.ofSegment
  rw [isEmpty_moved, text_moved, divider_moved]
  split
  · rfl
  · split
    · split <;> rfl
    · cases entry.divider with
      | error fault => rfl
      | ok found =>
        rcases found with _ | ⟨offset, separator⟩
        · rfl
        · exact ofDivided_moved entry base offset separator

/-! ## Levels -/

variable {read : Segment → Except Fault Shape}

theorem translates_readItem (hread : Translates read) : Translates (readItem read) := by
  intro element base
  rw [readItem, readItem, isEmpty_moved]
  split
  · rfl
  · exact hread element base

theorem translates_readEntry (hread : Translates read) : Translates (readEntry read) := by
  intro entry base
  rw [readEntry, readEntry, ofSegment_moved, shiftFault_bind]
  cases EntryForm.ofSegment entry with
  | error fault => rfl
  | ok form =>
    cases form with
    | rest key =>
      show read (entry.moved base) >>= _ = shiftFault base (read entry >>= _)
      rw [hread, shiftFault_bind]
      rfl
    | shorthand key => rfl
    | valued key value =>
      show read (value.moved base) >>= _ = shiftFault base (read value >>= _)
      rw [hread, shiftFault_bind]
      refine congrArg _ (funext fun shape => ?_)
      cases key.isEmpty <;> rfl

theorem translates_readSpread (hread : Translates read) : Translates (readSpread read) := by
  intro token base
  simp only [readSpread, sliceFrom_moved, isEmpty_moved]
  split
  · rfl
  · rw [hread]
    cases read (token.sliceFrom 3) <;> rfl

/-- One level is read alike wherever it stands if the next one is. -/
theorem translates_readToken (hread : Translates read) : Translates (readToken read) := by
  intro token base
  rw [readToken, readToken, tokenClass_moved, shiftFault_bind]
  refine congrArg _ (funext fun found => ?_)
  cases found with
  | object =>
    simp only [interior_moved, bind_pure_comp]
    exact (translates_readEntry hread).elements Shape.mapping token.interior base
  | array =>
    simp only [interior_moved, bind_pure_comp]
    exact (translates_readItem hread).elements Shape.sequence token.interior base
  | spread => exact translates_readSpread hread token base
  | leaf => rfl

/-- A pattern is read alike wherever it stands: the induction is on the room. -/
theorem translates_shapeWithin (limit room : Nat) : Translates (shapeWithin limit room) := by
  induction room with
  | zero => intro token base; rfl
  | succ room ih => exact translates_readToken ih

theorem translates_shape (options : Options) : Translates options.shape :=
  translates_shapeWithin _ _

end CallSignature
