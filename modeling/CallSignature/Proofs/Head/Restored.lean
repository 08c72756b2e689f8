/-
CallSignature.Proofs.Head.Restored — a cursor is given back as it was found.

Whether an arrow function stands ahead is seen only behind its parameters, and
by then a whole group may have been read.  A reader that finds no arrow there
goes back by its position, and this leads to the very cursor it began with:
the position belongs to no other cursor in the same source (`seek_offset`).

A reader that keeps an index goes back in the same way.  It finds the group
and the name of an arrow by their positions in the source, and it is where the
other reader is with and without an arrow (`arrow_indexed`).
-/
import CallSignature.Proofs.Cursor.Runs
import CallSignature.Proofs.Head.Extent

namespace CallSignature

open Cursor Unicode

/-! ## Going back -/

namespace Cursor

variable {c d : Cursor}

/-- In one source a position is that of one cursor. -/
theorem seek_offset (h : d.text = c.text) : d.seek c.offset = c := by
  have hwidth : c.offset = Text.width c.behind.reverse := (Text.width_reverse _).symm
  rw [seek, h, hwidth, text, Text.takeBytes_append, Text.dropBytes_append,
    List.reverse_reverse]

end Cursor

section

variable {c d : Cursor} {isAsync : Bool}

/-- If there is no arrow function, the cursor is given back, whatever has been
read to see that. -/
theorem arrow_eq_none_iff_eq :
    Head.arrow isAsync c = .ok (none, d) ↔ LacksArrow c ∧ d = c := by
  constructor
  · intro h
    refine ⟨arrow_eq_none_iff.1 ⟨d, h⟩, ?_⟩
    unfold Head.arrow at h
    split at h
    · cases h
    · exact ((Prod.mk.inj (Except.ok.inj h)).2).symm
    · rename_i list e hlist
      split at h
      · cases h
      · rw [← (Prod.mk.inj (Except.ok.inj h)).2]
        exact seek_offset (reaches_of_ofArrow hlist).text_eq
  · rintro ⟨hlacks, rfl⟩
    unfold Head.arrow
    rcases hlacks with hnone | ⟨list, e, hlist, hmark⟩
    · rw [hnone]
    · simp only [hlist, hmark, seek_offset (reaches_of_ofArrow hlist).text_eq]

end

/-! ## By an index -/

namespace Text

/-- What follows a part from some byte on. -/
theorem dropBytes_append_add (a b : Text) (n : Nat) :
    dropBytes (a.width + n) (a ++ b) = dropBytes n b := by
  induction a with
  | nil => simp
  | cons c a ih =>
    have hpos := c.utf8Size_pos
    rw [List.cons_append, width_cons, dropBytes, if_neg (by omega), Nat.add_assoc,
      Nat.add_sub_cancel_left, ih]

/-- A slice behind a part is one of what follows it. -/
theorem slice_behind (a b : Text) (first last : Nat) :
    slice (a ++ b) (a.width + first) (a.width + last) = slice b first last := by
  rw [slice, slice, dropBytes_append_add, Nat.add_sub_add_left]

end Text

namespace IndexedCursor

/-- The parameter list in parentheses before which the cursor stands, cut out
of the source, and the cursor behind it. -/
def parameterList (c : IndexedCursor) : Except Fault (ParameterList × IndexedCursor) :=
  if c.peek = '(' then
    match closerDistance c.offset c.rest with
    | .ok last =>
      .ok (⟨c.source.slice (c.offset + 1) (c.offset + last), c.offset + 1⟩,
        c.seek (c.offset + last + 1))
    | .error fault => .error fault
  else .error ((Cause.parameterListExpected.located c.offset).withHint .expectCallable)

/-- The parameters of an arrow: a list in parentheses or one bare name, which
ends where the cursor behind it stands. -/
def arrowList (c : IndexedCursor) : Except Fault (Option (ParameterList × IndexedCursor)) :=
  if c.peek = '(' then c.parameterList.map some
  else .ok (c.identifier.map fun (name, next) => (⟨name, next.offset - name.width⟩, next))

/-- The head of an arrow function, up to and including the arrow, and the
cursor behind it.  If there is none, the cursor is back where it was. -/
def arrow (isAsync : Bool) (c : IndexedCursor) : Except Fault (Option Head × IndexedCursor) :=
  match c.arrowList with
  | .error fault => .error fault
  | .ok none => .ok (none, c)
  | .ok (some (parameters, next)) =>
    match next.skipWhiteSpace.matchText ['=', '>'] with
    | some behind => .ok (some { form := { isAsync, isArrow := true }, parameters }, behind)
    | none => .ok (none, next.seek c.offset)

end IndexedCursor

namespace Cursor

/-- A part of what has not been read, cut out of the source. -/
theorem slice_rest (c : Cursor) (first last : Nat) :
    c.text.slice (c.offset + first) (c.offset + last) = c.rest.slice first last := by
  have hslice := Text.slice_behind c.behind.reverse c.rest first last
  rwa [Text.width_reverse] at hslice

theorem parameterList_indexed (c : Cursor) :
    c.indexed.parameterList = (ParameterList.ofCursor c).map (Prod.map id indexed) := by
  rw [IndexedCursor.parameterList, peek_indexed, offset_indexed, rest_indexed,
    ParameterList.ofCursor]
  split
  · cases closerDistance c.offset c.rest with
    | error fault => rfl
    | ok last =>
      dsimp only
      rw [show c.indexed.source = c.text from rfl, slice_rest, seek_indexed]
      rfl
  · rfl

theorem arrowList_indexed (c : Cursor) :
    c.indexed.arrowList
      = (ParameterList.ofArrow c).map (Option.map (Prod.map id indexed)) := by
  rw [IndexedCursor.arrowList, peek_indexed, parameterList_indexed, identifier_indexed,
    ParameterList.ofArrow]
  split
  · cases ParameterList.ofCursor c <;> rfl
  · cases hname : c.identifier with
    | none => rfl
    | some found =>
      obtain ⟨name, next⟩ := found
      have hoffset : next.indexed.offset - name.width = c.offset := by
        rw [offset_indexed, (identifier_eq_some hname).2.offset, Nat.add_sub_cancel]
      simp only [Option.map_some, hoffset]
      rfl

theorem arrow_indexed (isAsync : Bool) (c : Cursor) :
    c.indexed.arrow isAsync = (Head.arrow isAsync c).map (Prod.map id indexed) := by
  rw [IndexedCursor.arrow, arrowList_indexed, Head.arrow, offset_indexed]
  cases ParameterList.ofArrow c with
  | error fault => rfl
  | ok found =>
    cases found with
    | none => rfl
    | some list =>
      obtain ⟨parameters, next⟩ := list
      simp only [Except.map, Option.map_some, Prod.map, skipWhiteSpace_indexed,
        matchText_indexed, seek_indexed]
      cases next.skipWhiteSpace.matchText ['=', '>'] <;> rfl

end Cursor

/-! ## After any row of steps -/

/-- After any row of steps a cursor stands at a boundary of the source, and
what it has not read is what follows.  From there every step does what it
answers: what is found was next and is passed, and a search that finds nothing
leaves the cursor alone (`Takes`).  So does looking for an arrow function if
there is none, also if a whole group has been read before this is seen.  A
reader that keeps an index instead is told the same and stands at the same
place. -/
theorem runSteps_keeps_place (t : Text) (steps : List Step) :
    ∃ answers c, runSteps Cursor.step (.ofText t) steps = (answers, c) ∧
      runSteps IndexedCursor.step (.ofText t) steps = (answers, c.indexed) ∧
      c.indexed.offset = c.offset ∧ c.indexed.rest = c.rest ∧
      t.IsBoundary c.offset ∧ c.offset ≤ t.width ∧ c.rest = t.dropBytes c.offset ∧
      (∀ s, Takes c s (c.step s).1 (c.step s).2) ∧
      ∀ isAsync, c.indexed.arrow isAsync = (Head.arrow isAsync c).map (Prod.map id indexed) ∧
        ∀ d, Head.arrow isAsync c = .ok (none, d) ↔ LacksArrow c ∧ d = c := by
  have htext := text_runSteps (.ofText t) steps
  have hindexed := runSteps_indexed (.ofText t) steps
  rcases hrun : runSteps Cursor.step (.ofText t) steps with ⟨answers, c⟩
  rw [hrun] at htext hindexed
  obtain rfl : c.text = t := htext
  have hboundary := isBoundary_offset c
  exact ⟨answers, c, rfl, hindexed, offset_indexed c, rest_indexed c, hboundary,
    hboundary.le_width, (dropBytes_offset c).symm, takes_step c, fun isAsync =>
      ⟨arrow_indexed isAsync c, fun _ => arrow_eq_none_iff_eq⟩⟩

/-- The list of the method `é` is balanced, and no arrow follows it. -/
example : ParameterList.ofCursor ⟨"é ".toList.reverse, r"(a, [b]) {".toList⟩
      = .ok (⟨"a, [b]".toList, 4⟩, ⟨"é (a, [b])".toList.reverse, r" {".toList⟩) ∧
    Head.arrow false ⟨"é ".toList.reverse, r"(a, [b]) {".toList⟩
      = .ok (none, ⟨"é ".toList.reverse, r"(a, [b]) {".toList⟩) := by
  decide

end CallSignature
