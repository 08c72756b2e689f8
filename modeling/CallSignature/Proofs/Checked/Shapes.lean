/-
CallSignature.Proofs.Checked.Shapes — patterns are cut at boundaries.

A group is cut behind its first bracket and in front of its last, a literal
inside its quotes, a spread and a rest entry behind their dots, and an entry at
the sign that divides it.  Each of these cuts rests on what was found out about
the token before: that it is one whole group or literal, or begins with dots.

`IsCheckedBy` says of a reader with checked cuts that it gives what a reader
gives.  It passes from one level of a pattern to the level above, and so, by
induction on the room, to all of them (`shapeWithin_isCheckedBy`).
-/
import CallSignature.Parameter
import CallSignature.Proofs.Checked.Segments
import CallSignature.Proofs.Literal.Body

namespace CallSignature

namespace Checked

/-! ## Leaves -/

/-- The quote and the words of a text that is one whole literal. -/
def wholeLiteral? (t : Text) : Checked (Option (Char × Text)) :=
  match t.head?, closingQuote t with
  | some quote, some last =>
    if last + 1 = t.width then return some (quote, ← cut t 1 last) else return none
  | _, _ => return none

/-- A token that is no pattern. -/
def ofLeaf (t : Text) : Checked Shape := do
  if t = "true".toList then return .bool true
  else if t = "false".toList then return .bool false
  else
    match ← wholeLiteral? t with
    | some (quote, words) => return .text words (some quote)
    | none => return .bare t

theorem wholeLiteral?_eq (t : Text) :
    wholeLiteral? t = pure (CallSignature.wholeLiteral? t) := by
  unfold wholeLiteral? CallSignature.wholeLiteral?
  cases hlast : closingQuote t with
  | none => cases t.head? <;> rfl
  | some last =>
    obtain ⟨quote, words, behind, hquote, -, rfl, rfl⟩ := closingQuote_eq_some_iff.1 hlast
    have hcut := cut_inner (utf8Size_of_isQuote hquote) [] words (quote :: behind)
    have hwords := slice_literal hquote words behind
    simp only [List.nil_append, Text.width_nil, Nat.zero_add] at hcut
    dsimp only [List.head?_cons]
    rw [hcut, hwords]
    split <;> rfl

theorem ofLeaf_eq (t : Text) : ofLeaf t = pure (Shape.ofLeaf t) := by
  unfold ofLeaf Shape.ofLeaf
  split
  · rfl
  · split
    · rfl
    · rw [wholeLiteral?_eq, pure_bind]
      cases CallSignature.wholeLiteral? t <;> rfl

/-! ## Entries of object patterns -/

/-- The form of an entry behind the sign that divides it. -/
def ofDivided (entry : Segment) (offset : Nat) (separator : Char) : Checked EntryForm := do
  let value ← sliceFrom entry (offset + 1)
  if value.isEmpty then
    throw ((Cause.entryWithoutValue separator).located (entry.offset + offset))
  else return .valued (← cut entry.text 0 offset).trim value

/-- The form of an entry. -/
def entryForm (entry : Segment) : Checked EntryForm := do
  if entry.isEmpty then throw (Cause.entryEmpty.located entry.offset)
  else if Shape.dots.isPrefixOf entry.text then
    let key := (← cut entry.text Shape.dots.length entry.text.width).trim
    if isIdentifier key then return .rest key
    else
      throw
        (((Cause.restKeyNotBindable key).located entry.offset).withHint .restMustBeIdentifier)
  else
    match ← divider entry with
    | none => return .shorthand entry.text
    | some (offset, separator) => ofDivided entry offset separator

theorem ofDivided_eq {entry : Segment} {offset : Nat} {separator : Char}
    (h : entry.divider = .ok (some (offset, separator))) :
    ofDivided entry offset separator = of (EntryForm.ofDivided entry offset separator) := by
  obtain ⟨found, hfirst, hsome⟩ := find?_of_divider h
  cases found with
  | none => cases hsome
  | some v =>
    obtain ⟨rfl, rfl⟩ := Prod.mk.inj (Option.some.inj hsome)
    have hfind := firstVisit_eq_some_iff.1 hfirst
    have hsize : v.char.utf8Size = 1 := by
      rcases sign_of_divider h with hchar | hchar <;> rw [hchar] <;> rfl
    have hsign := isSignAt_of_mem_visits (List.mem_of_find?_eq_some hfind) hsize
    unfold ofDivided EntryForm.ofDivided
    rw [sliceFrom_eq hsign.2]
    have hkey : cut entry.text 0 v.offset = pure (entry.text.takeBytes v.offset) := by
      rw [cut_of_isBoundary (Nat.zero_le _) (Text.isBoundary_zero _) hsign.1]
      simp [Text.slice]
    rw [hkey]
    dsimp only
    cases hvalue : (entry.sliceFrom (v.offset + 1)).isEmpty <;> simp only [pure_bind, hvalue]
    · rfl
    · rfl

theorem entryForm_eq (entry : Segment) : entryForm entry = of (EntryForm.ofSegment entry) := by
  unfold entryForm EntryForm.ofSegment
  split
  · rfl
  · cases hdots : Shape.dots.isPrefixOf entry.text with
    | true =>
      obtain ⟨operand, hoperand⟩ := List.isPrefixOf_iff_prefix.1 hdots
      have hcut : cut entry.text Shape.dots.length entry.text.width = pure operand :=
        cut_to_end hoperand.symm rfl
      rw [if_pos rfl, hcut, pure_bind, Text.afterPrefix?_eq_some_iff.2 hoperand.symm]
      dsimp only
      split <;> rfl
    | false =>
      rw [if_neg Bool.false_ne_true, Text.afterPrefix?_eq_none_iff.2 hdots, divider_eq]
      cases hdivider : entry.divider with
      | error fault => rfl
      | ok found =>
        cases found with
        | none => rfl
        | some place => exact ofDivided_eq hdivider

/-! ## Patterns -/

/-- The reader with checked cuts gives what the other one gives: none of its
cuts is refused. -/
def IsCheckedBy {α : Type} (checked : Segment → Checked α) (read : Segment → Except Fault α) :
    Prop :=
  ∀ s, checked s = of (read s)

section

variable (read : Segment → Checked Shape)

/-- An element of an array pattern, where `read` reads the next level. -/
def readItem (element : Segment) : Checked Shape :=
  if element.isEmpty then return .hole else read element

/-- An entry of an object pattern, where `read` reads the next level. -/
def readEntry (entry : Segment) : Checked Entry := do
  match ← entryForm entry with
  | .rest key => return .valued key (← read entry)
  | .shorthand key => return .shorthand key
  | .valued key value =>
    let shape ← read value
    if key.isEmpty then throw (Cause.entryWithoutKey.located entry.offset)
    return .valued key shape

/-- What three dots stand before, where `read` reads the next level. -/
def readSpread (token : Segment) : Checked Shape := do
  let operand ← sliceFrom token Shape.dots.length
  if operand.isEmpty then throw (Cause.spreadWithoutOperand.located token.offset)
  else return .spread (← read operand)

/-- A token as a shape, where `read` reads the next level. -/
def readToken (token : Segment) : Checked Shape := do
  match ← of (tokenClass token) with
  | .object => return .mapping (← (← elements (← interior token)).mapM (readEntry read))
  | .array => return .sequence (← (← elements (← interior token)).mapM (readItem read))
  | .spread => readSpread read token
  | .leaf => ofLeaf token.text

end

/-- A token as a shape, with room for this many levels of the `limit` and the
one above it. -/
def shapeWithin (limit : Nat) : Nat → Segment → Checked Shape
  | 0, token =>
    throw (((Cause.nestingTooDeep limit).located token.offset).withHint .raiseMaxDepth)
  | room + 1, token => readToken (shapeWithin limit room) token

section

variable {checked : Segment → Checked Shape} {read : Segment → Except Fault Shape}

theorem interior_eq {opener : Char} {token : Segment} (h : IsGroup opener token.text) :
    interior token = pure token.interior := by
  obtain ⟨closer, inner, hopener, -, htext⟩ := h
  have hsize := utf8Size_of_closerOf? hopener
  have hcloser := utf8Size_of_isCloser (isCloser_of_closerOf? hopener)
  have hwidth : token.text.width - 1 = 1 + inner.width := by
    rw [htext]
    simp [hsize, hcloser]
    omega
  have hfirst : token.text.IsBoundary 1 :=
    ⟨[opener], inner ++ [closer], htext, by simp [hsize]⟩
  have hlast : token.text.IsBoundary (1 + inner.width) :=
    ⟨opener :: inner, [closer], htext, by simp [hsize]⟩
  rw [interior, Segment.interior, hwidth]
  exact slice_eq (Nat.le_add_right _ _) hfirst hlast

theorem readItem_isCheckedBy (hread : IsCheckedBy checked read) :
    IsCheckedBy (readItem checked) (CallSignature.readItem read) := by
  intro element
  unfold readItem CallSignature.readItem
  split
  · rfl
  · exact hread element

theorem readEntry_isCheckedBy (hread : IsCheckedBy checked read) :
    IsCheckedBy (readEntry checked) (CallSignature.readEntry read) := by
  intro entry
  unfold readEntry CallSignature.readEntry
  rw [entryForm_eq]
  refine of_bind fun form _ => ?_
  cases form with
  | rest key =>
    dsimp only
    rw [hread]
    exact of_bind fun _ _ => rfl
  | shorthand key => rfl
  | valued key value =>
    dsimp only
    rw [hread]
    refine of_bind fun shape _ => ?_
    cases key.isEmpty <;> rfl

theorem readSpread_eq (hread : IsCheckedBy checked read) {token : Segment}
    (h : Shape.dots.isPrefixOf token.text = true) :
    readSpread checked token = of (CallSignature.readSpread read token) := by
  obtain ⟨operand, hoperand⟩ := List.isPrefixOf_iff_prefix.1 h
  have hbehind : token.text.IsBoundary Shape.dots.length :=
    ⟨Shape.dots, operand, hoperand.symm, rfl⟩
  rw [readSpread, sliceFrom_eq hbehind, CallSignature.readSpread]
  show (if (token.sliceFrom 3).isEmpty then _ else _) = _
  split
  · rfl
  · rw [hread]
    exact of_map _ _

/-- A list inside a token, whose members are read by themselves. -/
theorem mapM_elements_eq {α : Type} {checked : Segment → Checked α}
    {read : Segment → Except Fault α} (hread : IsCheckedBy checked read) (list : Segment) :
    (elements list >>= fun parts => parts.mapM checked)
      = of (list.elements >>= fun parts => parts.mapM read) := by
  rw [elements_eq]
  exact of_bind fun parts _ => mapM_of fun part _ => hread part

theorem readToken_isCheckedBy (hread : IsCheckedBy checked read) :
    IsCheckedBy (readToken checked) (CallSignature.readToken read) := by
  intro token
  refine of_bind fun found hfound => ?_
  have hclass := describes_of_tokenClass hfound
  cases found with
  | object =>
    simp only [interior_eq hclass, pure_bind, ← bind_assoc]
    rw [mapM_elements_eq (readEntry_isCheckedBy hread)]
    exact of_bind fun _ _ => rfl
  | array =>
    simp only [interior_eq hclass, pure_bind, ← bind_assoc]
    rw [mapM_elements_eq (readItem_isCheckedBy hread)]
    exact of_bind fun _ _ => rfl
  | spread => exact readSpread_eq hread hclass
  | leaf => exact ofLeaf_eq token.text

end

theorem shapeWithin_isCheckedBy (limit room : Nat) :
    IsCheckedBy (shapeWithin limit room) (CallSignature.shapeWithin limit room) := by
  induction room with
  | zero => exact fun token => rfl
  | succ room ih => exact readToken_isCheckedBy ih

/-! ## Parameters -/

/-- The parameter that a segment without comments declares. -/
def parameter (options : Options) (segment : Segment) : Checked Parameter := do
  let (binding, default?) ← bindingAndDefault segment
  of (checkParts binding default?)
  let shape ← shapeWithin options.maxDepth (options.maxDepth + 1) binding
  let name ← of (parameterName binding shape)
  of (checkRest shape default?)
  return { name, shape, defaultSource := default?.map (·.text) }

/-- The parameters that a list declares, comments included. -/
def parameters (options : Options) (list : Text) : Checked (List Parameter) := do
  let clean ← of (withoutComments list)
  (← elements (Segment.ofText clean)).mapM (parameter options)

theorem parameter_isCheckedBy (options : Options) :
    IsCheckedBy (parameter options) options.parameter := by
  intro segment
  rw [parameter, bindingAndDefault_eq]
  refine of_bind fun (binding, default?) _ => ?_
  refine of_bind fun _ _ => ?_
  rw [shapeWithin_isCheckedBy]
  exact of_bind fun shape _ => of_bind fun name _ => of_bind fun _ _ => rfl

theorem parameters_eq (options : Options) (list : Text) :
    parameters options list = of (options.parameters list) :=
  of_bind fun _ _ => mapM_elements_eq (parameter_isCheckedBy options) _

end Checked

end CallSignature
