/-
CallSignature.Proofs.Checked.Heads — heads are cut at boundaries.

A cursor stands at a boundary of its source, and so does every cursor that it
steps to: what lies between two such cursors is a text that can be cut out.
Where a head is cut elsewhere, it is cut beside a bracket or a quote, behind
which the rest has been read already.
-/
import CallSignature.Declaration
import CallSignature.Proofs.Checked.Cuts
import CallSignature.Proofs.Head.Lists
import CallSignature.Proofs.Literal.Body

namespace CallSignature

open Cursor Unicode

namespace Checked

/-! ## Steps of the cursor -/

/-- What has not been read. -/
def rest (c : Cursor) : Checked Text :=
  cut c.text c.offset c.text.width

/-- The cursor behind the text, if the source goes on with it. -/
def matchText (expected : Text) (c : Cursor) : Checked (Option Cursor) := do
  if expected.isPrefixOf (← rest c) then return some (c.advance expected.length)
  else return none

/-- Whether the source goes on with the word and the word ends there. -/
def startsWithWord (word : Text) (c : Cursor) : Checked Bool := do
  let ahead ← rest c
  if word.isPrefixOf ahead then
    return !(← cut ahead word.width ahead.width).head?.any isNameContinue
  else return false

/-- The cursor behind the word, if the source goes on with it and the word
ends there. -/
def matchWord (word : Text) (c : Cursor) : Checked (Option Cursor) := do
  if ← startsWithWord word c then return some (c.advance word.length) else return none

/-- The readable name the cursor stands before, cut out of the source, and the
cursor behind it. -/
def identifier (c : Cursor) : Checked (Option (Text × Cursor)) :=
  match c.identifier with
  | none => return none
  | some (_, next) => return some (← cut c.text c.offset next.offset, next)

section

variable {a b : Text} {c d : Cursor}

/-- What the source goes on with. -/
theorem cut_ahead (h : c.rest = a ++ b) :
    cut c.text c.offset (c.offset + a.width) = pure a := by
  have hoffset : c.offset = Text.width c.behind.reverse := (Text.width_reverse _).symm
  exact cut_of_eq (b := b) (by rw [text, h, List.append_assoc]) hoffset (by rw [hoffset])

theorem cut_of_passes (h : Passes a c d) : cut c.text c.offset d.offset = pure a := by
  rw [h.offset, cut_ahead h.rest]

theorem rest_eq (c : Cursor) : rest c = pure c.rest :=
  cut_to_end rfl (Text.width_reverse _).symm

theorem matchText_eq (expected : Text) (c : Cursor) :
    matchText expected c = pure (c.matchText expected) := by
  rw [matchText, rest_eq, pure_bind, Cursor.matchText]
  split <;> rfl

theorem startsWithWord_eq (word : Text) (c : Cursor) :
    startsWithWord word c = pure (c.startsWithWord word) := by
  rw [startsWithWord, rest_eq, pure_bind, Cursor.startsWithWord]
  cases hbegins : word.isPrefixOf c.rest with
  | false => rfl
  | true =>
    obtain ⟨behind, hrest⟩ := List.isPrefixOf_iff_prefix.1 hbegins
    rw [if_pos rfl, cut_to_end hrest.symm rfl, ← hrest, List.drop_left]
    rfl

theorem matchWord_eq (word : Text) (c : Cursor) :
    matchWord word c = pure (c.matchWord word) := by
  rw [matchWord, startsWithWord_eq, pure_bind, Cursor.matchWord]
  split <;> rfl

theorem identifier_eq (c : Cursor) : identifier c = pure c.identifier := by
  unfold identifier
  split
  · rename_i hnone
    rw [hnone]
  · rename_i name next hsome
    rw [cut_of_passes (identifier_eq_some hsome).2, hsome]
    rfl

end

/-! ## Groups -/

/-- How far the closing bracket is from the opening one, which stands at byte
`opener`. -/
def closerDistance (source : Text) (opener : Nat) : Checked Nat := do
  of (CallSignature.closerDistance opener (← cut source opener source.width))

/-- The parameter list in parentheses before which the cursor stands, and the
cursor behind it. -/
def parameterList (c : Cursor) : Checked (ParameterList × Cursor) := do
  if c.peek = '(' then
    let last ← closerDistance c.text c.offset
    let list ← cut c.text (c.offset + 1) (c.offset + last)
    return (⟨list, c.offset + 1⟩, c.seek (c.offset + last + 1))
  else throw ((Cause.parameterListExpected.located c.offset).withHint .expectCallable)

section

theorem closerDistance_append (a b : Text) :
    closerDistance (a ++ b) a.width = of (CallSignature.closerDistance a.width b) := by
  rw [closerDistance, cut_to_end rfl rfl]
  rfl

theorem closerDistance_eq (c : Cursor) :
    closerDistance c.text c.offset = of (CallSignature.closerDistance c.offset c.rest) := by
  have happend := closerDistance_append c.behind.reverse c.rest
  rwa [Text.width_reverse] at happend

theorem parameterList_eq (c : Cursor) : parameterList c = of (ParameterList.ofCursor c) := by
  unfold parameterList ParameterList.ofCursor
  split
  · rename_i hpeek
    obtain ⟨rest, hrest⟩ := rest_of_peek hpeek (by decide)
    rw [closerDistance_eq]
    cases hlast : CallSignature.closerDistance c.offset c.rest with
    | error fault => rfl
    | ok last =>
      rw [hrest] at hlast
      obtain ⟨inner, behind, rfl, -, rfl⟩ := (closerDistance_eq_ok_iff closerOf?_round).1 hlast
      have hcut := cut_inner (x := '(') rfl c.behind.reverse inner (')' :: behind)
      rw [Text.width_reverse, ← hrest] at hcut
      change cut c.text (c.offset + 1) (c.offset + (1 + inner.width)) = pure inner at hcut
      dsimp only
      rw [of_ok, pure_bind, hcut, hrest, slice_group]
      rfl
  · rfl

end

/-! ## Arrows -/

/-- The difference of two numbers, if it is none below zero. -/
def difference (a b : Nat) : Checked Nat :=
  ExceptT.lift (if b ≤ a then some (a - b) else none)

/-- The parameters of an arrow: a list in parentheses or one bare name, which
ends where the cursor behind it stands. -/
def arrowList (c : Cursor) : Checked (Option (ParameterList × Cursor)) := do
  if c.peek = '(' then return some (← parameterList c)
  else
    match ← identifier c with
    | none => return none
    | some (name, next) => return some (⟨name, ← difference next.offset name.width⟩, next)

/-- The head of an arrow function, up to and including the arrow, and the
cursor behind it. -/
def arrow (isAsync : Bool) (c : Cursor) : Checked (Option Head × Cursor) := do
  match ← arrowList c with
  | none => return (none, c)
  | some (parameters, next) =>
    match ← matchText ['=', '>'] next.skipWhiteSpace with
    | some behind => return (some { form := { isAsync, isArrow := true }, parameters }, behind)
    | none => return (none, next.seek c.offset)

/-- The head of an arrow function behind the word `async`. -/
def asyncArrow (c : Cursor) : Checked (Option Head) := do
  match ← matchWord "async".toList c with
  | none => return none
  | some next => return (← arrow true next.skipWhiteSpace).1

section

theorem difference_add (a b : Nat) : difference (a + b) b = pure a := by
  rw [difference, if_pos (Nat.le_add_left b a), Nat.add_sub_cancel]
  rfl

theorem arrowList_eq (c : Cursor) : arrowList c = of (ParameterList.ofArrow c) := by
  unfold arrowList ParameterList.ofArrow
  split
  · rw [parameterList_eq]
    exact of_map _ _
  · rw [identifier_eq, pure_bind]
    cases hname : c.identifier with
    | none => rfl
    | some found =>
      obtain ⟨name, next⟩ := found
      dsimp only
      rw [(identifier_eq_some hname).2.offset, difference_add]
      rfl

theorem arrow_eq (isAsync : Bool) (c : Cursor) :
    arrow isAsync c = of (Head.arrow isAsync c) := by
  rw [arrow, arrowList_eq, Head.arrow]
  cases ParameterList.ofArrow c with
  | error fault => rfl
  | ok found =>
    cases found with
    | none => rfl
    | some list =>
      show (matchText ['=', '>'] list.2.skipWhiteSpace >>= _) = _
      rw [matchText_eq, pure_bind]
      dsimp only
      cases list.2.skipWhiteSpace.matchText ['=', '>'] <;> rfl

theorem asyncArrow_eq (c : Cursor) : asyncArrow c = of (Head.asyncArrow c) := by
  rw [asyncArrow, matchWord_eq, pure_bind, Head.asyncArrow]
  cases c.matchWord "async".toList with
  | none => rfl
  | some next =>
    dsimp only
    rw [arrow_eq]
    exact of_map _ _

end

/-! ## Functions and methods -/

/-- Whether the modifiers before which the cursor stands include `async`, and
the cursor behind them.  A word is cut out before it is judged. -/
def modifiers (isAsync : Bool) (c : Cursor) : Checked (Bool × Cursor) :=
  match _ : c.identifier with
  | none => return (isAsync, c)
  | some (_, next) => do
    let word ← cut c.text c.offset next.offset
    if isMemberModifier word && !endsName next.skipWhiteSpace.peek then
      modifiers (isAsync || word == "async".toList) next.skipWhiteSpace
    else return (isAsync, c)
termination_by c.rest.length
decreasing_by
  exact Nat.lt_of_le_of_lt (rest_skipWhile_le _ _) (rest_lt_of_identifier (by assumption))

/-- The head of a function behind the word `function`. -/
def function (isAsync : Bool) (c : Cursor) : Checked Head := do
  let (isGenerator, c) := generatorMark c
  let (name, c) := (← identifier c).getD ([], c)
  let (parameters, _) ← parameterList c.skipWhiteSpace
  return { name, form := { isAsync, isGenerator }, parameters }

/-- The name of a method, and the cursor behind it.  A quoted name is cut out
with its quotes first. -/
def memberName (c : Cursor) : Checked (Text × Cursor) := do
  match ← identifier c with
  | some found => return found
  | none =>
    if c.peek = '[' then
      let last ← closerDistance c.text c.offset
      let name ← cut c.text c.offset (c.offset + last + 1)
      return (name, c.seek (c.offset + last + 1))
    else if c.peek = '\'' ∨ c.peek = '"' then
      match closingQuote (← rest c) with
      | some last =>
        let quoted ← cut c.text c.offset (c.offset + last + 1)
        let name ← cut quoted 1 (quoted.width - 1)
        return (name, c.seek (c.offset + last + 1))
      | none => throw (headFault c)
    else throw (headFault c)

/-- The head of a method, up to and including the bracket that opens its
body. -/
def method (isAsync : Bool) (c : Cursor) : Checked Head := do
  let (isGenerator, c) := generatorMark c
  let (name, c) ← memberName c
  let (parameters, c) ← parameterList c.skipWhiteSpace
  if c.skipWhiteSpace.peek ≠ '{' then throw (headFault c.skipWhiteSpace)
  return { name, form := { isAsync, isGenerator }, parameters }

/-- The head of a function or a method, with its modifiers. -/
def member (c : Cursor) : Checked Head := do
  let (isAsync, c) ← modifiers false c
  match ← matchWord "function".toList c with
  | some next => function isAsync next.skipWhiteSpace
  | none => method isAsync c

/-- The head of a callable that is no class. -/
def head (c : Cursor) : Checked Head := do
  match (← arrow false c).1 with
  | some head => return head
  | none =>
    match ← asyncArrow c with
    | some head => return head
    | none => member c

section

variable {c : Cursor}

theorem modifiers_eq (isAsync : Bool) (c : Cursor) :
    modifiers isAsync c = pure (CallSignature.modifiers isAsync c) := by
  fun_induction CallSignature.modifiers isAsync c with
  | case1 isAsync c hnone =>
    unfold modifiers
    split
    · rfl
    · simp_all
  | case2 isAsync c word next hsome hmore ih =>
    unfold modifiers
    split
    · simp_all
    · rename_i found
      obtain ⟨rfl, rfl⟩ := Prod.mk.inj (Option.some.inj (hsome.symm.trans found))
      rw [cut_of_passes (identifier_eq_some hsome).2, pure_bind, if_pos hmore, ih]
  | case3 isAsync c word next hsome hmore =>
    unfold modifiers
    split
    · rfl
    · rename_i found
      obtain ⟨rfl, rfl⟩ := Prod.mk.inj (Option.some.inj (hsome.symm.trans found))
      rw [cut_of_passes (identifier_eq_some hsome).2, pure_bind, if_neg hmore]

theorem function_eq (isAsync : Bool) (c : Cursor) :
    function isAsync c = of (Head.function isAsync c) := by
  simp only [function, identifier_eq, pure_bind, parameterList_eq]
  exact of_bind fun _ _ => rfl

/-- A computed name with its brackets. -/
theorem computedName_eq {inner behind : Text}
    (hrest : c.rest = '[' :: (inner ++ ']' :: behind)) :
    cut c.text c.offset (c.offset + (1 + inner.width + 1))
      = pure (c.rest.slice 0 (1 + inner.width + 1)) := by
  have hname : c.rest = ('[' :: inner ++ [']']) ++ behind := by simp [hrest]
  have hcut := cut_ahead hname
  rw [width_group closerOf?_square] at hcut
  rw [hcut, hrest, slice_computedName]

/-- A quoted name, cut out with its quotes and then without them. -/
theorem quotedName_eq {quote : Char} (hquote : isQuote quote = true) {words behind : Text}
    (hrest : c.rest = quote :: (words ++ quote :: behind)) :
    (cut c.text c.offset (c.offset + (1 + words.width + 1))
        >>= fun quoted => cut quoted 1 (quoted.width - 1))
      = pure (c.rest.slice 1 (1 + words.width)) := by
  have hquoted : c.rest = (quote :: words ++ [quote]) ++ behind := by simp [hrest]
  have hwidth : Text.width (quote :: words ++ [quote]) = 1 + words.width + 1 := by
    simp [utf8Size_of_isQuote hquote, Nat.add_assoc]
  have hcut := cut_ahead hquoted
  rw [hwidth] at hcut
  rw [hcut, pure_bind, hwidth, Nat.add_sub_cancel, hrest, slice_literal hquote]
  simpa using cut_inner (utf8Size_of_isQuote hquote) [] words [quote]

theorem memberName_eq (c : Cursor) : memberName c = of (CallSignature.memberName c) := by
  unfold memberName CallSignature.memberName
  rw [identifier_eq, pure_bind]
  cases c.identifier with
  | some found => rfl
  | none =>
    dsimp only
    split
    · rename_i hpeek
      obtain ⟨rest, hrest⟩ := rest_of_peek hpeek (by decide)
      rw [closerDistance_eq]
      cases hlast : CallSignature.closerDistance c.offset c.rest with
      | error fault => rfl
      | ok last =>
        rw [hrest] at hlast
        obtain ⟨inner, behind, rfl, -, rfl⟩ :=
          (closerDistance_eq_ok_iff closerOf?_square).1 hlast
        show (cut c.text c.offset (c.offset + (1 + inner.width + 1)) >>= _) = _
        rw [computedName_eq hrest]
        rfl
    · split
      · rw [rest_eq, pure_bind]
        cases hlast : closingQuote c.rest with
        | none => rfl
        | some last =>
          obtain ⟨quote, words, behind, hquote, -, hrest, rfl⟩ :=
            closingQuote_eq_some_iff.1 hlast
          show (cut c.text c.offset (c.offset + (1 + words.width + 1))
            >>= fun quoted => cut quoted 1 (quoted.width - 1) >>= _) = _
          rw [← bind_assoc, quotedName_eq hquote hrest]
          rfl
      · rfl

theorem method_eq (isAsync : Bool) (c : Cursor) :
    method isAsync c = of (Head.method isAsync c) := by
  simp only [method, memberName_eq]
  refine of_bind fun (name, d) _ => ?_
  simp only [parameterList_eq]
  refine of_bind fun (parameters, e) _ => ?_
  dsimp only
  split <;> rfl

theorem member_eq (c : Cursor) : member c = of (Head.member c) := by
  rw [member, modifiers_eq, pure_bind, CallSignature.member_eq]
  dsimp only
  rw [matchWord_eq, pure_bind]
  cases (CallSignature.modifiers false c).2.matchWord "function".toList with
  | some next => exact function_eq _ _
  | none => exact method_eq _ _

theorem head_eq (c : Cursor) : head c = of (Head.ofCursor c) := by
  rw [head, arrow_eq]
  refine of_bind fun found _ => ?_
  cases found.1 with
  | some head => rfl
  | none =>
    dsimp only
    rw [asyncArrow_eq]
    refine of_bind fun found _ => ?_
    cases found with
    | some head => rfl
    | none => exact member_eq c

end

end Checked

end CallSignature
