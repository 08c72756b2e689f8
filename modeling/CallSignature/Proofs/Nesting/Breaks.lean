/-
CallSignature.Proofs.Nesting.Breaks — where a text is broken.

A tracker that has got through a text remembers it well: the text is a row of
orderly parts, with the bracket of an open group between any two of them, and
behind them the literal that is open, if one is (`Remembers`).  One step keeps
this (`Remembers.step`), and so a survey ends, if it ends with a fault, in one
of four ways (`Breaks`), each of which says what stands where in the text.

The fault of a closing bracket that does not match names the closer of the
bracket that stands at the place in the hint, and what lies between the two is
orderly: no other group is open there.
-/
import CallSignature.Proofs.Nesting.Whole
import CallSignature.Proofs.Success
import CallSignature.Proofs.Text.Edges

namespace CallSignature

open Tracker Unicode

/-! ## What is open behind a text -/

/-- Behind the text, which ends outside its literals, these groups are open. -/
inductive LeavesOpen : Text → List OpenGroup → Prop
  | none {a : Text} (ha : Orderly a) : LeavesOpen a []
  | group {a m : Text} {opener closer : Char} {outer : List OpenGroup}
      (ha : LeavesOpen a outer) (hopener : closerOf? opener = some closer) (hm : Orderly m) :
      LeavesOpen (a ++ opener :: m) (⟨closer, a.width⟩ :: outer)

theorem LeavesOpen.append {a b : Text} {groups : List OpenGroup} (h : LeavesOpen a groups)
    (hb : Orderly b) : LeavesOpen (a ++ b) groups := by
  cases h with
  | none ha => exact .none (ha.append hb)
  | group ha hopener hm =>
    rw [List.append_assoc]
    exact .group ha hopener (hm.append hb)

namespace Tracker

/-- The tracker stands behind the text: its groups are open there, and if it is
inside a literal, that literal is. -/
def Remembers (a : Text) : Tracker → Prop
  | ⟨groups, .outside⟩ => LeavesOpen a groups
  | ⟨groups, .inside quote openedAt escaped⟩ =>
    ∃ before words : Text, a = before ++ quote :: words ∧ before.width = openedAt ∧
      isQuote quote = true ∧ LeavesOpen before groups ∧
      Passage {} 0 (quote :: words) [] ⟨[], .inside quote 0 escaped⟩

theorem remembers_empty : Remembers [] {} :=
  LeavesOpen.none orderly_nil

variable {a b : Text} {t next : Tracker} {c : Char} {s : Sighting} {fault : Fault}

/-- A literal that is open goes on, or it ends and is an orderly part. -/
theorem remembers_step_inside {groups : List OpenGroup} {quote : Char} {openedAt : Nat}
    {escaped : Bool} (h : Remembers a ⟨groups, .inside quote openedAt escaped⟩) (offset : Nat)
    (c : Char) :
    Remembers (a ++ [c])
      ⟨groups, (QuoteState.inside quote openedAt escaped).step offset c⟩ := by
  obtain ⟨before, words, rfl, rfl, hquote, hbefore, hpass⟩ := h
  have hliteral : Passage {} 0 (quote :: words ++ [c]) []
      ⟨[], (QuoteState.inside quote 0 escaped).step (0 + Text.width (quote :: words)) c⟩ :=
    hpass.append (Passage.singleton (.literal rfl))
  have htext : before ++ quote :: words ++ [c] = before ++ (quote :: words ++ [c]) := by simp
  -- where the literal began does not matter for the step
  by_cases hescaped : escaped = true
  · simp only [QuoteState.step, if_pos hescaped] at hliteral ⊢
    exact ⟨before, words ++ [c], by simp, rfl, hquote, hbefore, hliteral⟩
  · by_cases hback : c = '\\'
    · simp only [QuoteState.step, if_neg hescaped, if_pos hback] at hliteral ⊢
      exact ⟨before, words ++ [c], by simp, rfl, hquote, hbefore, hliteral⟩
    · by_cases hclose : c = quote
      · simp only [QuoteState.step, if_neg hescaped, if_neg hback, if_pos hclose] at hliteral ⊢
        rw [htext]
        exact hbefore.append (orderly_iff_passage.2 hliteral).1
      · simp only [QuoteState.step, if_neg hescaped, if_neg hback, if_neg hclose] at hliteral ⊢
        exact ⟨before, words ++ [c], by simp, rfl, hquote, hbefore, hliteral⟩

theorem Remembers.step (h : Remembers a t) (hsees : Sees a.width c t next s) :
    Remembers (a ++ [c]) next := by
  cases hsees with
  | @literal groups quotes hcovers =>
    cases quotes with
    | inside quote openedAt escaped => exact remembers_step_inside h a.width c
    | outside =>
      have hquote : isQuote c = true := hcovers
      have hopen : Sees 0 c {} ⟨[], .inside c 0 false⟩ .literal := by
        have := @Sees.literal 0 c [] .outside hquote
        rwa [QuoteState.step, if_pos hquote] at this
      rw [QuoteState.step, if_pos hquote]
      exact ⟨a, [], rfl, rfl, hquote, h, Passage.singleton hopen⟩
  | opener hopener => exact LeavesOpen.group h hopener orderly_nil
  | closer hcloser =>
    have h : LeavesOpen a (⟨c, _⟩ :: _) := h
    cases h with
    | @group a m opener _ outer ha hopener hm =>
      rw [List.append_assoc]
      exact LeavesOpen.append ha (hm.group hopener)
  | plain hplain => exact LeavesOpen.append h (orderly_singleton hplain).1

end Tracker

/-! ## The four breaks -/

/-- The text is broken in one of four ways, and this is the fault. -/
inductive Breaks (t : Text) : Fault → Prop
  /-- A closing bracket stands outside all groups. -/
  | unmatched {a b : Text} {found : Char} (ht : t = a ++ found :: b)
      (hfound : isCloser found = true) (ha : Orderly a) :
      Breaks t (((Cause.closerUnmatched found).located a.width).withHint .checkBrackets)
  /-- A closing bracket stands where the innermost open group needs another. -/
  | mismatch {a m b : Text} {opener expected found : Char}
      (ht : t = a ++ opener :: m ++ found :: b) (hopener : closerOf? opener = some expected)
      (hm : Orderly m) (hfound : isCloser found = true) (hne : expected ≠ found) :
      Breaks t (((Cause.closerMismatch expected found).located
        (Text.width (a ++ opener :: m))).withHint (.groupNeverClosed a.width))
  /-- A literal is open at the end. -/
  | literal {a b : Text} {quote : Char} (ht : t = a ++ quote :: b)
      (hquote : isQuote quote = true) :
      Breaks t ((Cause.literalUnterminated quote).located a.width)
  /-- A group is open at the end. -/
  | unclosed {a m : Text} {opener expected : Char} (ht : t = a ++ opener :: m)
      (hopener : closerOf? opener = some expected) (hm : Orderly m) :
      Breaks t ((Cause.groupUnclosed expected).located a.width)

section

variable {a b : Text} {t next : Tracker} {c : Char} {fault : Fault}

theorem Tracker.Remembers.breaks_of_close (h : Remembers a t) (hquotes : t.quotes = .outside)
    (hcloser : isCloser c = true) (hclose : t.close a.width c = (next, .error fault))
    (b : Text) : Breaks (a ++ c :: b) fault := by
  obtain ⟨groups, quotes⟩ := t
  obtain rfl : quotes = .outside := hquotes
  have h : LeavesOpen a groups := h
  unfold Tracker.close at hclose
  cases h with
  | none ha =>
    obtain ⟨-, hfault⟩ := Prod.mk.inj hclose
    rw [← Except.error.inj hfault]
    exact .unmatched rfl hcloser ha
  | @group a m opener closer outer ha hopener hm =>
    dsimp only at hclose
    split at hclose
    · cases hclose
    · rename_i hne
      obtain ⟨-, hfault⟩ := Prod.mk.inj hclose
      rw [← Except.error.inj hfault]
      exact .mismatch rfl hopener hm hcloser hne

theorem Tracker.Remembers.breaks_of_feed (h : Remembers a t)
    (hfeed : t.feed a.width c = (next, .error fault)) (b : Text) :
    Breaks (a ++ c :: b) fault := by
  unfold Tracker.feed at hfeed
  split at hfeed
  · cases hfeed
  · rename_i hcovers
    obtain ⟨hquotes, -⟩ := QuoteState.eq_outside_of_covers (Bool.eq_false_iff.2 hcovers)
    split at hfeed
    · cases hfeed
    · split at hfeed
      · rename_i hcloser
        exact h.breaks_of_close hquotes hcloser hfeed b
      · cases hfeed

theorem Tracker.Remembers.breaks_of_unfinished? (h : Remembers a t)
    (hfault : t.unfinished? = some fault) : Breaks a fault := by
  obtain ⟨groups, quotes⟩ := t
  cases quotes with
  | inside quote openedAt escaped =>
    obtain ⟨before, words, rfl, rfl, hquote, -, -⟩ := h
    rw [← Option.some.inj hfault]
    exact .literal rfl hquote
  | outside =>
    have h : LeavesOpen a groups := h
    cases h with
    | none ha => cases hfault
    | group ha hopener hm =>
      rw [← Option.some.inj hfault]
      exact .unclosed rfl hopener hm

/-- A survey that goes on behind a text it remembers ends with a break of the
whole: the induction is on what is left to survey. -/
theorem Tracker.Remembers.breaks_of_surveyFrom (h : Remembers a t)
    (hfault : (surveyFrom t a.width b).fault = some fault) : Breaks (a ++ b) fault := by
  induction b generalizing a t with
  | nil =>
    rw [List.append_nil]
    exact h.breaks_of_unfinished? hfault
  | cons c b ih =>
    have hwidth : a.width + c.utf8Size = Text.width (a ++ [c]) := by simp
    have htext : a ++ c :: b = (a ++ [c]) ++ b := by simp
    unfold surveyFrom at hfault
    split at hfault
    · rename_i found hfeed
      obtain rfl := Option.some.inj hfault
      exact h.breaks_of_feed hfeed b
    · rename_i next hfeed
      rw [hwidth] at hfault
      rw [htext]
      exact ih (h.step (sees_of_feed hfeed)) hfault
    · rename_i next depth hfeed
      dsimp only at hfault
      rw [hwidth] at hfault
      rw [htext]
      exact ih (h.step (sees_of_feed hfeed)) hfault

end

section

variable {t : Text} {fault : Fault}

theorem breaks_of_survey (h : (survey t).fault = some fault) : Breaks t fault := by
  have hbreaks := @Tracker.Remembers.breaks_of_surveyFrom [] t {} fault remembers_empty
  rw [List.nil_append] at hbreaks
  exact hbreaks h

theorem breaks_of_scan (t : Text) : FaultsSatisfy (Breaks t) (scan t) := by
  unfold scan
  split
  · exact .ok _
  · rename_i fault hsurvey
    exact .error (breaks_of_survey (by rw [hsurvey]))

theorem breaks_of_firstVisit (p : Visit → Bool) (t : Text) :
    FaultsSatisfy (Breaks t) (firstVisit p t) := by
  intro found hfound
  rcases hsurvey : survey t with ⟨visits, fault⟩
  simp only [firstVisit, hsurvey] at hfound
  split at hfound
  · cases hfound
  · cases hfound
  · rw [← Except.error.inj hfound]
    exact breaks_of_survey (by rw [hsurvey])

/-- The group that a text begins with has an end unless the text is broken. -/
theorem breaks_of_closingBracket {opener closer : Char}
    (hopener : closerOf? opener = some closer) (rest : Text) :
    FaultsSatisfy (Breaks (opener :: rest)) (closingBracket (opener :: rest)) := by
  intro fault hfault
  cases hfirst : firstVisit (fun v => decide (0 < v.offset) && v.closesGroup)
    (opener :: rest) with
  | error found =>
    simp only [closingBracket, hfirst] at hfault
    rw [← Except.error.inj hfault]
    exact breaks_of_firstVisit _ _ found hfirst
  | ok found =>
    cases found with
    | some visit =>
      simp only [closingBracket, hfirst] at hfault
      cases hfault
    | none =>
      -- an orderly text closes the group that it begins with
      obtain ⟨inner, behind, rfl, hinner⟩ :=
        exists_closer_of_orderly hopener (firstVisit_eq_none_iff.1 hfirst).1
      rw [(closingBracket_eq_ok_iff hopener).2 ⟨inner, behind, rfl, hinner, rfl⟩] at hfault
      cases hfault

end

/-! ## Places of breaks -/

theorem isWhiteSpace_of_not_isPlain {c : Char} (h : isPlain c = false) :
    isWhiteSpace c = false := by
  refine Bool.eq_false_iff.2 fun hspace => ?_
  rw [isPlain_of_isWhiteSpace hspace] at h
  cases h

theorem isWhiteSpace_of_isQuote {c : Char} (h : isQuote c = true) : isWhiteSpace c = false :=
  isWhiteSpace_of_not_isPlain (by simp [isPlain, h])

theorem isWhiteSpace_of_isCloser {c : Char} (h : isCloser c = true) : isWhiteSpace c = false :=
  isWhiteSpace_of_not_isPlain (by simp [isPlain, h])

theorem isWhiteSpace_of_closerOf? {c closer : Char} (h : closerOf? c = some closer) :
    isWhiteSpace c = false :=
  isWhiteSpace_of_not_isPlain (by simp [isPlain, h])

/-- A break is reported at the bracket or the quote that makes it one. -/
theorem Breaks.exists_visible {t : Text} {fault : Fault} (h : Breaks t fault) :
    ∃ (a : Text) (c : Char) (b : Text), t = a ++ c :: b ∧ isWhiteSpace c = false ∧
      fault.offset = some a.width := by
  cases h with
  | unmatched ht hfound ha => exact ⟨_, _, _, ht, isWhiteSpace_of_isCloser hfound, rfl⟩
  | mismatch ht hopener hm hfound hne =>
    exact ⟨_, _, _, ht, isWhiteSpace_of_isCloser hfound, rfl⟩
  | literal ht hquote => exact ⟨_, _, _, ht, isWhiteSpace_of_isQuote hquote, rfl⟩
  | unclosed ht hopener hm => exact ⟨_, _, _, ht, isWhiteSpace_of_closerOf? hopener, rfl⟩

/-- Only a bracket that does not match is put down to a group. -/
theorem Breaks.eq_closerMismatch {t : Text} {fault : Fault} {openedAt : Nat}
    (h : Breaks t fault) (hhint : fault.hint = some (.groupNeverClosed openedAt)) :
    ∃ expected found, fault.cause = .closerMismatch expected found := by
  cases h with
  | mismatch => exact ⟨_, _, rfl⟩
  | unmatched | literal | unclosed => cases hhint

end CallSignature
