/-
CallSignature.Proofs.Nesting.Quiet — texts that end outside their literals.

A QUIET text leaves a reader that began outside all literals outside all of
them.  It need not be orderly: its groups may be open.  Everything up to a
character of the code is quiet, and so is every orderly text.
-/
import CallSignature.Proofs.Nesting.Orderly

namespace CallSignature

open Tracker Unicode

namespace QuoteState

/-- The state behind a text that begins at byte `offset`. -/
def after (q : QuoteState) (offset : Nat) : Text → QuoteState
  | [] => q
  | c :: rest => (q.step offset c).after (offset + c.utf8Size) rest

theorem after_append (q : QuoteState) (offset : Nat) (a b : Text) :
    q.after offset (a ++ b) = (q.after offset a).after (offset + a.width) b := by
  induction a generalizing q offset with
  | nil => rfl
  | cons c a ih => rw [List.cons_append, after, ih, after, Text.width_cons, Nat.add_assoc]

theorem after_shifted (q : QuoteState) (base offset : Nat) (a : Text) :
    (q.shifted base).after (offset + base) a = (q.after offset a).shifted base := by
  induction a generalizing q offset with
  | nil => rfl
  | cons c a ih =>
    rw [after, after, step_shifted, Nat.add_right_comm, ih]

end QuoteState

theorem Tracker.Passage.quotes {t last : Tracker} {offset : Nat} {a : Text}
    {visits : List Visit} (h : Passage t offset a visits last) :
    last.quotes = t.quotes.after offset a := by
  induction h with
  | nil => rfl
  | cons head tail ih => rw [ih, head.quotes, QuoteState.after]

/-- A reader that begins the text outside literals ends it outside literals. -/
def Quiet (a : Text) : Prop :=
  QuoteState.outside.after 0 a = .outside

theorem Quiet.after {a : Text} (h : Quiet a) (offset : Nat) :
    QuoteState.outside.after offset a = .outside := by
  have hshift := QuoteState.after_shifted .outside offset 0 a
  rw [show QuoteState.outside.after 0 a = .outside from h, Nat.zero_add] at hshift
  exact hshift

theorem quiet_nil : Quiet [] := rfl

theorem Quiet.append {a b : Text} (ha : Quiet a) (hb : Quiet b) : Quiet (a ++ b) := by
  rw [Quiet, QuoteState.after_append, show QuoteState.outside.after 0 a = .outside from ha]
  exact hb.after _

theorem quiet_singleton {c : Char} (h : isQuote c = false) : Quiet [c] := by
  rw [Quiet, QuoteState.after, QuoteState.step_outside_of_not_isQuote h]
  rfl

theorem quiet_of_lacksQuotes {a : Text} (h : a.any isQuote = false) : Quiet a := by
  induction a with
  | nil => exact quiet_nil
  | cons c a ih =>
    obtain ⟨hc, ha⟩ := Bool.or_eq_false_iff.1 (List.any_cons.symm.trans h)
    exact (quiet_singleton hc).append (ih ha)

theorem quiet_of_isBlank {a : Text} (h : a.isBlank = true) : Quiet a :=
  quiet_of_lacksQuotes <| List.any_eq_false.2 fun c hc => by
    simp [(isPlain_iff.1 (isPlain_of_isWhiteSpace (Text.isBlank_iff.1 h c hc))).1]

theorem Orderly.quiet {a : Text} (h : Orderly a) : Quiet a := by
  have hpass := (orderly_iff_passage.1 ⟨h, rfl⟩).quotes
  exact hpass.symm

/-- What stands in front of a character of the code is quiet. -/
theorem exists_of_mem_visits {t : Text} {v : Visit} (h : v ∈ t.visits) :
    ∃ a b, t = a ++ v.char :: b ∧ v.offset = a.width ∧ Quiet a := by
  obtain ⟨before, behind, hvisits⟩ := List.append_of_mem h
  obtain ⟨a, b, mid, next, ht, hoffset, hpass, hsees, -⟩ := surveyFrom_split hvisits
  refine ⟨a, b, ht, by simpa using hoffset, ?_⟩
  have hmid : mid.quotes = .outside := by
    generalize hs : Sighting.code v.depth = s at hsees
    cases hsees with
    | literal => cases hs
    | opener => rfl
    | closer => rfl
    | plain => rfl
  rw [hpass.quotes] at hmid
  exact hmid

end CallSignature
