/-
CallSignature.Proofs.Literal.Tracking — the literal that a tracker sees.

Two readers know where a literal ends.  `closingQuote` looks for the closing
quote of the literal that a text begins with, and a tracker, fed the text
character by character, takes notice of the quotes as it goes.  They see the
same literal: the closing quote is found exactly where the tracker has left
the literal for the first time (`closingQuoteFrom_eq_some_iff`), and up to
there the tracker takes every character for a part of it and opens and closes
no group.
-/
import CallSignature.Proofs.Literal.Body

namespace CallSignature

variable {t words a b : Text} {quote c : Char} {offset last : Nat}

/-! ## What a tracker says of a text -/

namespace Tracker

/-- The tracker behind a text that begins at byte `offset`, whatever it has
said of the text. -/
def after (tracker : Tracker) (offset : Nat) : Text → Tracker
  | [] => tracker
  | c :: rest => (tracker.feed offset c).1.after (offset + c.utf8Size) rest

/-- What the tracker says of the characters of a text that begins at byte
`offset`, one after the other. -/
def sightings (tracker : Tracker) (offset : Nat) : Text → List (Except Fault Sighting)
  | [] => []
  | c :: rest =>
    (tracker.feed offset c).2
      :: (tracker.feed offset c).1.sightings (offset + c.utf8Size) rest

theorem sightings_append (tracker : Tracker) (offset : Nat) (a b : Text) :
    tracker.sightings offset (a ++ b) = tracker.sightings offset a
      ++ (tracker.after offset a).sightings (offset + a.width) b := by
  induction a generalizing tracker offset with
  | nil => rfl
  | cons c a ih =>
    rw [List.cons_append, sightings, ih, sightings, after, Text.width_cons, Nat.add_assoc,
      List.cons_append]

/-- Inside a literal a tracker has only the literal in mind. -/
theorem feed_of_isOpen {quotes : QuoteState} (h : quotes.isOpen = true)
    (groups : List OpenGroup) (offset : Nat) (c : Char) :
    feed ⟨groups, quotes⟩ offset c = (⟨groups, quotes.step offset c⟩, .ok .literal) := by
  refine feed_of_sees (.literal ?_)
  cases quotes with
  | outside => cases h
  | inside => rfl

end Tracker

/-! ## Leaving a literal -/

namespace QuoteState

/-- A reader in this state leaves the literal with the last character of the
text, and not before. -/
def Closes (q : QuoteState) (offset : Nat) : Text → Prop
  | [] => q = .outside
  | c :: rest => q.isOpen = true ∧ (q.step offset c).Closes (offset + c.utf8Size) rest

theorem outside_closes_iff : outside.Closes offset words ↔ words = [] := by
  cases words <;> simp [Closes, isOpen]

/-- A reader inside a literal leaves it with a character or behind it. -/
theorem exists_closes_cons {q : QuoteState} (h : q.isOpen = true) :
    (∃ words rest : Text, c :: t = words ++ rest ∧ offset + words.width = last + 1 ∧
      q.Closes offset words) ↔
    ∃ words rest : Text, t = words ++ rest ∧ offset + c.utf8Size + words.width = last + 1 ∧
      (q.step offset c).Closes (offset + c.utf8Size) words := by
  constructor
  · rintro ⟨words, rest, ht, hwidth, hcloses⟩
    cases words with
    | nil =>
      obtain rfl : q = outside := hcloses
      cases h
    | cons d words =>
      obtain ⟨rfl, rfl⟩ := List.cons.inj ht
      rw [Text.width_cons, ← Nat.add_assoc] at hwidth
      exact ⟨words, rest, rfl, hwidth, hcloses.2⟩
  · rintro ⟨words, rest, rfl, hwidth, hcloses⟩
    rw [Nat.add_assoc, ← Text.width_cons] at hwidth
    exact ⟨c :: words, rest, rfl, hwidth, h, hcloses⟩

/-- The closing quote is found where a reader leaves the literal. -/
theorem closingQuoteFrom_eq_some_iff (hquote : isQuote quote = true) (openedAt : Nat)
    (escaped : Bool) :
    closingQuoteFrom quote escaped offset t = some last ↔
      ∃ words rest : Text, t = words ++ rest ∧ offset + words.width = last + 1 ∧
        (inside quote openedAt escaped).Closes offset words := by
  induction t generalizing escaped offset with
  | nil =>
    refine iff_of_false (by simp [closingQuoteFrom]) ?_
    rintro ⟨words, rest, hnil, -, hcloses⟩
    obtain rfl : words = [] := (List.append_eq_nil_iff.1 hnil.symm).1
    cases hcloses
  | cons c t ih =>
    have hopen : (inside quote openedAt escaped).isOpen = true := rfl
    -- the search and the reader make the same three distinctions
    rw [exists_closes_cons hopen, closingQuoteFrom, step]
    split
    · exact ih false
    · split
      · exact ih true
      · split
        · rename_i hclosing
          rw [hclosing, utf8Size_of_isQuote hquote]
          constructor
          · intro h
            obtain rfl := Option.some.inj h
            exact ⟨[], t, rfl, rfl, rfl⟩
          · rintro ⟨words, rest, -, hwidth, hcloses⟩
            obtain rfl := outside_closes_iff.1 hcloses
            exact congrArg some (Nat.succ.inj hwidth)
        · exact ih false

end QuoteState

namespace Tracker

variable {q : QuoteState}

theorem after_of_closes (h : q.Closes offset words) (groups : List OpenGroup) :
    after ⟨groups, q⟩ offset words = ⟨groups, .outside⟩ := by
  induction words generalizing q offset with
  | nil =>
    obtain rfl : q = .outside := h
    rfl
  | cons c words ih => rw [after, feed_of_isOpen h.1, ih h.2]

theorem sightings_of_closes (h : q.Closes offset words) (groups : List OpenGroup) :
    sightings ⟨groups, q⟩ offset words = List.replicate words.length (.ok .literal) := by
  induction words generalizing q offset with
  | nil => rfl
  | cons c words ih =>
    rw [sightings, feed_of_isOpen h.1, ih h.2, List.length_cons, List.replicate_succ]

/-- Leaving a literal, seen from the tracker. -/
theorem closes_iff (groups : List OpenGroup) : q.Closes offset words ↔
    after ⟨groups, q⟩ offset words = ⟨groups, .outside⟩ ∧
      ∀ a b, words = a ++ b → b ≠ [] →
        (after ⟨groups, q⟩ offset a).quotes.isOpen = true := by
  refine ⟨fun h => ⟨after_of_closes h groups, ?_⟩, ?_⟩
  · rintro a b rfl hb
    induction a generalizing q offset with
    | nil =>
      obtain ⟨c, b, rfl⟩ := List.exists_cons_of_ne_nil hb
      exact h.1
    | cons c a ih =>
      rw [after, feed_of_isOpen h.1]
      exact ih h.2
  · rintro ⟨hafter, hopen⟩
    induction words generalizing q offset with
    | nil => exact (Tracker.mk.inj hafter).2
    | cons c words ih =>
      have hq : q.isOpen = true := hopen [] (c :: words) rfl (List.cons_ne_nil c words)
      rw [after, feed_of_isOpen hq] at hafter
      refine ⟨hq, ih hafter fun a b hab hb => ?_⟩
      have h := hopen (c :: a) b (by rw [hab]; rfl) hb
      rwa [after, feed_of_isOpen hq] at h

end Tracker

/-! ## The same literal -/

open Tracker

/-- A fresh tracker takes the text for one literal: every character of it, and
nothing behind it, belongs to the literal; the tracker is inside the literal
up to its last character, and as fresh as before behind it. -/
structure IsSeenAsLiteral (literal : Text) : Prop where
  sightings : ∀ behind, ({} : Tracker).sightings 0 (literal ++ behind)
    = List.replicate literal.length (.ok .literal)
      ++ ({} : Tracker).sightings literal.width behind
  after : ({} : Tracker).after 0 literal = {}
  isOpen : ∀ front behind, literal = front ++ behind → front ≠ [] → behind ≠ [] →
    (({} : Tracker).after 0 front).quotes.isOpen = true

theorem feed_quote (h : isQuote quote = true) :
    ({} : Tracker).feed 0 quote = (⟨[], .inside quote 0 false⟩, .ok .literal) := by
  have hstep : QuoteState.outside.step 0 quote = .inside quote 0 false := by
    rw [QuoteState.step, if_pos h]
  rw [← hstep]
  exact feed_of_sees (.literal h)

/-- A literal is a quote and what a reader behind it leaves the literal with. -/
theorem isSeenAsLiteral_cons_iff : IsSeenAsLiteral (c :: words) ↔
    isQuote c = true ∧ (QuoteState.inside c 0 false).Closes c.utf8Size words := by
  constructor
  · intro h
    obtain ⟨next, hfirst⟩ : ∃ next, ({} : Tracker).feed 0 c = (next, .ok .literal) := by
      have hall := h.sightings []
      rw [List.cons_append, Tracker.sightings, List.length_cons, List.replicate_succ] at hall
      exact ⟨_, Prod.ext rfl (List.cons.inj hall).1⟩
    have hquote : isQuote c = true := by
      cases sees_of_feed hfirst with
      | literal h => exact h
    refine ⟨hquote, (closes_iff []).2 ⟨?_, ?_⟩⟩
    · have hafter := h.after
      rwa [Tracker.after, feed_quote hquote, Nat.zero_add] at hafter
    · intro a b hab hb
      have hopen := h.isOpen (c :: a) b (by rw [hab]; rfl) (List.cons_ne_nil c a) hb
      rwa [Tracker.after, feed_quote hquote, Nat.zero_add] at hopen
  · rintro ⟨hquote, hcloses⟩
    have hafter : ({} : Tracker).after 0 (c :: words) = {} := by
      rw [Tracker.after, feed_quote hquote, Nat.zero_add, after_of_closes hcloses]
    refine ⟨fun behind => ?_, hafter, ?_⟩
    · rw [sightings_append, hafter, Nat.zero_add, Tracker.sightings, feed_quote hquote,
        Nat.zero_add, sightings_of_closes hcloses, List.length_cons, List.replicate_succ]
    · rintro (_ | ⟨d, front⟩) behind hsplit hfront hbehind
      · exact absurd rfl hfront
      · obtain ⟨rfl, hwords⟩ := List.cons.inj hsplit
        rw [Tracker.after, feed_quote hquote, Nat.zero_add]
        exact ((closes_iff []).1 hcloses).2 front behind hwords hbehind

/-- The closing quote is found where a fresh tracker has left the literal. -/
theorem closingQuote_eq_some_iff_isSeenAsLiteral : closingQuote t = some last ↔
    ∃ literal rest : Text, t = literal ++ rest ∧ literal.width = last + 1 ∧
      IsSeenAsLiteral literal := by
  constructor
  · intro h
    cases t with
    | nil => cases h
    | cons c t =>
      rw [closingQuote] at h
      split at h
      · rename_i hquote
        obtain ⟨words, rest, rfl, hwidth, hcloses⟩ :=
          (QuoteState.closingQuoteFrom_eq_some_iff hquote 0 false).1 h
        exact ⟨c :: words, rest, rfl, hwidth, isSeenAsLiteral_cons_iff.2 ⟨hquote, hcloses⟩⟩
      · cases h
  · rintro ⟨literal, rest, rfl, hwidth, hseen⟩
    cases literal with
    | nil => cases hwidth
    | cons c words =>
      obtain ⟨hquote, hcloses⟩ := isSeenAsLiteral_cons_iff.1 hseen
      rw [List.cons_append, closingQuote, if_pos hquote]
      exact (QuoteState.closingQuoteFrom_eq_some_iff hquote 0 false).2
        ⟨words, rest, rfl, hwidth, hcloses⟩

/-- The closing quote of the literal that a text begins with stands behind a
body; and the text up to there, and no other front of it, is what a fresh
tracker takes for a literal, whatever follows. -/
theorem closingQuote_tracked (t : Text) (last : Nat) :
    (closingQuote t = some last ↔
      ∃ quote words rest, isQuote quote = true ∧ IsBody quote words ∧
        t = quote :: (words ++ quote :: rest) ∧ last = 1 + words.width) ∧
    (closingQuote t = some last ↔
      ∃ literal rest : Text, t = literal ++ rest ∧ literal.width = last + 1 ∧
        IsSeenAsLiteral literal) :=
  ⟨closingQuote_eq_some_iff, closingQuote_eq_some_iff_isSeenAsLiteral⟩

/-- An escaped quote, a bracket and another quote belong to the literal. -/
example : closingQuote "'\\'\")'(".toList = some 5 ∧
    ({} : Tracker).sightings 0 "'\\'\")'(".toList
      = List.replicate 6 (.ok .literal) ++ [.ok (.code 0)] :=
  ⟨rfl, rfl⟩

end CallSignature
