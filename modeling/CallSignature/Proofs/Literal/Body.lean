/-
CallSignature.Proofs.Literal.Body — what stands between two quotes.

The BODY of a literal is any text that does not close it: characters other
than the quote and the backslash, and backslashes with the character that
each of them escapes.  A reader inside a literal is inside it still behind a
body (`IsBody.after`), and so the first quote behind a body is the one that
closes the literal.

Behind any quote there is either a body with its closing quote, which are
determined by the text (`IsBody.append_quote_inj`), or a text that closes
nothing (`IsOpenBody`), and never both (`exists_body`,
`IsOpenBody.ne_closed`).
-/
import CallSignature.Proofs.Nesting.Quiet

namespace CallSignature

/-- A text that a literal with this quote may hold. -/
inductive IsBody (quote : Char) : Text → Prop
  | nil : IsBody quote []
  | plain {c : Char} {rest : Text} (hquote : c ≠ quote) (hescape : c ≠ '\\')
    (hrest : IsBody quote rest) : IsBody quote (c :: rest)
  | escape {c : Char} {rest : Text} (hrest : IsBody quote rest) :
    IsBody quote ('\\' :: c :: rest)

/-- A text that does not close a literal with this quote.  It may end in a
backslash that has nothing to escape. -/
inductive IsOpenBody (quote : Char) : Text → Prop
  | nil : IsOpenBody quote []
  | backslash : IsOpenBody quote ['\\']
  | plain {c : Char} {rest : Text} (hquote : c ≠ quote) (hescape : c ≠ '\\')
    (hrest : IsOpenBody quote rest) : IsOpenBody quote (c :: rest)
  | escape {c : Char} {rest : Text} (hrest : IsOpenBody quote rest) :
    IsOpenBody quote ('\\' :: c :: rest)

section

variable {quote : Char} {t words words' rest rest' : Text}

theorem ne_backslash_of_isQuote (h : isQuote quote = true) : quote ≠ '\\' := by
  rcases eq_of_isQuote h with rfl | rfl | rfl <;> decide

theorem step_plain {c : Char} (hquote : c ≠ quote) (hescape : c ≠ '\\')
    (openedAt offset : Nat) :
    (QuoteState.inside quote openedAt false).step offset c = .inside quote openedAt false := by
  rw [QuoteState.step, if_neg Bool.false_ne_true, if_neg hescape, if_neg hquote]

/-- Behind a body the literal is open as it was before. -/
theorem IsBody.after (h : IsBody quote words) (openedAt offset : Nat) :
    (QuoteState.inside quote openedAt false).after offset words
      = .inside quote openedAt false := by
  induction h generalizing offset with
  | nil => rfl
  | plain hquote hescape _ ih => rw [QuoteState.after, step_plain hquote hescape, ih]
  | escape _ ih => exact ih _

/-- A reader outside all literals is outside of them again behind a literal. -/
theorem IsBody.quiet (hquote : isQuote quote = true) (h : IsBody quote words) :
    Quiet (quote :: words ++ [quote]) := by
  have hopens : QuoteState.outside.step 0 quote = .inside quote 0 false := by
    rw [QuoteState.step, if_pos hquote]
  rw [Quiet, List.cons_append, QuoteState.after, hopens, QuoteState.after_append, h.after,
    QuoteState.after, QuoteState.after, QuoteState.step, if_neg Bool.false_ne_true,
    if_neg (ne_backslash_of_isQuote hquote), if_pos rfl]

theorem IsBody.isOpenBody (h : IsBody quote words) : IsOpenBody quote words := by
  induction h with
  | nil => exact .nil
  | plain hquote hescape _ ih => exact .plain hquote hescape ih
  | escape _ ih => exact .escape ih

/-- The first quote behind a body is the closing one, and so a text has at
most one body and one rest. -/
theorem IsBody.append_quote_inj (hquote : quote ≠ '\\') (h : IsBody quote words)
    (h' : IsBody quote words') (heq : words ++ quote :: rest = words' ++ quote :: rest') :
    words = words' ∧ rest = rest' := by
  induction h generalizing words' with
  | nil =>
    cases h' with
    | nil => exact ⟨rfl, (List.cons.inj heq).2⟩
    | plain hne _ _ => exact absurd (List.cons.inj heq).1.symm hne
    | escape _ => exact absurd (List.cons.inj heq).1 hquote
  | plain hne hescape _ ih =>
    cases h' with
    | nil => exact absurd (List.cons.inj heq).1 hne
    | plain _ _ h' =>
      obtain ⟨rfl, htail⟩ := List.cons.inj heq
      obtain ⟨rfl, rfl⟩ := ih h' htail
      exact ⟨rfl, rfl⟩
    | escape _ => exact absurd (List.cons.inj heq).1 hescape
  | escape _ ih =>
    cases h' with
    | nil => exact absurd (List.cons.inj heq).1.symm hquote
    | plain _ hescape _ => exact absurd (List.cons.inj heq).1.symm hescape
    | escape h' =>
      obtain ⟨rfl, htail⟩ := List.cons.inj (List.cons.inj heq).2
      obtain ⟨rfl, rfl⟩ := ih h' htail
      exact ⟨rfl, rfl⟩

/-- Behind a quote there is a body with its closing quote, or nothing that
closes the literal. -/
theorem exists_body (quote : Char) (t : Text) :
    (∃ words rest, t = words ++ quote :: rest ∧ IsBody quote words) ∨ IsOpenBody quote t := by
  -- an escape takes two characters at once
  induction hlength : t.length using Nat.strongRecOn generalizing t with
  | ind length ih =>
    cases t with
    | nil => exact .inr .nil
    | cons c t =>
      by_cases hquote : c = quote
      · exact .inl ⟨[], t, by rw [hquote]; rfl, .nil⟩
      · by_cases hescape : c = '\\'
        · subst hescape
          cases t with
          | nil => exact .inr .backslash
          | cons d t =>
            have hless : t.length < length := by simp only [List.length_cons] at hlength; omega
            rcases ih t.length hless t rfl with ⟨words, rest, rfl, hwords⟩ | hopen
            · exact .inl ⟨'\\' :: d :: words, rest, rfl, .escape hwords⟩
            · exact .inr (.escape hopen)
        · have hless : t.length < length := by simp only [List.length_cons] at hlength; omega
          rcases ih t.length hless t rfl with ⟨words, rest, rfl, hwords⟩ | hopen
          · exact .inl ⟨c :: words, rest, rfl, .plain hquote hescape hwords⟩
          · exact .inr (.plain hquote hescape hopen)

/-- A body with its closing quote is no text that closes nothing. -/
theorem IsOpenBody.ne_closed (hquote : quote ≠ '\\') (h : IsOpenBody quote t)
    (hwords : IsBody quote words) : t ≠ words ++ quote :: rest := by
  rintro rfl
  induction hwords with
  | nil =>
    generalize heq : [] ++ quote :: rest = t at h
    cases h with
    | nil => cases heq
    | backslash => exact hquote (List.cons.inj heq).1
    | plain hne _ _ => exact hne (List.cons.inj heq).1.symm
    | escape _ => exact hquote (List.cons.inj heq).1
  | @plain c front hne hescape _ ih =>
    generalize heq : c :: front ++ quote :: rest = t at h
    cases h with
    | nil => cases heq
    | backslash => exact hescape (List.cons.inj heq).1
    | plain _ _ h =>
      obtain ⟨-, rfl⟩ := List.cons.inj heq
      exact ih h
    | escape _ => exact hescape (List.cons.inj heq).1
  | @escape c front _ ih =>
    generalize heq : '\\' :: c :: front ++ quote :: rest = t at h
    cases h with
    | nil => cases heq
    | backslash => simp at heq
    | plain _ hescape _ => exact hescape (List.cons.inj heq).1.symm
    | escape h =>
      obtain ⟨-, rfl⟩ := List.cons.inj (List.cons.inj heq).2
      exact ih h

/-! ## The closing quote -/

theorem closingQuoteFrom_of_isBody (hquote : quote ≠ '\\') (h : IsBody quote words)
    (offset : Nat) (rest : Text) :
    closingQuoteFrom quote false offset (words ++ quote :: rest)
      = some (offset + words.width) := by
  induction h generalizing offset with
  | nil =>
    rw [List.nil_append, closingQuoteFrom, if_neg Bool.false_ne_true, if_neg hquote,
      if_pos rfl]
    rfl
  | plain hne hescape _ ih =>
    rw [List.cons_append, closingQuoteFrom, if_neg Bool.false_ne_true, if_neg hescape,
      if_neg hne, ih, Text.width_cons, Nat.add_assoc]
  | escape _ ih =>
    rw [List.cons_append, List.cons_append, closingQuoteFrom, if_neg Bool.false_ne_true,
      if_pos rfl, closingQuoteFrom, if_pos rfl, ih, Text.width_cons, Text.width_cons,
      Nat.add_assoc, Nat.add_assoc]

theorem closingQuoteFrom_of_isOpenBody (h : IsOpenBody quote t) (offset : Nat) :
    closingQuoteFrom quote false offset t = none := by
  induction h generalizing offset with
  | nil => rfl
  | backslash =>
    rw [closingQuoteFrom, if_neg Bool.false_ne_true, if_pos rfl]
    rfl
  | plain hne hescape _ ih =>
    rw [closingQuoteFrom, if_neg Bool.false_ne_true, if_neg hescape, if_neg hne, ih]
  | escape _ ih =>
    rw [closingQuoteFrom, if_neg Bool.false_ne_true, if_pos rfl, closingQuoteFrom, if_pos rfl,
      ih]

/-- A closing quote is found exactly if there is a body in front of it. -/
theorem closingQuote_eq_some_iff {last : Nat} : closingQuote t = some last ↔
    ∃ quote words rest, isQuote quote = true ∧ IsBody quote words ∧
      t = quote :: (words ++ quote :: rest) ∧ last = 1 + words.width := by
  constructor
  · intro h
    cases t with
    | nil => cases h
    | cons quote t =>
      rw [closingQuote] at h
      split at h
      · rename_i hquote
        rcases exists_body quote t with ⟨words, rest, rfl, hwords⟩ | hopen
        · rw [closingQuoteFrom_of_isBody (ne_backslash_of_isQuote hquote) hwords,
            utf8Size_of_isQuote hquote] at h
          exact ⟨quote, words, rest, hquote, hwords, rfl, (Option.some.inj h).symm⟩
        · rw [closingQuoteFrom_of_isOpenBody hopen] at h
          cases h
      · cases h
  · rintro ⟨quote, words, rest, hquote, hwords, rfl, rfl⟩
    rw [closingQuote, if_pos hquote,
      closingQuoteFrom_of_isBody (ne_backslash_of_isQuote hquote) hwords,
      utf8Size_of_isQuote hquote]

end

end CallSignature
