/-
CallSignature.Proofs.Comment.Range — where a part of a cleaned text comes from.

A visible character of a cleaned text stands in the source as well, at the
same byte, and cuts the source into two parts that are cleaned on their own
(`exists_of_visible`).  So what stands between two parentheses of the cleaned
text is what stands between them in the source, cleaned (`exists_enclosed`).

`Cleans` says of any part of a source what cleaning makes of it, wherever it
stands in the code, and that nothing is left open behind it.  Such parts can
be put side by side (`Cleans.append`).
-/
import CallSignature.Proofs.Comment.Cleaning
import CallSignature.Proofs.Success
import CallSignature.Proofs.Text.Edges

namespace CallSignature

open Unicode

namespace Zone

/-- What is left of the first character either ends before a visible
character or is that character. -/
theorem cut_of_visible {covered : Bool} {c d : Char} {t t₁ t₂ : Text} (hc : isVisible c = true)
    (h : (if covered then blank d else [d]) ++ t = t₁ ++ c :: t₂) :
    (∃ u, t₁ = (if covered then blank d else [d]) ++ u ∧ t = u ++ c :: t₂) ∨
      covered = false ∧ t₁ = [] ∧ d = c ∧ t = t₂ := by
  rcases List.append_eq_append_iff.1 h with ⟨u, ht₁, hrest⟩ | ⟨u, hfirst, hrest⟩
  · exact .inl ⟨u, ht₁, hrest⟩
  · cases u with
    | nil => exact .inl ⟨[], by simpa using hfirst.symm, hrest.symm⟩
    | cons e u =>
      obtain ⟨rfl, rfl⟩ := List.cons.inj hrest
      cases covered with
      | true =>
        have hmem : c ∈ blank d := by
          rw [if_pos rfl] at hfirst
          simp [hfirst]
        rw [isVisible_of_mem_blank hmem] at hc
        cases hc
      | false =>
        rw [if_neg Bool.false_ne_true] at hfirst
        cases t₁ with
        | nil =>
          obtain ⟨rfl, hu⟩ := List.cons.inj hfirst
          exact .inr ⟨rfl, rfl, rfl, by rw [← hu]; rfl⟩
        | cons f t₁ => simp at hfirst

theorem exists_of_cleaned {next : Option Char} {z : Zone} {offset : Nat} {s t₁ t₂ : Text}
    {c : Char} (hc : isVisible c = true) (h : z.cleaned next offset s = t₁ ++ c :: t₂) :
    ∃ a b, s = a ++ c :: b ∧ z.cleaned (some c) offset a = t₁ ∧
      (z.after (some c) offset a).covers c (b.head?.or next) = false ∧
      ((z.after (some c) offset a).step (offset + a.width) c (b.head?.or next)).cleaned next
        (offset + a.width + c.utf8Size) b = t₂ := by
  induction s generalizing z offset t₁ with
  | nil =>
    unfold cleaned at h
    exact absurd h (by simp)
  | cons d s ih =>
    rw [cleaned] at h
    rcases cut_of_visible hc h with ⟨u, rfl, hrest⟩ | ⟨hcovers, rfl, rfl, hrest⟩
    · obtain ⟨a, b, rfl, ha, hkept, hb⟩ := ih hrest
      have hhead : (a ++ c :: b).head?.or next = a.head?.or (some c) := by
        rw [List.head?_append]
        cases a.head? <;> rfl
      rw [hhead] at ha hkept hb ⊢
      refine ⟨d :: a, b, rfl, ?_, hkept, ?_⟩
      · rw [cleaned, ha]
      · rwa [after, Text.width_cons, ← Nat.add_assoc]
    · exact ⟨[], s, rfl, rfl, hcovers, hrest⟩

end Zone

/-- A visible character of a cleaned text cuts the source where it stands.
The quotes in front of it are those of the cleaned text. -/
theorem exists_of_visible {z : Zone} {offset : Nat} {s t₁ t₂ : Text} {c : Char}
    (hc : isVisible c = true) (h : withoutCommentsFrom z offset s = .ok (t₁ ++ c :: t₂)) :
    ∃ a b, s = a ++ c :: b ∧ z.cleaned (some c) offset a = t₁ ∧
      z.after (some c) offset a = .code (z.quotes.after offset t₁) ∧
      withoutCommentsFrom (.code ((z.quotes.after offset t₁).step (offset + a.width) c))
        (offset + a.width + c.utf8Size) b = .ok t₂ := by
  obtain ⟨hfinished, hcleaned⟩ := withoutCommentsFrom_eq_ok_iff.1 h
  obtain ⟨a, b, rfl, ha, hkept, hb⟩ := Zone.exists_of_cleaned hc hcleaned
  have hquotes := Zone.quotes_after (some c) z offset a
  rw [ha] at hquotes
  have hcode : z.after (some c) offset a = .code (z.quotes.after offset t₁) := by
    rw [← hquotes]
    cases hzone : z.after (some c) offset a with
    | code q => rfl
    | line =>
      rw [hzone] at hkept
      obtain rfl : c = '\n' := by simpa [Zone.covers] using hkept
      cases hc
    | _ => rw [hzone] at hkept; cases hkept
  rw [Zone.after_append, Zone.after] at hfinished
  simp only [List.head?_cons, Option.some_or] at hfinished
  rw [hcode, Zone.step_of_not_covers (hcode ▸ hkept)] at hfinished hb
  exact ⟨a, b, rfl, ha, hcode, withoutCommentsFrom_eq_ok_iff.2 ⟨hfinished, hb⟩⟩

/-! ## Ranges -/

/-- What two parentheses of a cleaned text enclose is enclosed by two
parentheses of the source. -/
theorem exists_enclosed {source t₁ p t₂ : Text} (ht₁ : Quiet t₁) (hp : Quiet p)
    (h : withoutComments source = .ok (t₁ ++ '(' :: p ++ ')' :: t₂)) :
    ∃ a m b : Text, source = a ++ '(' :: m ++ ')' :: b ∧ a.width = t₁.width ∧
      m.width = p.width ∧ withoutComments m = .ok p := by
  rw [List.append_assoc] at h
  obtain ⟨a, s, rfl, ha, -, hs⟩ := exists_of_visible (by decide) h
  have houtside : (Zone.code .outside).quotes.after 0 t₁ = .outside := ht₁
  rw [houtside, QuoteState.step_outside_of_not_isQuote (by decide)] at hs
  obtain ⟨m, b, rfl, hm, hzone, -⟩ := exists_of_visible (by decide) hs
  rw [show (Zone.code .outside).quotes.after _ p = .outside from hp.after _] at hzone
  -- the parenthesis behind the range begins and ends no comment
  have hinert : Zone.IsInert (some ')') := by simp [Zone.IsInert]
  rw [Zone.after_ahead hinert] at hzone
  rw [Zone.cleaned_ahead hinert] at hm
  have hrange := withoutCommentsFrom_eq_ok_iff.2 ⟨by rw [hzone]; rfl, hm⟩
  rw [withoutCommentsFrom_outside] at hrange
  have hmwidth := congrArg Text.width hm
  have hawidth := congrArg Text.width ha
  rw [Zone.width_cleaned] at hmwidth hawidth
  refine ⟨a, m, b, by simp, hawidth, hmwidth, ?_⟩
  cases hclean : withoutComments m with
  | error fault => rw [hclean] at hrange; cases hrange
  | ok cleaned => rwa [hclean] at hrange

/-- Visible characters without slashes and quotes stand in the source as they
stand in the cleaned text. -/
theorem exists_kept {offset : Nat} {s p t : Text} {q : QuoteState}
    (hp : ∀ c ∈ p, isVisible c = true ∧ isQuote c = false) (hq : q = .outside)
    (h : withoutCommentsFrom (.code q) offset s = .ok (p ++ t)) : ∃ b, s = p ++ b := by
  subst hq
  induction p generalizing offset s with
  | nil => exact ⟨s, rfl⟩
  | cons c p ih =>
    obtain ⟨hc, hp⟩ := List.forall_mem_cons.1 hp
    obtain ⟨a, b, rfl, ha, -, hb⟩ := @exists_of_visible _ _ _ [] _ _ hc.1 h
    obtain rfl : a = [] := by
      have hwidth := congrArg Text.width ha
      rw [Zone.width_cleaned] at hwidth
      exact Text.width_eq_zero_iff.1 hwidth
    rw [show (Zone.code .outside).quotes.after offset [] = .outside from rfl,
      QuoteState.step_outside_of_not_isQuote hc.2] at hb
    obtain ⟨rest, rfl⟩ := ih hp hb
    exact ⟨rest, rfl⟩

theorem exists_word {source t₁ p t₂ : Text} (ht₁ : Quiet t₁) (hne : p ≠ [])
    (hp : ∀ c ∈ p, isVisible c = true ∧ isQuote c = false)
    (h : withoutComments source = .ok (t₁ ++ p ++ t₂)) :
    ∃ a b : Text, source = a ++ p ++ b ∧ a.width = t₁.width := by
  obtain ⟨c, p, rfl⟩ := List.exists_cons_of_ne_nil hne
  obtain ⟨hc, hp⟩ := List.forall_mem_cons.1 hp
  rw [List.append_assoc] at h
  obtain ⟨a, s, rfl, ha, -, hs⟩ := exists_of_visible hc.1 h
  have houtside : (Zone.code .outside).quotes.after 0 t₁ = .outside := ht₁
  rw [houtside, QuoteState.step_outside_of_not_isQuote hc.2] at hs
  obtain ⟨b, rfl⟩ := exists_kept hp rfl hs
  have hwidth := congrArg Text.width ha
  rw [Zone.width_cleaned] at hwidth
  exact ⟨a, b, by simp, hwidth⟩

/-- What stands in front of a visible character is cleaned as it is here,
whatever the source goes on with behind the character. -/
theorem exists_front {source t₁ t₂ : Text} {c : Char} (hc : isVisible c = true)
    (hslash : c ≠ '/') (h : withoutComments source = .ok (t₁ ++ c :: t₂)) :
    ∃ a b : Text, source = a ++ c :: b ∧ a.width = t₁.width ∧
      ∀ b' cleaned, withoutComments (a ++ c :: b') = .ok cleaned →
        ∃ rest, cleaned = t₁ ++ c :: rest := by
  obtain ⟨a, b, rfl, ha, hzone, -⟩ := exists_of_visible hc h
  have hwidth := congrArg Text.width ha
  rw [Zone.width_cleaned] at hwidth
  refine ⟨a, b, rfl, hwidth, fun b' cleaned hcleaned => ?_⟩
  have hcut : a ++ c :: b' = (a ++ [c]) ++ b' := by simp
  rw [hcut, withoutComments, withoutCommentsFrom_append] at hcleaned
  obtain ⟨rest, -, rfl⟩ := map_eq_ok hcleaned
  refine ⟨rest, ?_⟩
  have hhead : ([c] : Text).head?.or b'.head? = some c := rfl
  rw [Zone.cleaned_append, hhead, ha, hzone,
    Zone.cleaned_of_lacksSlash (by simpa using hslash.symm)]
  simp

/-! ## Edges -/

theorem isVisible_of_isWhiteSpace {c : Char} (h : isWhiteSpace c = false) :
    isVisible c = true := by
  simp only [isVisible, Bool.and_eq_true, bne_iff_ne]
  refine ⟨⟨?_, ?_⟩, ?_⟩ <;> rintro rfl <;> exact absurd h (by decide)

/-- A visible character stands in the source at the same byte. -/
theorem exists_at_of_visible {source t₁ t₂ : Text} {c : Char} (hc : isVisible c = true)
    (h : withoutComments source = .ok (t₁ ++ c :: t₂)) :
    ∃ a b : Text, source = a ++ c :: b ∧ a.width = t₁.width := by
  obtain ⟨a, b, hsource, ha, -⟩ := exists_of_visible hc h
  have hwidth := congrArg Text.width ha
  rw [Zone.width_cleaned] at hwidth
  exact ⟨a, b, hsource, hwidth⟩

/-- An edge of a cleaned text is a boundary of the source: one of the two
characters that meet there stands in the source as well. -/
theorem isBoundary_of_isEdge {source cleaned : Text} {place : Nat}
    (h : withoutComments source = .ok cleaned) (hedge : cleaned.IsEdge place) :
    source.IsBoundary place := by
  obtain ⟨t₁, t₂, rfl, rfl, hmeets⟩ := hedge
  rcases List.eq_nil_or_concat t₁ with rfl | ⟨x, d, rfl⟩
  · exact ⟨[], source, rfl, rfl⟩
  · rw [List.concat_eq_append] at h hmeets ⊢
    cases hd : isWhiteSpace d with
    | false =>
      rw [List.append_assoc] at h
      obtain ⟨a, b, rfl, hwidth⟩ := exists_at_of_visible (isVisible_of_isWhiteSpace hd) h
      exact ⟨a ++ [d], b, by simp, by simp [hwidth]⟩
    | true =>
      cases t₂ with
      | nil =>
        have hwidth := congrArg Text.width (withoutCommentsFrom_eq_ok_iff.1 h).2
        rw [Zone.width_cleaned, List.append_nil] at hwidth
        exact ⟨source, [], by simp, hwidth⟩
      | cons c t₂ =>
        have hc : isWhiteSpace c = false := hmeets d (by simp) c rfl hd
        obtain ⟨a, b, rfl, hwidth⟩ := exists_at_of_visible (isVisible_of_isWhiteSpace hc) h
        exact ⟨a, c :: b, rfl, hwidth⟩

/-! ## Sources put together -/

/-- Cleaning makes `clean` of the part, which stands outside literals and
comments and is followed by `next`, and nothing is open behind it. -/
def Cleans (next : Option Char) (a clean : Text) : Prop :=
  ∀ offset, (Zone.code .outside).cleaned next offset a = clean ∧
    (Zone.code .outside).after next offset a = .code .outside

namespace Cleans

variable {next : Option Char} {a b p q : Text}

theorem width_eq (h : Cleans next a p) : p.width = a.width := by
  rw [← (h 0).1, Zone.width_cleaned]

theorem withoutComments_eq (h : Cleans none a p) : withoutComments a = .ok p := by
  obtain ⟨hclean, hafter⟩ := h 0
  exact withoutCommentsFrom_eq_ok_iff.2 ⟨by rw [hafter]; rfl, hclean⟩

theorem append (ha : Cleans (b.head?.or next) a p) (hb : Cleans next b q) :
    Cleans next (a ++ b) (p ++ q) := by
  intro offset
  obtain ⟨hclean, hafter⟩ := ha offset
  obtain ⟨hclean', hafter'⟩ := hb (offset + a.width)
  rw [Zone.cleaned_append, Zone.after_append, hafter, hclean, hclean']
  exact ⟨rfl, hafter'⟩

/-- The part at the beginning of a source. -/
theorem exists_of_append {cleaned : Text} (ha : Cleans b.head? a p)
    (h : withoutComments (a ++ b) = .ok cleaned) : ∃ rest, cleaned = p ++ rest := by
  obtain ⟨hclean, -⟩ := ha 0
  obtain ⟨-, hcleaned⟩ := withoutCommentsFrom_eq_ok_iff.1 h
  rw [Zone.cleaned_append, Option.or_none, hclean] at hcleaned
  exact ⟨_, hcleaned.symm⟩

/-- A quiet part from which nothing is taken out. -/
theorem of_kept (hquiet : Quiet a)
    (h : ∀ offset, (Zone.code .outside).cleaned next offset a = a) : Cleans next a a := by
  intro offset
  refine ⟨h offset, ?_⟩
  rw [Zone.after_of_cleaned_eq (h offset), hquiet.after]

theorem of_lacksSlash (hquiet : Quiet a) (h : '/' ∉ a) : Cleans next a a :=
  of_kept hquiet fun _ => Zone.cleaned_of_lacksSlash h

theorem of_clean (hquiet : Quiet a) (h : withoutComments a = .ok a)
    (hnext : Zone.IsInert next) : Cleans next a a := by
  refine of_kept hquiet fun offset => ?_
  have hshift := withoutCommentsFrom_outside offset a
  rw [h] at hshift
  rw [Zone.cleaned_ahead hnext]
  exact (withoutCommentsFrom_eq_ok_iff.1 hshift).2

end Cleans

end CallSignature
