/-
CallSignature.Proofs.Cursor.Names — what readable names are made of.

A name is read as far as it goes (`name?_eq_some`), and a text is a name by
itself exactly if it is what would be read from it.  Of the characters that
mean something to the reader of a head, none is part of a name but the number
sign at its beginning: no quote, no bracket, no slash, no white space.
-/
import CallSignature.Cursor
import CallSignature.Proofs.Comment.Cleaning
import CallSignature.Proofs.Nesting.Quiet
import Mathlib.Data.List.TakeWhile

namespace CallSignature

open Unicode

/-! ## Reading a name -/

namespace Cursor

/-- A name is read as far as it goes. -/
theorem name?_eq_some {t name : Text} (h : name? t = some name) :
    ∃ rest, t = name ++ rest ∧ name? name = some name ∧
      rest.head?.any isNameContinue = false := by
  cases t with
  | nil => cases h
  | cons c t =>
    rw [name?] at h
    split at h
    · rename_i hstart
      obtain rfl := Option.some.inj h
      refine ⟨t.dropWhile isNameContinue, ?_, ?_, ?_⟩
      · rw [List.cons_append, List.takeWhile_append_dropWhile]
      · have hword : (t.takeWhile isNameContinue).takeWhile isNameContinue
            = t.takeWhile isNameContinue := List.takeWhile_idem
        have hsharp : c = '#' → (t.takeWhile isNameContinue).head?.any isNameStart
            = t.head?.any isNameStart := by
          intro _
          cases t with
          | nil => rfl
          | cons d t =>
            cases hd : isNameContinue d with
            | true => simp [hd]
            | false =>
              have hstart : isNameStart d = false := Bool.eq_false_iff.2 fun hd' => by
                rw [isNameContinue_of_isNameStart hd'] at hd
                cases hd
              simp [hd, hstart]
        rw [name?, hword, if_pos]
        by_cases hc : c = '#'
        · rwa [hsharp hc]
        · simpa [hc] using hstart
      · have := List.head?_dropWhile_not isNameContinue t
        cases hhead : (t.dropWhile isNameContinue).head? with
        | none => rfl
        | some d => rw [hhead] at this; simpa using this
    · cases h

/-- A name with something behind it that cannot continue it. -/
theorem name?_append {name rest : Text} (h : name? name = some name)
    (hrest : rest.head?.any isNameContinue = false) : name? (name ++ rest) = some name := by
  cases name with
  | nil => cases h
  | cons c name =>
    rw [name?] at h
    split at h
    · rename_i hstart
      obtain ⟨-, hall⟩ := List.cons.inj (Option.some.inj h)
      have htake : (name ++ rest).takeWhile isNameContinue = name := by
        rw [List.takeWhile_append, hall, if_pos rfl]
        cases rest with
        | nil => rw [List.takeWhile_nil, List.append_nil]
        | cons d rest =>
          have hd : isNameContinue d = false := by simpa using hrest
          rw [List.takeWhile_cons, hd, if_neg Bool.false_ne_true, List.append_nil]
      rw [List.cons_append, name?, htake, if_pos]
      cases name with
      | nil =>
        -- the number sign does not begin a name by itself
        have hc : isNameStart c = true := by simpa using hstart
        simp [hc]
      | cons d name => exact hstart
    · cases h

/-- The characters that a name is made of. -/
theorem isNameContinue_of_mem_name? {t name : Text} (h : name? t = some name) :
    ∀ p ∈ name, p = '#' ∨ isNameContinue p = true := by
  cases t with
  | nil => cases h
  | cons c t =>
    rw [name?] at h
    split at h
    · rename_i hstart
      obtain rfl := Option.some.inj h
      rintro p hp
      rcases List.mem_cons.1 hp with rfl | hp
      · by_cases hsharp : p = '#'
        · exact .inl hsharp
        · refine .inr (isNameContinue_of_isNameStart ?_)
          simpa [hsharp] using hstart
      · exact .inr
          (List.all_eq_true.1 (List.all_takeWhile (p := isNameContinue) (l := t)) p hp)
    · cases h

end Cursor

/-! ## The characters of a name -/

open Cursor

/-- Characters that are no part of a name, but for the number sign at the
beginning of one. -/
def nonNameChars : List Char :=
  [' ', '\n', '\r', '\'', '"', '`', '(', ')', '[', ']', '{', '}', '/', '*', '=', '>',
    '#', '\x00']

theorem isNameContinue_of_nonName {c : Char} (h : c ∈ nonNameChars) :
    isNameContinue c = false := by
  have hall : nonNameChars.all (fun c => !isNameContinue c) = true := by decide
  simpa using List.all_eq_true.1 hall c h

theorem not_mem_name {t name : Text} (h : name? t = some name) {c : Char}
    (hc : c ∈ nonNameChars) (hsharp : c ≠ '#') : c ∉ name := by
  intro hmem
  rcases isNameContinue_of_mem_name? h c hmem with heq | hcontinue
  · exact hsharp heq
  · rw [isNameContinue_of_nonName hc] at hcontinue
    cases hcontinue

/-- A text without quotes and brackets is plain. -/
theorem isPlain_of_lacksNonName {t : Text} (h : ∀ c ∈ nonNameChars, c ≠ '#' → c ∉ t) :
    ∀ c ∈ t, isPlain c = true := by
  intro c hmem
  refine isPlain_iff.2 ⟨Bool.eq_false_iff.2 fun hquote => ?_, ?_,
    Bool.eq_false_iff.2 fun hc => ?_⟩
  · rcases eq_of_isQuote hquote with rfl | rfl | rfl <;>
      exact h _ (by decide) (by decide) hmem
  · refine Option.eq_none_iff_forall_ne_some.2 fun closer hc => ?_
    rcases eq_of_closerOf? hc with ⟨rfl, -⟩ | ⟨rfl, -⟩ | ⟨rfl, -⟩ <;>
      exact h _ (by decide) (by decide) hmem
  · rcases eq_of_isCloser hc with rfl | rfl | rfl <;>
      exact h _ (by decide) (by decide) hmem

theorem isPlain_of_mem_name {t name : Text} (h : name? t = some name) :
    ∀ c ∈ name, isPlain c = true :=
  isPlain_of_lacksNonName fun _ hc hsharp => not_mem_name h hc hsharp

theorem orderly_name {t name : Text} (h : name? t = some name) : Orderly name :=
  orderly_of_plain (isPlain_of_mem_name h)

theorem quiet_name {t name : Text} (h : name? t = some name) : Quiet name :=
  (orderly_name h).quiet

/-! ## White space -/

/-- The code points of the ranges, one by one. -/
def Unicode.RangeTable.codes (table : RangeTable) : List Nat :=
  table.flatMap fun range => List.range' range.1 (range.2 + 1 - range.1)

theorem Unicode.RangeTable.mem_codes {table : RangeTable} (h : table.ascending = true)
    {code : Nat} (hholds : table.holds code = true) : code ∈ table.codes := by
  obtain ⟨range, hrange, hfirst, hlast⟩ := (RangeTable.holds_iff_of_ascending h code).1 hholds
  refine List.mem_flatMap.2 ⟨range, hrange, List.mem_range'_1.2 ⟨hfirst, ?_⟩⟩
  omega

/-- A property that no code point of white space has tells a character from
white space. -/
theorem isWhiteSpace_eq_false {p : Nat → Bool}
    (hcodes : whiteSpaceRanges.codes.all (fun code => !p code) = true) {c : Char}
    (hc : p c.toNat = true) : isWhiteSpace c = false := by
  refine Bool.eq_false_iff.2 fun hspace => ?_
  have hcode := List.all_eq_true.1 hcodes c.toNat
    (RangeTable.mem_codes ascending_whiteSpaceRanges hspace)
  rw [hc] at hcode
  cases hcode

/-- White space is no part of a name. -/
theorem isWhiteSpace_of_isNameContinue {c : Char} (h : isNameContinue c = true) :
    isWhiteSpace c = false := by
  refine isWhiteSpace_eq_false (p := fun code => alphabeticRanges.holds code ||
    numericRanges.holds code || code == '_'.toNat || code == '$'.toNat) (by decide +kernel) ?_
  simp only [isNameContinue, isAlphabetic, isNumeric, Bool.or_eq_true, beq_iff_eq] at h ⊢
  exact h.imp (Or.imp_right (congrArg Char.toNat)) (congrArg Char.toNat)

theorem isWhiteSpace_of_mem_name {t name : Text} (h : name? t = some name) :
    ∀ c ∈ name, isWhiteSpace c = false := by
  intro c hmem
  rcases isNameContinue_of_mem_name? h c hmem with rfl | hcontinue
  · decide
  · exact isWhiteSpace_of_isNameContinue hcontinue

theorem isVisible_of_mem_name {t name : Text} (h : name? t = some name) :
    ∀ c ∈ name, isVisible c = true ∧ isQuote c = false := by
  intro c hmem
  have hne : ∀ d ∈ [' ', '\n', '\r'], c ≠ d := by
    rintro d hd rfl
    simp only [List.mem_cons, List.not_mem_nil, or_false] at hd
    rcases hd with rfl | rfl | rfl <;> exact not_mem_name h (by decide) (by decide) hmem
  refine ⟨?_, (isPlain_iff.1 (isPlain_of_mem_name h c hmem)).1⟩
  simp [isVisible, hne ' ' (by simp), hne '\n' (by simp), hne '\r' (by simp)]

end CallSignature
