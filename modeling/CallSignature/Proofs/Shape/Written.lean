/-
CallSignature.Proofs.Shape.Written — what a written shape looks like.

The source of a canonical shape is orderly and trimmed, empty only for a hole,
and without a comma of its own where it stands in a list (`written`).  So the
sources of the items or entries of a shape are the elements of the list that
they are written as (`elements_of_row`): the comma behind a hole at the end is
the one that a list may end with.
-/
import CallSignature.Proofs.Segment.Rows
import CallSignature.Proofs.Shape.WellFormed

namespace CallSignature

open Shape Unicode

/-! ## Rows of texts -/

theorem isPlain_space : isPlain ' ' = true := by decide

theorem IsPiece.space {t : Text} (h : IsPiece t) : IsPiece (' ' :: t) :=
  ⟨h.1.cons isPlain_space, (lacksTop_cons isPlain_space h.1).2 ⟨by decide, h.2⟩⟩

theorem intercalate_eq_joined (t : Text) (ts : List Text) :
    separator.intercalate (t :: ts) = joined ',' t (ts.map (' ' :: ·)) := by
  induction ts generalizing t with
  | nil => simp [joined]
  | cons u ts ih =>
    rw [List.intercalate_cons_cons, ih, List.map_cons, joined]
    cases ts <;> simp [separator, joined]

theorem getLast?_intercalate (ts : List Text) {t : Text} (h : t ≠ []) :
    (separator.intercalate (ts ++ [t])).getLast? = t.getLast? := by
  induction ts with
  | nil => simp
  | cons u ts ih =>
    obtain ⟨x, xs, hx⟩ := List.exists_cons_of_ne_nil (l := ts ++ [t]) (by simp)
    rw [List.cons_append, hx, List.intercalate_cons_cons, List.getLast?_append, ← hx, ih]
    cases hlast : t.getLast? with
    | none => exact absurd (List.getLast?_eq_none_iff.1 hlast) h
    | some c => rfl

/-- The mark that a written list ends with: a comma, which may stand behind
any element and must stand behind an empty one. -/
def IsMark (ts : List Text) (mark : Text) : Prop :=
  mark = [','] ∧ ts ≠ [] ∨ mark = [] ∧ ts.getLast? ≠ some []

/-- A text behind a space. -/
def spaced (t : Text) : Padded :=
  { before := [' '], text := t }

theorem map_text_row (t : Text) (ts : List Text) :
    (Padded.ofText t :: ts.map spaced).map (·.text) = t :: ts := by
  rw [List.map_cons, List.map_map]
  exact congrArg (t :: ·) (List.map_id ts)

theorem isSpaced_row {t : Text} {ts : List Text} (h : ∀ u ∈ t :: ts, IsElement u) :
    ∀ p ∈ Padded.ofText t :: ts.map spaced, p.IsSpaced := by
  obtain ⟨ht, hts⟩ := List.forall_mem_cons.1 h
  rw [List.forall_mem_cons, List.forall_mem_map]
  exact ⟨Padded.isSpaced_ofText ht, fun u hu =>
    ⟨show Text.isBlank [' '] = true by decide, rfl, hts u hu⟩⟩

/-- What is written is a list whose elements stand behind a space, except for
the first one. -/
theorem exists_row_eq {t : Text} {ts : List Text} {mark : Text}
    (hmark : IsMark (t :: ts) mark) :
    ∃ final, separator.intercalate (t :: ts) ++ mark
        = listSource (.ofText t) (ts.map spaced) final ∧
      (∀ gap ∈ final, gap.isBlank = true) ∧
      (final = none →
        ((Padded.ofText t :: ts.map spaced).map (·.text)).getLast? ≠ some []) := by
  have hjoined : joined ',' (Padded.ofText t).source ((ts.map spaced).map Padded.source)
      = separator.intercalate (t :: ts) := by
    rw [intercalate_eq_joined, List.map_map]
    exact congr (congrArg (joined ',') (List.append_nil t))
      (List.map_congr_left fun u _ => List.append_nil (' ' :: u))
  unfold listSource
  rw [hjoined, map_text_row]
  rcases hmark with ⟨rfl, -⟩ | ⟨rfl, hlast⟩
  · exact ⟨some [], rfl, by simp, nofun⟩
  · exact ⟨none, rfl, by simp, fun _ => hlast⟩

theorem orderly_row {ts : List Text} (h : ∀ t ∈ ts, IsElement t) {mark : Text}
    (hmark : IsMark ts mark) : Orderly (separator.intercalate ts ++ mark) := by
  cases ts with
  | nil =>
    rcases hmark with ⟨-, hne⟩ | ⟨rfl, -⟩
    · exact absurd rfl hne
    · exact orderly_nil
  | cons t ts =>
    obtain ⟨final, hrow, hfinal, -⟩ := exists_row_eq hmark
    rw [hrow]
    exact orderly_listSource (isSpaced_row h) hfinal

theorem trimmed_row {ts : List Text} (h : ∀ t ∈ ts, IsElement t) {mark : Text}
    (hmark : IsMark ts mark) : Text.Trimmed (separator.intercalate ts ++ mark) := by
  refine Text.trimmed_iff.2 ⟨fun c hc => ?_, fun c hc => ?_⟩
  · cases ts with
    | nil =>
      rcases hmark with ⟨-, hne⟩ | ⟨rfl, -⟩
      · exact absurd rfl hne
      · cases hc
    | cons t ts =>
      cases t with
      | cons d t =>
        have hd : c = d := by
          cases ts <;> simp_all
        exact hd ▸ (Text.trimmed_iff.1 (h (d :: t) (by simp)).1).1 d rfl
      | nil =>
        have hd : c = ',' := by
          cases ts with
          | nil =>
            rcases hmark with ⟨rfl, -⟩ | ⟨-, hlast⟩
            · simpa using hc.symm
            · exact absurd rfl hlast
          | cons u ts => simpa [List.intercalate_cons_cons, separator] using hc.symm
        exact hd ▸ by decide
  · rcases hmark with ⟨rfl, -⟩ | ⟨rfl, hlast⟩
    · have hd : c = ',' := by simpa using hc.symm
      exact hd ▸ by decide
    · rw [List.append_nil] at hc
      rcases List.eq_nil_or_concat ts with rfl | ⟨us, t, rfl⟩
      · cases hc
      · rw [List.concat_eq_append] at hc hlast h
        have hne : t ≠ [] := by rintro rfl; simp at hlast
        rw [getLast?_intercalate us hne] at hc
        exact (Text.trimmed_iff.1 (h t (by simp)).1).2 c hc

/-- The elements of a written list are the texts that it was written from. -/
theorem elements_of_row {ts : List Text} (h : ∀ t ∈ ts, IsElement t) {mark : Text}
    (hmark : IsMark ts mark) (offset : Nat) :
    ∃ parts, Segment.elements ⟨separator.intercalate ts ++ mark, offset⟩ = .ok parts ∧
      parts.map (·.text) = ts := by
  cases ts with
  | nil =>
    rcases hmark with ⟨-, hne⟩ | ⟨rfl, -⟩
    · exact absurd rfl hne
    · exact ⟨[], rfl, rfl⟩
  | cons t ts =>
    obtain ⟨final, hrow, hfinal, hlast⟩ := exists_row_eq hmark
    rw [hrow]
    refine ⟨_, elements_listSource (isSpaced_row h) hfinal hlast offset, ?_⟩
    rw [map_text_placed, ← List.map_cons, map_trim_source (isSpaced_row h), map_text_row]

/-! ## Shapes -/

theorem Shape.source_eq_nil_iff {s : Shape} : s.source = [] ↔ s.isHole = true := by
  cases s with
  | bool value => cases value <;> simp [source, isHole]
  | text words quote => cases quote <;> cases words <;> simp [source, isHole]
  | sequence items => simp [source, isHole]
  | mapping entries => simp [source, isHole]
  | spread operand => simp [source, isHole, dots]

theorem Shape.eq_hole {s : Shape} (h : s.isHole = true) : s = hole := by
  cases s with
  | text words quote => cases quote <;> cases words <;> first | rfl | cases h
  | _ => cases h

/-- What the source of a shape is at a place. -/
structure IsWritten (place : Place) (t : Text) : Prop where
  trimmed : t.Trimmed
  orderly : Orderly t
  lacksComma : place.isListed = true → LacksTop ',' t
  ne_nil : place.mayBeEmpty = false → t ≠ []

theorem IsWritten.isElement {place : Place} {t : Text} (h : IsWritten place t)
    (hplace : place.isListed = true) : IsElement t :=
  ⟨h.trimmed, h.orderly, h.lacksComma hplace⟩

theorem IsLeafText.isWritten {place : Place} {t : Text} (h : IsLeafText place t) :
    IsWritten place t :=
  ⟨h.trimmed, h.orderly, h.lacksComma, h.ne_nil⟩

theorem IsKey.isElement {key : Text} (h : IsKey key) : IsElement key :=
  ⟨h.trimmed, h.orderly, h.lacksComma⟩

theorem IsLiteral.isWritten {t : Text} (h : IsLiteral t) (place : Place) :
    IsWritten place t := by
  obtain ⟨quote, words, rfl, -, hquote, horderly, hvisits⟩ := h.exists_eq
  have hends : Text.Trimmed [quote] := by
    rcases eq_of_isQuote hquote with rfl | rfl | rfl <;> decide
  exact ⟨hends.around (by simp) hends (by simp) words, horderly,
    fun _ v hv => absurd (hvisits ▸ hv) List.not_mem_nil, by simp⟩

theorem isWritten_group {opener closer : Char} (h : closerOf? opener = some closer)
    {inner : Text} (hinner : Orderly inner) (place : Place) :
    IsWritten place (opener :: inner ++ [closer]) := by
  have hends : Text.Trimmed [opener] ∧ Text.Trimmed [closer] := by
    rcases eq_of_closerOf? h with ⟨rfl, rfl⟩ | ⟨rfl, rfl⟩ | ⟨rfl, rfl⟩ <;> decide
  exact ⟨hends.1.around (by simp) hends.2 (by simp) inner, hinner.group h,
    fun _ => lacksTop_group h hinner isPlain_comma, by simp⟩

theorem isPlain_dot : isPlain '.' = true := by decide

/-- Three dots before a text that is not empty. -/
theorem isWritten_dots {place : Place} {t : Text} (h : IsWritten place.operand t) :
    IsWritten place (dots ++ t) := by
  have hdots : Orderly dots :=
    ((orderly_nil.cons isPlain_dot).cons isPlain_dot).cons isPlain_dot
  have htrimmed : Text.Trimmed (dots ++ [] ++ t) :=
    Text.Trimmed.around (by decide) (by simp [dots]) h.trimmed (h.ne_nil rfl) []
  exact ⟨htrimmed, hdots.append h.orderly,
    fun hplace => (lacksTop_append hdots h.orderly).2 ⟨by decide, h.lacksComma hplace⟩,
    by simp [dots]⟩

theorem isPlain_colon : isPlain ':' = true := by decide

/-- A key and its value with a colon and a space between them. -/
theorem isElement_pair {key value : Text} (hkey : IsKey key)
    (hvalue : IsWritten .value value) : IsElement (key ++ [':', ' '] ++ value) := by
  have hspace : IsPiece (' ' :: value) := (hvalue.isElement rfl).2.space
  have hcolon : Orderly (':' :: ' ' :: value) := hspace.1.cons isPlain_colon
  have htrimmed :=
    hkey.trimmed.around hkey.ne_nil hvalue.trimmed (hvalue.ne_nil rfl) [':', ' ']
  rw [List.append_assoc] at htrimmed ⊢
  exact ⟨htrimmed, hkey.orderly.append hcolon, (lacksTop_append hkey.orderly hcolon).2
    ⟨hkey.lacksComma, (lacksTop_cons isPlain_colon hspace.1).2 ⟨by decide, hspace.2⟩⟩⟩

namespace Shape

theorem isMark_holeMark (items : List Shape) :
    IsMark (sourceOfItems items) (holeMark items) := by
  have hmap : sourceOfItems items = items.map source := by
    induction items with
    | nil => rfl
    | cons item items ih => rw [sourceOfItems, ih, List.map_cons]
  rw [hmap, holeMark]
  rcases List.eq_nil_or_concat items with rfl | ⟨front, last, rfl⟩
  · exact .inr ⟨rfl, by simp⟩
  · cases hlast : last.isHole with
    | true => exact .inl ⟨by simp [hlast], by simp⟩
    | false =>
      have hne : last.source ≠ [] := fun h => by
        rw [source_eq_nil_iff.1 h] at hlast
        cases hlast
      exact .inr ⟨by simp [hlast], by simp [hne]⟩

theorem isMark_nil {ts : List Text} (h : ∀ t ∈ ts, t ≠ []) : IsMark ts [] :=
  .inr ⟨rfl, fun hlast => h [] (List.mem_of_getLast? hlast) rfl⟩

mutual

/-- The source of a canonical shape fits its place. -/
theorem isWritten_source : ∀ {place : Place} (s : Shape), s.Canonical place →
    IsWritten place s.source
  | _, bool true, _ => ⟨by decide, by decide, fun _ => by decide, by simp [source]⟩
  | _, bool false, _ => ⟨by decide, by decide, fun _ => by decide, by simp [source]⟩
  | _, text _ .none, h => IsLeafText.isWritten h
  | place, text _ (some _), h => IsLiteral.isWritten h place
  | place, sequence items, h => by
    have hrow := orderly_row (isElement_sourceOfItems items h) (isMark_holeMark items)
    simpa [source] using isWritten_group closerOf?_square hrow place
  | place, mapping entries, h => by
    have hentries := isElement_sourceOfEntries entries h
    have hrow := orderly_row (fun t ht => (hentries t ht).1)
      (isMark_nil fun t ht => (hentries t ht).2)
    rw [List.append_nil] at hrow
    exact isWritten_group closerOf?_curly hrow place
  | _, spread operand, h => isWritten_dots (isWritten_source operand h)

theorem isElement_sourceOfItems : ∀ items : List Shape, CanonicalItems items →
    ∀ t ∈ sourceOfItems items, IsElement t
  | [], _ => by simp [sourceOfItems]
  | item :: rest, ⟨hitem, hrest⟩ => by
    rw [sourceOfItems, List.forall_mem_cons]
    exact ⟨(isWritten_source item hitem).isElement rfl, isElement_sourceOfItems rest hrest⟩

theorem isElement_sourceOfEntries : ∀ entries : List Entry, CanonicalEntries entries →
    ∀ t ∈ sourceOfEntries entries, IsElement t ∧ t ≠ []
  | [], _ => by simp [sourceOfEntries]
  | .shorthand key :: rest, ⟨hkey, hrest⟩ => by
    rw [sourceOfEntries, List.forall_mem_cons]
    exact ⟨⟨hkey.isElement, hkey.ne_nil⟩, isElement_sourceOfEntries rest hrest⟩
  | .valued key value :: rest, ⟨hkey, hvalue, hrest⟩ => by
    rw [sourceOfEntries, List.forall_mem_cons]
    refine ⟨?_, isElement_sourceOfEntries rest hrest⟩
    split
    · -- the key may be anything here, even the whole entry is one element
      have hdots : IsWritten .value (dots ++ key) := isWritten_dots
        ⟨hkey.trimmed, hkey.orderly, fun _ => hkey.lacksComma, fun _ => hkey.ne_nil⟩
      exact ⟨hdots.isElement rfl, by simp [dots]⟩
    · exact ⟨isElement_pair hkey (isWritten_source value hvalue), by simp⟩

end

end Shape

end CallSignature
