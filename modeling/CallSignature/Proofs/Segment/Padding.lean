/-
CallSignature.Proofs.Segment.Padding — white space around lists and pieces.

White space in front of a piece moves the segment that is cut out, and white
space behind it does nothing (`trimmed_padded`).  So a list has the same
elements, at the same places, whether or not the white space around the whole
list is taken away first (`elements_trimmed`).  The only piece that is moved
by that is one that is blank and stands last, and it is no element.
-/
import CallSignature.Proofs.Segment.Elements

namespace CallSignature

open Unicode

/-! ## Pieces -/

theorem trimmed_append_left {l : Text} (hl : l.isBlank = true) (p : Text) (offset : Nat) :
    Segment.trimmed (l ++ p) offset = Segment.trimmed p (offset + l.width) := by
  have htake : (l ++ p).takeWhile isWhiteSpace = l ++ p.takeWhile isWhiteSpace := by
    induction l with
    | nil => rfl
    | cons c l ih =>
      obtain ⟨hc, hl⟩ := Text.isBlank_cons.1 hl
      rw [List.cons_append, List.takeWhile_cons, if_pos hc, ih hl, List.cons_append]
  have htrim : Text.trim (l ++ p) = p.trim := by
    rw [Text.trim, Text.trimStart_append_of_isBlank hl, Text.trim]
  rw [Segment.trimmed, Segment.trimmed, htake, htrim, Text.width_append, Nat.add_assoc]

/-- A text with white space around it, as a segment. -/
theorem trimmed_padded {l t r : Text} (hl : l.isBlank = true) (ht : t.Trimmed) (hne : t ≠ [])
    (hr : r.isBlank = true) (offset : Nat) :
    Segment.trimmed (l ++ t ++ r) offset = ⟨t, offset + l.width⟩ := by
  obtain ⟨c, t, rfl⟩ := List.exists_cons_of_ne_nil hne
  have htrim := Text.trim_padded (l := []) Text.isBlank_nil ht hr
  have htake : (c :: t ++ r).takeWhile isWhiteSpace = [] := by
    simp [(Text.trimmed_iff.1 ht).1 c rfl]
  rw [List.append_assoc, trimmed_append_left hl, Segment.trimmed, htake]
  exact congrArg (Segment.mk · _) htrim

/-- White space behind a piece that is not blank does nothing. -/
theorem trimmed_append_right {p r : Text} (hp : p.isBlank = false) (hr : r.isBlank = true)
    (offset : Nat) : Segment.trimmed (p ++ r) offset = Segment.trimmed p offset := by
  obtain ⟨l, r', hl, hr', heq⟩ := Text.exists_trim p
  have hne : p.trim ≠ [] := fun hnil => by
    rw [Text.isBlank_of_trim_eq_nil hnil] at hp
    cases hp
  have hpiece := trimmed_padded hl (Text.trimmed_trim p) hne hr' offset
  have hpadded :=
    trimmed_padded hl (Text.trimmed_trim p) hne (Text.isBlank_append hr' hr) offset
  rw [← heq] at hpiece
  rw [← List.append_assoc, ← heq] at hpadded
  rw [hpiece, hpadded]

theorem trimmed_of_isBlank {p : Text} (hp : p.isBlank = true) (offset : Nat) :
    ∃ place, Segment.trimmed p offset = ⟨[], place⟩ := by
  have h := trimmed_append_left hp [] offset
  rw [List.append_nil] at h
  exact ⟨_, h⟩

theorem isPiece_of_isBlank {p : Text} (hp : p.isBlank = true) : IsPiece p := by
  induction p with
  | nil => exact isPiece_nil
  | cons c p ih =>
    obtain ⟨hc, hp⟩ := Text.isBlank_cons.1 hp
    have hplain := isPlain_of_isWhiteSpace hc
    have hcomma : c ≠ ',' := by
      rintro rfl
      exact absurd hc (by decide)
    exact ⟨(ih hp).1.cons hplain, (lacksTop_cons hplain (ih hp).1).2 ⟨hcomma, (ih hp).2⟩⟩

theorem IsPiece.append {p q : Text} (hp : IsPiece p) (hq : IsPiece q) : IsPiece (p ++ q) :=
  ⟨hp.1.append hq.1, (lacksTop_append hp.1 hq.1).2 ⟨hp.2, hq.2⟩⟩

/-! ## Lists -/

/-- A row of pieces is cut alike with white space in front of it. -/
theorem placed_append_left {l : Text} (hl : l.isBlank = true) (p : Text) (ps : List Text)
    (offset : Nat) : placed offset (l ++ p) ps = placed (offset + l.width) p ps := by
  cases ps with
  | nil => simp only [placed, trimmed_append_left hl]
  | cons q ps => simp only [placed, trimmed_append_left hl, Text.width_append, Nat.add_assoc]

/-- A row of pieces that is not blank is cut alike with white space behind it. -/
theorem exists_joined_append_right {p : Text} {ps : List Text}
    (hpieces : ∀ q ∈ p :: ps, IsPiece q) (hblank : (joined ',' p ps).isBlank = false)
    {r : Text} (hr : r.isBlank = true) :
    ∃ p' ps', joined ',' p ps ++ r = joined ',' p' ps' ∧ (∀ q ∈ p' :: ps', IsPiece q) ∧
      ∀ offset, Segment.withoutTrailing (placed offset p' ps')
        = Segment.withoutTrailing (placed offset p ps) := by
  rcases List.eq_nil_or_concat ps with rfl | ⟨front, last, rfl⟩
  · refine ⟨p ++ r, [], rfl, ?_, fun offset => ?_⟩
    · simpa using (hpieces p (by simp)).append (isPiece_of_isBlank hr)
    · rw [placed, placed, trimmed_append_right (p := p) hblank hr]
  · rw [List.concat_eq_append] at hpieces ⊢
    refine ⟨p, front ++ [last ++ r], ?_, ?_, fun offset => ?_⟩
    · rw [← joined_concat, ← joined_concat, List.append_assoc, List.cons_append]
    · rw [← List.cons_append, List.forall_mem_append] at hpieces ⊢
      have hlast := hpieces.2 last (by simp)
      exact ⟨hpieces.1, by simpa using hlast.append (isPiece_of_isBlank hr)⟩
    · obtain ⟨place, hplaced⟩ := placed_concat offset p front
      rw [hplaced, hplaced]
      cases hlast : last.isBlank with
      | false => rw [trimmed_append_right hlast hr]
      | true =>
        -- a blank piece at the end is left out wherever it stands
        obtain ⟨here, hhere⟩ := trimmed_of_isBlank hlast place
        obtain ⟨there, hthere⟩ := trimmed_of_isBlank (Text.isBlank_append hlast hr) place
        have hne := placed_ne_nil offset p front
        rw [hhere, hthere, withoutTrailing_append_nil hne, withoutTrailing_append_nil hne]

/-- The white space around a list is of no account. -/
theorem elements_trimmed {t : Text} (h : Orderly t) (offset : Nat) :
    (Segment.trimmed t offset).elements = Segment.elements ⟨t, offset⟩ := by
  obtain ⟨l, r, hl, hr, heq⟩ := Text.exists_trim t
  cases hblank : t.isBlank with
  | true =>
    obtain ⟨place, hplace⟩ := trimmed_of_isBlank hblank offset
    rw [hplace, Segment.elements, Segment.elements, if_pos Text.isBlank_nil, if_pos hblank]
  | false =>
    have hne : t.trim ≠ [] := fun hnil => by
      rw [Text.isBlank_of_trim_eq_nil hnil] at hblank
      cases hblank
    have hcore := (Text.trimmed_trim t).isBlank_eq_false hne
    have hsegment := trimmed_padded hl (Text.trimmed_trim t) hne hr offset
    rw [← heq] at hsegment
    rw [hsegment]
    obtain ⟨p, ps, hjoined, hpieces⟩ := exists_joined h.trim
    rw [hjoined] at hcore heq ⊢
    obtain ⟨p', ps', hright, hpieces', hplaced⟩ := exists_joined_append_right hpieces hcore hr
    have hleft : l ++ joined ',' p' ps' = joined ',' (l ++ p') ps' := by
      cases ps' <;> simp [joined]
    rw [List.append_assoc, hright, hleft] at heq
    have hwhole : ∀ q ∈ (l ++ p') :: ps', IsPiece q := by
      rw [List.forall_mem_cons] at hpieces' ⊢
      exact ⟨(isPiece_of_isBlank hl).append hpieces'.1, hpieces'.2⟩
    rw [heq] at hblank ⊢
    rw [elements_joined hpieces hcore, elements_joined hwhole hblank, placed_append_left hl,
      hplaced]

end CallSignature
