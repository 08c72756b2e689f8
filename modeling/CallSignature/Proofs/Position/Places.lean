/-
CallSignature.Proofs.Position.Places — offsets and places.

At the boundaries of a source an offset and its place say the same.  Further
on in the source is further on line by line, and on one line column by column
(`locate_lt_iff`), so no two boundaries have one place; and the place of a
character can be looked up in the rows of the source, where that occurrence of
the character and no other is found (`occupant?_locate`).  A line feed stands
on no row and has only the place behind the row that it ends.

Inside a character it is otherwise.  An offset there has the place BEHIND the
character, not that of the character (`locate_inside`).
-/
import CallSignature.Proofs.Position.Rows
import CallSignature.Proofs.Checked.Cuts

namespace CallSignature

namespace Text

variable {front behind t : Text} {c : Char} {offset : Nat}

/-! ## Cutting inside a character -/

theorem takeBytes_inside (hlow : front.width < offset)
    (hhigh : offset ≤ front.width + c.utf8Size) :
    (front ++ c :: behind).takeBytes offset = front ++ [c] := by
  induction front generalizing offset with
  | nil =>
    rw [width_nil] at hlow hhigh
    have hrest : offset - c.utf8Size = 0 := by omega
    rw [List.nil_append, takeBytes, if_neg (Nat.ne_of_gt hlow), hrest, takeBytes_zero]
    rfl
  | cons d front ih =>
    rw [width_cons] at hlow hhigh
    have hpos : offset ≠ 0 := by omega
    rw [List.cons_append, takeBytes, if_neg hpos, ih (by omega) (by omega)]
    rfl

theorem takeBytes_of_width_le (h : t.width ≤ offset) : t.takeBytes offset = t := by
  induction t generalizing offset with
  | nil => rfl
  | cons c t ih =>
    have hsize := c.utf8Size_pos
    rw [width_cons] at h
    rw [takeBytes, if_neg (by omega), ih (by omega)]

end Text

namespace Position

open Text

variable {p q : Position} {source front behind t : Text} {c : Char} {first last offset : Nat}

/-! ## Order -/

/-- The place lies further up, or on the same line and further left. -/
def Before (p q : Position) : Prop :=
  p.line < q.line ∨ p.line = q.line ∧ p.column < q.column

instance : Decidable (p.Before q) :=
  inferInstanceAs (Decidable (_ ∨ _))

theorem not_before_self (p : Position) : ¬ p.Before p := by
  simp [Before]

theorem Before.trans {r : Position} (h : p.Before q) (h' : q.Before r) : p.Before r := by
  unfold Before at *
  omega

/-- A reader goes forward with every character. -/
theorem before_after (p : Position) (c : Char) : p.Before (p.after c) := by
  by_cases hc : c = '\n'
  · exact .inl (by simp [after, hc])
  · exact .inr (by simp [after, hc])

theorem before_foldl_after (p : Position) (h : t ≠ []) : p.Before (t.foldl after p) := by
  induction t generalizing p with
  | nil => exact absurd rfl h
  | cons c t ih =>
    rw [List.foldl_cons]
    cases t with
    | nil => exact before_after p c
    | cons d t => exact (before_after p c).trans (ih _ (List.cons_ne_nil d t))

/-- Of two boundaries, the one in front has the place in front. -/
theorem before_locate (hfirst : source.IsBoundary first) (hlast : source.IsBoundary last)
    (h : first < last) : (locate source first).Before (locate source last) := by
  obtain ⟨a, b, rfl, rfl⟩ := hfirst
  obtain ⟨a', b', hcut, rfl⟩ := hlast
  obtain ⟨more, rfl, -⟩ := exists_append_of_width_le hcut (Nat.le_of_lt h)
  have hmore : more ≠ [] := by
    rintro rfl
    simp at h
  rw [hcut, locate_append, ← hcut, locate_append, List.foldl_append]
  exact before_foldl_after _ hmore

theorem locate_lt_iff (hfirst : source.IsBoundary first) (hlast : source.IsBoundary last) :
    first < last ↔ (locate source first).Before (locate source last) := by
  refine ⟨before_locate hfirst hlast, fun h => ?_⟩
  rcases Nat.lt_trichotomy first last with hlt | rfl | hgt
  · exact hlt
  · exact absurd h (not_before_self _)
  · exact absurd (h.trans (before_locate hlast hfirst hgt)) (not_before_self _)

theorem locate_inj (hfirst : source.IsBoundary first) (hlast : source.IsBoundary last)
    (h : locate source first = locate source last) : first = last := by
  rcases Nat.lt_trichotomy first last with hlt | heq | hgt
  · exact absurd (h ▸ before_locate hfirst hlast hlt) (not_before_self _)
  · exact heq
  · exact absurd (h ▸ before_locate hlast hfirst hgt) (not_before_self _)

/-! ## Looking a place up -/

/-- The character at a place, with the offset at which it stands.  The source
is split on its line feeds; the line counts the rows from one, and the column
counts the characters of the row from zero. -/
def occupant? (source : Text) : Position → Option (Nat × Char)
  | ⟨0, _⟩ => none
  | ⟨line + 1, column⟩ =>
    let rows := source.splitOn '\n'
    rows[line]?.bind fun row =>
      row[column]?.map fun c => ((ofRows (rows.take line) ++ row.take column).width, c)

theorem occupant?_locate (hc : c ≠ '\n') (front behind : Text) :
    occupant? (front ++ c :: behind) (locate (front ++ c :: behind) front.width)
      = some (front.width, c) := by
  obtain ⟨rows, left, rfl, hrows, hleft⟩ := exists_rows front
  obtain ⟨right, rest, rfl, hright, hrest⟩ := exists_row behind
  have hrow : '\n' ∉ left ++ c :: right := by simp [hleft, hright, Ne.symm hc]
  obtain ⟨below, hbelow⟩ := splitOn_row hrow hrest
  have hsplit : (ofRows rows ++ left ++ c :: (right ++ rest)).splitOn '\n'
      = rows ++ (left ++ c :: right) :: below := by
    rw [← hbelow, ← splitOn_ofRows hrows]
    simp
  rw [locate_ofRows hrows hleft, occupant?, hsplit]
  simp

/-- At its boundaries a source is read forward: the order of the offsets is
that of the places.  The place of a character leads back to it. -/
theorem locate_embeds (source : Text) :
    (∀ first last, source.IsBoundary first → source.IsBoundary last →
      (first < last ↔ (locate source first).Before (locate source last)) ∧
      (locate source first = locate source last → first = last)) ∧
    ∀ (front : Text) c behind, source = front ++ c :: behind → c ≠ '\n' →
      occupant? source (locate source front.width) = some (front.width, c) := by
  refine ⟨fun first last hfirst hlast => ⟨locate_lt_iff hfirst hlast, locate_inj hfirst hlast⟩,
    ?_⟩
  rintro front c behind rfl hc
  exact occupant?_locate hc front behind

/-- Rows with characters of several widths, an empty one among them. -/
def raggedRows : Text := "é\n\n日本b".toList

theorem locate_embeds_raggedRows :
    raggedRows.IsBoundary 3 ∧ raggedRows.IsBoundary 7 ∧
      (locate raggedRows 3).Before (locate raggedRows 7) ∧
      raggedRows = "é\n\n日".toList ++ '本' :: "b".toList ∧ '本' ≠ '\n' ∧
      occupant? raggedRows (locate raggedRows 7) = some (7, '本') := by
  have hfirst : raggedRows.IsBoundary 3 := by decide
  have hlast : raggedRows.IsBoundary 7 := by decide
  have hcut : raggedRows = "é\n\n日".toList ++ '本' :: "b".toList := rfl
  exact ⟨hfirst, hlast, ((locate_embeds raggedRows).1 3 7 hfirst hlast).1.1 (by decide), hcut,
    by decide, (locate_embeds raggedRows).2 _ _ _ hcut (by decide)⟩

/-- The end of a row lies before the beginning of the next. -/
example : (locate raggedRows 2).Before (locate raggedRows 3) := by decide

/-! ## Offsets inside a character -/

/-- Behind the first byte of a character is behind the character. -/
theorem locate_of_inside (hlow : front.width < offset)
    (hhigh : offset ≤ front.width + c.utf8Size) :
    locate (front ++ c :: behind) offset
      = (locate (front ++ c :: behind) front.width).after c := by
  rw [locate, takeBytes_inside hlow hhigh, locate_append, List.foldl_append]
  rfl

/-- The offsets of a character: only the first has the place of the character,
and all others have the place behind it.  An offset past the end has the place
of the end. -/
theorem locate_inside (source : Text) :
    (∀ (front : Text) c behind, source = front ++ c :: behind → ∀ offset,
      front.width ≤ offset → offset < front.width + c.utf8Size →
        (locate source offset = locate source front.width ↔ offset = front.width) ∧
        (offset ≠ front.width →
          locate source offset = locate source (front.width + c.utf8Size))) ∧
    ∀ offset, source.width ≤ offset → locate source offset = locate source source.width := by
  constructor
  · rintro front c behind rfl offset hlow hhigh
    have hsize := c.utf8Size_pos
    have hbehind : offset ≠ front.width → locate (front ++ c :: behind) offset
        = (locate (front ++ c :: behind) front.width).after c := fun hne =>
      locate_of_inside (by omega) (by omega)
    refine ⟨⟨fun h => ?_, fun h => by rw [h]⟩, fun hne => ?_⟩
    · refine Decidable.byContradiction fun hne => ?_
      have hforward := before_after (locate (front ++ c :: behind) front.width) c
      rw [← hbehind hne, h] at hforward
      exact not_before_self _ hforward
    · rw [hbehind hne, ← locate_of_inside (by omega) (Nat.le_refl _)]
  · intro offset h
    rw [locate, locate, takeBytes_of_width_le h, takeBytes_of_width_le (Nat.le_refl _)]

theorem locate_inside_wideCharacter :
    raggedRows = "é\n\n".toList ++ '日' :: "本b".toList ∧
      width "é\n\n".toList ≤ 6 ∧ 6 < width "é\n\n".toList + '日'.utf8Size ∧
      locate raggedRows 6 = locate raggedRows 7 ∧ raggedRows.width ≤ 40 ∧
      locate raggedRows 40 = locate raggedRows 11 := by
  have hcut : raggedRows = "é\n\n".toList ++ '日' :: "本b".toList := rfl
  exact ⟨hcut, by decide, by decide,
    ((locate_inside raggedRows).1 _ _ _ hcut 6 (by decide) (by decide)).2 (by decide),
    by decide, (locate_inside raggedRows).2 40 (by decide)⟩

/-- The second byte of a character does not have its place. -/
theorem not_forall_locate_inside :
    ¬ ∀ (source front behind : Text) (c : Char) (offset : Nat), source = front ++ c :: behind →
      front.width ≤ offset → offset < front.width + c.utf8Size →
        locate source offset = locate source front.width := by
  intro h
  have hsecond := h "é".toList [] [] 'é' 1 rfl (by decide) (by decide)
  exact absurd hsecond (by decide)

end Position

end CallSignature
