/-
CallSignature.Proofs.Position.Lines — the line of a character.

A line is a row without the carriage return that may stand at its end.  It is
told from the character that stands on it: `left` and `right` are what stands
on both sides of the character, up to where the line begins and ends
(`IsLineOf`).  Counting the line feeds in front of the character finds this
line among the lines of the text (`getD_lines`, `headD_lines`).
-/
import CallSignature.Proofs.Position.Rows

namespace CallSignature

open Text

variable {front behind left right rest t line : Text} {c : Char} {rows : List Text}

/-! ## The line of a character -/

/-- A line ends with the text, or with a line feed, and a carriage return
before that belongs to the end. -/
inductive EndsLine (line : Text) : Text → Prop
  | atEnd : EndsLine line []
  | feed {rest : Text} (h : line.getLast? ≠ some '\r') : EndsLine line ('\n' :: rest)
  | returnFeed {rest : Text} : EndsLine line ('\r' :: '\n' :: rest)

/-- A character has `front` in front of it and `behind` behind it, and of
these `left` and `right` are on its own line. -/
structure IsLineOf (front : Text) (c : Char) (behind left right : Text) : Prop where
  begins : ∃ above, front = above ++ left ∧ (above = [] ∨ above.getLast? = some '\n')
  ends : ∃ below, behind = right ++ below ∧ EndsLine (left ++ c :: right) below
  oneLine : '\n' ∉ left ++ c :: right

/-- A character that is no line end itself is followed by the rest of its
line. -/
theorem exists_endsLine (hcr : c = '\r' → behind.head? ≠ some '\n') (left : Text) :
    ∃ right below, behind = right ++ below ∧ '\n' ∉ right ∧
      EndsLine (left ++ c :: right) below := by
  obtain ⟨row, rest, rfl, hrow, rfl | ⟨below, rfl⟩⟩ := exists_row behind
  · exact ⟨row, [], rfl, hrow, .atEnd⟩
  · by_cases hlast : (c :: row).getLast? = some '\r'
    · rcases List.eq_nil_or_concat row with rfl | ⟨right, d, rfl⟩
      · exact absurd rfl (hcr (Option.some.inj hlast))
      · -- the row ends with a carriage return, and the line in front of it
        rw [List.concat_eq_append] at hrow hlast ⊢
        rw [← List.cons_append, List.getLast?_concat] at hlast
        obtain rfl : d = '\r' := Option.some.inj hlast
        have hright : '\n' ∉ right := fun hmem => hrow (List.mem_append_left _ hmem)
        exact ⟨right, '\r' :: '\n' :: below, by simp, hright, .returnFeed⟩
    · exact ⟨row, '\n' :: below, rfl, hrow, .feed (by simpa using hlast)⟩

theorem exists_isLineOf (hrows : ∀ r ∈ rows, '\n' ∉ r) (hleft : '\n' ∉ left) (hc : c ≠ '\n')
    (hcr : c = '\r' → behind.head? ≠ some '\n') :
    ∃ right, IsLineOf (ofRows rows ++ left) c behind left right := by
  obtain ⟨right, below, hbehind, hright, hends⟩ := exists_endsLine hcr left
  have hline : '\n' ∉ left ++ c :: right := by simp [hleft, hright, Ne.symm hc]
  refine ⟨right, ⟨⟨ofRows rows, rfl, ?_⟩, ⟨below, hbehind, hends⟩, hline⟩⟩
  rcases List.eq_nil_or_concat rows with rfl | ⟨above, row, rfl⟩
  · exact .inl rfl
  · exact .inr (by simp [ofRows])

/-! ## The lines of a text -/

/-- A character that ends no line belongs to the first line of what follows. -/
theorem lines_cons (hc : c ≠ '\n') (hcr : c = '\r' → t.head? ≠ some '\n') :
    Text.lines (c :: t) = (c :: (Text.lines t).headD []) :: (Text.lines t).tail := by
  conv => lhs; unfold Text.lines
  split
  · rename_i heq
    cases heq
  · rename_i heq
    exact absurd (List.cons.inj heq).1 hc
  · rename_i heq
    obtain ⟨rfl, rfl⟩ := List.cons.inj heq
    exact absurd rfl (hcr rfl)
  · rename_i heq
    obtain ⟨rfl, rfl⟩ := List.cons.inj heq
    cases Text.lines t <;> rfl

/-- A row that is ended gives one line. -/
theorem lines_row {row : Text} (h : '\n' ∉ row) (t : Text) :
    ∃ line, Text.lines (row ++ '\n' :: t) = line :: Text.lines t := by
  induction row with
  | nil => exact ⟨[], rfl⟩
  | cons c row ih =>
    obtain ⟨hc, hrow⟩ := List.ne_and_not_mem_of_not_mem_cons h
    by_cases hreturn : c = '\r' ∧ row = []
    · obtain ⟨rfl, rfl⟩ := hreturn
      exact ⟨[], rfl⟩
    · obtain ⟨line, hline⟩ := ih hrow
      refine ⟨c :: line, ?_⟩
      rw [List.cons_append, lines_cons (Ne.symm hc), hline]
      · rfl
      · rintro hcr hhead
        cases row with
        | nil => exact hreturn ⟨hcr, rfl⟩
        | cons d row =>
          obtain rfl : d = '\n' := Option.some.inj hhead
          exact hrow List.mem_cons_self

/-- The line behind as many rows is the first of what stands behind them. -/
theorem getD_lines (h : ∀ r ∈ rows, '\n' ∉ r) (t : Text) :
    (Text.lines (ofRows rows ++ t)).getD rows.length [] = (Text.lines t).headD [] := by
  induction rows with
  | nil => cases hlines : Text.lines t <;> simp [hlines]
  | cons row rows ih =>
    obtain ⟨hrow, hrows⟩ := List.forall_mem_cons.1 h
    obtain ⟨line, hline⟩ := lines_row hrow (ofRows rows ++ t)
    rw [ofRows_cons, List.append_assoc, List.cons_append, hline, List.length_cons,
      List.getD_cons_succ, ih hrows]

theorem EndsLine.tail {d : Char} (h : EndsLine (c :: d :: line) rest) :
    EndsLine (d :: line) rest := by
  cases h with
  | atEnd => exact .atEnd
  | feed h => exact .feed (by simpa using h)
  | returnFeed => exact .returnFeed

/-- The first line ends where a line ends first. -/
theorem headD_lines (hne : line ≠ []) (hline : '\n' ∉ line) (h : EndsLine line rest) :
    (Text.lines (line ++ rest)).headD [] = line := by
  induction line with
  | nil => exact absurd rfl hne
  | cons c line ih =>
    obtain ⟨hc, hline⟩ := List.ne_and_not_mem_of_not_mem_cons hline
    cases line with
    | nil =>
      rw [List.cons_append, lines_cons (Ne.symm hc)]
      · cases h <;> rfl
      · rintro rfl hhead
        cases h with
        | atEnd => cases hhead
        | feed h => exact h rfl
        | returnFeed => exact absurd (Option.some.inj hhead) (by decide)
    | cons d line =>
      rw [List.cons_append, lines_cons (Ne.symm hc), List.headD_cons,
        ih (List.cons_ne_nil d line) hline h.tail]
      rintro - hhead
      obtain rfl : d = '\n' := Option.some.inj hhead
      exact hline List.mem_cons_self

end CallSignature
