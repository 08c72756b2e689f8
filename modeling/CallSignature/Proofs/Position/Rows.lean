/-
CallSignature.Proofs.Position.Rows — texts row by row.

A ROW is what stands between two line feeds.  Every text is some rows, each
with the line feed that ends it, and one more row behind them
(`exists_rows`).  Splitting the text on line feeds gives these rows
(`splitOn_ofRows`), and a reader who has read the text stands in the last of
them, behind its last character (`foldl_after_ofRows`).

So a place, which is found by counting, and a row, which is found by
splitting, are both told by what stands in front.
-/
import CallSignature.Position

namespace CallSignature

namespace Text

/-- The text of rows, each with the line feed that ends it. -/
def ofRows (rows : List Text) : Text :=
  rows.flatMap (· ++ ['\n'])

@[simp] theorem ofRows_nil : ofRows [] = [] := rfl

@[simp] theorem ofRows_cons (row : Text) (rows : List Text) :
    ofRows (row :: rows) = row ++ '\n' :: ofRows rows := by
  simp [ofRows]

/-- Every text is some rows and what stands behind them on one row more. -/
theorem exists_rows (t : Text) :
    ∃ rows row, t = ofRows rows ++ row ∧ (∀ r ∈ rows, '\n' ∉ r) ∧ '\n' ∉ row := by
  induction t with
  | nil => exact ⟨[], [], rfl, by simp, by simp⟩
  | cons c t ih =>
    obtain ⟨rows, row, rfl, hrows, hrow⟩ := ih
    by_cases hc : c = '\n'
    · subst hc
      refine ⟨[] :: rows, row, by simp, ?_, hrow⟩
      exact List.forall_mem_cons.2 ⟨by simp, hrows⟩
    · cases rows with
      | nil => exact ⟨[], c :: row, rfl, by simp, by simp [hrow, Ne.symm hc]⟩
      | cons first rows =>
        obtain ⟨hfirst, hrows⟩ := List.forall_mem_cons.1 hrows
        refine ⟨(c :: first) :: rows, row, by simp, ?_, hrow⟩
        exact List.forall_mem_cons.2 ⟨by simp [hfirst, Ne.symm hc], hrows⟩

/-- Every text begins with a row, which ends with the text or at a line feed. -/
theorem exists_row (t : Text) :
    ∃ row rest, t = row ++ rest ∧ '\n' ∉ row ∧
      (rest = [] ∨ ∃ below, rest = '\n' :: below) := by
  obtain ⟨rows, row, rfl, hrows, hrow⟩ := exists_rows t
  cases rows with
  | nil => exact ⟨row, [], by simp, hrow, .inl rfl⟩
  | cons first rows =>
    exact ⟨first, '\n' :: (ofRows rows ++ row), by simp, hrows first List.mem_cons_self,
      .inr ⟨_, rfl⟩⟩

/-- There are as many rows as line feeds. -/
theorem count_ofRows {rows : List Text} {row : Text} (hrows : ∀ r ∈ rows, '\n' ∉ r)
    (hrow : '\n' ∉ row) : (ofRows rows ++ row).count '\n' = rows.length := by
  induction rows with
  | nil => exact List.count_eq_zero.2 hrow
  | cons first rows ih =>
    obtain ⟨hfirst, hrows⟩ := List.forall_mem_cons.1 hrows
    rw [ofRows_cons, List.append_assoc, List.cons_append, List.count_append,
      List.count_cons_self, ih hrows, List.count_eq_zero.2 hfirst, List.length_cons,
      Nat.zero_add]

/-! ## Splitting -/

/-- Splitting on line feeds splits row by row. -/
theorem splitOn_ofRows_append (rows : List Text) (t : Text) :
    (ofRows rows ++ t).splitOn '\n' = rows.flatMap (·.splitOn '\n') ++ t.splitOn '\n' := by
  induction rows with
  | nil => rfl
  | cons row rows ih =>
    rw [ofRows_cons, List.append_assoc, List.cons_append, List.splitOn_append_cons_self, ih,
      List.flatMap_cons, List.append_assoc]

/-- Splitting on line feeds gives the rows. -/
theorem splitOn_ofRows {rows : List Text} (h : ∀ r ∈ rows, '\n' ∉ r) (t : Text) :
    (ofRows rows ++ t).splitOn '\n' = rows ++ t.splitOn '\n' := by
  have hrows : rows.flatMap (·.splitOn '\n') = rows := by
    rw [List.flatMap_def, List.map_congr_left fun r hr => List.splitOn_eq_singleton (h r hr),
      ← List.flatMap_def]
    exact List.flatMap_singleton' rows
  rw [splitOn_ofRows_append, hrows]

/-- The first row of a text is the first that splitting gives. -/
theorem splitOn_row {row rest : Text} (hrow : '\n' ∉ row)
    (hrest : rest = [] ∨ ∃ below, rest = '\n' :: below) :
    ∃ below, (row ++ rest).splitOn '\n' = row :: below := by
  rcases hrest with rfl | ⟨below, rfl⟩
  · exact ⟨[], by rw [List.append_nil, List.splitOn_eq_singleton hrow]⟩
  · exact ⟨below.splitOn '\n', List.splitOn_append_cons_self_of_not_mem hrow below⟩

end Text

/-! ## Reading on -/

namespace Position

open Text

/-- A reader of a row stays on the line. -/
theorem foldl_after_row {row : Text} (h : '\n' ∉ row) (p : Position) :
    row.foldl after p = ⟨p.line, p.column + row.length⟩ := by
  induction row generalizing p with
  | nil => rfl
  | cons c row ih =>
    obtain ⟨hc, hrow⟩ := List.ne_and_not_mem_of_not_mem_cons h
    rw [List.foldl_cons, ih hrow, after, if_neg (Ne.symm hc), List.length_cons]
    simp only [Nat.add_assoc, Nat.add_comm 1]

/-- A reader of some rows and one more stands on the last of them. -/
theorem foldl_after_ofRows {rows : List Text} {row : Text} (hrows : ∀ r ∈ rows, '\n' ∉ r)
    (hrow : '\n' ∉ row) (line : Nat) :
    (ofRows rows ++ row).foldl after ⟨line, 0⟩ = ⟨line + rows.length, row.length⟩ := by
  induction rows generalizing line with
  | nil => rw [ofRows_nil, List.nil_append, foldl_after_row hrow]; simp
  | cons first rows ih =>
    obtain ⟨hfirst, hrows⟩ := List.forall_mem_cons.1 hrows
    rw [ofRows_cons, List.append_assoc, List.foldl_append, foldl_after_row hfirst,
      List.cons_append, List.foldl_cons, after, if_pos rfl, ih hrows, List.length_cons]
    simp only [Nat.add_assoc, Nat.add_comm 1]

/-- The place at a boundary is where a reader stands who has read what is in
front of it. -/
theorem locate_append (front behind : Text) :
    locate (front ++ behind) front.width = front.foldl after start := by
  rw [locate, takeBytes_append]

/-- The place at a boundary: the line is counted by the rows in front of it,
the column by the characters in front of it on its own row. -/
theorem locate_ofRows {rows : List Text} {row : Text} (hrows : ∀ r ∈ rows, '\n' ∉ r)
    (hrow : '\n' ∉ row) (behind : Text) :
    locate (ofRows rows ++ row ++ behind) (ofRows rows ++ row).width
      = ⟨rows.length + 1, row.length⟩ := by
  rw [locate_append, start, foldl_after_ofRows hrows hrow, Nat.add_comm]

end Position

end CallSignature
