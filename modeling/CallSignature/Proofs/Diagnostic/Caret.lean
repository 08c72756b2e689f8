/-
CallSignature.Proofs.Diagnostic.Caret — the caret under a quoted line.

A diagnostic quotes the line on which the fault lies and puts a caret on the
line below.  The line it quotes is the right one: what stands on both sides of
the character at the offset, up to where the line begins and ends
(`IsLineOf`).  Three counts meet there, of the line feeds in front of the
offset, of the characters since the last of them, and of the lines that
`Text.lines` gives (`getD_lines`).

The caret is under the character as long as the number of the line has two
digits at most.  The column of line numbers is two wide, and the line of the
caret always leaves that much; a longer number moves the quoted line to the
right, by one for every further digit, and the caret stays (`render_caret`).
-/
import CallSignature.Diagnostic
import CallSignature.Proofs.Position.Lines

namespace CallSignature

open Text

variable {behind left right : Text} {c : Char} {rows : List Text}

/-! ## The two lines of a diagnostic -/

namespace Diagnostic

theorem length_gutter (number : Nat) :
    (gutter number).length = max 2 (Text.ofNat number).length := by
  rw [gutter, List.length_append, List.length_replicate]
  omega

/-- A number fits into the column of line numbers if it has two digits at
most. -/
theorem length_ofNat_le_two (number : Nat) : (Text.ofNat number).length ≤ 2 ↔ number < 100 :=
  Nat.length_toDigits_le_iff (by decide) (by decide)

theorem not_mem_gutter (number : Nat) : '\n' ∉ gutter number := by
  rw [gutter, List.mem_append]
  rintro (hspace | hdigit)
  · exact absurd (List.eq_of_mem_replicate hspace) (by decide)
  · exact absurd (Nat.isDigit_of_mem_toDigits (by decide) (by decide) hdigit) (by decide)

/-- The quoted line is the line of the character at the offset. -/
theorem sourceLine_eq (hrows : ∀ r ∈ rows, '\n' ∉ r)
    (h : IsLineOf (ofRows rows ++ left) c behind left right) :
    sourceLine (ofRows rows ++ left ++ c :: behind)
        (Position.locate (ofRows rows ++ left ++ c :: behind) (ofRows rows ++ left).width)
      = left ++ c :: right := by
  obtain ⟨below, rfl, hends⟩ := h.ends
  have hleft : '\n' ∉ left := fun hmem => h.oneLine (List.mem_append_left _ hmem)
  have hne : left ++ c :: right ≠ [] := by simp
  rw [Position.locate_ofRows hrows hleft, sourceLine, Nat.add_sub_cancel, List.append_assoc,
    getD_lines hrows, ← headD_lines hne h.oneLine hends]
  simp

/-- A line of the rendering shows `line` behind a margin, and the next one a
caret behind an indent. -/
def Quotes (rendered margin line indent : Text) : Prop :=
  ∃ place : Nat, (rendered.splitOn '\n')[place]? = some (margin ++ line) ∧
    (rendered.splitOn '\n')[place + 1]? = some (indent ++ ['^'])

/-- The margin in front of the quoted line with this number. -/
def margin (number : Nat) : Text :=
  gutter number ++ " | ".toList

/-- The indent in front of a caret in this column. -/
def indent (column : Nat) : Text :=
  "   | ".toList ++ List.replicate column ' '

theorem indent_eq (column : Nat) :
    indent column = "   | ".toList ++ List.replicate column ' ' := rfl

theorem length_margin (number : Nat) :
    (margin number).length = 5 + ((Text.ofNat number).length - 2) := by
  rw [margin, List.length_append, length_gutter, show (" | ".toList).length = 3 from rfl]
  omega

theorem length_indent (column : Nat) : (indent column).length = 5 + column := by
  rw [indent_eq, List.length_append, List.length_replicate]
  rfl

theorem exists_lines {source : Text} {fault : Fault} {p : Position} (label : Text)
    (h : position? source fault = some p) :
    ∃ above below, lines label source fault
      = above ++ (margin p.line ++ sourceLine source p) ::
        (indent p.column ++ ['^']) :: below := by
  rw [lines, h]
  exact ⟨[_, _, _], _, rfl⟩

/-- A fault with an offset is shown by a quoted line and a caret. -/
theorem quotes_render {source : Text} {fault : Fault} {p : Position} (label : Text)
    (h : position? source fault = some p) (hline : '\n' ∉ sourceLine source p) :
    Quotes (render label source fault) (margin p.line) (sourceLine source p)
      (indent p.column) := by
  have hupper : '\n' ∉ margin p.line ++ sourceLine source p := by
    simp [margin, not_mem_gutter, hline]
  have hlower : '\n' ∉ indent p.column ++ ['^'] := by simp [indent_eq]
  obtain ⟨above, below, hlines⟩ := exists_lines label h
  have hrender : render label source fault = ofRows (lines label source fault) ++ [] := by
    rw [List.append_nil]
    rfl
  refine ⟨(above.flatMap (·.splitOn '\n')).length, ?_⟩
  rw [hrender, hlines, splitOn_ofRows_append, List.flatMap_append, List.flatMap_cons,
    List.flatMap_cons, List.splitOn_eq_singleton hupper, List.splitOn_eq_singleton hlower]
  simp

/-- The line of a fault is quoted with the character at its offset in it.  The
caret below stands as far to the left of that character as the number of the
line has digits more than two, and under it if there are no more. -/
theorem render_caret (label : Text) (fault : Fault) (front behind : Text) (c : Char)
    (hoffset : fault.offset = some front.width) (hc : c ≠ '\n')
    (hcr : c = '\r' → behind.head? ≠ some '\n') :
    ∃ left right, IsLineOf front c behind left right ∧
      Quotes (render label (front ++ c :: behind) fault) (margin (front.count '\n' + 1))
        (left ++ c :: right) (indent left.length) ∧
      (margin (front.count '\n' + 1) ++ left).length = (indent left.length).length
        + ((Text.ofNat (front.count '\n' + 1)).length - 2) ∧
      ((indent left.length).length = (margin (front.count '\n' + 1) ++ left).length ↔
        front.count '\n' + 1 < 100) := by
  obtain ⟨rows, left, rfl, hrows, hleft⟩ := exists_rows front
  obtain ⟨right, hline⟩ := exists_isLineOf hrows hleft hc hcr
  have hplace := Position.locate_ofRows hrows hleft (c :: behind)
  have hsource := sourceLine_eq hrows hline
  have hposition : position? (ofRows rows ++ left ++ c :: behind) fault
      = some ⟨rows.length + 1, left.length⟩ := by
    rw [position?, hoffset, Option.map_some, hplace]
  rw [hplace] at hsource
  have hquotes := quotes_render label hposition (hsource ▸ hline.oneLine)
  rw [hsource] at hquotes
  have hcolumn : (margin (rows.length + 1) ++ left).length = (indent left.length).length
      + ((Text.ofNat (rows.length + 1)).length - 2) := by
    rw [List.length_append, length_margin, length_indent]
    omega
  rw [count_ofRows hrows hleft]
  refine ⟨left, right, hline, hquotes, hcolumn, ?_⟩
  rw [hcolumn, ← length_ofNat_le_two]
  omega

/-- What stands in front of a bracket on the hundredth line. -/
def hundredLines : Text :=
  '(' :: List.replicate 99 '\n' ++ ['a']

/-- The fault of a bracket that closes nothing behind those lines. -/
def hundredthLineFault : Fault :=
  ((Cause.boundaryMissing (.closerMismatch ')' ']')).located 101).withHint
    (.groupNeverClosed 0)

theorem render_caret_hundredLines :
    hundredthLineFault.offset = some hundredLines.width ∧ ']' ≠ '\n' ∧
      (']' = '\r' → ") => 0".toList.head? ≠ some '\n') ∧
      ∃ left right, IsLineOf hundredLines ']' ") => 0".toList left right ∧
        Quotes (render "f".toList (hundredLines ++ ']' :: ") => 0".toList) hundredthLineFault)
          (margin 100) (left ++ ']' :: right) (indent left.length) ∧
        (margin 100 ++ left).length = (indent left.length).length + 1 := by
  have hoffset : hundredthLineFault.offset = some hundredLines.width := by decide
  have hc : ']' ≠ '\n' := by decide
  have hcr : ']' = '\r' → ") => 0".toList.head? ≠ some '\n' := by decide
  have hnumber : hundredLines.count '\n' + 1 = 100 := by simp [hundredLines]
  obtain ⟨left, right, hline, hquotes, hcolumn, -⟩ :=
    render_caret "f".toList hundredthLineFault hundredLines ") => 0".toList ']' hoffset hc hcr
  rw [hnumber] at hquotes hcolumn
  exact ⟨hoffset, hc, hcr, left, right, hline, hquotes, hcolumn⟩

/-- The rows of its diagnostic. -/
def hundredthLineRows : List Text :=
  [hundredthLineFault.headline, "  --> f:100:2".toList, "   |".toList,
    "100 | a]) => 0".toList, "   |  ^".toList,
    "help: the group opened at offset 0 is never closed".toList, []]

/-- On the hundredth line the caret is not under the character. -/
theorem not_forall_caret_under :
    ¬ ∀ (label : Text) (fault : Fault) (front behind : Text) (c : Char),
      fault.offset = some front.width → c ≠ '\n' →
      (c = '\r' → behind.head? ≠ some '\n') →
        ∃ left right gap around, IsLineOf front c behind left right ∧
          Quotes (render label (front ++ c :: behind) fault) gap (left ++ c :: right) around ∧
          around.length = (gap ++ left).length := by
  intro h
  obtain ⟨left, right, gap, around, -, ⟨place, hupper, hlower⟩, hcolumn⟩ :=
    h "f".toList hundredthLineFault hundredLines ") => 0".toList ']' (by decide) (by decide)
      (by decide)
  have hrows : (render "f".toList (hundredLines ++ ']' :: ") => 0".toList)
      hundredthLineFault).splitOn '\n' = hundredthLineRows := by
    decide
  rw [hrows] at hupper hlower
  -- only one of the rows ends with a caret
  have honly : ∀ k < 6, hundredthLineRows[k + 1]?.bind List.getLast? = some '^' → k = 3 := by
    decide
  have hplace : place + 1 < 7 := (List.getElem?_eq_some_iff.1 hlower).1
  obtain rfl : place = 3 := honly place (by omega) (by rw [hlower]; simp)
  have hquoted : "100 | a]) => 0".toList = gap ++ left ++ ']' :: right := by
    rw [List.append_assoc]
    exact Option.some.inj hupper
  have haround : around.length = 6 := by
    have hlength := congrArg List.length (Option.some.inj hlower)
    simpa using hlength.symm
  have hbracket : "100 | a]) => 0".toList[(gap ++ left).length]? = some ']' := by
    rw [hquoted]
    simp
  rw [← hcolumn, haround] at hbracket
  exact absurd hbracket (by decide)

end Diagnostic

end CallSignature
