/-
CallSignature.Proofs.Comment.Gap — white space and comments between two parts.

A GAP is white space and whole comments, in any order.  Whatever stands in its
comments, cleaning turns it into white space of the same width, and what
follows it is code again (`IsGap.cleans`).
-/
import CallSignature.Proofs.Comment.Range

namespace CallSignature

open Unicode

/-- White space and whole comments. -/
inductive IsGap : Text → Prop
  | nil : IsGap []
  | space {c : Char} {rest : Text} (hspace : isWhiteSpace c = true) (hrest : IsGap rest) :
      IsGap (c :: rest)
  | block {words rest : Text} (hwords : ¬ ['*', '/'] <:+: words) (hrest : IsGap rest) :
      IsGap ('/' :: '*' :: words ++ ['*', '/'] ++ rest)
  | line {words rest : Text} (hwords : '\n' ∉ words) (hrest : IsGap rest) :
      IsGap ('/' :: '/' :: words ++ ['\n'] ++ rest)

/-! ## Comments -/

/-- In a block comment everything is taken out as long as no star and slash
stand there. -/
theorem cleaned_blockWords {words : Text} (h : ¬ ['*', '/'] <:+: words) {next : Option Char}
    (hnext : next ≠ some '/') (openedAt offset : Nat) :
    (Zone.block openedAt).cleaned next offset words = words.flatMap blank ∧
      (Zone.block openedAt).after next offset words = .block openedAt := by
  induction words generalizing offset with
  | nil => exact ⟨rfl, rfl⟩
  | cons c words ih =>
    have hwords : ¬ ['*', '/'] <:+: words := fun hin => h (List.infix_cons_iff.2 (.inr hin))
    have hstays : ¬ (c = '*' ∧ words.head?.or next = some '/') := by
      rintro ⟨rfl, hhead⟩
      cases words with
      | nil => exact hnext hhead
      | cons d words =>
        obtain rfl : d = '/' := by simpa using hhead
        exact h ⟨[], words, rfl⟩
    rw [Zone.cleaned, Zone.after, Zone.step, if_neg hstays]
    obtain ⟨hclean, hafter⟩ := ih hwords (offset + c.utf8Size)
    rw [hclean, hafter]
    exact ⟨rfl, rfl⟩

/-- In a block comment everything is taken out up to the first star and slash
behind its beginning. -/
theorem cleaned_block {words : Text} (h : ¬ ['*', '/'] <:+: words) (next : Option Char)
    (openedAt offset : Nat) :
    (Zone.block openedAt).cleaned next offset (words ++ ['*', '/'])
        = (words ++ ['*', '/']).flatMap blank ∧
      (Zone.block openedAt).after next offset (words ++ ['*', '/']) = .code .outside := by
  obtain ⟨hclean, hafter⟩ := @cleaned_blockWords _ h (some '*') (by simp) openedAt offset
  have hhead : (['*', '/'] : Text).head?.or next = some '*' := rfl
  rw [Zone.cleaned_append, Zone.after_append, hhead, hclean, hafter, List.flatMap_append]
  exact ⟨rfl, rfl⟩

/-- In a line comment everything is taken out as long as the line goes on. -/
theorem cleaned_lineWords {words : Text} (h : '\n' ∉ words) (next : Option Char)
    (offset : Nat) :
    Zone.line.cleaned next offset words = words.flatMap blank ∧
      Zone.line.after next offset words = .line := by
  induction words generalizing offset with
  | nil => exact ⟨rfl, rfl⟩
  | cons c words ih =>
    obtain ⟨hc, hwords⟩ := not_or.1 (mt List.mem_cons.2 h)
    have hcovers : Zone.line.covers c (words.head?.or next) = true := by
      simpa [Zone.covers] using Ne.symm hc
    rw [Zone.cleaned, Zone.after, hcovers, Zone.step, if_neg (Ne.symm hc)]
    obtain ⟨hclean, hafter⟩ := ih hwords (offset + c.utf8Size)
    rw [hclean, hafter]
    exact ⟨rfl, rfl⟩

theorem cleaned_line {words : Text} (h : '\n' ∉ words) (next : Option Char) (offset : Nat) :
    Zone.line.cleaned next offset (words ++ ['\n']) = words.flatMap blank ++ ['\n'] ∧
      Zone.line.after next offset (words ++ ['\n']) = .code .outside := by
  have hhead : (['\n'] : Text).head?.or next = some '\n' := rfl
  obtain ⟨hclean, hafter⟩ := cleaned_lineWords h (some '\n') offset
  rw [Zone.cleaned_append, Zone.after_append, hhead, hclean, hafter]
  exact ⟨rfl, rfl⟩

theorem cleans_block {words : Text} (h : ¬ ['*', '/'] <:+: words) (next : Option Char) :
    Cleans next ('/' :: '*' :: words ++ ['*', '/'])
      (('/' :: '*' :: words ++ ['*', '/']).flatMap blank) := by
  intro offset
  obtain ⟨hclean, hafter⟩ := cleaned_block h next offset (offset + 1 + 1)
  exact ⟨congrArg (fun rest => blank '/' ++ (blank '*' ++ rest)) hclean, hafter⟩

theorem cleans_line {words : Text} (h : '\n' ∉ words) (next : Option Char) :
    Cleans next ('/' :: '/' :: words ++ ['\n'])
      (('/' :: '/' :: words).flatMap blank ++ ['\n']) := by
  intro offset
  obtain ⟨hclean, hafter⟩ := cleaned_line h next (offset + 1 + 1)
  exact ⟨congrArg (fun rest => blank '/' ++ (blank '/' ++ rest)) hclean, hafter⟩

/-! ## Gaps -/

theorem isBlank_flatMap_blank (a : Text) : Text.isBlank (a.flatMap blank) = true := by
  refine Text.isBlank_iff.2 fun c hc => ?_
  obtain ⟨d, -, hd⟩ := List.mem_flatMap.1 hc
  exact Text.isBlank_iff.1 (isBlank_blank d) c hd

/-- Cleaning turns a gap into white space, whatever follows it. -/
theorem IsGap.exists_blank {g : Text} (h : IsGap g) :
    ∃ white : Text, white.isBlank = true ∧ ∀ next, Cleans next g white := by
  induction h with
  | nil => exact ⟨[], rfl, fun next offset => ⟨rfl, rfl⟩⟩
  | @space c rest hspace hrest ih =>
    obtain ⟨white, hwhite, hclean⟩ := ih
    have hblank : Text.isBlank [c] = true := Text.isBlank_cons.2 ⟨hspace, rfl⟩
    have hslash : '/' ∉ [c] := fun hmem => by
      rw [← List.mem_singleton.1 hmem] at hspace
      exact absurd hspace (by decide)
    exact ⟨[c] ++ white, Text.isBlank_append hblank hwhite, fun next =>
      (Cleans.of_lacksSlash (quiet_of_isBlank hblank) hslash).append (hclean next)⟩
  | block hwords hrest ih =>
    obtain ⟨white, hwhite, hclean⟩ := ih
    exact ⟨_, Text.isBlank_append (isBlank_flatMap_blank _) hwhite, fun next =>
      (cleans_block hwords _).append (hclean next)⟩
  | line hwords hrest ih =>
    obtain ⟨white, hwhite, hclean⟩ := ih
    have hbreak : Text.isBlank ['\n'] = true := by decide
    exact ⟨_,
      Text.isBlank_append (Text.isBlank_append (isBlank_flatMap_blank _) hbreak) hwhite,
      fun next => (cleans_line hwords _).append (hclean next)⟩

/-- What cleaning makes of a gap. -/
def blanked (gap : Text) : Text :=
  (Zone.code .outside).cleaned none 0 gap

theorem IsGap.cleans {g : Text} (h : IsGap g) :
    (blanked g).isBlank = true ∧ ∀ next, Cleans next g (blanked g) := by
  obtain ⟨white, hwhite, hclean⟩ := h.exists_blank
  rw [blanked, (hclean none 0).1]
  exact ⟨hwhite, hclean⟩

end CallSignature
