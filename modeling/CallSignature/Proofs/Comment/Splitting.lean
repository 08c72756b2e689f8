/-
CallSignature.Proofs.Comment.Splitting — a source cut between two lexemes.

A lexeme is CLOSED if nothing that may stand behind it becomes a part of it.
All lexemes are, but for a line comment, a literal and a block comment that
are cut off, and a slash of the code, which may yet open a comment.

Only the last lexeme of a text can be changed by what follows the text.  If it
is closed, the source may be cut there: comments are taken out of the two
parts by themselves, and a fault of the second one is moved
(`Lexes.withoutCommentsFrom_append`).
-/
import CallSignature.Proofs.Comment.Lexing
import CallSignature.Proofs.Segment.Moved

namespace CallSignature

namespace Lexeme

/-- Whether the lexeme ends where it does whatever stands behind it. -/
def isClosed : Lexeme → Bool
  | code c => c != '/'
  | literal .. | blockComment _ => true
  | openLiteral .. | lineComment _ | openComment _ => false

/-- A lexeme in front of a rest is one in front of a longer rest, and at the
end of a text it is if it is closed. -/
theorem Fits.append {l : Lexeme} {rest : Text} (h : l.Fits rest)
    (hclosed : rest = [] → l.isClosed = true) (b : Text) : l.Fits (rest ++ b) := by
  cases rest with
  | nil =>
    have hclosed := hclosed rfl
    cases l with
    | code c =>
      have hslash : c ≠ '/' := by simpa [isClosed] using hclosed
      exact ⟨h.1, fun hcomment => hslash hcomment.1⟩
    | literal quote words => exact h
    | blockComment words => exact h
    | _ => cases hclosed
  | cons c rest =>
    cases l with
    | openLiteral quote words => cases h.2.2
    | openComment words => cases h.2
    | _ => exact h

end Lexeme

/-! ## Texts that end in a closed lexeme -/

/-- The last of the lexemes, if there is one, is closed. -/
def EndsClosed (lexemes : List Lexeme) : Prop :=
  ∀ l ∈ lexemes.getLast?, l.isClosed = true

theorem EndsClosed.tail {l : Lexeme} {lexemes : List Lexeme} (h : EndsClosed (l :: lexemes)) :
    EndsClosed lexemes := by
  intro last hlast
  exact h last (by rw [List.getLast?_cons, Option.mem_def.1 hlast]; rfl)

namespace Lexes

variable {a : Text} {lexemes : List Lexeme}

/-- A comment that is cut off is the last lexeme, and it is not closed. -/
theorem not_mem_openComment (h : Lexes a lexemes) (hclosed : EndsClosed lexemes)
    (words : Text) : .openComment words ∉ lexemes := by
  intro hmem
  obtain ⟨before, rfl, -⟩ := h.exists_before hmem
  exact absurd (hclosed (.openComment words) (by simp)) Bool.false_ne_true

/-- Comments are taken out of a text that ends in a closed lexeme by itself,
and of what follows it as of a source of its own. -/
theorem withoutCommentsFrom_append (h : Lexes a lexemes) (hclosed : EndsClosed lexemes)
    (b : Text) (offset : Nat) : withoutCommentsFrom (.code .outside) offset (a ++ b)
      = (withoutCommentsFrom (.code .outside) (offset + a.width) b).map
        (lexemes.flatMap Lexeme.cleaned ++ ·) := by
  induction h generalizing offset with
  | nil =>
    show withoutCommentsFrom (.code .outside) offset b = _
    cases hread : withoutCommentsFrom (.code .outside) offset b <;> simp [hread, Except.map]
  | @cons l rest lexemes hfits hrest ih =>
    -- only in front of nothing the lexeme is the last one
    have hlast : rest = [] → l.isClosed = true := by
      rintro rfl
      obtain rfl := hrest.unique .nil
      exact hclosed l rfl
    have hopen : ∀ words, l ≠ .openComment words := fun words heq =>
      (Lexes.cons hfits hrest).not_mem_openComment hclosed words (by simp [heq])
    rw [List.append_assoc, (hfits.append hlast b).withoutCommentsFrom_append hopen,
      ih hclosed.tail, Text.width_append, Nat.add_assoc, List.flatMap_cons]
    cases withoutCommentsFrom _ _ b <;> simp [Except.map]

end Lexes

/-! ## Taking the comments out -/

/-- Nothing is taken out of a text whose comments have been taken out.  And a
source may be cut behind any text that ends outside literals and comments, and
not in a slash of the code: the comments are taken out of the two parts by
themselves, and a fault of the second part is moved by the width of the first. -/
theorem withoutComments_split (source : Text) :
    (∀ t, withoutComments source = .ok t → withoutComments t = .ok t) ∧
      ∀ a b lexemes, source = a ++ b → Lexes a lexemes → EndsClosed lexemes →
        ∃ front, withoutComments a = .ok front ∧
          (∀ behind, withoutComments b = .ok behind →
            withoutComments source = .ok (front ++ behind)) ∧
          ∀ fault, withoutComments b = .error fault →
            withoutComments source = .error (fault.shifted a.width) := by
  refine ⟨fun t h => withoutComments_idempotent h, ?_⟩
  rintro a b lexemes rfl ha hclosed
  have hfront : withoutComments a = .ok (lexemes.flatMap Lexeme.cleaned) :=
    ha.withoutCommentsFrom_eq_ok (ha.not_mem_openComment hclosed) 0
  have hsplit := ha.withoutCommentsFrom_append hclosed b 0
  rw [Nat.zero_add, withoutCommentsFrom_outside a.width] at hsplit
  refine ⟨_, hfront, fun behind hb => ?_, fun fault hb => ?_⟩
  · rw [withoutComments, hsplit, hb]
    rfl
  · rw [withoutComments, hsplit, hb]
    rfl

/-- A literal with two slashes, and a comment that ends in one. -/
def slashes : Text := "'//'/*é*/".toList

/-- What follows the comment begins with a slash of its own. -/
theorem withoutComments_split_slashes :
    Lexes slashes [.literal '\'' "//".toList, .blockComment "é".toList] ∧
      withoutComments "/ 2 // ½\n".toList = .ok "/ 2      \n".toList ∧
      withoutComments "/ 2 /*".toList
        = .error ((Cause.commentUnterminated.located 4).withHint .closeComment) ∧
      ∃ front, withoutComments slashes = .ok front ∧ withoutComments front = .ok front ∧
        withoutComments (slashes ++ "/ 2 // ½\n".toList)
          = .ok (front ++ "/ 2      \n".toList) ∧
        withoutComments (slashes ++ "/ 2 /*".toList)
          = .error ((Cause.commentUnterminated.located 14).withHint .closeComment) := by
  have hplain : '/' ≠ '\'' ∧ '/' ≠ '\\' := by decide
  have hbody : IsBody '\'' "//".toList :=
    .plain hplain.1 hplain.2 (.plain hplain.1 hplain.2 .nil)
  have hwords : ¬ ['*', '/'] <:+: "é".toList := by decide
  have hlexes : Lexes slashes [.literal '\'' "//".toList, .blockComment "é".toList] :=
    .cons (l := .literal '\'' "//".toList) ⟨rfl, hbody⟩
      (.cons (l := .blockComment "é".toList) hwords .nil)
  have hclosed : EndsClosed [.literal '\'' "//".toList, .blockComment "é".toList] := by
    rintro _ ⟨⟩
    rfl
  have hbehind : withoutComments "/ 2 // ½\n".toList = .ok "/ 2      \n".toList := by
    decide
  have hfault : withoutComments "/ 2 /*".toList
      = .error ((Cause.commentUnterminated.located 4).withHint .closeComment) := by
    decide
  obtain ⟨front, hfront, hsplit, -⟩ :=
    (withoutComments_split _).2 slashes _ _ rfl hlexes hclosed
  obtain ⟨-, -, -, hsplitFault⟩ := (withoutComments_split _).2 slashes _ _ rfl hlexes hclosed
  exact ⟨hlexes, hbehind, hfault, front, hfront,
    (withoutComments_split slashes).1 front hfront, hsplit _ hbehind, hsplitFault _ hfault⟩

end CallSignature
