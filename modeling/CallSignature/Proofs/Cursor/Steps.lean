/-
CallSignature.Proofs.Cursor.Steps — what a step of the cursor reads.

Every step that succeeds takes a text off the beginning of what is unread and
puts it behind the cursor.  `Passes` says so of any two cursors, whatever the
step; the lemmas below name the text for each step.
-/
import CallSignature.Proofs.Cursor.Names

namespace CallSignature

open Unicode

theorem Text.width_reverse (t : Text) : Text.width t.reverse = t.width := by
  induction t with
  | nil => rfl
  | cons c t ih =>
    rw [List.reverse_cons, Text.width_append, ih, Text.width_cons, Text.width_cons,
      Text.width_nil, Nat.add_zero, Nat.add_comm]

namespace Cursor

/-- The second cursor stands where the first one comes to by reading the text. -/
structure Passes (a : Text) (c d : Cursor) : Prop where
  rest : c.rest = a ++ d.rest
  behind : d.behind = a.reverse ++ c.behind

variable {a b : Text} {c d e : Cursor}

theorem Passes.refl (c : Cursor) : Passes [] c c :=
  ⟨rfl, rfl⟩

theorem Passes.trans (h : Passes a c d) (k : Passes b d e) : Passes (a ++ b) c e :=
  ⟨by rw [h.rest, k.rest, List.append_assoc],
    by rw [k.behind, h.behind, List.reverse_append, List.append_assoc]⟩

theorem Passes.offset (h : Passes a c d) : d.offset = c.offset + a.width := by
  rw [Cursor.offset, h.behind, Text.width_append, Text.width_reverse, Nat.add_comm]
  rfl

/-- There is only one cursor behind a text that the first one stands before. -/
theorem Passes.eq (h : Passes a c d) (hrest : c.rest = a ++ b) :
    d = ⟨a.reverse ++ c.behind, b⟩ := by
  have hb : d.rest = b := List.append_cancel_left (h.rest.symm.trans hrest)
  rw [← hb, ← h.behind]

/-- Two cursors behind one text are the same. -/
theorem Passes.unique (h : Passes a c d) (k : Passes a c e) : d = e :=
  (h.eq h.rest).trans (k.eq h.rest).symm

theorem passes_next (behind : Text) (x : Char) (rest : Text) :
    Passes [x] ⟨behind, x :: rest⟩ ⟨x :: behind, rest⟩ :=
  ⟨rfl, rfl⟩

/-- Reading on changes no character. -/
theorem Passes.text_eq (h : Passes a c d) : d.text = c.text := by
  rw [text, text, h.behind, h.rest]
  simp

theorem dropBytes_offset (c : Cursor) : c.text.dropBytes c.offset = c.rest := by
  have hdrop := Text.dropBytes_append c.behind.reverse c.rest
  rwa [Text.width_reverse] at hdrop

/-! ## Steps -/

theorem passes_advance (h : c.rest = a ++ b) : Passes a c (c.advance a.length) := by
  constructor <;> simp [advance, h]

theorem passes_seek (h : c.rest = a ++ b) : Passes a c (c.seek (c.offset + a.width)) := by
  have htext : c.text = (c.behind.reverse ++ a) ++ b := by rw [text, h, List.append_assoc]
  have hwidth : c.offset + a.width = Text.width (c.behind.reverse ++ a) := by
    rw [Text.width_append, Text.width_reverse, offset]
  constructor
  · rw [seek, htext, hwidth, Text.dropBytes_append, h]
  · rw [seek, htext, hwidth, Text.takeBytes_append, List.reverse_append, List.reverse_reverse]

theorem passes_skipWhile (p : Char → Bool) (c : Cursor) :
    Passes (c.rest.takeWhile p) c (c.skipWhile p) :=
  passes_advance (List.takeWhile_append_dropWhile (p := p) (l := c.rest)).symm

theorem passes_skipWhiteSpace (c : Cursor) :
    Passes (c.rest.takeWhile isWhiteSpace) c c.skipWhiteSpace :=
  passes_skipWhile isWhiteSpace c

theorem rest_skipWhiteSpace (c : Cursor) : c.skipWhiteSpace.rest = c.rest.trimStart :=
  List.append_cancel_left ((passes_skipWhiteSpace c).rest.symm.trans
    List.takeWhile_append_dropWhile.symm)

theorem passes_of_matchChar {expected : Char} (h : c.matchChar expected = some d) :
    Passes [expected] c d := by
  unfold matchChar at h
  split at h
  · rename_i hhead
    obtain ⟨rest, hrest⟩ := List.head?_eq_some_iff.1 hhead
    obtain rfl := Option.some.inj h
    exact passes_advance (a := [expected]) hrest
  · cases h

theorem passes_of_matchText {expected : Text} (h : c.matchText expected = some d) :
    Passes expected c d := by
  unfold matchText at h
  split at h
  · rename_i hbegins
    obtain ⟨rest, hrest⟩ := List.isPrefixOf_iff_prefix.1 hbegins
    obtain rfl := Option.some.inj h
    exact passes_advance hrest.symm
  · cases h

theorem passes_of_matchWord {word : Text} (h : c.matchWord word = some d) :
    Passes word c d := by
  unfold matchWord at h
  split at h
  · rename_i hstarts
    obtain ⟨hbegins, -⟩ : word.isPrefixOf c.rest = true ∧ _ := by
      simpa [startsWithWord] using hstarts
    obtain ⟨rest, hrest⟩ := List.isPrefixOf_iff_prefix.1 hbegins
    obtain rfl := Option.some.inj h
    exact passes_advance hrest.symm
  · cases h

theorem rest_of_peek {p : Char} (h : c.peek = p) (hp : p ≠ '\x00') :
    ∃ rest, c.rest = p :: rest := by
  unfold peek at h
  cases hrest : c.rest with
  | nil => rw [hrest] at h; exact absurd h.symm hp
  | cons q rest =>
    rw [hrest] at h
    exact ⟨rest, by rw [← h]; rfl⟩

/-! ## Names -/

theorem identifier_eq_some {name : Text} (h : c.identifier = some (name, d)) :
    name? c.rest = some name ∧ Passes name c d := by
  unfold identifier at h
  split at h
  · cases h
  · rename_i found hfound
    obtain ⟨rfl, rfl⟩ := Prod.mk.inj (Option.some.inj h)
    obtain ⟨rest, hrest, -, -⟩ := name?_eq_some hfound
    exact ⟨hfound, passes_advance hrest⟩

theorem identifier_eq_none {x : Char} {rest : Text} (hrest : c.rest = x :: rest)
    (hx : x ∈ nonNameChars) (hsharp : x ≠ '#') : c.identifier = none := by
  have hstart : isNameStart x = false := Bool.eq_false_iff.2 fun hstart => by
    have hcontinue := isNameContinue_of_isNameStart hstart
    rw [isNameContinue_of_nonName hx] at hcontinue
    cases hcontinue
  have hnone : name? c.rest = none := by
    rw [hrest, name?, if_neg]
    simp [hstart, hsharp]
  rw [identifier, hnone]

end Cursor

end CallSignature
