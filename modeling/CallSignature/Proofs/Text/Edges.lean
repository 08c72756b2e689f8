/-
CallSignature.Proofs.Text.Edges — places of a text that are not inside its
white space.

A BOUNDARY is a place between two characters or at one end of the text, and an
EDGE is a boundary that does not have white space on both sides.  Every fault
is reported at an edge: white space is where comments were, and a boundary
inside it need not be one of the source.
-/
import CallSignature.Proofs.Text.Trimming

namespace CallSignature

open Unicode

namespace Text

/-- The place, in bytes from the beginning, is between two characters of the
text or at one of its ends. -/
def IsBoundary (t : Text) (place : Nat) : Prop :=
  ∃ a b, t = a ++ b ∧ a.width = place

/-- Of the two characters where the texts meet, one at most is white space. -/
def Meets (a b : Text) : Prop :=
  ∀ c ∈ a.getLast?, ∀ d ∈ b.head?, isWhiteSpace c = true → isWhiteSpace d = false

/-- The place is a boundary, and not inside white space. -/
def IsEdge (t : Text) (place : Nat) : Prop :=
  ∃ a b, t = a ++ b ∧ a.width = place ∧ Meets a b

variable {a b t : Text} {c : Char} {place : Nat}

theorem IsBoundary.le_width (h : IsBoundary t place) : place ≤ t.width := by
  obtain ⟨a, b, rfl, rfl⟩ := h
  simp

/-- A boundary of a part, seen from the whole. -/
theorem IsBoundary.append (h : IsBoundary t place) (a b : Text) :
    IsBoundary (a ++ t ++ b) (a.width + place) := by
  obtain ⟨x, y, rfl, rfl⟩ := h
  exact ⟨a ++ x, y ++ b, by simp, width_append a x⟩

theorem meets_nil_left (b : Text) : Meets [] b := by simp [Meets]

theorem meets_nil_right (a : Text) : Meets a [] := by simp [Meets]

theorem meets_cons (a : Text) (hc : isWhiteSpace c = false) (b : Text) : Meets a (c :: b) := by
  intro d _ e he _
  obtain rfl := Option.some.inj he
  exact hc

theorem meets_concat (a : Text) (hc : isWhiteSpace c = false) (b : Text) :
    Meets (a ++ [c]) b := by
  intro d hd e _ hspace
  rw [List.getLast?_concat] at hd
  obtain rfl := Option.some.inj hd
  rw [hc] at hspace
  cases hspace

theorem isEdge_zero (t : Text) : IsEdge t 0 :=
  ⟨[], t, rfl, rfl, meets_nil_left t⟩

theorem isEdge_width (t : Text) : IsEdge t t.width :=
  ⟨t, [], by simp, rfl, meets_nil_right t⟩

@[simp] theorem isEdge_nil : IsEdge [] place ↔ place = 0 := by
  constructor
  · rintro ⟨a, b, hnil, rfl, -⟩
    rw [(List.append_eq_nil_iff.1 hnil.symm).1, width_nil]
  · rintro rfl
    exact isEdge_zero []

/-- The place in front of a visible character. -/
theorem isEdge_before (a : Text) (hc : isWhiteSpace c = false) (b : Text) :
    IsEdge (a ++ c :: b) a.width :=
  ⟨a, c :: b, rfl, rfl, meets_cons a hc b⟩

/-- An edge of a trimmed text is an edge wherever the text stands, for the
text begins and ends with visible characters. -/
theorem Trimmed.isEdge_append (ht : t.Trimmed) (hne : t ≠ []) (h : IsEdge t place)
    (a b : Text) : IsEdge (a ++ t ++ b) (a.width + place) := by
  obtain ⟨x, y, rfl, rfl, hmeets⟩ := h
  obtain ⟨hhead, hlast⟩ := trimmed_iff.1 ht
  refine ⟨a ++ x, y ++ b, by simp, width_append a x, ?_⟩
  intro c hc d hd hspace
  cases x with
  | nil =>
    obtain ⟨e, y, rfl⟩ := List.exists_cons_of_ne_nil hne
    exact hhead d hd
  | cons e x =>
    have hc : c ∈ (e :: x).getLast? := by simpa using hc
    cases y with
    | nil =>
      rw [hlast c (by simpa using hc)] at hspace
      cases hspace
    | cons f y => exact hmeets c hc d (by simpa using hd) hspace

end Text

end CallSignature
