/-
CallSignature.Proofs.Checked.Cuts — cuts that can be refused.

`Text.slice` cuts anywhere: a position past the end is the end, and a position
inside a character is behind it.  Where texts are kept as bytes there is
nothing to cut at such a position, and nothing between two positions in the
wrong order.  `Text.cut?` refuses these cuts and makes all others
(`cut?_eq_some_iff`).

A CHECKED reading makes every cut in this way.  It gives what a reading gives,
a value or a fault, unless a cut is refused, and then it gives nothing.  The
modules behind this one go through the readers of the library once more, with
their cuts checked, and show of each that it gives what the reader gives.
-/
import CallSignature.Proofs.Success
import CallSignature.Proofs.Text.Edges

namespace CallSignature

namespace Text

variable {t m : Text} {first last place : Nat}

/-! ## Cuts -/

theorem isBoundary_iff : t.IsBoundary place ↔ (t.takeBytes place).width = place := by
  constructor
  · rintro ⟨a, b, rfl, rfl⟩
    rw [takeBytes_append]
  · exact fun h => ⟨_, _, (takeBytes_append_dropBytes place t).symm, h⟩

instance : Decidable (t.IsBoundary place) :=
  decidable_of_iff _ isBoundary_iff.symm

theorem isBoundary_zero (t : Text) : t.IsBoundary 0 :=
  ⟨[], t, rfl, rfl⟩

theorem isBoundary_width (t : Text) : t.IsBoundary t.width :=
  ⟨t, [], (List.append_nil t).symm, rfl⟩

/-- The part of the text from byte `first` up to but excluding byte `last`, if
these are boundaries of the text and in order. -/
def cut? (t : Text) (first last : Nat) : Option Text :=
  if first ≤ last ∧ t.IsBoundary first ∧ t.IsBoundary last then some (t.slice first last)
  else none

theorem cut?_of_isBoundary (hle : first ≤ last) (hfirst : t.IsBoundary first)
    (hlast : t.IsBoundary last) : t.cut? first last = some (t.slice first last) :=
  if_pos ⟨hle, hfirst, hlast⟩

/-- What is cut out stands between the two positions. -/
theorem cut?_eq_some_iff : t.cut? first last = some m ↔
    ∃ a b : Text, t = a ++ m ++ b ∧ a.width = first ∧ a.width + m.width = last := by
  constructor
  · intro h
    unfold cut? at h
    split at h
    · rename_i hcut
      obtain ⟨hle, ⟨a, b, rfl, rfl⟩, ⟨x, y, heq, rfl⟩⟩ := hcut
      obtain ⟨m', rfl, -⟩ := exists_append_of_width_le heq hle
      have hslice := slice_append a m' y
      rw [heq] at h ⊢
      rw [width_append, hslice] at h
      obtain rfl := Option.some.inj h
      exact ⟨a, y, rfl, rfl, (width_append a m').symm⟩
    · cases h
  · rintro ⟨a, b, rfl, rfl, rfl⟩
    have hlast : IsBoundary (a ++ m ++ b) (a.width + m.width) :=
      ⟨a ++ m, b, rfl, width_append a m⟩
    rw [cut?_of_isBoundary (Nat.le_add_right _ _) ⟨a, m ++ b, by simp, rfl⟩ hlast,
      slice_append]

/-- The second byte of `é` is no place to cut at, though a slice ends there. -/
example : cut? "é(".toList 0 1 = none ∧ slice "é(".toList 0 1 = "é".toList := by decide

end Text

/-! ## Checked readings -/

/-- A reading that makes checked cuts: there is nothing if a cut is refused. -/
abbrev Checked (α : Type) : Type :=
  ExceptT Fault Option α

namespace Checked

variable {α β : Type}

/-- The reading, none of whose cuts is refused. -/
def of (x : Except Fault α) : Checked α :=
  ExceptT.mk (some x)

/-- The part of the text between the two positions. -/
def cut (t : Text) (first last : Nat) : Checked Text :=
  ExceptT.lift (t.cut? first last)

/-- The entry of a table. -/
def entry (table : List α) (place : Nat) : Checked α :=
  ExceptT.lift table[place]?

/-- The reading of a part that begins at byte `base`, with its fault seen from
the whole. -/
def shift (base : Nat) (x : Checked α) : Checked α :=
  ExceptT.mk (x.run.map (shiftFault base))

theorem shift_of (base : Nat) (x : Except Fault α) :
    shift base (of x) = of (shiftFault base x) :=
  rfl

theorem of_ok (a : α) : of (.ok a) = pure a := rfl

/-- One step behind another. -/
theorem of_bind {x : Except Fault α} {f : α → Except Fault β} {g : α → Checked β}
    (h : ∀ a, x = .ok a → g a = of (f a)) : (of x >>= g) = of (x >>= f) := by
  cases x with
  | error fault => rfl
  | ok a => exact h a rfl

theorem of_map (x : Except Fault α) (f : α → β) : f <$> of x = of (x.map f) := by
  cases x <;> rfl

theorem mapM_of {f : α → Except Fault β} {g : α → Checked β} {as : List α}
    (h : ∀ a ∈ as, g a = of (f a)) : as.mapM g = of (as.mapM f) := by
  induction as with
  | nil => rfl
  | cons a as ih =>
    obtain ⟨ha, has⟩ := List.forall_mem_cons.1 h
    rw [List.mapM_cons, List.mapM_cons, ha, ih has]
    exact of_bind fun b _ => of_bind fun bs _ => rfl

theorem mapM_pure {f : α → β} {g : α → Checked β} {as : List α}
    (h : ∀ a ∈ as, g a = pure (f a)) : as.mapM g = pure (as.map f) := by
  induction as with
  | nil => rfl
  | cons a as ih =>
    obtain ⟨ha, has⟩ := List.forall_mem_cons.1 h
    rw [List.mapM_cons, ha, ih has]
    rfl

variable {t a m b : Text} {first last : Nat}

theorem cut_of_eq (ht : t = a ++ m ++ b) (hfirst : first = a.width)
    (hlast : last = a.width + m.width) : cut t first last = pure m := by
  rw [cut, Text.cut?_eq_some_iff.2 ⟨a, b, ht, hfirst.symm, hlast.symm⟩]
  rfl

/-- What stands behind a text. -/
theorem cut_to_end (ht : t = a ++ m) (hfirst : first = a.width) :
    cut t first t.width = pure m :=
  cut_of_eq (b := []) (by rw [ht, List.append_nil]) hfirst (by rw [ht, Text.width_append])

/-- What stands in front of a text. -/
theorem cut_from_start (ht : t = m ++ b) (hlast : last = m.width) : cut t 0 last = pure m :=
  cut_of_eq (a := []) ht rfl (by rw [hlast, Text.width_nil, Nat.zero_add])

/-- What follows a character of one byte. -/
theorem cut_inner {x : Char} (hx : x.utf8Size = 1) (a m b : Text) :
    cut (a ++ x :: (m ++ b)) (a.width + 1) (a.width + (1 + m.width)) = pure m :=
  cut_of_eq (a := a ++ [x]) (b := b) (by simp) (by simp [hx]) (by simp [hx, Nat.add_assoc])

theorem cut_of_isBoundary (hle : first ≤ last) (hfirst : t.IsBoundary first)
    (hlast : t.IsBoundary last) : cut t first last = pure (t.slice first last) := by
  rw [cut, Text.cut?_of_isBoundary hle hfirst hlast]
  rfl

end Checked

end CallSignature
