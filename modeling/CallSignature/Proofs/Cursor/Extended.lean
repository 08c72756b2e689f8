/-
CallSignature.Proofs.Cursor.Extended — a cursor in a source that goes on.

`c.extended b` is the cursor in the source that goes on with `b`.  A step may
look at the character behind what it reads, and so it may come to see the
beginning of `b`.  It does not if what is unread ends in a mark that is part
of no word and no white space: then every step stops at that mark at the
latest.  Such a cursor is SEALED, its steps are those of the longer source,
and they lead to sealed cursors again.
-/
import CallSignature.Proofs.Cursor.Steps

namespace CallSignature

open Unicode

/-- The characters in which a head ends. -/
def endMarks : List Char := [')', '>', '{']

namespace Cursor

/-- The cursor in the source that goes on with the text. -/
def extended (b : Text) (c : Cursor) : Cursor :=
  ⟨c.behind, c.rest ++ b⟩

/-- What is unread ends in a mark that ends a head. -/
def IsSealed (c : Cursor) : Prop :=
  ∃ a, ∃ m ∈ endMarks, c.rest = a ++ [m]

/-- None of the marks is among these characters, so that a row of them stops
at a mark. -/
def StopsAtMarks (p : Char → Bool) : Prop :=
  ∀ m ∈ endMarks, p m = false

/-- None of the marks is in the text. -/
def LacksMarks (w : Text) : Prop :=
  ∀ m ∈ endMarks, m ∉ w

instance (w : Text) : Decidable (LacksMarks w) :=
  decidable_of_iff (endMarks.all (fun m => !w.contains m) = true) (by simp [LacksMarks])

/-- None of the marks is in the text, except at its end. -/
def MarksLast (w : Text) : Prop :=
  LacksMarks w.dropLast

instance (w : Text) : Decidable (MarksLast w) :=
  inferInstanceAs (Decidable (LacksMarks w.dropLast))

variable {a b w : Text} {c d e : Cursor} {p : Char → Bool}

theorem stopsAtMarks_isWhiteSpace : StopsAtMarks isWhiteSpace := by
  have hall : endMarks.all (fun m => !isWhiteSpace m) = true := by decide
  exact fun m hm => by simpa using List.all_eq_true.1 hall m hm

theorem stopsAtMarks_isNameContinue : StopsAtMarks isNameContinue := by
  have hall : endMarks.all (fun m => !isNameContinue m) = true := by decide
  exact fun m hm => by simpa using List.all_eq_true.1 hall m hm

/-! ## Passing on in the longer source -/

theorem extended_injective (h : c.extended b = d.extended b) : c = d := by
  obtain ⟨behind, rest⟩ := c
  obtain ⟨behind', rest'⟩ := d
  obtain ⟨rfl, hrest⟩ := Cursor.mk.inj h
  obtain rfl := List.append_cancel_right hrest
  rfl

@[simp] theorem offset_extended (b : Text) (c : Cursor) :
    (c.extended b).offset = c.offset := rfl

theorem passes_extended_iff : Passes a (c.extended b) (d.extended b) ↔ Passes a c d := by
  constructor
  · rintro ⟨hrest, hbehind⟩
    have hwhole : c.rest ++ b = (a ++ d.rest) ++ b := by
      rw [List.append_assoc]
      exact hrest
    exact ⟨List.append_cancel_right hwhole, hbehind⟩
  · rintro ⟨hrest, hbehind⟩
    refine ⟨?_, hbehind⟩
    rw [extended, extended, hrest, List.append_assoc]

/-- Where a reader of the longer source has come from is a cursor of the
shorter one, if it has come to one. -/
theorem Passes.exists_extended (h : Passes a c (d.extended b)) :
    ∃ e, c = e.extended b ∧ Passes a e d := by
  obtain ⟨hrest, hbehind⟩ := h
  refine ⟨⟨c.behind, a ++ d.rest⟩, ?_, ⟨rfl, hbehind⟩⟩
  rw [extended, List.append_assoc]
  exact congrArg (Cursor.mk c.behind) hrest

/-! ## Sealed cursors -/

theorem IsSealed.ne_nil (hc : c.IsSealed) : c.rest ≠ [] := by
  obtain ⟨a, m, -, hrest⟩ := hc
  simp [hrest]

/-- A cursor further on is sealed as well, unless everything has been read. -/
theorem IsSealed.of_passes (hc : c.IsSealed) (h : Passes a c d) (hd : d.rest ≠ []) :
    d.IsSealed := by
  obtain ⟨x, m, hm, hrest⟩ := hc
  obtain hnil | ⟨y, n, hy⟩ := List.eq_nil_or_concat d.rest
  · exact absurd hnil hd
  · rw [h.rest, hy, List.concat_eq_append, ← List.append_assoc] at hrest
    obtain ⟨-, hmark⟩ := List.append_inj' hrest rfl
    exact ⟨y, m, hm, by rw [hy, List.concat_eq_append, hmark]⟩

/-- A cursor on the way is sealed if there is more to read behind it. -/
theorem IsSealed.between {x : Text} (hc : c.IsSealed) (h : Passes a c d) (k : Passes x d e)
    (hx : x ≠ []) : d.IsSealed := by
  refine hc.of_passes h fun hnil => ?_
  have hrest := k.rest
  rw [hnil] at hrest
  exact hx (List.append_eq_nil_iff.1 hrest.symm).1

/-- Reading on without coming to a mark never reads everything. -/
theorem IsSealed.behind (hc : c.IsSealed) (h : Passes a c d) (ha : LacksMarks a) :
    d.IsSealed := by
  refine hc.of_passes h fun hnil => ?_
  obtain ⟨x, m, hm, hrest⟩ := hc
  rw [h.rest, hnil, List.append_nil] at hrest
  exact ha m hm (by simp [hrest])

/-! ## What a sealed cursor sees -/

theorem head?_extended (hc : c.IsSealed) (b : Text) :
    (c.extended b).rest.head? = c.rest.head? := by
  obtain ⟨x, rest, hrest⟩ := List.exists_cons_of_ne_nil hc.ne_nil
  rw [extended, hrest]
  rfl

theorem peek_extended (hc : c.IsSealed) (b : Text) : (c.extended b).peek = c.peek := by
  rw [peek, peek, List.headD_eq_head?_getD, List.headD_eq_head?_getD, head?_extended hc]

/-- A row of characters ends in the longer text where it ends in the shorter
one, if it ends there at all. -/
theorem takeWhile_append_of_stops {t : Text} (h : ∃ x ∈ t, p x = false) (b : Text) :
    (t ++ b).takeWhile p = t.takeWhile p := by
  induction t with
  | nil => simp at h
  | cons c t ih =>
    rw [List.cons_append, List.takeWhile_cons, List.takeWhile_cons]
    cases hc : p c with
    | false => rfl
    | true => simpa [hc] using ih (by simpa [hc] using h)

theorem IsSealed.exists_stop (hc : c.IsSealed) (hp : StopsAtMarks p) :
    ∃ x ∈ c.rest, p x = false := by
  obtain ⟨a, m, hm, hrest⟩ := hc
  exact ⟨m, by simp [hrest], hp m hm⟩

/-- What is unread of a sealed cursor is no beginning of a text with its marks
at the end, unless it is that text. -/
theorem isPrefixOf_extended (hc : c.IsSealed) (hw : MarksLast w) (b : Text) :
    w.isPrefixOf (c.extended b).rest = w.isPrefixOf c.rest := by
  rw [Bool.eq_iff_iff, List.isPrefixOf_iff_prefix, List.isPrefixOf_iff_prefix]
  refine ⟨fun h => ?_, fun h => h.trans (List.prefix_append _ _)⟩
  rcases List.prefix_or_prefix_of_prefix h (List.prefix_append _ _) with h | ⟨tail, htail⟩
  · exact h
  · obtain ⟨x, m, hm, hrest⟩ := hc
    cases tail with
    | nil =>
      rw [List.append_nil] at htail
      exact ⟨[], by rw [List.append_nil, htail]⟩
    | cons y tail =>
      refine absurd ?_ (hw m hm)
      rw [← htail, hrest, List.dropLast_append_of_ne_nil (by simp)]
      simp

/-! ## Steps -/

theorem advance_extended {n : Nat} (h : n ≤ c.rest.length) (b : Text) :
    (c.extended b).advance n = (c.advance n).extended b := by
  rw [advance, extended, List.take_append_of_le_length h, List.drop_append_of_le_length h]
  rfl

section

variable (hc : c.IsSealed)
include hc

theorem skipWhiteSpace_extended (b : Text) :
    (c.extended b).skipWhiteSpace = c.skipWhiteSpace.extended b := by
  have htake : (c.rest ++ b).takeWhile isWhiteSpace = c.rest.takeWhile isWhiteSpace :=
    takeWhile_append_of_stops (hc.exists_stop stopsAtMarks_isWhiteSpace) b
  rw [skipWhiteSpace, skipWhile, extended, htake]
  exact advance_extended (List.takeWhile_prefix _).length_le b

theorem IsSealed.skipWhiteSpace : c.skipWhiteSpace.IsSealed := by
  refine hc.behind (passes_skipWhiteSpace c) fun m hm hmem => ?_
  have hspace := List.mem_takeWhile_imp hmem
  rw [stopsAtMarks_isWhiteSpace m hm] at hspace
  cases hspace

theorem matchChar_extended (expected : Char) (b : Text) :
    (c.extended b).matchChar expected = (c.matchChar expected).map (extended b) := by
  have hlength : 1 ≤ c.rest.length := List.length_pos_iff.2 hc.ne_nil
  rw [matchChar, matchChar, head?_extended hc, advance_extended hlength]
  split <;> rfl

theorem matchText_extended (hw : MarksLast w) (b : Text) :
    (c.extended b).matchText w = (c.matchText w).map (extended b) := by
  rw [matchText, matchText, isPrefixOf_extended hc hw]
  split
  · rename_i hbegins
    rw [advance_extended (List.isPrefixOf_iff_prefix.1 hbegins).length_le]
    rfl
  · rfl

theorem IsSealed.matchChar {expected : Char} (h : c.matchChar expected = some d)
    (hmark : expected ∉ endMarks) : d.IsSealed :=
  hc.behind (passes_of_matchChar h) fun _ hm hmem => hmark (List.mem_singleton.1 hmem ▸ hm)

theorem IsSealed.matchWord (hw : LacksMarks w) (h : c.matchWord w = some d) :
    d.IsSealed :=
  hc.behind (passes_of_matchWord h) hw

/-- A word is matched in the longer source exactly if it is in the shorter
one: what follows it cannot be the text that the longer one goes on with. -/
theorem matchWord_extended (hw : LacksMarks w) (b : Text) :
    (c.extended b).matchWord w = (c.matchWord w).map (extended b) := by
  have hlast : MarksLast w := fun m hm hmem => hw m hm (List.dropLast_subset w hmem)
  cases hbegins : w.isPrefixOf c.rest with
  | false =>
    rw [Cursor.matchWord, Cursor.matchWord, startsWithWord, startsWithWord,
      isPrefixOf_extended hc hlast, hbegins]
    rfl
  | true =>
    obtain ⟨rest, hrest⟩ := List.isPrefixOf_iff_prefix.1 hbegins
    have hlength : w.length ≤ c.rest.length := by simp [← hrest]
    have hpass : Passes w c (c.advance w.length) := passes_advance hrest.symm
    have hhead : ((c.advance w.length).extended b).rest.head?
        = (c.advance w.length).rest.head? := head?_extended (hc.behind hpass hw) b
    rw [← advance_extended hlength] at hhead
    have hstarts : (c.extended b).startsWithWord w = c.startsWithWord w := by
      rw [startsWithWord, startsWithWord, isPrefixOf_extended hc hlast]
      exact congrArg (fun next => w.isPrefixOf c.rest && !Option.any isNameContinue next) hhead
    rw [Cursor.matchWord, Cursor.matchWord, hstarts, advance_extended hlength]
    split <;> rfl

theorem name?_extended (b : Text) : name? (c.extended b).rest = name? c.rest := by
  obtain ⟨a, m, hm, hrest⟩ := hc
  have hmark : isNameStart m = false := Bool.eq_false_iff.2 fun hstart => by
    have hcontinue := isNameContinue_of_isNameStart hstart
    rw [stopsAtMarks_isNameContinue m hm] at hcontinue
    cases hcontinue
  rw [extended, hrest]
  cases a with
  | nil =>
    have hsharp : m ≠ '#' := by
      rintro rfl
      revert hm
      decide
    simp [name?, hmark, hsharp]
  | cons x a =>
    have htake :
        (a ++ [m] ++ b).takeWhile isNameContinue = (a ++ [m]).takeWhile isNameContinue :=
      takeWhile_append_of_stops ⟨m, by simp, stopsAtMarks_isNameContinue m hm⟩ b
    have hhead : (a ++ [m] ++ b).head? = (a ++ [m]).head? := by
      cases a <;> rfl
    rw [List.cons_append, List.cons_append, name?, name?, htake, hhead]

theorem identifier_extended (b : Text) :
    (c.extended b).identifier
      = c.identifier.map fun found => (found.1, found.2.extended b) := by
  rw [identifier, identifier, name?_extended hc]
  cases hname : name? c.rest with
  | none => rfl
  | some name =>
    obtain ⟨rest, hrest, -, -⟩ := name?_eq_some hname
    have hlength : name.length ≤ c.rest.length := by simp [hrest]
    exact congrArg (fun d => some (name, d)) (advance_extended hlength b)

theorem IsSealed.identifier {name : Text} (h : c.identifier = some (name, d)) :
    d.IsSealed := by
  obtain ⟨hname, hpass⟩ := identifier_eq_some h
  refine hc.behind hpass fun m hm hmem => ?_
  have hmarks : endMarks.all (fun m => nonNameChars.contains m && m != '#') = true := by decide
  obtain ⟨hnonName, hsharp⟩ : m ∈ nonNameChars ∧ m ≠ '#' := by
    simpa using List.all_eq_true.1 hmarks m hm
  exact not_mem_name hname hnonName hsharp hmem

end

end Cursor

end CallSignature
