/-
CallSignature.Proofs.Text.Trimming — texts without white space around them.

`Text.Trimmed` is the property that every segment has: its text is its own
trim.  Trimming a text takes blank text away at both ends and nothing else
(`exists_trim`), and blank text around a trimmed one is what it takes away
(`trim_padded`).
-/
import CallSignature.Text

namespace CallSignature

open Unicode

namespace Text

/-- The text has no white space around it. -/
def Trimmed (t : Text) : Prop :=
  t.trim = t

instance (t : Text) : Decidable t.Trimmed :=
  inferInstanceAs (Decidable (t.trim = t))

/-! ## Blank text -/

theorem isBlank_iff {t : Text} : isBlank t = true ↔ ∀ c ∈ t, isWhiteSpace c = true := by
  simp [isBlank]

@[simp] theorem isBlank_nil : isBlank [] = true := rfl

@[simp] theorem isBlank_cons {c : Char} {t : Text} :
    isBlank (c :: t) = true ↔ isWhiteSpace c = true ∧ isBlank t = true := by
  simp [isBlank]

theorem isBlank_append {a b : Text} (ha : isBlank a = true) (hb : isBlank b = true) :
    isBlank (a ++ b) = true := by
  rw [isBlank, List.all_append]
  exact Bool.and_eq_true_iff.2 ⟨ha, hb⟩

theorem isBlank_takeWhile (t : Text) : isBlank (t.takeWhile isWhiteSpace) = true :=
  List.all_takeWhile

theorem dropWhile_append_of_isBlank {l : Text} (h : isBlank l = true) (t : Text) :
    (l ++ t).dropWhile isWhiteSpace = t.dropWhile isWhiteSpace := by
  induction l with
  | nil => rfl
  | cons c l ih =>
    obtain ⟨hc, hl⟩ := isBlank_cons.1 h
    rw [List.cons_append, List.dropWhile_cons, if_pos hc, ih hl]

theorem trimStart_append_of_isBlank {l : Text} (h : isBlank l = true) (t : Text) :
    trimStart (l ++ t) = trimStart t :=
  dropWhile_append_of_isBlank h t

theorem trimEnd_append_of_isBlank (t : Text) {r : Text} (h : isBlank r = true) :
    trimEnd (t ++ r) = trimEnd t := by
  have hr : isBlank r.reverse = true := by simpa [isBlank] using h
  rw [trimEnd, List.reverse_append, dropWhile_append_of_isBlank hr, trimEnd]

/-! ## What trimming takes away -/

theorem exists_trimStart (t : Text) : ∃ l, isBlank l = true ∧ t = l ++ trimStart t :=
  ⟨t.takeWhile isWhiteSpace, isBlank_takeWhile t, List.takeWhile_append_dropWhile.symm⟩

theorem exists_trimEnd (t : Text) : ∃ r, isBlank r = true ∧ t = trimEnd t ++ r := by
  refine ⟨(t.reverse.takeWhile isWhiteSpace).reverse, ?_, ?_⟩
  · rw [isBlank, List.all_reverse, List.all_takeWhile]
  · rw [trimEnd, ← List.reverse_append, List.takeWhile_append_dropWhile, List.reverse_reverse]

/-- Trimming takes away blank text at both ends and nothing else. -/
theorem exists_trim (t : Text) :
    ∃ l r, isBlank l = true ∧ isBlank r = true ∧ t = l ++ t.trim ++ r := by
  obtain ⟨l, hl, hstart⟩ := exists_trimStart t
  obtain ⟨r, hr, hend⟩ := exists_trimEnd (trimStart t)
  exact ⟨l, r, hl, hr, by rw [trim, List.append_assoc, ← hend, ← hstart]⟩

theorem isBlank_of_trim_eq_nil {t : Text} (h : t.trim = []) : isBlank t = true := by
  obtain ⟨l, r, hl, hr, heq⟩ := exists_trim t
  rw [heq, h, List.append_nil]
  exact isBlank_append hl hr

/-! ## Trimmed texts -/

theorem trimStart_eq_self {t : Text} (h : ∀ c, t.head? = some c → isWhiteSpace c = false) :
    trimStart t = t := by
  cases t with
  | nil => rfl
  | cons c t => rw [trimStart, List.dropWhile_cons, if_neg (by simp [h c rfl])]

theorem trimEnd_eq_self {t : Text} (h : ∀ c, t.getLast? = some c → isWhiteSpace c = false) :
    trimEnd t = t := by
  rw [← List.head?_reverse] at h
  rw [trimEnd, show t.reverse.dropWhile isWhiteSpace = t.reverse from trimStart_eq_self h,
    List.reverse_reverse]

theorem head?_trimStart {t : Text} {c : Char} (h : (trimStart t).head? = some c) :
    isWhiteSpace c = false := by
  have := List.head?_dropWhile_not isWhiteSpace t
  rw [show (t.dropWhile isWhiteSpace).head? = some c from h] at this
  exact this

theorem getLast?_trimEnd {t : Text} {c : Char} (h : (trimEnd t).getLast? = some c) :
    isWhiteSpace c = false := by
  rw [trimEnd, List.getLast?_reverse] at h
  exact head?_trimStart h

/-- A text is trimmed if it neither begins nor ends with white space. -/
theorem trimmed_iff {t : Text} : t.Trimmed ↔
    (∀ c, t.head? = some c → isWhiteSpace c = false) ∧
      (∀ c, t.getLast? = some c → isWhiteSpace c = false) := by
  constructor
  · intro h
    refine ⟨fun c hc => ?_, fun c hc => getLast?_trimEnd (h.symm ▸ hc)⟩
    obtain ⟨r, -, hr⟩ := exists_trimEnd (trimStart t)
    rw [show trimEnd (trimStart t) = t from h] at hr
    refine head?_trimStart (t := t) ?_
    rw [hr, List.head?_append, hc]
    rfl
  · rintro ⟨hhead, hlast⟩
    rw [Trimmed, trim, trimStart_eq_self hhead, trimEnd_eq_self hlast]

theorem trimmed_nil : Trimmed [] := rfl

theorem trimmed_trim (t : Text) : t.trim.Trimmed := by
  refine trimmed_iff.2 ⟨fun c hc => ?_, fun c hc => getLast?_trimEnd hc⟩
  obtain ⟨r, -, hr⟩ := exists_trimEnd (trimStart t)
  refine head?_trimStart (t := t) ?_
  rw [hr, List.head?_append, show trimEnd (trimStart t) = t.trim from rfl, hc]
  rfl

/-- Only the two ends of a text matter. -/
theorem Trimmed.around {a b : Text} (ha : a.Trimmed) (hane : a ≠ []) (hb : b.Trimmed)
    (hbne : b ≠ []) (between : Text) : Trimmed (a ++ between ++ b) := by
  obtain ⟨c, cs, rfl⟩ := List.exists_cons_of_ne_nil hane
  refine trimmed_iff.2 ⟨(trimmed_iff.1 ha).1, fun d hd => (trimmed_iff.1 hb).2 d ?_⟩
  rw [List.getLast?_append] at hd
  cases hlast : b.getLast? with
  | none => exact absurd (List.getLast?_eq_none_iff.1 hlast) hbne
  | some e => rwa [hlast] at hd

/-- Blank text around a trimmed one is what trimming takes away. -/
theorem trim_padded {l t r : Text} (hl : isBlank l = true) (ht : t.Trimmed)
    (hr : isBlank r = true) : (l ++ t ++ r).trim = t := by
  have h : trimStart (l ++ t ++ r) = trimStart (t ++ r) := by
    rw [List.append_assoc, trimStart_append_of_isBlank hl]
  rw [trim, h]
  cases t with
  | nil =>
    rw [List.nil_append, show trimStart r = [] from ?_]
    · rfl
    · have := trimStart_append_of_isBlank hr []
      rwa [List.append_nil] at this
  | cons c t =>
    have hhead : trimStart (c :: t ++ r) = c :: t ++ r :=
      trimStart_eq_self fun d hd => (trimmed_iff.1 ht).1 d (by simpa using hd)
    rw [hhead, trimEnd_append_of_isBlank _ hr, trimEnd_eq_self (trimmed_iff.1 ht).2]

/-- A trimmed text that is not empty is not blank. -/
theorem Trimmed.isBlank_eq_false {t : Text} (h : t.Trimmed) (hne : t ≠ []) :
    isBlank t = false := by
  cases t with
  | nil => exact absurd rfl hne
  | cons c t =>
    have hc := (trimmed_iff.1 h).1 c rfl
    simp [isBlank, hc]

/-- Blank text at the end of what a trimmed text begins with is all that
trimming takes away from it. -/
theorem Trimmed.exists_trim_left {a b : Text} (h : (a ++ b).Trimmed) :
    ∃ r, isBlank r = true ∧ a = a.trim ++ r := by
  have hstart : trimStart a = a := trimStart_eq_self fun c hc =>
    (trimmed_iff.1 h).1 c (by rw [List.head?_append, hc]; rfl)
  obtain ⟨r, hr, ha⟩ := exists_trimEnd (trimStart a)
  refine ⟨r, hr, ?_⟩
  rw [trim, ← ha, hstart]

/-- Blank text in front of what a trimmed text ends with is all that trimming
takes away from it. -/
theorem Trimmed.exists_trim_right {a b : Text} (h : (a ++ b).Trimmed) :
    ∃ l, isBlank l = true ∧ b = l ++ b.trim := by
  obtain ⟨l, hl, hb⟩ := exists_trimStart b
  have hend : trimEnd (trimStart b) = trimStart b := trimEnd_eq_self fun c hc =>
    (trimmed_iff.1 h).2 c (by rw [hb, ← List.append_assoc, List.getLast?_append, hc]; rfl)
  exact ⟨l, hl, by rw [trim, hend, ← hb]⟩

end Text

end CallSignature
