/-
CallSignature.Proofs.Segment.Divider — where an entry is divided.

Whether an equals sign assigns depends on the characters on both sides of it,
and so a key by itself and the same key in front of its sign might be judged
differently.  They are not: only an equals sign at the very end of the key
sees anything new, and there the new character is either no part of an
operator or an equals sign that would not assign (`separatesAt_append`).
-/
import CallSignature.Proofs.Nesting.Quiet
import CallSignature.Proofs.Segment.Elements
import CallSignature.Segment.Assignment

namespace CallSignature

open Unicode Segment

/-- No sign outside the literals and groups of the text divides it. -/
def LacksDivider (t : Text) : Prop :=
  ∀ v ∈ t.visits, separatesAt t v = false

instance (t : Text) : Decidable (LacksDivider t) :=
  inferInstanceAs (Decidable (∀ v ∈ t.visits, separatesAt t v = false))

/-- Whether the character, behind an equals sign, keeps it from assigning. -/
def continuesOperator (c : Char) : Bool :=
  c == '=' || c == '>'

/-- Whether the character, in front of an equals sign, keeps it from
assigning. -/
def beginsOperator (c : Char) : Bool :=
  c == '=' || c == '!' || c == '<' || c == '>'

theorem assigns_append (a b : Text) :
    assigns (a ++ '=' :: b) a.width
      = (!a.getLast?.any beginsOperator && !b.head?.any continuesOperator) := by
  have hdrop := Text.dropBytes_append (a ++ ['=']) b
  rw [List.append_assoc, Text.width_append, Text.width_cons, Text.width_nil] at hdrop
  rw [assigns, Text.takeBytes_append,
    show (a ++ '=' :: b).dropBytes (a.width + 1) = b from hdrop]
  rfl

/-- What follows a text matters to its signs only if it ends in an equals
sign. -/
theorem separatesAt_append {a b : Text} {v : Visit} (hv : v ∈ a.visits)
    (h : a.getLast? = some '=' → b.head?.any continuesOperator = false) :
    separatesAt (a ++ b) v = separatesAt a v := by
  rw [separatesAt, separatesAt, assignsAt, assignsAt]
  cases heq : v.isTopLevel '=' with
  | false => rfl
  | true =>
    obtain ⟨front, back, rfl, hoffset, -⟩ := exists_of_mem_visits hv
    have hchar : v.char = '=' := (isTopLevel_iff.1 heq).2
    rw [hchar] at h ⊢
    rw [hoffset, List.append_assoc, List.cons_append, assigns_append, assigns_append]
    cases back with
    | nil => rw [List.nil_append, h (by simp)]; rfl
    | cons c back => rfl

/-! ## Dividing an entry -/

theorem eq_of_separatesAt {t : Text} {v : Visit} (h : separatesAt t v = true) :
    v.depth = 0 ∧ (v.char = ':' ∨ v.char = '=' ∧ assigns t v.offset = true) := by
  simp only [separatesAt, assignsAt, Visit.isTopLevel, Bool.or_eq_true, Bool.and_eq_true,
    beq_iff_eq] at h
  rcases h with ⟨hdepth, hchar⟩ | ⟨⟨hdepth, hchar⟩, hassigns⟩
  · exact ⟨hdepth, .inl hchar⟩
  · exact ⟨hdepth, .inr ⟨hchar, hassigns⟩⟩

/-- A key that has no divider of its own ends at the colon behind it. -/
theorem divider_of_key {key value : Text} (hkey : Orderly key) (hlacks : LacksDivider key)
    (hvalue : Orderly value) (offset : Nat) :
    Segment.divider ⟨key ++ ':' :: value, offset⟩ = .ok (some (key.width, ':')) := by
  have hcolon : isPlain ':' = true := by decide
  have hfind : (key ++ ':' :: value).visits.find? (separatesAt (key ++ ':' :: value))
      = some ⟨key.width, ':', 0⟩ := by
    rw [visits_append hkey (hvalue.cons hcolon), visits_cons hcolon hvalue, List.find?_append,
      List.find?_eq_none.2 fun v hv => by
        rw [separatesAt_append hv fun _ => rfl, hlacks v hv]; exact Bool.false_ne_true]
    simp [Visit.lifted, separatesAt, Visit.isTopLevel]
  unfold Segment.divider
  simp only [firstVisit_eq_some_iff.2 hfind]
  rfl

theorem divider_of_orderly {entry : Segment} (h : Orderly entry.text) :
    entry.divider = .ok ((entry.text.visits.find? (separatesAt entry.text)).map
      fun v => (v.offset, v.char)) := by
  rw [divider, firstVisit_of_orderly _ h]
  rfl

theorem find?_of_divider {entry : Segment} {found : Option (Nat × Char)}
    (h : entry.divider = .ok found) :
    ∃ found', firstVisit (separatesAt entry.text) entry.text = .ok found' ∧
      found = found'.map fun v => (v.offset, v.char) := by
  unfold Segment.divider at h
  cases hfirst : firstVisit (separatesAt entry.text) entry.text with
  | error fault => rw [hfirst] at h; cases h
  | ok found' => rw [hfirst] at h; exact ⟨found', rfl, (Except.ok.inj h).symm⟩

theorem sign_of_divider {entry : Segment} {place : Nat} {sign : Char}
    (h : entry.divider = .ok (some (place, sign))) : sign = ':' ∨ sign = '=' := by
  obtain ⟨found, hfirst, hsome⟩ := find?_of_divider h
  cases found with
  | none => cases hsome
  | some v =>
    obtain ⟨rfl, rfl⟩ := Prod.mk.inj (Option.some.inj hsome)
    have hsep := List.find?_some (firstVisit_eq_some_iff.1 hfirst)
    exact (eq_of_separatesAt hsep).2.imp_right (·.1)

theorem lacksDivider_of_divider {entry : Segment} (h : entry.divider = .ok none) :
    Orderly entry.text ∧ LacksDivider entry.text := by
  obtain ⟨found, hfirst, hnone⟩ := find?_of_divider h
  cases found with
  | some v => cases hnone
  | none =>
    obtain ⟨horderly, hfind⟩ := firstVisit_eq_none_iff.1 hfirst
    exact ⟨horderly, fun v hv => by simpa using List.find?_eq_none.1 hfind v hv⟩

/-- The part of a text that stands in front of its first dividing sign has no
dividing sign of its own, and trimming it brings none about. -/
theorem lacksDivider_trim {a b : Text} {sign : Char} (htrimmed : (a ++ sign :: b).Trimmed)
    (ha : Orderly a) (hbefore : ∀ v ∈ a.visits, separatesAt (a ++ sign :: b) v = false)
    (hsign : sign = ':' ∨ sign = '=' ∧ assigns (a ++ sign :: b) a.width = true) :
    LacksDivider a.trim := by
  obtain ⟨r, hr, heq⟩ := htrimmed.exists_trim_left
  intro v hv
  have hmem : v ∈ a.visits := by
    rw [heq, visits_append ha.trim (orderly_of_isBlank hr)]
    exact List.mem_append_left _ hv
  have htext : a ++ sign :: b = a.trim ++ (r ++ sign :: b) := by
    rw [← List.append_assoc, ← heq]
  rw [← hbefore v hmem, htext]
  refine (separatesAt_append hv fun hlast => ?_).symm
  cases r with
  | cons c r =>
    -- white space behind the key
    obtain ⟨hc, -⟩ := Text.isBlank_cons.1 hr
    simp only [List.cons_append, List.head?_cons, Option.any_some, continuesOperator,
      Bool.or_eq_false_iff, beq_eq_false_iff_ne]
    constructor <;> rintro rfl <;> exact absurd hc (by decide)
  | nil =>
    rw [List.append_nil] at heq
    rw [← heq] at hlast
    rcases hsign with rfl | ⟨rfl, hassigns⟩
    · rfl
    · -- a second equals sign behind the first one would not assign
      rw [assigns_append, hlast] at hassigns
      simp [beginsOperator] at hassigns

/-- Where an orderly entry is divided, the key has no divider of its own. -/
theorem exists_of_divider {entry : Segment} {place : Nat} {sign : Char}
    (htrimmed : entry.text.Trimmed) (horderly : Orderly entry.text)
    (h : entry.divider = .ok (some (place, sign))) :
    ∃ a b, entry.text = a ++ sign :: b ∧ place = a.width ∧ Orderly a ∧ Orderly b ∧
      LacksDivider a.trim ∧ isPlain sign = true ∧ sign.utf8Size = 1 := by
  obtain ⟨found, hfirst, hsome⟩ := find?_of_divider h
  cases found with
  | none => cases hsome
  | some v =>
    obtain ⟨rfl, rfl⟩ := Prod.mk.inj (Option.some.inj hsome)
    obtain ⟨hv, before, behind, hvisits, hbefore⟩ :=
      List.find?_eq_some_iff_append.1 (firstVisit_eq_some_iff.1 hfirst)
    obtain ⟨hdepth, hsign⟩ := eq_of_separatesAt hv
    have hplain : isPlain v.char = true ∧ v.char.utf8Size = 1 := by
      rcases hsign with hchar | ⟨hchar, -⟩ <;> rw [hchar] <;> decide
    obtain ⟨a, b, ht, hoffset, ha, hb, hvis⟩ := horderly.cut hvisits hdepth hplain.1
    refine ⟨a, b, ht, hoffset, ha, hb, ?_, hplain⟩
    rw [ht] at htrimmed hbefore hsign
    refine lacksDivider_trim htrimmed ha (fun w hw => ?_) ?_
    · simpa using hbefore w (hvis ▸ hw)
    · rwa [hoffset] at hsign

end CallSignature
