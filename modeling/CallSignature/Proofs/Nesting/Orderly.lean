/-
CallSignature.Proofs.Nesting.Orderly — texts whose literals and groups are in
order.

`Orderly` is what `scan` accepts.  An orderly text is passed from outside all
literals to outside all literals, inside whatever groups it stands
(`Orderly.passage`), and that is why order is a property of parts: orderly
texts can be put side by side (`Orderly.append`) and into brackets
(`Orderly.group`), and a visit outside all groups to a plain character cuts an
orderly text into two (`Orderly.cut`).
-/
import CallSignature.Proofs.Nesting.Passage
import CallSignature.Proofs.Text.Trimming

namespace CallSignature

open Tracker Unicode

/-- The literals and groups of the text are in order. -/
def Orderly (t : Text) : Prop :=
  ∃ visits, scan t = .ok visits

/-- The characters of the code of a text, as far as it is in order. -/
def Text.visits (t : Text) : List Visit :=
  (survey t).visits

theorem orderly_iff_fault {t : Text} : Orderly t ↔ (survey t).fault = none := by
  simp only [Orderly, scan]
  rcases survey t with ⟨visits, _ | fault⟩ <;> simp

instance (t : Text) : Decidable (Orderly t) :=
  decidable_of_iff _ orderly_iff_fault.symm

theorem survey_of_orderly {t : Text} (h : Orderly t) : survey t = ⟨t.visits, none⟩ := by
  rw [← orderly_iff_fault.1 h, Text.visits]

theorem scan_of_orderly {t : Text} (h : Orderly t) : scan t = .ok t.visits := by
  rw [scan, survey_of_orderly h]

theorem eq_visits_of_scan {t : Text} {visits : List Visit} (h : scan t = .ok visits) :
    visits = t.visits := by
  rw [scan_of_orderly ⟨visits, h⟩] at h
  exact (Except.ok.inj h).symm

theorem isTopLevel_iff {v : Visit} {c : Char} :
    v.isTopLevel c = true ↔ v.depth = 0 ∧ v.char = c := by
  simp [Visit.isTopLevel]

/-! ## Passages of orderly texts -/

theorem unfinished?_eq_none_iff {t : Tracker} : t.unfinished? = none ↔ t = {} := by
  rcases t with ⟨_ | ⟨group, groups⟩, _ | _⟩ <;> simp [unfinished?, QuoteState.openLiteral?]

/-- An orderly text is passed, and nothing is open behind it. -/
theorem orderly_iff_passage {t : Text} {visits : List Visit} :
    Orderly t ∧ t.visits = visits ↔ Passage {} 0 t visits {} := by
  constructor
  · rintro ⟨h, rfl⟩
    obtain ⟨last, hpass, hlast⟩ := passage_of_surveyFrom (survey_of_orderly h)
    rwa [unfinished?_eq_none_iff.1 hlast] at hpass
  · intro h
    have hsurvey : survey t = ⟨visits, none⟩ := surveyFrom_of_passage h
    exact ⟨orderly_iff_fault.2 (by rw [hsurvey]), by rw [Text.visits, hsurvey]⟩

/-- An orderly text is passed wherever it stands in the code. -/
theorem Orderly.passage {t : Text} (h : Orderly t) (base : Nat) (around : List OpenGroup) :
    Passage ⟨around, .outside⟩ base t (t.visits.map (Visit.lifted base around.length))
      ⟨around, .outside⟩ := by
  simpa using (orderly_iff_passage.1 ⟨h, rfl⟩).lifted base around

/-- What is passed from outside literals to outside literals is orderly, if it
closes none of the groups that it stands in. -/
theorem Tracker.Passage.orderly {base : Nat} {around : List OpenGroup} {t : Text}
    {visits : List Visit} (h : Passage ⟨around, .outside⟩ base t visits ⟨around, .outside⟩)
    (hstay : ∀ v ∈ visits, isCloser v.char = true → around.length ≤ v.depth) :
    Orderly t ∧ visits = t.visits.map (Visit.lifted base around.length) := by
  have hlifted : Passage (Tracker.lifted base around {}) (0 + base) t visits
      ⟨around, .outside⟩ := by simpa using h
  obtain ⟨visits', ⟨groups, quotes⟩, hpass, hlast, rfl⟩ := hlifted.lowered hstay
  obtain ⟨hgroups, hquotes⟩ := Tracker.mk.inj hlast
  obtain rfl := QuoteState.shifted_eq_outside_iff.1 hquotes.symm
  obtain rfl : groups = [] := by
    have := congrArg List.length hgroups
    rw [length_liftedGroups] at this
    exact List.eq_nil_of_length_eq_zero (by simpa using this)
  obtain ⟨horderly, rfl⟩ := orderly_iff_passage.2 hpass
  exact ⟨horderly, by simp⟩

/-- What is passed with nothing open before it and behind it is orderly. -/
theorem Tracker.Passage.orderly_of_empty {base : Nat} {t : Text} {visits : List Visit}
    (h : Passage {} base t visits {}) :
    Orderly t ∧ visits = t.visits.map (Visit.lifted base 0) :=
  h.orderly fun _ _ _ => Nat.zero_le _

/-! ## Putting orderly texts together -/

theorem orderly_nil : Orderly [] := ⟨[], rfl⟩

@[simp] theorem visits_nil : Text.visits [] = [] := rfl

theorem passage_append {a b : Text} (ha : Orderly a) (hb : Orderly b) :
    Passage {} 0 (a ++ b) (a.visits ++ b.visits.map (Visit.lifted a.width 0)) {} := by
  have hb := hb.passage (0 + a.width) []
  rw [Nat.zero_add] at hb
  refine (orderly_iff_passage.1 ⟨ha, rfl⟩).append ?_
  rwa [Nat.zero_add]

theorem Orderly.append {a b : Text} (ha : Orderly a) (hb : Orderly b) : Orderly (a ++ b) :=
  (orderly_iff_passage.2 (passage_append ha hb)).1

theorem visits_append {a b : Text} (ha : Orderly a) (hb : Orderly b) :
    (a ++ b).visits = a.visits ++ b.visits.map (Visit.lifted a.width 0) :=
  (orderly_iff_passage.2 (passage_append ha hb)).2

theorem orderly_singleton {c : Char} (h : isPlain c = true) :
    Orderly [c] ∧ Text.visits [c] = [⟨0, c, 0⟩] :=
  orderly_iff_passage.2 (Passage.singleton (.plain h))

theorem Orderly.cons {c : Char} (hc : isPlain c = true) {t : Text} (ht : Orderly t) :
    Orderly (c :: t) :=
  (orderly_singleton hc).1.append ht

theorem visits_cons {c : Char} (hc : isPlain c = true) {t : Text} (ht : Orderly t) :
    Text.visits (c :: t) = ⟨0, c, 0⟩ :: t.visits.map (Visit.lifted c.utf8Size 0) := by
  have := visits_append (orderly_singleton hc).1 ht
  simpa [(orderly_singleton hc).2] using this

/-- The passage of a group, whatever stands behind it. -/
theorem passage_group {opener closer : Char} (h : closerOf? opener = some closer)
    {inner : Text} (hinner : Orderly inner) :
    Passage {} 0 (opener :: inner ++ [closer])
      (⟨0, opener, 0⟩ :: inner.visits.map (Visit.lifted 1 1) ++ [⟨1 + inner.width, closer, 0⟩])
      {} := by
  have hopen : Passage {} 0 [opener] [⟨0, opener, 0⟩] ⟨[⟨closer, 0⟩], .outside⟩ :=
    Passage.singleton (.opener h)
  have hin := hinner.passage 1 [⟨closer, 0⟩]
  have hclose : Passage ⟨[⟨closer, 0⟩], .outside⟩ (1 + inner.width) [closer]
      [⟨1 + inner.width, closer, 0⟩] {} :=
    Passage.singleton (.closer (isCloser_of_closerOf? h))
  have hsize := utf8Size_of_closerOf? h
  have hfront : Passage {} 0 (opener :: inner)
      (⟨0, opener, 0⟩ :: inner.visits.map (Visit.lifted 1 1)) ⟨[⟨closer, 0⟩], .outside⟩ :=
    hopen.append (by simpa [hsize] using hin)
  exact hfront.append (by simpa [hsize] using hclose)

theorem Orderly.group {opener closer : Char} (h : closerOf? opener = some closer)
    {inner : Text} (hinner : Orderly inner) : Orderly (opener :: inner ++ [closer]) :=
  (orderly_iff_passage.2 (passage_group h hinner)).1

theorem visits_group {opener closer : Char} (h : closerOf? opener = some closer) {inner : Text}
    (hinner : Orderly inner) : Text.visits (opener :: inner ++ [closer])
      = ⟨0, opener, 0⟩ :: inner.visits.map (Visit.lifted 1 1)
        ++ [⟨1 + inner.width, closer, 0⟩] :=
  (orderly_iff_passage.2 (passage_group h hinner)).2

/-! ## Taking orderly texts apart -/

theorem Orderly.of_append_left {a b : Text} (h : Orderly (a ++ b)) (ha : Orderly a) :
    Orderly b := by
  obtain ⟨before, behind, mid, -, hpa, hpb⟩ := (orderly_iff_passage.1 ⟨h, rfl⟩).of_append
  have hmid := surveyFrom_append (orderly_iff_passage.1 ⟨ha, rfl⟩) b
  have hwhole := survey_of_orderly h
  rw [survey, hmid] at hwhole
  obtain ⟨last, hpass, hlast⟩ := passage_of_surveyFrom
    (congrArg (Survey.mk _) (Survey.mk.inj hwhole).2)
  rw [unfinished?_eq_none_iff.1 hlast] at hpass
  exact hpass.orderly_of_empty.1

/-- A visit outside all groups to a plain character cuts an orderly text into
two orderly ones. -/
theorem Orderly.cut {t : Text} (h : Orderly t) {before behind : List Visit} {v : Visit}
    (hvisits : t.visits = before ++ v :: behind) (hdepth : v.depth = 0)
    (hplain : isPlain v.char = true) :
    ∃ a b, t = a ++ v.char :: b ∧ v.offset = a.width ∧ Orderly a ∧ Orderly b ∧
      a.visits = before := by
  obtain ⟨a, b, mid, next, rfl, hoffset, hpass, hsees, hrest⟩ := surveyFrom_split hvisits
  obtain ⟨hquote, hopener, hcloser⟩ := isPlain_iff.1 hplain
  rw [show (surveyFrom {} 0 (a ++ v.char :: b)).fault = none
    from orderly_iff_fault.1 h] at hrest
  obtain ⟨last, hpassb, hlast⟩ := passage_of_surveyFrom hrest
  rw [unfinished?_eq_none_iff.1 hlast] at hpassb
  generalize hs : Sighting.code v.depth = s at hsees
  cases hsees with
  | literal h => cases hs
  | opener h => rw [hopener] at h; cases h
  | closer h => rw [hcloser] at h; cases h
  | @plain groups _ =>
    obtain rfl : groups = [] := by
      rw [hdepth] at hs
      exact List.eq_nil_of_length_eq_zero (Sighting.code.inj hs).symm
    obtain ⟨ha, hvis⟩ := orderly_iff_passage.2 hpass
    exact ⟨a, b, rfl, by simpa using hoffset, ha, hpassb.orderly_of_empty.1, hvis⟩

/-! ## The first visit of some sort -/

theorem firstVisit_eq_some_iff {p : Visit → Bool} {t : Text} {v : Visit} :
    firstVisit p t = .ok (some v) ↔ t.visits.find? p = some v := by
  rw [firstVisit, Text.visits]
  rcases survey t with ⟨visits, fault⟩
  cases hfind : visits.find? p <;> cases fault <;> simp [hfind]

theorem firstVisit_eq_none_iff {p : Visit → Bool} {t : Text} :
    firstVisit p t = .ok none ↔ Orderly t ∧ t.visits.find? p = none := by
  rw [orderly_iff_fault, firstVisit, Text.visits]
  rcases survey t with ⟨visits, fault⟩
  cases hfind : visits.find? p <;> cases fault <;> simp [hfind]

theorem firstVisit_of_orderly (p : Visit → Bool) {t : Text} (h : Orderly t) :
    firstVisit p t = .ok (t.visits.find? p) := by
  cases hfind : t.visits.find? p with
  | some v => exact firstVisit_eq_some_iff.2 hfind
  | none => exact firstVisit_eq_none_iff.2 ⟨h, hfind⟩

theorem orderly_of_plain {t : Text} (h : ∀ c ∈ t, isPlain c = true) : Orderly t := by
  induction t with
  | nil => exact orderly_nil
  | cons c t ih =>
    obtain ⟨hc, ht⟩ := List.forall_mem_cons.1 h
    exact (ih ht).cons hc

/-! ## White space -/

theorem isPlain_of_isWhiteSpace {c : Char} (h : isWhiteSpace c = true) : isPlain c = true := by
  rw [isPlain_iff]
  refine ⟨Bool.eq_false_iff.2 fun hq => ?_, ?_, Bool.eq_false_iff.2 fun hc => ?_⟩
  · rcases eq_of_isQuote hq with rfl | rfl | rfl <;> revert h <;> decide
  · refine Option.eq_none_iff_forall_ne_some.2 fun closer hcloser => ?_
    rcases eq_of_closerOf? hcloser with ⟨rfl, -⟩ | ⟨rfl, -⟩ | ⟨rfl, -⟩ <;>
      exact absurd h (by decide)
  · rcases eq_of_isCloser hc with rfl | rfl | rfl <;> revert h <;> decide

theorem orderly_of_isBlank {t : Text} (h : t.isBlank = true) : Orderly t :=
  orderly_of_plain fun c hc => isPlain_of_isWhiteSpace (Text.isBlank_iff.1 h c hc)

/-- If nothing is open behind plain text, nothing was open before it: no
plain character closes a literal or a group. -/
theorem Tracker.Passage.eq_empty_of_plain {t : Tracker} {offset : Nat} {a : Text}
    {visits : List Visit} (h : Passage t offset a visits {}) (hsound : t.quotes.Sound)
    (hplain : ∀ c ∈ a, isPlain c = true) : t = {} := by
  generalize hlast : ({} : Tracker) = last at h
  induction h with
  | nil => rfl
  | @cons t next last offset c s rest visits head tail ih =>
    subst hlast
    obtain ⟨hquote, hopener, hcloser⟩ := isPlain_iff.1 (hplain c (by simp))
    have hnext : next = {} :=
      ih (head.quotes ▸ hsound.step _ _) (fun d hd => hplain d (by simp [hd])) rfl
    cases head with
    | @literal groups quotes hcovers =>
      obtain ⟨-, hstep⟩ := Tracker.mk.inj hnext
      obtain rfl := hsound.eq_outside_of_step hquote hstep
      rw [QuoteState.covers, hquote] at hcovers
      cases hcovers
    | opener h => rw [hopener] at h; cases h
    | closer h => rw [hcloser] at h; cases h
    | plain h => exact hnext

theorem Orderly.of_append_blank {a b : Text} (h : Orderly (a ++ b)) (hb : b.isBlank = true) :
    Orderly a := by
  obtain ⟨before, behind, mid, -, hpa, hpb⟩ := (orderly_iff_passage.1 ⟨h, rfl⟩).of_append
  obtain rfl : mid = {} := hpb.eq_empty_of_plain (hpa.sound trivial) fun c hc =>
    isPlain_of_isWhiteSpace (Text.isBlank_iff.1 hb c hc)
  exact (orderly_iff_passage.2 hpa).1

/-- White space around an orderly text may be taken away. -/
theorem Orderly.trim {t : Text} (h : Orderly t) : Orderly t.trim := by
  obtain ⟨l, r, hl, hr, ht⟩ := Text.exists_trim t
  rw [ht] at h
  rw [List.append_assoc] at h
  exact (h.of_append_left (orderly_of_isBlank hl)).of_append_blank hr

/-- White space may be put around an orderly text. -/
theorem Orderly.of_trim {t : Text} (h : Orderly t.trim) : Orderly t := by
  obtain ⟨l, r, hl, hr, ht⟩ := Text.exists_trim t
  rw [ht]
  exact ((orderly_of_isBlank hl).append h).append (orderly_of_isBlank hr)

end CallSignature
