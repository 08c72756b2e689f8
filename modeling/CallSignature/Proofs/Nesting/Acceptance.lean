/-
CallSignature.Proofs.Nesting.Acceptance — a scan accepts the balanced texts.

The tracker follows the grammar.  A balanced text is passed with nothing left
open, a text in front of a place is passed with as many groups open as the
place is inside of (`Inside.passage`), and so each of the four breaks of a
text stops the scan with the fault of that break (`Broken.fault_survey`).  As
every text is balanced or broken, this settles the other direction too:
what a scan accepts is balanced, and what it reports is the break.

Of a balanced text the scan lists the characters of the code, in their order
and each at its depth, and skips the literals (`ListsCode`).  The list is read
off one part of the text at a time: whatever stands around it, a balanced part
gives the visits that it gives by itself, further on and deeper
(`Inside.mem_visits_iff`).
-/
import CallSignature.Proofs.Nesting.Balanced
import CallSignature.Proofs.Nesting.Whole
import Mathlib.Data.List.Sort

namespace CallSignature

open Tracker

/-! ## Trackers behind balanced texts -/

theorem orderly_literal {quote : Char} {words : Text} (hquote : isQuote quote = true)
    (hwords : IsBody quote words) : Orderly (quote :: words ++ [quote]) ∧
      Text.visits (quote :: words ++ [quote]) = [] := by
  have hclosing : closingQuote (quote :: words ++ [quote]) = some (1 + words.width) :=
    closingQuote_eq_some_iff.2 ⟨quote, words, [], hquote, hwords, rfl, rfl⟩
  have hliteral : IsLiteral (quote :: words ++ [quote]) :=
    ⟨_, hclosing, by simp [utf8Size_of_isQuote hquote, Nat.add_assoc]⟩
  obtain ⟨-, -, -, -, -, horderly, hvisits⟩ := hliteral.exists_eq
  exact ⟨horderly, hvisits⟩

theorem Balanced.orderly {t : Text} (h : Balanced t) : Orderly t := by
  induction h with
  | nil => exact orderly_nil
  | plain hc _ ih => exact ih.cons hc
  | literal hquote hwords _ ih =>
    rw [List.append_cons]
    exact (orderly_literal hquote hwords).1.append ih
  | group hopener _ _ ihinner ihrest =>
    rw [List.append_cons]
    exact (ihinner.group hopener).append ihrest

/-- Behind an opening bracket and an orderly text one more group is open. -/
theorem Tracker.Passage.opens {a m : Text} {before : List Visit} {groups : List OpenGroup}
    {opener closer : Char} (h : Passage {} 0 a before ⟨groups, .outside⟩)
    (hopener : closerOf? opener = some closer) (hm : Orderly m) :
    ∃ visits, Passage {} 0 (a ++ opener :: m) visits
      ⟨⟨closer, a.width⟩ :: groups, .outside⟩ := by
  rw [← Nat.zero_add a.width]
  exact ⟨_, h.append (.cons (.opener hopener) (hm.passage _ _))⟩

/-- In front of a place the tracker has the groups open that the place is
inside of. -/
theorem Inside.passage {depth : Nat} {a b : Text} (h : Inside depth a b) :
    ∃ groups visits, groups.length = depth ∧ Passage {} 0 a visits ⟨groups, .outside⟩ := by
  induction h with
  | outermost ha _ => exact ⟨[], _, rfl, orderly_iff_passage.1 ⟨ha.orderly, rfl⟩⟩
  | group _ hopener hm _ ih =>
    obtain ⟨groups, visits, hlength, hpass⟩ := ih
    obtain ⟨visits, hpass⟩ := hpass.opens hopener hm.orderly
    exact ⟨_, visits, by rw [List.length_cons, hlength], hpass⟩

/-- A literal that is not closed stays open. -/
theorem IsOpenBody.passage {quote : Char} {t : Text} (h : IsOpenBody quote t)
    (groups : List OpenGroup) (openedAt offset : Nat) :
    ∃ escaped, Passage ⟨groups, .inside quote openedAt false⟩ offset t []
      ⟨groups, .inside quote openedAt escaped⟩ := by
  induction h generalizing offset with
  | nil => exact ⟨false, .nil _ _⟩
  | backslash => exact ⟨true, Passage.singleton (.literal rfl)⟩
  | @plain c rest hquote hescape _ ih =>
    obtain ⟨escaped, hpass⟩ := ih (offset + c.utf8Size)
    have hsees := @Sees.literal offset c groups (.inside quote openedAt false) rfl
    rw [step_plain hquote hescape] at hsees
    exact ⟨escaped, .cons hsees hpass⟩
  | @escape c rest _ ih =>
    obtain ⟨escaped, hpass⟩ := ih (offset + Char.utf8Size '\\' + c.utf8Size)
    exact ⟨escaped, .cons (.literal rfl) (.cons (.literal rfl) hpass)⟩

/-! ## Faults -/

theorem scan_eq_error_iff {t : Text} {fault : Fault} :
    scan t = .error fault ↔ (survey t).fault = some fault := by
  rw [scan]
  rcases survey t with ⟨visits, _ | found⟩ <;> simp

/-- The fault of a survey lies behind the text that the tracker gets through. -/
theorem fault_survey_append {a : Text} {before : List Visit} {mid : Tracker}
    (h : Passage {} 0 a before mid) (b : Text) :
    (survey (a ++ b)).fault = (surveyFrom mid a.width b).fault := by
  rw [survey, surveyFrom_append h, Nat.zero_add]

/-- A closing bracket outside literals is one for the innermost group. -/
theorem Tracker.feed_closer {c : Char} (hc : isCloser c = true) (groups : List OpenGroup)
    (offset : Nat) : feed ⟨groups, .outside⟩ offset c = close ⟨groups, .outside⟩ offset c := by
  simp [feed, QuoteState.covers, isQuote_of_isCloser hc, closerOf?_of_isCloser hc, hc]

theorem Tracker.close_of_ne {expected found : Char} (hne : expected ≠ found) (openedAt : Nat)
    (outer : List OpenGroup) (offset : Nat) :
    close ⟨⟨expected, openedAt⟩ :: outer, .outside⟩ offset found = (⟨outer, .outside⟩,
      .error (((Cause.closerMismatch expected found).located offset).withHint
        (.groupNeverClosed openedAt))) :=
  if_neg hne

/-- A scan reports the break of a text that is broken. -/
theorem Broken.fault_survey {t : Text} {fault : Fault} (h : Broken t fault) :
    (survey t).fault = some fault := by
  cases h with
  | unmatched ht hfound ha =>
    rw [ht, fault_survey_append (orderly_iff_passage.1 ⟨ha.orderly, rfl⟩), surveyFrom,
      feed_closer hfound]
    rfl
  | mismatch ht ha hopener hm hfound hne =>
    obtain ⟨groups, _, -, hpass⟩ := ha.passage
    obtain ⟨_, hpass⟩ := hpass.opens hopener hm.orderly
    rw [ht, fault_survey_append hpass, surveyFrom, feed_closer hfound, close_of_ne hne]
  | @literal _ a _ b quote ht ha hquote hb =>
    obtain ⟨groups, _, -, hpass⟩ := ha.passage
    obtain ⟨escaped, hbody⟩ := hb.passage groups a.width (a.width + quote.utf8Size)
    have hsees := @Sees.literal a.width quote groups .outside hquote
    rw [QuoteState.step, if_pos hquote] at hsees
    rw [ht, fault_survey_append hpass, surveyFrom_of_passage (.cons hsees hbody)]
    rfl
  | unclosed ht ha hopener hm =>
    obtain ⟨groups, _, -, hpass⟩ := ha.passage
    obtain ⟨_, hpass⟩ := hpass.opens hopener hm.orderly
    rw [ht, survey, surveyFrom_of_passage hpass]
    rfl

theorem orderly_iff_balanced {t : Text} : Orderly t ↔ Balanced t := by
  refine ⟨fun h => ?_, Balanced.orderly⟩
  rcases balanced_or_broken t with hbalanced | ⟨fault, hbroken⟩
  · exact hbalanced
  · have hfault := hbroken.fault_survey
    rw [orderly_iff_fault.1 h] at hfault
    cases hfault

theorem fault_survey_iff_broken {t : Text} {fault : Fault} :
    (survey t).fault = some fault ↔ Broken t fault := by
  refine ⟨fun h => ?_, Broken.fault_survey⟩
  rcases balanced_or_broken t with hbalanced | ⟨found, hbroken⟩
  · rw [orderly_iff_fault.1 hbalanced.orderly] at h
    cases h
  · rw [hbroken.fault_survey] at h
    rwa [Option.some.inj h] at hbroken

/-! ## Visits -/

theorem offset_of_mem_surveyFrom {t : Tracker} {offset : Nat} {text : Text} {v : Visit}
    (h : v ∈ (surveyFrom t offset text).visits) :
    offset ≤ v.offset ∧ v.offset < offset + text.width := by
  obtain ⟨before, behind, hvisits⟩ := List.append_of_mem h
  obtain ⟨a, b, -, -, rfl, hoffset, -, -, -⟩ := surveyFrom_split hvisits
  have := v.char.utf8Size_pos
  rw [Text.width_append, Text.width_cons]
  omega

/-- Whatever stands around it, a balanced part gives its own visits, further
on and deeper. -/
theorem Inside.mem_visits_iff {depth : Nat} {a b m : Text} (h : Inside depth a b)
    (hm : Balanced m) {v : Visit} (hfrom : a.width ≤ v.offset)
    (hto : v.offset < a.width + m.width) :
    v ∈ (a ++ m ++ b).visits ↔ v ∈ m.visits.map (Visit.lifted a.width depth) := by
  obtain ⟨groups, before, rfl, hpass⟩ := h.passage
  have hmid := hm.orderly.passage (0 + a.width) groups
  rw [Text.visits, survey, surveyFrom_append (hpass.append hmid), Nat.zero_add, Nat.zero_add,
    Text.width_append]
  simp only [List.mem_append]
  constructor
  · rintro ((hbefore | hinner) | hbehind)
    · rw [← (Survey.mk.inj (surveyFrom_of_passage hpass)).1] at hbefore
      have := (offset_of_mem_surveyFrom hbefore).2
      omega
    · exact hinner
    · have := (offset_of_mem_surveyFrom hbehind).1
      omega
  · exact fun hinner => .inl (.inr hinner)

theorem mem_visits_group_iff {opener closer : Char} {m : Text}
    (hopener : closerOf? opener = some closer) (hm : Orderly m) {base depth : Nat}
    {v : Visit} :
    v ∈ (Text.visits (opener :: m ++ [closer])).map (Visit.lifted base depth) ↔
      v = ⟨base, opener, depth⟩ ∨ v ∈ m.visits.map (Visit.lifted (base + 1) (depth + 1)) ∨
        v = ⟨base + 1 + m.width, closer, depth⟩ := by
  have hlifted : Visit.lifted base depth ∘ Visit.lifted 1 1
      = Visit.lifted (base + 1) (depth + 1) := by
    funext w
    simp [Visit.lifted, Nat.add_assoc, Nat.add_comm 1]
  rw [visits_group hopener hm, List.map_append, List.map_cons, List.map_map, hlifted]
  simp [Visit.lifted, Nat.add_comm, Nat.add_left_comm, Nat.add_assoc]

/-- What a group holds is visited between its brackets. -/
theorem offset_of_mem_lifted {m : Text} {base depth : Nat} {v : Visit}
    (h : v ∈ m.visits.map (Visit.lifted base depth)) :
    base ≤ v.offset ∧ v.offset < base + m.width := by
  obtain ⟨w, hw, rfl⟩ := List.mem_map.1 h
  have := offset_of_mem_surveyFrom hw
  rw [Visit.offset_lifted]
  omega

/-- The first bracket of a group is all that is visited at its beginning. -/
theorem mem_visits_group_iff_eq_opener {opener closer : Char} {m : Text}
    (hopener : closerOf? opener = some closer) (hm : Orderly m) {base depth : Nat} {v : Visit}
    (hv : v.offset = base) :
    v ∈ (Text.visits (opener :: m ++ [closer])).map (Visit.lifted base depth) ↔
      v = ⟨base, opener, depth⟩ := by
  rw [mem_visits_group_iff hopener hm]
  refine ⟨?_, .inl⟩
  rintro (heq | hinner | rfl)
  · exact heq
  · have := offset_of_mem_lifted hinner
    omega
  · simp only at hv
    omega

/-- The last bracket of a group is all that is visited at its end. -/
theorem mem_visits_group_iff_eq_closer {opener closer : Char} {m : Text}
    (hopener : closerOf? opener = some closer) (hm : Orderly m) {base depth : Nat} {v : Visit}
    (hv : v.offset = base + 1 + m.width) :
    v ∈ (Text.visits (opener :: m ++ [closer])).map (Visit.lifted base depth) ↔
      v = ⟨base + 1 + m.width, closer, depth⟩ := by
  rw [mem_visits_group_iff hopener hm]
  refine ⟨?_, fun heq => .inr (.inr heq)⟩
  rintro (rfl | hinner | heq)
  · simp only at hv
    omega
  · have := offset_of_mem_lifted hinner
    omega
  · exact heq

/-- The visits of a scan tell how the character at a place stands there. -/
theorem Stands.mem_visits_iff {a b : Text} {c : Char} {s : Sighting} (h : Stands a c b s)
    {v : Visit} (hv : v.offset = a.width) :
    v ∈ (a ++ c :: b).visits ↔ v ∈ s.visits a.width c := by
  have hpos := c.utf8Size_pos
  cases h with
  | plain h hc =>
    rw [List.append_cons, h.mem_visits_iff (balanced_plain hc) (by omega) (by simp; omega),
      (orderly_singleton hc).2]
    simp [Sighting.visits, Visit.lifted]
  | @opener depth a b m _ closer h hopener hm =>
    have hgroup : a ++ c :: (m ++ closer :: b) = a ++ (c :: m ++ [closer]) ++ b := by simp
    rw [hgroup, h.mem_visits_iff (balanced_group hopener hm) (by omega) (by simp; omega),
      mem_visits_group_iff_eq_opener hopener hm.orderly hv, Sighting.visits,
      List.mem_singleton]
  | @closer depth a b m opener _ h hopener hm =>
    have hgroup : a ++ opener :: m ++ c :: b = a ++ (opener :: m ++ [c]) ++ b := by simp
    have hopens := utf8Size_of_closerOf? hopener
    have hwidth : Text.width (a ++ opener :: m) = a.width + 1 + m.width := by
      rw [Text.width_append, Text.width_cons, hopens, Nat.add_assoc]
    rw [hwidth] at hv ⊢
    rw [hgroup,
      h.mem_visits_iff (balanced_group hopener hm) (by omega) (by simp [hopens]; omega),
      mem_visits_group_iff_eq_closer hopener hm.orderly hv, Sighting.visits,
      List.mem_singleton]
  | @literal depth a b l r words quote _ h hquote hwords hparts =>
    have hliteral : a ++ l ++ c :: (r ++ b) = a ++ (quote :: words ++ [quote]) ++ b := by
      simp [hparts]
    rw [Text.width_append] at hv
    rw [hliteral, h.mem_visits_iff (balanced_literal hquote hwords) (by omega)
        (by rw [hparts]; simp; omega),
      (orderly_literal hquote hwords).2]
    simp [Sighting.visits]

/-! ## Scans -/

/-- The visits list the characters of the code of a text in their order, each
of them once and with the number of groups around it. -/
structure ListsCode (t : Text) (visits : List Visit) : Prop where
  ascending : visits.Pairwise fun v w => v.offset < w.offset
  mem_iff : ∀ v, v ∈ visits ↔
    ∃ a b, t = a ++ v.char :: b ∧ v.offset = a.width ∧ Stands a v.char b (.code v.depth)
  /-- The characters that are not listed are those of the literals. -/
  literal_iff : ∀ a c b, t = a ++ c :: b →
    (Stands a c b .literal ↔ ∀ v ∈ visits, v.offset ≠ a.width)

/-- A text has only one list of its code. -/
theorem ListsCode.eq {t : Text} {visits visits' : List Visit} (h : ListsCode t visits)
    (h' : ListsCode t visits') : visits = visits' := by
  have : Std.Irrefl fun v w : Visit => v.offset < w.offset := ⟨fun v => Nat.lt_irrefl v.offset⟩
  exact h.ascending.eq_of_mem_iff h'.ascending fun v => (h.mem_iff v).trans (h'.mem_iff v).symm

theorem listsCode_visits {t : Text} (h : Balanced t) : ListsCode t t.visits where
  ascending := pairwise_visits h.orderly
  mem_iff := by
    intro v
    constructor
    · intro hv
      obtain ⟨a, b, rfl, hoffset, -⟩ := exists_of_mem_visits hv
      obtain ⟨s, hs⟩ := exists_stands h
      have hsees := (hs.mem_visits_iff hoffset).1 hv
      cases s with
      | literal => cases hsees
      | code depth =>
        rw [Sighting.visits, List.mem_singleton] at hsees
        rw [hsees] at hs ⊢
        exact ⟨a, b, rfl, rfl, hs⟩
    · rintro ⟨a, b, rfl, hoffset, hs⟩
      rw [hs.mem_visits_iff hoffset, Sighting.visits, ← hoffset]
      exact List.mem_singleton_self v
  literal_iff := by
    rintro a c b rfl
    constructor
    · intro hs v hv hoffset
      cases (hs.mem_visits_iff hoffset).1 hv
    · intro hfree
      obtain ⟨s, hs⟩ := exists_stands h
      cases s with
      | literal => exact hs
      | code depth =>
        exact absurd rfl (hfree _ ((hs.mem_visits_iff rfl).2 (List.mem_singleton_self _)))

/-- A scan accepts exactly the balanced texts and lists their code, and of any
other text it reports the break. -/
theorem scan_balanced (t : Text) :
    ((∃ visits, scan t = .ok visits) ↔ Balanced t) ∧
      (∀ visits, scan t = .ok visits ↔ Balanced t ∧ ListsCode t visits) ∧
      ∀ fault, scan t = .error fault ↔ Broken t fault := by
  refine ⟨orderly_iff_balanced, fun visits => ⟨fun hscan => ?_, ?_⟩, fun fault =>
    scan_eq_error_iff.trans fault_survey_iff_broken⟩
  · have hbalanced := orderly_iff_balanced.1 ⟨visits, hscan⟩
    rw [eq_visits_of_scan hscan]
    exact ⟨hbalanced, listsCode_visits hbalanced⟩
  · rintro ⟨hbalanced, hlists⟩
    rw [scan_of_orderly hbalanced.orderly, hlists.eq (listsCode_visits hbalanced)]

end CallSignature
