/-
CallSignature.Proofs.Nesting.Whole — one whole group, one whole literal.

Two walks look for the end of the group a text begins with.  `closingBracket`
stops there and does not mind what follows; `isWholeGroup` asks of an orderly
text whether that end is its own end.  Both find the same place, because the
first closing bracket that stands outside all groups is the one that matches
(`orderly_of_closes`).

`closingQuote` finds the end of a literal.  What it finds is passed by a
tracker without a visit.
-/
import CallSignature.Proofs.Nesting.Orderly
import CallSignature.Shape.Reader

namespace CallSignature

open Tracker

/-! ## Groups -/

/-- The text is one group: an opening bracket, orderly text, and the closing
bracket that matches. -/
def IsGroup (opener : Char) (t : Text) : Prop :=
  ∃ closer inner, closerOf? opener = some closer ∧ Orderly inner ∧
    t = opener :: inner ++ [closer]

theorem width_group {opener closer : Char} (h : closerOf? opener = some closer)
    (inner : Text) : Text.width (opener :: inner ++ [closer]) = 1 + inner.width + 1 := by
  simp [utf8Size_of_closerOf? h, utf8Size_of_isCloser (isCloser_of_closerOf? h), Nat.add_assoc]

theorem Tracker.Passage.offset_le {t last : Tracker} {offset : Nat} {a : Text}
    {visits : List Visit} (h : Passage t offset a visits last) :
    ∀ v ∈ visits, offset ≤ v.offset := by
  induction h with
  | nil => simp
  | @cons t next last offset c s rest visits head tail ih =>
    intro v hv
    rcases List.mem_append.1 hv with hv | hv
    · cases s with
      | literal => simp [Sighting.visits] at hv
      | code depth =>
        obtain rfl : v = ⟨offset, c, depth⟩ := by simpa [Sighting.visits] using hv
        exact Nat.le_refl _
    · exact Nat.le_trans (Nat.le_add_right _ _) (ih v hv)

/-- Visits are made from left to right. -/
theorem Tracker.Passage.pairwise {t last : Tracker} {offset : Nat} {a : Text}
    {visits : List Visit} (h : Passage t offset a visits last) :
    visits.Pairwise fun v w => v.offset < w.offset := by
  induction h with
  | nil => exact .nil
  | @cons t next last offset c s rest visits head tail ih =>
    cases s with
    | literal => exact ih
    | code depth =>
      refine .cons (fun w hw => ?_) ih
      have := tail.offset_le w hw
      have := c.utf8Size_pos
      simp only
      omega

theorem pairwise_visits {t : Text} (h : Orderly t) :
    t.visits.Pairwise fun v w => v.offset < w.offset :=
  (orderly_iff_passage.1 ⟨h, rfl⟩).pairwise

/-- The places of some of the visits, from left to right. -/
theorem pairwise_places {t : Text} (h : Orderly t) (p : Visit → Bool) :
    ((t.visits.filter p).map (·.offset)).Pairwise (· < ·) :=
  List.pairwise_map.2 ((pairwise_visits h).filter p)

/-- Behind an opening bracket, the first closing bracket outside all groups
matches it, and what lies between is orderly. -/
theorem orderly_of_closes {opener closer c : Char} {offset : Nat} {inner : Text}
    {before : List Visit} {mid next : Tracker} (hopener : closerOf? opener = some closer)
    (hpass : Passage {} 0 (opener :: inner) before mid)
    (hbefore : ∀ w ∈ before, w.closesGroup = false)
    (hsees : Sees offset c mid next (.code 0)) (hc : isCloser c = true) :
    Orderly inner ∧ c = closer := by
  cases hpass with
  | cons head tail =>
    cases head with
    | literal h => simp [QuoteState.covers, isQuote_of_closerOf? hopener] at h
    | plain h => rw [(isPlain_iff.1 h).2.1] at hopener; cases hopener
    | @opener groups closer' h =>
      obtain rfl : closer = closer' := Option.some.inj (hopener.symm.trans h)
      rw [utf8Size_of_closerOf? h] at tail
      obtain ⟨visits', ⟨groups, quotes⟩, hinner, rfl, -⟩ :=
        @Passage.lowered {} mid 0 1 [⟨closer, 0⟩] _ _ tail
          fun w hw hcloser => by
            have hopen := hbefore w (List.mem_append_right _ hw)
            simp only [Visit.closesGroup, hcloser, Bool.and_true, beq_eq_false_iff_ne] at hopen
            exact Nat.pos_of_ne_zero hopen
      generalize hmid : Tracker.lifted 1 [⟨closer, 0⟩] ⟨groups, quotes⟩ = mid at hsees
      generalize hs : Sighting.code 0 = s at hsees
      cases hsees with
      | literal h => cases hs
      | opener h => rw [isCloser_opener h] at hc; cases hc
      | plain h => rw [(isPlain_iff.1 h).2.2] at hc; cases hc
      | @closer outer openedAt h =>
        obtain ⟨hgroups, hquotes⟩ := Tracker.mk.inj hmid
        obtain rfl := QuoteState.shifted_eq_outside_iff.1 hquotes
        obtain rfl : outer = [] :=
          List.eq_nil_of_length_eq_zero (Sighting.code.inj hs).symm
        cases groups with
        | nil =>
          obtain ⟨hclose, -⟩ := List.cons.inj hgroups
          exact ⟨(orderly_iff_passage.2 hinner).1, (OpenGroup.mk.inj hclose).1.symm⟩
        | cons g groups => simp [liftedGroups] at hgroups

/-- Inside one more group no visit is to a character outside all of them. -/
theorem find?_lifted_eq_none {p : Visit → Bool} (hp : ∀ v, p v = true → v.depth = 0)
    (base : Nat) (visits : List Visit) :
    (visits.map (Visit.lifted base 1)).find? p = none := by
  rw [List.find?_eq_none]
  intro v hv hpv
  obtain ⟨w, -, rfl⟩ := List.mem_map.1 hv
  have := hp _ hpv
  simp at this

theorem closingBracket_eq_ok_iff_visit {t : Text} {last : Nat} :
    closingBracket t = .ok last ↔ ∃ v, v.offset = last ∧
      t.visits.find? (fun v => decide (0 < v.offset) && v.closesGroup) = some v := by
  unfold closingBracket
  cases h : firstVisit (fun v => decide (0 < v.offset) && v.closesGroup) t with
  | error fault =>
    simp only [reduceCtorEq, false_iff, not_exists, not_and]
    rintro v - hv
    rw [firstVisit_eq_some_iff.2 hv] at h
    cases h
  | ok found =>
    cases found with
    | none =>
      have := (firstVisit_eq_none_iff.1 h).2
      simp [this]
    | some visit =>
      rw [firstVisit_eq_some_iff] at h
      simp [h]

/-- The end of the group that a text begins with, whatever stands behind it. -/
theorem closingBracket_eq_ok_iff {opener closer : Char}
    (hopener : closerOf? opener = some closer) {rest : Text} {last : Nat} :
    closingBracket (opener :: rest) = .ok last ↔
      ∃ inner behind, rest = inner ++ closer :: behind ∧ Orderly inner ∧
        last = 1 + inner.width := by
  rw [closingBracket_eq_ok_iff_visit]
  constructor
  · rintro ⟨v, rfl, hfind⟩
    obtain ⟨hv, before, behind, hvisits, hbefore⟩ := List.find?_eq_some_iff_append.1 hfind
    obtain ⟨hpos, hdepth, hcloser⟩ :
        0 < v.offset ∧ v.depth = 0 ∧ isCloser v.char = true := by
      simpa [Visit.closesGroup] using hv
    obtain ⟨a, b, mid, next, ht, hoffset, hpass, hsees, -⟩ := surveyFrom_split hvisits
    cases a with
    | nil => simp only [Text.width_nil] at hoffset; omega
    | cons c inner =>
      obtain ⟨rfl, rfl⟩ := List.cons.inj ht
      have hopen : ∀ w ∈ before, w.closesGroup = false := by
        intro w hw
        cases hpass with
        | @cons _ _ _ _ _ s _ _ head tail =>
          rcases List.mem_append.1 hw with hw' | hw'
          · cases s with
            | literal => simp [Sighting.visits] at hw'
            | code depth =>
              obtain rfl : w = ⟨0, opener, depth⟩ := by simpa [Sighting.visits] using hw'
              simp [Visit.closesGroup, isCloser_opener hopener]
          · have := tail.offset_le w hw'
            have := opener.utf8Size_pos
            simpa [show 0 < w.offset by omega] using hbefore w hw
      rw [hdepth] at hsees
      obtain ⟨horderly, hchar⟩ := orderly_of_closes hopener hpass hopen hsees hcloser
      refine ⟨inner, b, by rw [← hchar]; rfl, horderly, ?_⟩
      rw [hoffset, Text.width_cons, utf8Size_of_closerOf? hopener, Nat.zero_add]
  · rintro ⟨inner, behind, rfl, hinner, rfl⟩
    refine ⟨⟨1 + inner.width, closer, 0⟩, rfl, ?_⟩
    have hsurvey := surveyFrom_append (passage_group hopener hinner) behind
    rw [show opener :: inner ++ [closer] ++ behind = opener :: (inner ++ closer :: behind)
      by simp] at hsurvey
    rw [Text.visits, survey, hsurvey, List.append_assoc, List.cons_append,
      List.find?_cons_of_neg (by simp), List.find?_append,
      find?_lifted_eq_none (fun v hv => by simp_all [Visit.closesGroup])]
    have hpos : 0 < 1 + inner.width := by omega
    simp [Visit.closesGroup, isCloser_of_closerOf? hopener, hpos]

/-- A group has only one end. -/
theorem eq_of_closer {opener closer : Char} (hopener : closerOf? opener = some closer)
    {inner inner' behind behind' : Text} (hinner : Orderly inner) (hinner' : Orderly inner')
    (h : inner ++ closer :: behind = inner' ++ closer :: behind') :
    inner = inner' ∧ behind = behind' := by
  have hlast := (closingBracket_eq_ok_iff hopener).2 ⟨inner, behind, rfl, hinner, rfl⟩
  have hlast' := (closingBracket_eq_ok_iff hopener).2 ⟨inner', behind', h, hinner', rfl⟩
  have hwidth : inner.width = inner'.width := by
    have := Except.ok.inj (hlast.symm.trans hlast')
    omega
  obtain ⟨rfl, hbehind⟩ := Text.append_inj_of_width h hwidth
  exact ⟨rfl, (List.cons.inj hbehind).2⟩

/-- In an orderly text every group that is opened is closed. -/
theorem exists_closer_of_orderly {opener closer : Char}
    (hopener : closerOf? opener = some closer) {rest : Text} (h : Orderly (opener :: rest)) :
    ∃ inner behind, rest = inner ++ closer :: behind ∧ Orderly inner := by
  have hcloses : ∃ v ∈ Text.visits (opener :: rest), 0 < v.offset ∧ v.closesGroup = true := by
    have hpass := orderly_iff_passage.1 ⟨h, rfl⟩
    generalize Text.visits (opener :: rest) = visits at hpass
    cases hpass with
    | @cons _ _ _ _ _ s _ visits head tail =>
      cases head with
      | literal h => simp [QuoteState.covers, isQuote_of_closerOf? hopener] at h
      | plain h => rw [(isPlain_iff.1 h).2.1] at hopener; cases hopener
      | @opener groups closer' h =>
        cases hfind : visits.find? (·.closesGroup) with
        | some v =>
          have hmem := List.mem_of_find?_eq_some hfind
          have hoffset := tail.offset_le v hmem
          have := opener.utf8Size_pos
          exact ⟨v, List.mem_append_right _ hmem, by omega, List.find?_some hfind⟩
        | none =>
          -- if the group were not closed, it would be open at the end
          obtain ⟨_, last, -, hlast, -⟩ := @Passage.lowered {} {} 0 _ [⟨closer', 0⟩] _ _ tail
            fun w hw hcloser => by
              have hopen := List.find?_eq_none.1 hfind w hw
              simp only [Visit.closesGroup, hcloser, Bool.and_true, beq_iff_eq] at hopen
              exact Nat.pos_of_ne_zero hopen
          have hlength := congrArg (·.groups.length) hlast
          simp [Tracker.lifted, length_liftedGroups] at hlength
  obtain ⟨v, hv, hpos, hcloses⟩ := hcloses
  have hsome : ((Text.visits (opener :: rest)).find?
      fun v => decide (0 < v.offset) && v.closesGroup).isSome = true :=
    List.find?_isSome.2 ⟨v, hv, by simp [hpos, hcloses]⟩
  obtain ⟨found, hfound⟩ := Option.isSome_iff_exists.1 hsome
  obtain ⟨inner, behind, heq, hinner, -⟩ := (closingBracket_eq_ok_iff hopener).1
    (closingBracket_eq_ok_iff_visit.2 ⟨found, rfl, hfound⟩)
  exact ⟨inner, behind, heq, hinner⟩

/-- The first group ends with the text exactly if the text is one group. -/
theorem isWholeGroup_iff {opener : Char} {rest : Text} {closer : Char}
    (hopener : closerOf? opener = some closer) :
    isWholeGroup (opener :: rest) (Text.visits (opener :: rest)) = true ↔
      IsGroup opener (opener :: rest) := by
  simp only [isWholeGroup, Option.any_eq_true, beq_iff_eq]
  constructor
  · rintro ⟨v, hfind, hlast⟩
    obtain ⟨hv, before, behind, hvisits, hbefore⟩ := List.find?_eq_some_iff_append.1 hfind
    obtain ⟨hdepth, hcloser⟩ : v.depth = 0 ∧ isCloser v.char = true := by
      simpa [Visit.closesGroup] using hv
    obtain ⟨a, b, mid, next, ht, hoffset, hpass, hsees, -⟩ := surveyFrom_split hvisits
    cases a with
    | nil =>
      obtain ⟨hchar, -⟩ := List.cons.inj ht
      rw [← hchar, isCloser_opener hopener] at hcloser
      cases hcloser
    | cons c inner =>
      have hb : b = [] := by
        have := v.char.utf8Size_pos
        rw [ht, hoffset, Text.width_append, Text.width_cons v.char] at hlast
        exact Text.width_eq_zero_iff.1 (by omega)
      obtain ⟨rfl, -⟩ := List.cons.inj ht
      rw [hdepth] at hsees
      obtain ⟨hinner, hchar⟩ := orderly_of_closes hopener hpass
        (fun w hw => by simpa using hbefore w hw) hsees hcloser
      exact ⟨closer, inner, hopener, hinner, by rw [ht, hb, hchar]⟩
  · rintro ⟨closer', inner, hcloser', hinner, ht⟩
    obtain rfl : closer = closer' := Option.some.inj (hopener.symm.trans hcloser')
    rw [ht, visits_group hopener hinner]
    refine ⟨⟨1 + inner.width, closer, 0⟩, ?_, ?_⟩
    · rw [List.cons_append,
        List.find?_cons_of_neg (by simp [Visit.closesGroup, isCloser_opener hopener]),
        List.find?_append, find?_lifted_eq_none (fun v hv => by simp_all [Visit.closesGroup])]
      simp [Visit.closesGroup, isCloser_of_closerOf? hopener]
    · have hsize := utf8Size_of_isCloser (isCloser_of_closerOf? hopener)
      simp only [Text.width_append, Text.width_cons, Text.width_nil, hsize,
        utf8Size_of_closerOf? hopener]

/-! ## Classes of tokens -/

theorem tokenClass_of_orderly {token : Segment} (h : Orderly token.text) :
    tokenClass token = .ok (TokenClass.ofVisits token.text token.text.visits) := by
  rw [tokenClass, scan_of_orderly h]
  rfl

theorem orderly_of_tokenClass {token : Segment} {found : TokenClass}
    (h : tokenClass token = .ok found) : Orderly token.text := by
  unfold tokenClass at h
  cases hscan : scan token.text with
  | error fault => rw [hscan] at h; cases h
  | ok visits => exact ⟨visits, hscan⟩

theorem isGroup_iff_of_head {opener closer : Char} (hopener : closerOf? opener = some closer)
    {t : Text} :
    t.head? = some opener ∧ isWholeGroup t t.visits = true ↔ IsGroup opener t := by
  constructor
  · rintro ⟨hhead, hwhole⟩
    obtain ⟨rest, rfl⟩ := List.head?_eq_some_iff.1 hhead
    exact (isWholeGroup_iff hopener).1 hwhole
  · intro hgroup
    obtain ⟨_, inner, -, -, rfl⟩ := id hgroup
    exact ⟨rfl, (isWholeGroup_iff hopener).2 hgroup⟩

instance (opener : Char) (t : Text) : Decidable (IsGroup opener t) :=
  match h : closerOf? opener with
  | some _ => decidable_of_iff _ (isGroup_iff_of_head h)
  | none => .isFalse fun ⟨_, _, hcloser, _⟩ => by rw [h] at hcloser; cases hcloser

theorem ofVisits_object {t : Text} (h : IsGroup '{' t) :
    TokenClass.ofVisits t t.visits = .object :=
  if_pos ((isGroup_iff_of_head closerOf?_curly).2 h)

theorem ofVisits_array {t : Text} (h : IsGroup '[' t) :
    TokenClass.ofVisits t t.visits = .array := by
  have hsquare := (isGroup_iff_of_head closerOf?_square).2 h
  rw [TokenClass.ofVisits, if_neg, if_pos hsquare]
  rintro ⟨hcurly, -⟩
  rw [hsquare.1] at hcurly
  cases hcurly

/-- A text that is no group is a spread or a leaf by the dots it begins with. -/
theorem ofVisits_of_not_isGroup {t : Text} (hcurly : ¬ IsGroup '{' t)
    (hsquare : ¬ IsGroup '[' t) :
    TokenClass.ofVisits t t.visits = if Shape.dots.isPrefixOf t then .spread else .leaf := by
  rw [TokenClass.ofVisits,
    if_neg fun h => hcurly ((isGroup_iff_of_head closerOf?_curly).1 h),
    if_neg fun h => hsquare ((isGroup_iff_of_head closerOf?_square).1 h)]

/-- What the class of a token says about its text. -/
def TokenClass.Describes (t : Text) : TokenClass → Prop
  | object => IsGroup '{' t
  | array => IsGroup '[' t
  | spread => Shape.dots.isPrefixOf t = true
  | leaf => ¬ IsGroup '{' t ∧ ¬ IsGroup '[' t ∧ Shape.dots.isPrefixOf t = false

theorem describes_ofVisits (t : Text) : (TokenClass.ofVisits t t.visits).Describes t := by
  by_cases hobject : IsGroup '{' t
  · rw [ofVisits_object hobject]
    exact hobject
  · by_cases harray : IsGroup '[' t
    · rw [ofVisits_array harray]
      exact harray
    · rw [ofVisits_of_not_isGroup hobject harray]
      cases hdots : Shape.dots.isPrefixOf t with
      | true => exact hdots
      | false => exact ⟨hobject, harray, hdots⟩

theorem describes_of_tokenClass {token : Segment} {found : TokenClass}
    (h : tokenClass token = .ok found) : found.Describes token.text := by
  rw [tokenClass_of_orderly (orderly_of_tokenClass h)] at h
  exact Except.ok.inj h ▸ describes_ofVisits token.text

/-! ## Literals -/

/-- The text is one literal, with its quotes. -/
def IsLiteral (t : Text) : Prop :=
  ∃ last, closingQuote t = some last ∧ last + 1 = t.width

/-- The words of a literal. -/
theorem slice_literal {quote : Char} (hquote : isQuote quote = true) (words behind : Text) :
    Text.slice (quote :: (words ++ quote :: behind)) 1 (1 + words.width) = words := by
  simpa using Text.slice_inner (utf8Size_of_isQuote hquote) [] words (quote :: behind)

/-- What stands in front of the closing quote is passed without a visit, and
the literal is closed behind the quote. -/
theorem exists_of_closingQuoteFrom {quote : Char} {escaped : Bool} {offset last : Nat}
    {t : Text} (h : closingQuoteFrom quote escaped offset t = some last) :
    ∃ words behind : Text, t = words ++ quote :: behind ∧ last = offset + words.width ∧
      ∀ groups openedAt base, Passage ⟨groups, .inside quote openedAt escaped⟩ base
        (words ++ [quote]) [] ⟨groups, .outside⟩ := by
  induction t generalizing escaped offset with
  | nil => cases h
  | cons c rest ih =>
    unfold closingQuoteFrom at h
    -- the next state of the reader is that of the tracker's quotes
    have hstep : ∀ next,
        (∀ openedAt base, (QuoteState.inside quote openedAt escaped).step base c
          = .inside quote openedAt next) →
        closingQuoteFrom quote next (offset + c.utf8Size) rest = some last →
        ∃ words behind : Text,
          c :: rest = words ++ quote :: behind ∧ last = offset + words.width ∧
          ∀ groups openedAt base, Passage ⟨groups, .inside quote openedAt escaped⟩ base
            (words ++ [quote]) [] ⟨groups, .outside⟩ := by
      intro next hq hrest
      obtain ⟨words, behind, rfl, rfl, hpass⟩ := ih hrest
      refine ⟨c :: words, behind, rfl, by rw [Text.width_cons, Nat.add_assoc], ?_⟩
      intro groups openedAt base
      have hsees := @Sees.literal base c groups (.inside quote openedAt escaped) rfl
      rw [hq] at hsees
      exact .cons hsees (hpass groups openedAt _)
    split at h
    · rename_i hesc
      exact hstep false (fun _ _ => by simp [QuoteState.step, hesc]) h
    · rename_i hesc
      split at h
      · rename_i hback
        exact hstep true (fun _ _ => by simp [QuoteState.step, hesc, hback]) h
      · rename_i hback
        split at h
        · rename_i hquote
          subst hquote
          obtain rfl := Option.some.inj h
          refine ⟨[], rest, rfl, rfl, fun groups openedAt base => ?_⟩
          have hsees := @Sees.literal base c groups (.inside c openedAt escaped) rfl
          rw [QuoteState.step, if_neg hesc, if_neg hback, if_pos rfl] at hsees
          exact Passage.singleton hsees
        · rename_i hquote
          exact hstep false (fun _ _ => by simp [QuoteState.step, hesc, hback, hquote]) h

/-- The literal that a text begins with is orderly and holds no code. -/
theorem exists_of_closingQuote {t : Text} {last : Nat} (h : closingQuote t = some last) :
    ∃ (quote : Char) (words behind : Text),
      t = quote :: words ++ quote :: behind ∧ last = 1 + words.width ∧
      isQuote quote = true ∧ Passage {} 0 (quote :: words ++ [quote]) [] {} := by
  cases t with
  | nil => cases h
  | cons quote rest =>
    rw [closingQuote] at h
    split at h
    · rename_i hquote
      obtain ⟨words, behind, rfl, rfl, hpass⟩ := exists_of_closingQuoteFrom h
      refine ⟨quote, words, behind, rfl, by rw [utf8Size_of_isQuote hquote], hquote, ?_⟩
      have hsees : Sees 0 quote {} ⟨[], .inside quote 0 false⟩ .literal := by
        have := @Sees.literal 0 quote [] .outside hquote
        rwa [QuoteState.step, if_pos hquote] at this
      exact .cons hsees (hpass [] 0 _)
    · cases h

theorem IsLiteral.exists_eq {t : Text} (h : IsLiteral t) :
    ∃ (quote : Char) (words : Text),
      t = quote :: words ++ [quote] ∧ closingQuote t = some (1 + words.width) ∧
      isQuote quote = true ∧ Orderly t ∧ t.visits = [] := by
  obtain ⟨last, hlast, hwidth⟩ := h
  obtain ⟨quote, words, behind, rfl, rfl, hquote, hpass⟩ := exists_of_closingQuote hlast
  obtain rfl : behind = [] := by
    rw [Text.width_append, Text.width_cons, Text.width_cons,
      utf8Size_of_isQuote hquote] at hwidth
    exact Text.width_eq_zero_iff.1 (by omega)
  obtain ⟨horderly, hvisits⟩ := orderly_iff_passage.2 hpass
  exact ⟨quote, words, rfl, hlast, hquote, horderly, hvisits⟩

/-- A text is read as one whole literal exactly if it is one. -/
theorem wholeLiteral?_eq_some_iff {t : Text} {quote : Char} {words : Text} :
    wholeLiteral? t = some (quote, words) ↔ t = quote :: words ++ [quote] ∧ IsLiteral t := by
  constructor
  · intro h
    unfold wholeLiteral? at h
    split at h
    · rename_i quote' last hhead hlast
      split at h
      · rename_i hwidth
        have hliteral : IsLiteral t := ⟨last, hlast, hwidth⟩
        obtain ⟨quote'', words', rfl, hclose, hquote, -, -⟩ := hliteral.exists_eq
        obtain rfl := Option.some.inj (hlast.symm.trans hclose)
        obtain ⟨rfl, rfl⟩ := Prod.mk.inj (Option.some.inj h)
        obtain rfl : quote'' = quote' := Option.some.inj hhead
        exact ⟨by simp [slice_literal hquote], hliteral⟩
      · cases h
    · cases h
  · rintro ⟨rfl, hliteral⟩
    obtain ⟨quote', words', heq, hclose, hquote, -, -⟩ := hliteral.exists_eq
    obtain ⟨rfl, heq⟩ := List.cons.inj heq
    obtain rfl : words = words' := List.append_cancel_right heq
    obtain ⟨last, hlast, hwidth⟩ := id hliteral
    obtain rfl := Option.some.inj (hlast.symm.trans hclose)
    rw [wholeLiteral?, hlast]
    simp only [List.cons_append, List.head?_cons]
    rw [if_pos (by simpa using hwidth), slice_literal hquote]

theorem wholeLiteral?_eq_none_iff {t : Text} : wholeLiteral? t = none ↔ ¬ IsLiteral t := by
  constructor
  · intro h hliteral
    obtain ⟨quote, words, heq, -, -, -, -⟩ := hliteral.exists_eq
    rw [wholeLiteral?_eq_some_iff.2 ⟨heq, hliteral⟩] at h
    cases h
  · intro h
    refine Option.eq_none_iff_forall_ne_some.2 fun ⟨quote, words⟩ hsome => ?_
    exact h (wholeLiteral?_eq_some_iff.1 hsome).2

instance (t : Text) : Decidable (IsLiteral t) :=
  match h : wholeLiteral? t with
  | some (_, _) => .isTrue (wholeLiteral?_eq_some_iff.1 h).2
  | none => .isFalse (wholeLiteral?_eq_none_iff.1 h)

end CallSignature
