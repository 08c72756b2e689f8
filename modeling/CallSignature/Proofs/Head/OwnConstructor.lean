/-
CallSignature.Proofs.Head.OwnConstructor — which constructor a class body has.

`StandsIn` says what a constructor is, of the text of a body alone: where its
word may stand, what may stand in front of it, and what has to follow.  The
search in a body finds the first of them, and finds none only if there is none
(`ownConstructor_eq_first`).  Since a body has only one first constructor
(`IsFirstIn.eq`), that settles what the search finds.

Nothing in an orderly body breaks the search.  A place where the word may
stand cuts the body into two orderly parts, so that a parenthesis behind the
word is closed within the body (`constructorAt_of_cut`).
-/
import CallSignature.Proofs.Head.Classes

namespace CallSignature

open Unicode

/-! ## What a constructor is -/

/-- A constructor with the parameters `params` stands in the body behind the
text `before`, with white space between its word and its parenthesis. -/
structure StandsIn (body before space params : Text) : Prop where
  spaced : space.isBlank = true
  /-- The word is followed by the parameters, and they by a body. -/
  opens : ∃ between behind : Text, between.isBlank = true ∧
    body = before ++ (constructorWord ++ space ++
      '(' :: (params ++ ')' :: (between ++ '{' :: behind)))
  /-- The word stands outside literals and groups. -/
  outside : Orderly before
  /-- The parentheses match. -/
  matched : Orderly params
  begins : ∀ c, before.getLast? = some c →
    isXidContinue c = false ∧ c ∉ ['$', '#', '.', '*']
  /-- It is not called in the value of a field. -/
  not_called : ∀ c, before.trimEnd.getLast? = some c → c ∉ operators
  /-- The word in front is no modifier, but it may end in one. -/
  not_modified : ∀ l m : Text, before.trimEnd = l ++ m → m ∈ memberModifiers →
    ∃ c, l.getLast? = some c ∧ isNameContinue c = true

/-- The parameter list is that of the constructor behind the text `before` in
a body that begins at byte `start`, or there is neither. -/
def IsFoundAt (body : Text) (start : Nat) (before : Text) : Option ParameterList → Prop
  | none => ∀ space params, ¬ StandsIn body before space params
  | some list => ∃ space : Text, StandsIn body before space list.text ∧
      list.offset = start + Text.width (before ++ constructorWord ++ space ++ ['('])

/-- The parameter list is that of the first constructor in a body that begins
at byte `start`, or there is neither. -/
def IsFirstIn (body : Text) (start : Nat) : Option ParameterList → Prop
  | none => ∀ before, IsFoundAt body start before none
  | some list => ∃ before, IsFoundAt body start before (some list) ∧
      ∀ other space params, StandsIn body other space params → before.width ≤ other.width

/-! ## What may stand in front -/

theorem endsWord_iff {before : Text} : endsWord before = true ↔
    ∀ c, before.getLast? = some c → isXidContinue c = false ∧ c ∉ ['$', '#', '.', '*'] := by
  unfold endsWord
  cases before.getLast? with
  | none => simp
  | some c =>
    simp only [Option.any_some, Bool.not_eq_true', Bool.or_eq_false_iff, beq_eq_false_iff_ne,
      Option.some.injEq, forall_eq', List.mem_cons, List.not_mem_nil, or_false, not_or,
      and_assoc]

/-- The characters of a name that a text ends with, and what is in front. -/
theorem lastWord_eq_iff {t m : Text} (hm : ∀ c ∈ m, isNameContinue c = true) :
    lastWord t = m ↔
      ∃ l, t = l ++ m ∧ ∀ c, l.getLast? = some c → isNameContinue c = false := by
  constructor
  · rintro rfl
    refine ⟨(t.reverse.dropWhile isNameContinue).reverse, ?_, fun c hc => ?_⟩
    · rw [lastWord, ← List.reverse_append, List.takeWhile_append_dropWhile,
        List.reverse_reverse]
    · rw [List.getLast?_reverse] at hc
      have := List.head?_dropWhile_not isNameContinue t.reverse
      rw [hc] at this
      exact this
  · rintro ⟨l, rfl, hl⟩
    have hrest : l.reverse.takeWhile isNameContinue = [] := by
      rw [← List.head?_reverse] at hl
      cases hrev : l.reverse with
      | nil => rfl
      | cons c rest => simp [hl c (by rw [hrev]; rfl)]
    rw [lastWord, List.reverse_append, List.takeWhile_append_of_pos (by simpa using hm), hrest,
      List.append_nil, List.reverse_reverse]

theorem isNameContinue_of_mem_modifier {m : Text} (hm : m ∈ memberModifiers) :
    ∀ c ∈ m, isNameContinue c = true := by
  have hall : memberModifiers.all (·.all isNameContinue) = true := by decide
  exact List.all_eq_true.1 (List.all_eq_true.1 hall m hm)

theorem endsMember_iff {before : Text} : endsMember before = true ↔
    (∀ c, before.trimEnd.getLast? = some c → c ∉ operators) ∧
      ∀ l m : Text, before.trimEnd = l ++ m → m ∈ memberModifiers →
        ∃ c, l.getLast? = some c ∧ isNameContinue c = true := by
  rw [endsMember, Bool.and_eq_true, and_comm]
  generalize before.trimEnd = t
  refine and_congr ?_ ?_
  · cases t.getLast? <;> simp
  · rw [Bool.not_eq_true', Bool.eq_false_iff, isMemberModifier, ne_eq, List.contains_iff_mem]
    constructor
    · intro hword l m heq hm
      cases hlast : l.getLast? with
      | none =>
        exact absurd hm ((lastWord_eq_iff (isNameContinue_of_mem_modifier hm)).2
          ⟨l, heq, by simp [hlast]⟩ ▸ hword)
      | some c =>
        cases hc : isNameContinue c with
        | true => exact ⟨c, rfl, hc⟩
        | false =>
          exact absurd hm ((lastWord_eq_iff (isNameContinue_of_mem_modifier hm)).2
            ⟨l, heq, by simp [hlast, hc]⟩ ▸ hword)
    · intro hall hword
      obtain ⟨l, heq, hl⟩ := (lastWord_eq_iff (isNameContinue_of_mem_modifier hword)).1 rfl
      obtain ⟨c, hlast, hc⟩ := hall l _ heq hword
      rw [hl c hlast] at hc
      cases hc

/-! ## One place -/

theorem orderly_constructorWord : Orderly constructorWord := by decide

/-- The word with a parenthesis behind it, whatever follows. -/
theorem constructorOpener?_word {space : Text} (hspace : space.isBlank = true) (tail : Text) :
    constructorOpener? (constructorWord ++ space ++ '(' :: tail)
      = some (Text.width (constructorWord ++ space)) := by
  have htrim : Text.trimStart (space ++ '(' :: tail) = '(' :: tail := by
    rw [Text.trimStart_append_of_isBlank hspace]
    rfl
  have htake : (space ++ '(' :: tail).takeWhile isWhiteSpace = space := by
    rw [List.takeWhile_append_of_pos (List.all_eq_true.1 hspace)]
    simp [show isWhiteSpace '(' = false by decide]
  rw [constructorOpener?, Text.afterPrefix?_eq_some_iff.2 (List.append_assoc ..)]
  simp only [htrim, htake, List.head?_cons, if_pos, Text.width_append]

/-- The list in parentheses is that of a constructor if a body follows it. -/
theorem constructorList_group {params : Text} (hparams : Orderly params)
    (before behind : Text) :
    constructorList (before ++ '(' :: (params ++ ')' :: behind)) before.width
      = .ok
        (if behind.trimStart.head? = some '{' then some ⟨params, before.width + 1⟩
          else none) := by
  have hlast : closerDistance before.width ('(' :: (params ++ ')' :: behind))
      = .ok (1 + params.width) :=
    (closerDistance_eq_ok_iff closerOf?_round).2 ⟨params, behind, rfl, hparams, rfl⟩
  rw [constructorList, Text.dropBytes_append, hlast]
  dsimp only
  rw [dropBytes_group closerOf?_round, Text.slice_inner rfl]
  split <;> rfl

/-- A body that follows does so within the body of the class. -/
theorem head?_trimStart_body {behind tail : Text} :
    (Text.trimStart (behind ++ '}' :: tail)).head? = some '{' ↔
      ∃ between after : Text, between.isBlank = true ∧ behind = between ++ '{' :: after := by
  constructor
  · intro h
    obtain ⟨between, hbetween, heq⟩ := Text.exists_trimStart behind
    rw [heq, List.append_assoc, Text.trimStart_append_of_isBlank hbetween] at h
    cases hrest : behind.trimStart with
    | nil =>
      rw [hrest, List.nil_append, Text.trimStart,
        List.dropWhile_cons_of_neg (by decide)] at h
      cases h
    | cons c after =>
      have hc : isWhiteSpace c = false :=
        Text.head?_trimStart (t := behind) (by rw [hrest]; rfl)
      rw [hrest, List.cons_append, Text.trimStart, List.dropWhile_cons,
        if_neg (by simp [hc])] at h
      obtain rfl : c = '{' := Option.some.inj h
      exact ⟨between, after, hbetween, by rw [← hrest]; exact heq⟩
  · rintro ⟨between, after, hbetween, rfl⟩
    rw [List.append_assoc, Text.trimStart_append_of_isBlank hbetween]
    rfl

/-- There is one way to read white space and a parenthesis behind it. -/
theorem eq_of_space {space space' t t' : Text} (hspace : space.isBlank = true)
    (hspace' : space'.isBlank = true) (h : space ++ '(' :: t = space' ++ '(' :: t') :
    space = space' ∧ t = t' := by
  have htrim := congrArg Text.trimStart h
  rw [Text.trimStart_append_of_isBlank hspace,
    Text.trimStart_append_of_isBlank hspace'] at htrim
  obtain rfl : t = t' := (List.cons.inj htrim).2
  exact ⟨List.append_cancel_right h, rfl⟩

/-- Behind a text there is one group in which parameters of a constructor can
stand, and a body has to follow it. -/
theorem StandsIn.eq_of_group {before space space' params params' behind : Text}
    (hspace : space.isBlank = true) (hparams : Orderly params)
    (h : StandsIn (before ++ (constructorWord ++ space ++ '(' :: (params ++ ')' :: behind)))
      before space' params') :
    space = space' ∧ params = params' ∧
      ∃ between after : Text, between.isBlank = true ∧ behind = between ++ '{' :: after := by
  obtain ⟨between, after, hbetween, heq⟩ := h.opens
  have hword := List.append_cancel_left heq
  rw [List.append_assoc, List.append_assoc] at hword
  obtain ⟨hsame, hgroup⟩ := eq_of_space hspace h.spaced (List.append_cancel_left hword)
  obtain ⟨hlist, hbehind⟩ := eq_of_closer closerOf?_round hparams h.matched hgroup
  exact ⟨hsame, hlist, between, after, hbetween, hbehind⟩

/-- What is found behind a text where a member may begin: a constructor if a
body follows the group, and nothing otherwise. -/
theorem isFoundAt_group {before space params : Text} (hspace : space.isBlank = true)
    (hbefore : Orderly before) (hparams : Orderly params) (hword : endsWord before = true)
    (hmember : endsMember before = true) (start : Nat) (behind tail : Text) :
    IsFoundAt (before ++ (constructorWord ++ space ++ '(' :: (params ++ ')' :: behind))) start
      before
      (if (Text.trimStart (behind ++ '}' :: tail)).head? = some '{' then
        some ⟨params, start + Text.width (before ++ constructorWord ++ space ++ ['('])⟩
      else none) := by
  split
  · rename_i hbody
    obtain ⟨between, after, hbetween, rfl⟩ := head?_trimStart_body.1 hbody
    obtain ⟨hcalled, hmodified⟩ := endsMember_iff.1 hmember
    exact ⟨space, ⟨hspace, ⟨between, after, hbetween, rfl⟩, hbefore, hparams,
      endsWord_iff.1 hword, hcalled, hmodified⟩, rfl⟩
  · rename_i hbody
    intro space' params' h
    obtain ⟨-, -, hbehind⟩ := h.eq_of_group hspace hparams
    exact hbody (head?_trimStart_body.2 hbehind)

/-- The search at a place in an orderly body where the word may stand. -/
theorem constructorAt_of_cut {start a rest tail : Text} (ha : Orderly a)
    (hrest : Orderly rest) :
    ∃ found,
      constructorAt (start ++ (a ++ rest) ++ '}' :: tail) start.width (a ++ rest) a.width
        = .ok found ∧ IsFoundAt (a ++ rest) start.width a found := by
  rw [constructorAt, Text.dropBytes_append, Text.takeBytes_append]
  cases hopener : constructorOpener? rest with
  | none =>
    refine ⟨none, rfl, fun space params h => ?_⟩
    obtain ⟨between, behind, -, heq⟩ := h.opens
    rw [List.append_cancel_left heq, constructorOpener?_word h.spaced] at hopener
    cases hopener
  | some distance =>
    obtain ⟨space, tl, rfl, hspace, rfl⟩ := constructorOpener?_eq_some hopener
    have hword : Orderly (constructorWord ++ space) :=
      orderly_constructorWord.append (orderly_of_isBlank hspace)
    obtain ⟨params, behind, rfl, hparams⟩ :=
      exists_closer_of_orderly closerOf?_round (hrest.of_append_left hword)
    cases hplace : endsWord a && endsMember a with
    | false =>
      refine ⟨none, rfl, fun space params h => ?_⟩
      rw [endsWord_iff.2 h.begins, endsMember_iff.2 ⟨h.not_called, h.not_modified⟩] at hplace
      cases hplace
    | true =>
      obtain ⟨hbegins, hmember⟩ := Bool.and_eq_true_iff.1 hplace
      have hsource :
          start ++ (a ++ (constructorWord ++ space ++ '(' :: (params ++ ')' :: behind)))
            ++ '}' :: tail = (start ++ a ++ (constructorWord ++ space))
            ++ '(' :: (params ++ ')' :: (behind ++ '}' :: tail)) := by simp
      have hoffset : Text.width (start ++ a ++ (constructorWord ++ space)) + 1
          = start.width + Text.width (a ++ constructorWord ++ space ++ ['(']) := by
        simp [show Char.utf8Size '(' = 1 from rfl, Nat.add_assoc]
      have hfound := isFoundAt_group hspace ha hparams hbegins hmember start.width behind tail
      simp only [if_pos, hsource, ← Text.width_append]
      rw [constructorList_group hparams, hoffset]
      exact ⟨_, rfl, hfound⟩

/-! ## The search -/

/-- The search finds the first place where there is something to find. -/
theorem exists_firstFound {find : Nat → Except Fault (Option ParameterList)}
    {places : List Nat} (hordered : places.Pairwise (· < ·))
    (hfind : ∀ place ∈ places, ∃ found, find place = .ok found) :
    ∃ found, firstFound find places = .ok found ∧
      match found with
      | none => ∀ place ∈ places, find place = .ok none
      | some list => ∃ place ∈ places, find place = .ok (some list) ∧
          ∀ other ∈ places, other < place → find other = .ok none := by
  induction places with
  | nil => exact ⟨none, rfl, nofun⟩
  | cons place places ih =>
    obtain ⟨hfirst, hordered⟩ := List.pairwise_cons.1 hordered
    obtain ⟨⟨found, hfound⟩, hrest⟩ := List.forall_mem_cons.1 hfind
    rw [firstFound, hfound]
    cases found with
    | some list =>
      refine ⟨some list, rfl, place, by simp, hfound, fun other hother hless => ?_⟩
      rcases List.mem_cons.1 hother with rfl | hother
      · exact absurd hless (Nat.lt_irrefl _)
      · exact absurd (hfirst other hother) (Nat.lt_asymm hless)
    | none =>
      obtain ⟨later, hlater, hspec⟩ := ih hordered hrest
      refine ⟨later, hlater, ?_⟩
      cases later with
      | none => exact List.forall_mem_cons.2 ⟨hfound, hspec⟩
      | some list =>
        obtain ⟨other, hmem, hother, hbefore⟩ := hspec
        exact ⟨other, by simp [hmem], hother,
          List.forall_mem_cons.2 ⟨fun _ => hfound, hbefore⟩⟩

/-- The places where the word of a constructor may begin. -/
theorem mem_places_iff {body : Text} (h : Orderly body) {place : Nat} :
    place ∈ (body.visits.filter (·.isTopLevel 'c')).map (·.offset) ↔
      ∃ a rest : Text, body = a ++ 'c' :: rest ∧ Orderly a ∧ Orderly rest ∧
        place = a.width := by
  have hplain : isPlain 'c' = true := by decide
  constructor
  · intro hplace
    obtain ⟨v, hv, rfl⟩ := List.mem_map.1 hplace
    obtain ⟨hmem, htop⟩ := List.mem_filter.1 hv
    obtain ⟨hdepth, hchar⟩ := isTopLevel_iff.1 htop
    obtain ⟨before, behind, hvisits⟩ := List.append_of_mem hmem
    rw [← hchar] at hplain
    obtain ⟨a, rest, heq, hoffset, ha, hrest, -⟩ := h.cut hvisits hdepth hplain
    exact ⟨a, rest, by rw [heq, hchar], ha, hrest, hoffset⟩
  · rintro ⟨a, rest, rfl, ha, hrest, rfl⟩
    refine List.mem_map.2 ⟨⟨a.width, 'c', 0⟩, List.mem_filter.2 ⟨?_, rfl⟩, rfl⟩
    rw [visits_append ha (hrest.cons hplain), visits_cons hplain hrest, List.map_cons]
    refine List.mem_append_right _ (List.mem_cons.2 (.inl ?_))
    simp [Visit.lifted]

/-- A constructor stands at one of these places. -/
theorem StandsIn.exists_place {body before space params : Text}
    (h : StandsIn body before space params) (hbody : Orderly body) :
    before.width ∈ (body.visits.filter (·.isTopLevel 'c')).map (·.offset) := by
  obtain ⟨between, behind, -, heq⟩ := h.opens
  have hword : constructorWord = 'c' :: "onstructor".toList := by decide
  rw [hword, List.cons_append, List.cons_append] at heq
  rw [heq] at hbody
  refine (mem_places_iff (heq ▸ hbody)).2 ⟨before, _, heq, h.outside, ?_, rfl⟩
  exact (hbody.of_append_left h.outside).of_append_left
    (orderly_singleton (show isPlain 'c' = true by decide)).1

theorem StandsIn.takeBytes_eq {body before space params : Text}
    (h : StandsIn body before space params) : body.takeBytes before.width = before := by
  obtain ⟨between, behind, -, rfl⟩ := h.opens
  exact Text.takeBytes_append ..

/-- The search at one place finds what begins there. -/
theorem exists_constructorAt {body : Text} (h : Orderly body) (start tail : Text) {place : Nat}
    (hplace : place ∈ (body.visits.filter (·.isTopLevel 'c')).map (·.offset)) :
    (body.takeBytes place).width = place ∧
      ∃ found,
        constructorAt (start ++ body ++ '}' :: tail) start.width body place = .ok found ∧
          IsFoundAt body start.width (body.takeBytes place) found := by
  obtain ⟨a, rest, rfl, ha, hrest, rfl⟩ := (mem_places_iff h).1 hplace
  rw [Text.takeBytes_append]
  exact ⟨rfl, constructorAt_of_cut ha (hrest.cons (show isPlain 'c' = true by decide))⟩

/-- A body has only one first constructor. -/
theorem IsFirstIn.eq {body : Text} {start : Nat} {found found' : Option ParameterList}
    (h : IsFirstIn body start found) (h' : IsFirstIn body start found') : found = found' := by
  cases found with
  | none =>
    cases found' with
    | none => rfl
    | some list' =>
      obtain ⟨before, ⟨space, hstands, -⟩, -⟩ := h'
      exact absurd hstands (h before space list'.text)
  | some list =>
    obtain ⟨before, ⟨space, hstands, hoffset⟩, hfirst⟩ := h
    cases found' with
    | none => exact absurd hstands (h' before space list.text)
    | some list' =>
      obtain ⟨before', ⟨space', hstands', hoffset'⟩, hfirst'⟩ := h'
      have hwidth := Nat.le_antisymm (hfirst _ _ _ hstands') (hfirst' _ _ _ hstands)
      have hbefore : before = before' := by
        rw [← hstands.takeBytes_eq, hwidth, hstands'.takeBytes_eq]
      subst hbefore
      obtain ⟨between, behind, -, hbody⟩ := hstands.opens
      rw [hbody] at hstands'
      obtain ⟨rfl, htext, -⟩ := hstands'.eq_of_group hstands.spaced hstands.matched
      obtain ⟨text, offset⟩ := list
      obtain ⟨text', offset'⟩ := list'
      rw [show text = text' from htext, show offset = offset' from hoffset.trans hoffset'.symm]

/-- An orderly body has its first constructor found, and none only if it has
none. -/
theorem ownConstructor_eq_first {body : Text} (h : Orderly body) (start tail : Text) :
    ∃ found,
      ownConstructor (start ++ body ++ '}' :: tail) start.width (start.width + body.width)
        = .ok found ∧ IsFirstIn body start.width found := by
  obtain ⟨found, hfound, hspec⟩ := exists_firstFound (pairwise_places h _) fun place hplace =>
    let ⟨_, found, hfound, _⟩ := exists_constructorAt h start tail hplace
    ⟨found, hfound⟩
  refine ⟨found, ?_, ?_⟩
  · rw [ownConstructor, Text.slice_append, scan_of_orderly h]
    exact hfound
  -- where a constructor stands, something is found
  have hstands : ∀ other space params, StandsIn body other space params →
      constructorAt (start ++ body ++ '}' :: tail) start.width body other.width
        ≠ .ok none := by
    intro other space params hother hnone
    obtain ⟨-, found, hat, hfoundAt⟩ :=
      exists_constructorAt h start tail (hother.exists_place h)
    obtain rfl := Except.ok.inj (hnone.symm.trans hat)
    rw [hother.takeBytes_eq] at hfoundAt
    exact hfoundAt space params hother
  cases found with
  | none =>
    intro before space params hbefore
    exact hstands before space params hbefore (hspec _ (hbefore.exists_place h))
  | some list =>
    obtain ⟨place, hplace, hat, hfirst⟩ := hspec
    obtain ⟨hwidth, found, hat', hfoundAt⟩ := exists_constructorAt h start tail hplace
    obtain rfl := Except.ok.inj (hat.symm.trans hat')
    refine ⟨body.takeBytes place, hfoundAt, fun other space params hother => ?_⟩
    rw [hwidth]
    exact Nat.le_of_not_lt fun hless =>
      hstands other space params hother (hfirst _ (hother.exists_place h) hless)

end CallSignature
