/-
CallSignature.Proofs.Head.Lists — where a head finds its parameter list.

A head is read by steps that pass words, names, white space, literals and
groups.  Each of these ends outside all literals, so that the parenthesis that
opens the list is a character of the code (`ListAhead`).  The one list that
has no parentheses is the name before an arrow (`BareAhead`).
-/
import CallSignature.Head.Callable
import CallSignature.Proofs.Cursor.Steps
import CallSignature.Proofs.Literal.Body
import CallSignature.Proofs.Nesting.Quiet
import CallSignature.Proofs.Nesting.Whole
import CallSignature.Proofs.Success

namespace CallSignature

open Cursor Unicode

/-! ## Reaching a place -/

/-- The second cursor stands further on, behind a text that ends outside its
literals. -/
def Cursor.Reaches (c d : Cursor) : Prop :=
  ∃ a, Quiet a ∧ Passes a c d

namespace Cursor.Reaches

variable {c d e : Cursor}

theorem refl (c : Cursor) : c.Reaches c :=
  ⟨[], quiet_nil, Passes.refl c⟩

theorem trans (h : c.Reaches d) (k : d.Reaches e) : c.Reaches e := by
  obtain ⟨a, ha, hc⟩ := h
  obtain ⟨b, hb, hd⟩ := k
  exact ⟨a ++ b, ha.append hb, hc.trans hd⟩

theorem text_eq (h : c.Reaches d) : d.text = c.text := by
  obtain ⟨a, -, hpass⟩ := h
  exact hpass.text_eq

end Cursor.Reaches

/-- The parameter list stands between parentheses somewhere ahead. -/
def ListAhead (c : Cursor) (list : ParameterList) : Prop :=
  ∃ a behind, c.rest = a ++ '(' :: list.text ++ ')' :: behind ∧ Quiet a ∧ Orderly list.text ∧
    list.offset = c.offset + a.width + 1

theorem Cursor.Reaches.listAhead {c d : Cursor} {list : ParameterList} (h : c.Reaches d)
    (hlist : ListAhead d list) : ListAhead c list := by
  obtain ⟨a, ha, hpass⟩ := h
  obtain ⟨b, behind, hrest, hb, horderly, hoffset⟩ := hlist
  refine ⟨a ++ b, behind, ?_, ha.append hb, horderly, ?_⟩
  · rw [hpass.rest, hrest]
    simp
  · rw [hoffset, hpass.offset, Text.width_append, Nat.add_assoc c.offset]

/-! ## Steps -/

section

variable {c d : Cursor}

theorem reaches_skipWhiteSpace (c : Cursor) : c.Reaches c.skipWhiteSpace :=
  ⟨_, quiet_of_isBlank (Text.isBlank_takeWhile _), passes_skipWhiteSpace c⟩

theorem reaches_of_matchWord {word : Text} (hword : word.any isQuote = false)
    (h : c.matchWord word = some d) : c.Reaches d :=
  ⟨word, quiet_of_lacksQuotes hword, passes_of_matchWord h⟩

theorem reaches_of_identifier {name : Text} (h : c.identifier = some (name, d)) :
    c.Reaches d := by
  obtain ⟨hname, hpass⟩ := identifier_eq_some h
  exact ⟨name, quiet_name hname, hpass⟩

/-- The end of a group, as far as it is from the cursor. -/
theorem closerDistance_eq_ok_iff {opener closer : Char}
    (hopener : closerOf? opener = some closer) {offset last : Nat} {rest : Text} :
    closerDistance offset (opener :: rest) = .ok last ↔
      ∃ inner behind, rest = inner ++ closer :: behind ∧ Orderly inner ∧
        last = 1 + inner.width := by
  rw [← closingBracket_eq_ok_iff hopener, closerDistance]
  cases closingBracket (opener :: rest) <;> simp

/-- The cursor behind a part of the rest that ends at byte `last` of it. -/
theorem reaches_seek {a b : Text} (hrest : c.rest = a ++ b) (ha : Quiet a) :
    c.Reaches (c.seek (c.offset + a.width)) :=
  ⟨a, ha, passes_seek hrest⟩

/-- What stands behind a group. -/
theorem dropBytes_group {opener closer : Char} (h : closerOf? opener = some closer)
    (front inner behind : Text) :
    Text.dropBytes (front.width + (1 + inner.width) + 1)
      (front ++ opener :: (inner ++ closer :: behind)) = behind := by
  have hdrop := Text.dropBytes_append (front ++ (opener :: inner ++ [closer])) behind
  rw [Text.width_append, width_group h, ← Nat.add_assoc] at hdrop
  simpa using hdrop

/-- The cursor behind a group that it stands before. -/
theorem passes_group {opener closer : Char} (h : closerOf? opener = some closer)
    {inner behind : Text} (hrest : c.rest = opener :: (inner ++ closer :: behind)) :
    Passes (opener :: inner ++ [closer]) c (c.seek (c.offset + (1 + inner.width) + 1)) := by
  have hgroup : c.rest = (opener :: inner ++ [closer]) ++ behind := by simp [hrest]
  have hpass := passes_seek hgroup
  rwa [width_group h, ← Nat.add_assoc] at hpass

theorem slice_group (inner behind : Text) :
    Text.slice ('(' :: (inner ++ ')' :: behind)) 1 (1 + inner.width) = inner := by
  simpa using Text.slice_inner (c := '(') rfl [] inner (')' :: behind)

/-- A parameter list is read exactly if there is one. -/
theorem ofCursor_eq_ok_iff {list : ParameterList} :
    ParameterList.ofCursor c = .ok (list, d) ↔
      Passes ('(' :: list.text ++ [')']) c d ∧ Orderly list.text ∧
        list.offset = c.offset + 1 := by
  unfold ParameterList.ofCursor
  constructor
  · intro h
    split at h
    · rename_i hpeek
      obtain ⟨rest, hrest⟩ := rest_of_peek hpeek (by decide)
      split at h
      · rename_i last hlast
        obtain ⟨rfl, rfl⟩ := Prod.mk.inj (Except.ok.inj h)
        rw [hrest] at hlast
        obtain ⟨inner, behind, rfl, hinner, rfl⟩ :=
          (closerDistance_eq_ok_iff closerOf?_round).1 hlast
        simp only [hrest, slice_group]
        exact ⟨passes_group closerOf?_round hrest, hinner, trivial⟩
      · cases h
    · cases h
  · rintro ⟨hpass, horderly, hoffset⟩
    obtain ⟨inner, offset⟩ := list
    simp only at hpass horderly hoffset
    have hrest : c.rest = '(' :: (inner ++ ')' :: d.rest) := by simp [hpass.rest]
    have hpeek : c.peek = '(' := by rw [peek, hrest]; rfl
    have hlast : closerDistance c.offset c.rest = .ok (1 + inner.width) := by
      rw [hrest, closerDistance_eq_ok_iff closerOf?_round]
      exact ⟨inner, d.rest, rfl, horderly, rfl⟩
    have hseek := (passes_group closerOf?_round hrest).unique hpass
    rw [if_pos hpeek, hlast, hoffset]
    simp only [hseek, hrest, slice_group]

theorem listAhead_of_ofCursor {list : ParameterList}
    (h : ParameterList.ofCursor c = .ok (list, d)) : ListAhead c list ∧ c.Reaches d := by
  obtain ⟨hpass, horderly, hoffset⟩ := ofCursor_eq_ok_iff.1 h
  refine ⟨⟨[], d.rest, ?_, quiet_nil, horderly, hoffset⟩, ?_⟩
  · rw [hpass.rest]
    simp
  · exact ⟨_, (horderly.group closerOf?_round).quiet, hpass⟩

theorem reaches_generatorMark (c : Cursor) : c.Reaches (generatorMark c).2 := by
  unfold generatorMark
  split
  · rename_i next hnext
    exact Reaches.trans ⟨['*'], quiet_singleton (by decide), passes_of_matchChar hnext⟩
      (reaches_skipWhiteSpace next)
  · exact Reaches.refl c

theorem modifiers_of_none {isAsync : Bool} (h : c.identifier = none) :
    modifiers isAsync c = (isAsync, c) := by
  unfold modifiers
  split
  · rfl
  · rename_i hfound
    rw [h] at hfound
    cases hfound

theorem modifiers_of_some {isAsync : Bool} {word : Text} {next : Cursor}
    (h : c.identifier = some (word, next)) :
    modifiers isAsync c
      = if isMemberModifier word && !endsName next.skipWhiteSpace.peek then
          modifiers (isAsync || word == "async".toList) next.skipWhiteSpace
        else (isAsync, c) := by
  rw [modifiers]
  split
  · rename_i hfound
    rw [h] at hfound
    cases hfound
  · rename_i hfound
    rw [h] at hfound
    obtain ⟨rfl, rfl⟩ := Prod.mk.inj (Option.some.inj hfound)
    rfl

theorem reaches_modifiers (isAsync : Bool) (c : Cursor) :
    c.Reaches (modifiers isAsync c).2 := by
  fun_induction modifiers isAsync c with
  | case1 isAsync c h => exact Reaches.refl c
  | case2 isAsync c word next h hmore ih =>
    exact ((reaches_of_identifier h).trans (reaches_skipWhiteSpace next)).trans ih
  | case3 isAsync c word next h hmore => exact Reaches.refl c

theorem reaches_getD_identifier (c : Cursor) : c.Reaches (c.identifier.getD ([], c)).2 := by
  cases h : c.identifier with
  | none => exact Reaches.refl c
  | some found => exact reaches_of_identifier h

theorem slice_computedName (inner behind : Text) :
    Text.slice ('[' :: (inner ++ ']' :: behind)) 0 (1 + inner.width + 1)
      = '[' :: inner ++ [']'] := by
  have hslice := Text.slice_append [] ('[' :: inner ++ [']']) behind
  rw [width_group closerOf?_square] at hslice
  simpa using hslice

theorem passes_literal {quote : Char} (hquote : isQuote quote = true) {words behind : Text}
    (hrest : c.rest = quote :: (words ++ quote :: behind)) :
    Passes (quote :: words ++ [quote]) c (c.seek (c.offset + (1 + words.width) + 1)) := by
  have hliteral : c.rest = (quote :: words ++ [quote]) ++ behind := by simp [hrest]
  have hpass := passes_seek hliteral
  have hwidth : Text.width (quote :: words ++ [quote]) = 1 + words.width + 1 := by
    simp [utf8Size_of_isQuote hquote, Nat.add_assoc]
  rwa [hwidth, ← Nat.add_assoc] at hpass

/-- A computed name is read with its brackets. -/
theorem memberName_of_computed {inner : Text} (hinner : Orderly inner)
    (hpass : Passes ('[' :: inner ++ [']']) c d) :
    memberName c = .ok ('[' :: inner ++ [']'], d) := by
  have hrest : c.rest = '[' :: (inner ++ ']' :: d.rest) := by simp [hpass.rest]
  have hpeek : c.peek = '[' := by rw [peek, hrest]; rfl
  have hlast : closerDistance c.offset c.rest = .ok (1 + inner.width) := by
    rw [hrest, closerDistance_eq_ok_iff closerOf?_square]
    exact ⟨inner, d.rest, rfl, hinner, rfl⟩
  have hseek := (passes_group closerOf?_square hrest).unique hpass
  rw [memberName, identifier_eq_none hrest (by decide) (by decide), if_pos hpeek, hlast]
  simp only [hseek, hrest, slice_computedName]

/-- A quoted name is read without its quotes. -/
theorem memberName_of_quoted {quote : Char} {name : Text} (hquote : quote ∈ ['\'', '"'])
    (hwords : IsBody quote name) (hpass : Passes (quote :: name ++ [quote]) c d) :
    memberName c = .ok (name, d) := by
  obtain ⟨hnonName, hsharp, hsquare, hisQuote⟩ :
      quote ∈ nonNameChars ∧ quote ≠ '#' ∧ quote ≠ '[' ∧ isQuote quote = true := by
    obtain rfl | rfl : quote = '\'' ∨ quote = '"' := by simpa using hquote
    all_goals decide
  have hrest : c.rest = quote :: (name ++ quote :: d.rest) := by simp [hpass.rest]
  have hpeek : c.peek = quote := by rw [peek, hrest]; rfl
  have hlast : closingQuote c.rest = some (1 + name.width) :=
    closingQuote_eq_some_iff.2 ⟨quote, name, d.rest, hisQuote, hwords, hrest, rfl⟩
  have hseek := (passes_literal hisQuote hrest).unique hpass
  rw [memberName, identifier_eq_none hrest hnonName hsharp, hpeek, if_neg hsquare,
    if_pos (by simpa using hquote), hlast]
  simp only [hseek, hrest, slice_literal hisQuote]

/-- What a method may be called: by a name, by a computed name with its
brackets, or by a quoted name without its quotes. -/
theorem memberName_eq_ok_iff {name : Text} : memberName c = .ok (name, d) ↔
    c.identifier = some (name, d) ∨
      (∃ inner, Orderly inner ∧ name = '[' :: inner ++ [']'] ∧ Passes name c d) ∨
      ∃ quote ∈ ['\'', '"'], IsBody quote name ∧ Passes (quote :: name ++ [quote]) c d := by
  constructor
  · intro h
    unfold memberName at h
    split at h
    · rename_i found hfound
      obtain rfl := Except.ok.inj h
      exact .inl hfound
    · split at h
      · rename_i hpeek
        obtain ⟨rest, hrest⟩ := rest_of_peek hpeek (by decide)
        split at h
        · rename_i last hlast
          rw [hrest] at hlast
          obtain ⟨inner, behind, rfl, hinner, rfl⟩ :=
            (closerDistance_eq_ok_iff closerOf?_square).1 hlast
          obtain ⟨rfl, rfl⟩ := Prod.mk.inj (Except.ok.inj h)
          have hname := slice_computedName inner behind
          rw [← hrest] at hname
          rw [hname]
          exact .inr (.inl ⟨inner, hinner, rfl, passes_group closerOf?_square hrest⟩)
        · cases h
      · split at h
        · rename_i hpeek
          split at h
          · rename_i last hlast
            obtain ⟨quote, words, behind, hquote, hwords, hrest, rfl⟩ :=
              closingQuote_eq_some_iff.1 hlast
            obtain ⟨rfl, rfl⟩ := Prod.mk.inj (Except.ok.inj h)
            rw [peek, hrest] at hpeek
            rw [hrest, slice_literal hquote]
            exact .inr
              (.inr ⟨quote, by simpa using hpeek, hwords, passes_literal hquote hrest⟩)
          · cases h
        · cases h
  · rintro (hname | ⟨inner, hinner, rfl, hpass⟩ | ⟨quote, hquote, hwords, hpass⟩)
    · rw [memberName, hname]
    · exact memberName_of_computed hinner hpass
    · exact memberName_of_quoted hquote hwords hpass

theorem reaches_of_memberName {name : Text} (h : memberName c = .ok (name, d)) :
    c.Reaches d := by
  rcases memberName_eq_ok_iff.1 h with
    hname | ⟨inner, hinner, rfl, hpass⟩ | ⟨quote, hquote, hwords, hpass⟩
  · exact reaches_of_identifier hname
  · exact ⟨_, (hinner.group closerOf?_square).quiet, hpass⟩
  · have hisQuote : isQuote quote = true := by
      obtain rfl | rfl : quote = '\'' ∨ quote = '"' := by simpa using hquote
      all_goals rfl
    exact ⟨_, hwords.quiet hisQuote, hpass⟩

end

/-! ## Heads of callables -/

/-- The parameter list is the name before an arrow, and the cursor stands
before it. -/
def BareName (c : Cursor) (list : ParameterList) : Prop :=
  ∃ between behind, c.rest = list.text ++ between ++ '=' :: '>' :: behind ∧
    name? list.text = some list.text ∧ between.isBlank = true ∧ list.offset = c.offset

/-- The parameter list is the name before an arrow, and nothing stands before
it but the word `async`, if that does. -/
def BareAhead (c : Cursor) (list : ParameterList) : Prop :=
  ∃ a d, Passes a c d ∧ BareName d list ∧
    (a = [] ∨ ∃ space, a = "async".toList ++ space ∧ space.isBlank = true)

section

variable {c d : Cursor} {isAsync : Bool} {head : Head}

theorem peek_of_ofCursor {list : ParameterList}
    (h : ParameterList.ofCursor c = .ok (list, d)) : c.peek = '(' := by
  have hrest := (ofCursor_eq_ok_iff.1 h).1.rest
  rw [peek, hrest]
  rfl

theorem ofArrow_eq_some_iff {list : ParameterList} :
    ParameterList.ofArrow c = .ok (some (list, d)) ↔
      ParameterList.ofCursor c = .ok (list, d) ∨
        c.peek ≠ '(' ∧ c.identifier = some (list.text, d) ∧ list.offset = c.offset := by
  constructor
  · intro h
    unfold ParameterList.ofArrow at h
    split at h
    · obtain ⟨found, hfound, heq⟩ := map_eq_ok h
      obtain rfl := Option.some.inj heq
      exact .inl hfound
    · rename_i hpeek
      cases hname : c.identifier with
      | none => rw [hname] at h; cases h
      | some found =>
        rw [hname] at h
        obtain ⟨rfl, rfl⟩ := Prod.mk.inj (Option.some.inj (Except.ok.inj h))
        exact .inr ⟨hpeek, rfl, rfl⟩
  · rintro (hlist | ⟨hpeek, hname, hoffset⟩)
    · rw [ParameterList.ofArrow, if_pos (peek_of_ofCursor hlist), hlist]
      rfl
    · rw [ParameterList.ofArrow, if_neg hpeek, hname, Option.map_some, ← hoffset]

theorem ofArrow_eq_none_iff :
    ParameterList.ofArrow c = .ok none ↔ c.peek ≠ '(' ∧ c.identifier = none := by
  unfold ParameterList.ofArrow
  split
  · rename_i hpeek
    refine iff_of_false (fun h => ?_) fun h => h.1 hpeek
    obtain ⟨found, -, heq⟩ := map_eq_ok h
    cases heq
  · rename_i hpeek
    simp [hpeek]

theorem reaches_of_ofArrow {list : ParameterList}
    (h : ParameterList.ofArrow c = .ok (some (list, d))) : c.Reaches d := by
  rcases ofArrow_eq_some_iff.1 h with hlist | ⟨-, hname, -⟩
  · exact (listAhead_of_ofCursor hlist).2
  · exact reaches_of_identifier hname

theorem list_of_ofArrow {list : ParameterList}
    (h : ParameterList.ofArrow c = .ok (some (list, d))) :
    ListAhead c list ∨
      Passes list.text c d ∧ name? list.text = some list.text ∧ list.offset = c.offset := by
  rcases ofArrow_eq_some_iff.1 h with hlist | ⟨-, hname, hoffset⟩
  · exact .inl (listAhead_of_ofCursor hlist).1
  · obtain ⟨hword, hpass⟩ := identifier_eq_some hname
    obtain ⟨rest, -, hself, -⟩ := name?_eq_some hword
    exact .inr ⟨hpass, hself, hoffset⟩

theorem list_of_arrow (h : Head.arrow isAsync c = .ok (some head, d)) :
    ListAhead c head.parameters ∨ BareName c head.parameters := by
  unfold Head.arrow at h
  split at h
  · cases h
  · cases h
  · rename_i list next hlist
    split at h
    · rename_i behind harrow
      obtain ⟨hhead, rfl⟩ := Prod.mk.inj (Except.ok.inj h)
      obtain rfl := Option.some.inj hhead
      refine (list_of_ofArrow hlist).imp id fun ⟨hpass, hname, hoffset⟩ => ?_
      have hrest :=
        ((hpass.trans (passes_skipWhiteSpace next)).trans (passes_of_matchText harrow)).rest
      refine ⟨next.rest.takeWhile isWhiteSpace, behind.rest, ?_, hname,
        Text.isBlank_takeWhile _, hoffset⟩
      rw [hrest]
      simp
    · cases h

/-- What a function is, behind its word. -/
theorem function_eq_ok_iff : Head.function isAsync c = .ok head ↔
    ∃ list d, ParameterList.ofCursor
        ((generatorMark c).2.identifier.getD ([], (generatorMark c).2)).2.skipWhiteSpace
          = .ok (list, d) ∧
      head =
        { name := ((generatorMark c).2.identifier.getD ([], (generatorMark c).2)).1
          form := { isAsync, isGenerator := (generatorMark c).1 }
          parameters := list } := by
  constructor
  · intro h
    obtain ⟨⟨list, d⟩, hlist, h⟩ := bind_eq_ok h
    exact ⟨list, d, hlist, (Except.ok.inj h).symm⟩
  · rintro ⟨list, d, hlist, rfl⟩
    show (ParameterList.ofCursor ((generatorMark c).2.identifier.getD
      ([], (generatorMark c).2)).2.skipWhiteSpace >>= _) = _
    rw [hlist]
    rfl

/-- What a method is, behind its modifiers. -/
theorem method_eq_ok_iff : Head.method isAsync c = .ok head ↔
    ∃ name d list e, memberName (generatorMark c).2 = .ok (name, d) ∧
      ParameterList.ofCursor d.skipWhiteSpace = .ok (list, e) ∧
      e.skipWhiteSpace.peek = '{' ∧
      head =
        { name, form := { isAsync, isGenerator := (generatorMark c).1 }
          parameters := list } := by
  constructor
  · intro h
    obtain ⟨⟨name, d⟩, hname, h⟩ := bind_eq_ok h
    obtain ⟨⟨list, e⟩, hlist, h⟩ := bind_eq_ok h
    dsimp only at h
    by_cases hbody : e.skipWhiteSpace.peek = '{'
    · rw [if_neg (not_not_intro hbody)] at h
      exact ⟨name, d, list, e, hname, hlist, hbody, (Except.ok.inj h).symm⟩
    · rw [if_pos hbody] at h
      cases h
  · rintro ⟨name, d, list, e, hname, hlist, hbody, rfl⟩
    show (memberName (generatorMark c).2 >>= _) = _
    rw [hname]
    show (ParameterList.ofCursor d.skipWhiteSpace >>= _) = _
    rw [hlist]
    show (if e.skipWhiteSpace.peek ≠ '{' then _ else _) = _
    rw [if_neg (not_not_intro hbody)]
    rfl

theorem list_of_function (h : Head.function isAsync c = .ok head) :
    ListAhead c head.parameters := by
  obtain ⟨list, d, hlist, rfl⟩ := function_eq_ok_iff.1 h
  exact (((reaches_generatorMark c).trans (reaches_getD_identifier _)).trans
    (reaches_skipWhiteSpace _)).listAhead (listAhead_of_ofCursor hlist).1

theorem list_of_method (h : Head.method isAsync c = .ok head) :
    ListAhead c head.parameters := by
  obtain ⟨name, d, list, e, hname, hlist, -, rfl⟩ := method_eq_ok_iff.1 h
  exact (((reaches_generatorMark c).trans (reaches_of_memberName hname)).trans
    (reaches_skipWhiteSpace _)).listAhead (listAhead_of_ofCursor hlist).1

/-- What a member is, behind its modifiers. -/
theorem member_eq (c : Cursor) : Head.member c
    = match (modifiers false c).2.matchWord "function".toList with
      | some next => Head.function (modifiers false c).1 next.skipWhiteSpace
      | none => Head.method (modifiers false c).1 (modifiers false c).2 := rfl

theorem list_of_member (h : Head.member c = .ok head) : ListAhead c head.parameters := by
  rw [member_eq] at h
  have hreach := reaches_modifiers false c
  split at h
  · rename_i next hword
    exact ((hreach.trans (reaches_of_matchWord (by decide) hword)).trans
      (reaches_skipWhiteSpace next)).listAhead (list_of_function h)
  · exact hreach.listAhead (list_of_method h)

theorem list_of_asyncArrow (h : Head.asyncArrow c = .ok (some head)) :
    ListAhead c head.parameters ∨ BareAhead c head.parameters := by
  unfold Head.asyncArrow at h
  split at h
  · cases h
  · rename_i next hword
    obtain ⟨⟨found, d⟩, harrow, rfl⟩ := map_eq_ok h
    refine (list_of_arrow harrow).imp (fun hlist => ?_) fun hbare => ?_
    · exact ((reaches_of_matchWord (by decide) hword).trans
        (reaches_skipWhiteSpace next)).listAhead hlist
    · exact ⟨_, _, (passes_of_matchWord hword).trans (passes_skipWhiteSpace next), hbare,
        .inr ⟨_, rfl, Text.isBlank_takeWhile _⟩⟩

/-- The parameter list of a callable is in parentheses, or it is the name
before an arrow. -/
theorem list_of_head (h : Head.ofCursor c = .ok head) :
    ListAhead c head.parameters ∨ BareAhead c head.parameters := by
  unfold Head.ofCursor at h
  obtain ⟨⟨found, d⟩, harrow, h⟩ := bind_eq_ok h
  cases found with
  | some arrow =>
    obtain rfl := Except.ok.inj h
    exact (list_of_arrow harrow).imp id fun hbare => ⟨[], c, Passes.refl c, hbare, .inl rfl⟩
  | none =>
    obtain ⟨found, hasync, h⟩ := bind_eq_ok h
    cases found with
    | some arrow =>
      obtain rfl := Except.ok.inj h
      exact list_of_asyncArrow hasync
    | none => exact .inl (list_of_member h)

/-- A callable has its parameters from no supertype. -/
theorem inheritedFrom_of_head (h : Head.ofCursor c = .ok head) :
    head.inheritedFrom = none := by
  have harrow : ∀ {isAsync : Bool} {c d : Cursor},
      Head.arrow isAsync c = .ok (some head, d) → head.inheritedFrom = none := by
    intro isAsync c d h
    unfold Head.arrow at h
    split at h
    · cases h
    · cases h
    · split at h
      · obtain ⟨hhead, -⟩ := Prod.mk.inj (Except.ok.inj h)
        rw [← Option.some.inj hhead]
      · cases h
  obtain ⟨⟨found, d⟩, hfirst, h⟩ := bind_eq_ok h
  cases found with
  | some arrow =>
    obtain rfl := Except.ok.inj h
    exact harrow hfirst
  | none =>
    obtain ⟨found, hasync, h⟩ := bind_eq_ok h
    cases found with
    | some arrow =>
      obtain rfl := Except.ok.inj h
      unfold Head.asyncArrow at hasync
      split at hasync
      · cases hasync
      · obtain ⟨⟨found, e⟩, hsecond, rfl⟩ := map_eq_ok hasync
        exact harrow hsecond
    | none =>
      dsimp only at h
      rw [member_eq] at h
      split at h
      · obtain ⟨list, d, -, rfl⟩ := function_eq_ok_iff.1 h
        rfl
      · obtain ⟨name, d, list, e, -, -, -, rfl⟩ := method_eq_ok_iff.1 h
        rfl

end

end CallSignature
