/-
CallSignature.Proofs.Head.Extent — how far a head goes.

A head ends in a mark: the parenthesis that closes the list of a function, an
arrow, or the bracket that opens the body of a method.  `Head.ReadsTo` says
that a head is read from one cursor and that another one stands behind its
mark; every head that is read goes to such a place (`head_eq_ok_iff`).

Nothing behind the mark matters.  If what is unread is cut off there, every
cursor that the reader comes to is sealed, those included that it comes to in
the forms it tries and gives up.  So the same head is read whatever the source
goes on with (`readsTo_extended_iff`).
-/
import CallSignature.Proofs.Cursor.Extended
import CallSignature.Proofs.Head.Lists

namespace CallSignature

open Cursor Unicode

/-! ## Steps in the longer source -/

section

variable {c : Cursor} (hc : c.IsSealed)
include hc

theorem identifier_extended_iff {b : Text} {d : Cursor} {name : Text} :
    (c.extended b).identifier = some (name, d.extended b) ↔ c.identifier = some (name, d) := by
  rw [identifier_extended hc]
  cases c.identifier with
  | none => simp
  | some found =>
    obtain ⟨word, next⟩ := found
    simp only [Option.map_some, Option.some.injEq, Prod.mk.injEq]
    exact and_congr_right fun _ => ⟨extended_injective, congrArg (extended b)⟩

theorem isSealed_generatorMark : (generatorMark c).2.IsSealed := by
  unfold generatorMark
  split
  · rename_i next hnext
    exact (hc.matchChar hnext (by decide)).skipWhiteSpace
  · exact hc

theorem generatorMark_extended (b : Text) :
    generatorMark (c.extended b) = ((generatorMark c).1, (generatorMark c).2.extended b) := by
  rw [generatorMark, generatorMark, matchChar_extended hc]
  cases hnext : c.matchChar '*' with
  | none => rfl
  | some next =>
    exact congrArg (true, ·) (skipWhiteSpace_extended (hc.matchChar hnext (by decide)) b)

theorem isSealed_modifiers (isAsync : Bool) : (modifiers isAsync c).2.IsSealed := by
  fun_induction modifiers isAsync c with
  | case1 isAsync c h => exact hc
  | case2 isAsync c word next h hmore ih => exact ih (hc.identifier h).skipWhiteSpace
  | case3 isAsync c word next h hmore => exact hc

theorem modifiers_extended (isAsync : Bool) (b : Text) :
    modifiers isAsync (c.extended b)
      = ((modifiers isAsync c).1, (modifiers isAsync c).2.extended b) := by
  fun_induction modifiers isAsync c with
  | case1 isAsync c h =>
    refine modifiers_of_none ?_
    rw [identifier_extended hc, h]
    rfl
  | case2 isAsync c word next h hmore ih =>
    have hnext := hc.identifier h
    rw [modifiers_of_some ((identifier_extended_iff hc).mpr h), skipWhiteSpace_extended hnext,
      peek_extended hnext.skipWhiteSpace, if_pos hmore, ih hnext.skipWhiteSpace]
  | case3 isAsync c word next h hmore =>
    have hnext := hc.identifier h
    rw [modifiers_of_some ((identifier_extended_iff hc).mpr h), skipWhiteSpace_extended hnext,
      peek_extended hnext.skipWhiteSpace, if_neg hmore]

end

section

variable {b : Text} {c d : Cursor}

theorem map_extended_eq_some_iff {found : Option Cursor} :
    found.map (extended b) = some (d.extended b) ↔ found = some d := by
  cases found with
  | none => simp
  | some e => simpa using ⟨extended_injective, congrArg (extended b)⟩

theorem memberName_extended_iff (hc : c.IsSealed) {name : Text} :
    memberName (c.extended b) = .ok (name, d.extended b) ↔ memberName c = .ok (name, d) := by
  simp only [memberName_eq_ok_iff, identifier_extended_iff hc, passes_extended_iff]

/-- A parameter list is the same in a source that goes on behind it. -/
theorem ofCursor_extended_iff {list : ParameterList} :
    ParameterList.ofCursor (c.extended b) = .ok (list, d.extended b) ↔
      ParameterList.ofCursor c = .ok (list, d) := by
  rw [ofCursor_eq_ok_iff, ofCursor_eq_ok_iff, passes_extended_iff, offset_extended]

end

/-! ## Arrows -/

/-- The head of an arrow function is read from the first cursor, and the
second one stands behind the arrow. -/
def ReadsArrow (isAsync : Bool) (c : Cursor) (head : Head) (d : Cursor) : Prop :=
  ∃ list e, ParameterList.ofArrow c = .ok (some (list, e)) ∧
    e.skipWhiteSpace.matchText ['=', '>'] = some d ∧
    head = { form := { isAsync, isArrow := true }, parameters := list }

/-- The cursor does not stand before an arrow function, and what it stands
before is in order as far as one would go. -/
def LacksArrow (c : Cursor) : Prop :=
  ParameterList.ofArrow c = .ok none ∨
    ∃ list e, ParameterList.ofArrow c = .ok (some (list, e)) ∧
      e.skipWhiteSpace.matchText ['=', '>'] = none

/-- Behind the word `async` there is no arrow function, if there is the word. -/
def LacksAsyncArrow (c : Cursor) : Prop :=
  ∀ next, c.matchWord "async".toList = some next → LacksArrow next.skipWhiteSpace

section

variable {b : Text} {c d : Cursor} {isAsync : Bool} {head : Head}

theorem arrow_eq_some_iff :
    Head.arrow isAsync c = .ok (some head, d) ↔ ReadsArrow isAsync c head d := by
  constructor
  · intro h
    unfold Head.arrow at h
    split at h
    · cases h
    · cases h
    · rename_i list e hlist
      split at h
      · rename_i behind hmark
        obtain ⟨hhead, rfl⟩ := Prod.mk.inj (Except.ok.inj h)
        exact ⟨list, e, hlist, hmark, (Option.some.inj hhead).symm⟩
      · cases h
  · rintro ⟨list, e, hlist, hmark, rfl⟩
    rw [Head.arrow, hlist]
    simp only [hmark]

theorem arrow_eq_none_iff : (∃ e, Head.arrow isAsync c = .ok (none, e)) ↔ LacksArrow c := by
  constructor
  · rintro ⟨e, h⟩
    unfold Head.arrow at h
    split at h
    · cases h
    · exact .inl ‹_›
    · rename_i list e hlist
      split at h
      · cases h
      · exact .inr ⟨list, e, hlist, ‹_›⟩
  · rintro (hnone | ⟨list, e, hlist, hmark⟩)
    · rw [Head.arrow, hnone]
      exact ⟨_, rfl⟩
    · rw [Head.arrow, hlist]
      simp only [hmark]
      exact ⟨_, rfl⟩

theorem asyncArrow_eq_none_iff : Head.asyncArrow c = .ok none ↔ LacksAsyncArrow c := by
  unfold Head.asyncArrow LacksAsyncArrow
  cases c.matchWord "async".toList with
  | none => simp
  | some next =>
    have hnone : (Head.arrow true next.skipWhiteSpace).map (·.1) = .ok none ↔
        ∃ e, Head.arrow true next.skipWhiteSpace = .ok (none, e) := by
      cases Head.arrow true next.skipWhiteSpace with
      | error fault => simp [Except.map]
      | ok found => obtain ⟨found, e⟩ := found; simp [Except.map]
    simpa using hnone.trans arrow_eq_none_iff

theorem asyncArrow_eq_some_iff : Head.asyncArrow c = .ok (some head) ↔
    ∃ next d, c.matchWord "async".toList = some next ∧
      ReadsArrow true next.skipWhiteSpace head d := by
  unfold Head.asyncArrow
  cases c.matchWord "async".toList with
  | none => simp
  | some next =>
    have hsome : (Head.arrow true next.skipWhiteSpace).map (·.1) = .ok (some head) ↔
        ∃ e, Head.arrow true next.skipWhiteSpace = .ok (some head, e) := by
      cases Head.arrow true next.skipWhiteSpace with
      | error fault => simp [Except.map]
      | ok found => obtain ⟨found, e⟩ := found; simp [Except.map]
    simpa [arrow_eq_some_iff] using hsome

/-! ### Arrows in the longer source -/

theorem ofArrow_extended_iff (hc : c.IsSealed) {list : ParameterList} :
    ParameterList.ofArrow (c.extended b) = .ok (some (list, d.extended b)) ↔
      ParameterList.ofArrow c = .ok (some (list, d)) := by
  simp only [ofArrow_eq_some_iff, ofCursor_extended_iff, identifier_extended_iff hc,
    peek_extended hc, offset_extended]

theorem readsArrow_extended_iff (hc : c.IsSealed) :
    ReadsArrow isAsync (c.extended b) head (d.extended b) ↔ ReadsArrow isAsync c head d := by
  -- the cursor behind the parameters is sealed, because the arrow is still to come
  have hsealed : ∀ {list e space}, ParameterList.ofArrow c = .ok (some (list, e)) →
      Passes (space ++ ['=', '>']) e d → e.IsSealed := by
    intro list e space hlist hpass
    obtain ⟨a, -, ha⟩ := reaches_of_ofArrow hlist
    exact hc.between ha hpass (by simp)
  constructor
  · rintro ⟨list, e', hlist, hmark, hhead⟩
    obtain ⟨e, rfl, hpass⟩ :=
      ((passes_skipWhiteSpace e').trans (passes_of_matchText hmark)).exists_extended
    rw [ofArrow_extended_iff hc] at hlist
    have he := hsealed hlist hpass
    rw [skipWhiteSpace_extended he, matchText_extended he.skipWhiteSpace (by decide),
      map_extended_eq_some_iff] at hmark
    exact ⟨list, e, hlist, hmark, hhead⟩
  · rintro ⟨list, e, hlist, hmark, hhead⟩
    have he := hsealed hlist ((passes_skipWhiteSpace e).trans (passes_of_matchText hmark))
    refine ⟨list, e.extended b, (ofArrow_extended_iff hc).2 hlist, ?_, hhead⟩
    rw [skipWhiteSpace_extended he, matchText_extended he.skipWhiteSpace (by decide), hmark]
    rfl

/-- The arrow is looked for behind the parameters. -/
theorem lacksArrow_iff_of_list {list : ParameterList}
    (h : ParameterList.ofArrow c = .ok (some (list, d))) :
    LacksArrow c ↔ d.skipWhiteSpace.matchText ['=', '>'] = none := by
  unfold LacksArrow
  rw [h]
  constructor
  · rintro (hnone | ⟨_, _, hlist, hmark⟩)
    · cases hnone
    · obtain ⟨-, rfl⟩ := Prod.mk.inj (Option.some.inj (Except.ok.inj hlist))
      exact hmark
  · exact fun hmark => .inr ⟨list, d, rfl, hmark⟩

/-- The longer source lacks an arrow where the shorter one does.  A list in
parentheses that no arrow follows must end in the shorter source. -/
theorem lacksArrow_extended_iff (hc : c.IsSealed)
    (hlist : c.peek = '(' → ∃ list e, ParameterList.ofCursor c = .ok (list, e) ∧ e.IsSealed) :
    LacksArrow (c.extended b) ↔ LacksArrow c := by
  have hfound : (c.peek ≠ '(' ∧ c.identifier = none) ∨
      ∃ list e, ParameterList.ofArrow c = .ok (some (list, e)) ∧ e.IsSealed := by
    by_cases hpeek : c.peek = '('
    · obtain ⟨list, e, hlist, he⟩ := hlist hpeek
      exact .inr ⟨list, e, ofArrow_eq_some_iff.2 (.inl hlist), he⟩
    · cases hname : c.identifier with
      | none => exact .inl ⟨hpeek, rfl⟩
      | some found =>
        exact .inr ⟨⟨found.1, c.offset⟩, found.2,
          ofArrow_eq_some_iff.2 (.inr ⟨hpeek, hname, rfl⟩), hc.identifier hname⟩
  rcases hfound with ⟨hpeek, hname⟩ | ⟨list, e, hlist, he⟩
  · have hnone : ParameterList.ofArrow (c.extended b) = .ok none := by
      rw [ofArrow_eq_none_iff, peek_extended hc, identifier_extended hc, hname]
      exact ⟨hpeek, rfl⟩
    exact iff_of_true (.inl hnone) (.inl (ofArrow_eq_none_iff.2 ⟨hpeek, hname⟩))
  · rw [lacksArrow_iff_of_list hlist,
      lacksArrow_iff_of_list ((ofArrow_extended_iff hc).2 hlist), skipWhiteSpace_extended he,
      matchText_extended he.skipWhiteSpace (by decide), Option.map_eq_none_iff]

end

/-! ## Functions and methods -/

/-- The head of a function behind its word is read from the first cursor, and
the second one stands behind the parameter list. -/
def ReadsFunction (isAsync : Bool) (c : Cursor) (head : Head) (d : Cursor) : Prop :=
  ∃ list, ParameterList.ofCursor
      ((generatorMark c).2.identifier.getD ([], (generatorMark c).2)).2.skipWhiteSpace
        = .ok (list, d) ∧
    head =
      { name := ((generatorMark c).2.identifier.getD ([], (generatorMark c).2)).1
        form := { isAsync, isGenerator := (generatorMark c).1 }
        parameters := list }

/-- The head of a method is read from the first cursor, and the second one
stands behind the bracket that opens the body. -/
def ReadsMethod (isAsync : Bool) (c : Cursor) (head : Head) (d : Cursor) : Prop :=
  ∃ name e list f, memberName (generatorMark c).2 = .ok (name, e) ∧
    ParameterList.ofCursor e.skipWhiteSpace = .ok (list, f) ∧
    f.skipWhiteSpace.matchChar '{' = some d ∧
    head =
      { name, form := { isAsync, isGenerator := (generatorMark c).1 }
        parameters := list }

/-- The head of a function or a method is read with its modifiers. -/
def ReadsMember (c : Cursor) (head : Head) (d : Cursor) : Prop :=
  match (modifiers false c).2.matchWord "function".toList with
  | some next => ReadsFunction (modifiers false c).1 next.skipWhiteSpace head d
  | none => ReadsMethod (modifiers false c).1 (modifiers false c).2 head d

section

variable {b : Text} {c d : Cursor} {isAsync : Bool} {head : Head}

theorem function_eq_ok_iff_reads :
    Head.function isAsync c = .ok head ↔ ∃ d, ReadsFunction isAsync c head d := by
  rw [function_eq_ok_iff]
  exact ⟨fun ⟨list, d, h⟩ => ⟨d, list, h⟩, fun ⟨d, list, h⟩ => ⟨list, d, h⟩⟩

theorem peek_eq_iff_matchChar {x : Char} (hx : x ≠ '\x00') :
    c.peek = x ↔ ∃ d, c.matchChar x = some d := by
  constructor
  · intro hpeek
    obtain ⟨rest, hrest⟩ := rest_of_peek hpeek hx
    exact ⟨c.advance 1, by rw [matchChar, hrest]; exact if_pos rfl⟩
  · rintro ⟨d, hd⟩
    rw [peek, (passes_of_matchChar hd).rest]
    rfl

theorem method_eq_ok_iff_reads :
    Head.method isAsync c = .ok head ↔ ∃ d, ReadsMethod isAsync c head d := by
  rw [method_eq_ok_iff]
  constructor
  · rintro ⟨name, e, list, f, hname, hlist, hbody, hhead⟩
    obtain ⟨d, hd⟩ := (peek_eq_iff_matchChar (by decide)).1 hbody
    exact ⟨d, name, e, list, f, hname, hlist, hd, hhead⟩
  · rintro ⟨d, name, e, list, f, hname, hlist, hbody, hhead⟩
    exact ⟨name, e, list, f, hname, hlist, (peek_eq_iff_matchChar (by decide)).2 ⟨d, hbody⟩,
      hhead⟩

theorem member_eq_ok_iff : Head.member c = .ok head ↔ ∃ d, ReadsMember c head d := by
  rw [member_eq]
  unfold ReadsMember
  cases (modifiers false c).2.matchWord "function".toList with
  | none => exact method_eq_ok_iff_reads
  | some next => exact function_eq_ok_iff_reads

/-! ### Functions and methods in the longer source -/

theorem getD_identifier_extended (hc : c.IsSealed) (b : Text) :
    (c.extended b).identifier.getD ([], c.extended b)
      = ((c.identifier.getD ([], c)).1, (c.identifier.getD ([], c)).2.extended b) := by
  rw [identifier_extended hc]
  cases c.identifier <;> rfl

theorem isSealed_getD_identifier (hc : c.IsSealed) :
    (c.identifier.getD ([], c)).2.IsSealed := by
  cases hname : c.identifier with
  | none => exact hc
  | some found => exact hc.identifier hname

theorem readsFunction_extended_iff (hc : c.IsSealed) :
    ReadsFunction isAsync (c.extended b) head (d.extended b) ↔
      ReadsFunction isAsync c head d := by
  have hmark := isSealed_generatorMark hc
  unfold ReadsFunction
  rw [generatorMark_extended hc]
  simp only [getD_identifier_extended hmark, ofCursor_extended_iff,
    skipWhiteSpace_extended (isSealed_getD_identifier hmark)]

theorem readsMethod_extended_iff (hc : c.IsSealed) :
    ReadsMethod isAsync (c.extended b) head (d.extended b) ↔ ReadsMethod isAsync c head d := by
  have hmark := isSealed_generatorMark hc
  unfold ReadsMethod
  rw [generatorMark_extended hc]
  constructor
  · rintro ⟨name, e', list, f', hname, hlist, hbody, hhead⟩
    -- what leads to the bracket in the shorter source belongs to it
    obtain ⟨f, rfl, hf⟩ :=
      ((passes_skipWhiteSpace f').trans (passes_of_matchChar hbody)).exists_extended
    obtain ⟨e, rfl, he⟩ :=
      ((passes_skipWhiteSpace e').trans (ofCursor_eq_ok_iff.1 hlist).1).exists_extended
    rw [memberName_extended_iff hmark] at hname
    obtain ⟨a, -, ha⟩ := reaches_of_memberName hname
    have hesealed := hmark.between ha he (by simp)
    have hfsealed := hmark.between (ha.trans he) hf (by simp)
    rw [skipWhiteSpace_extended hesealed, ofCursor_extended_iff] at hlist
    rw [skipWhiteSpace_extended hfsealed, matchChar_extended hfsealed.skipWhiteSpace,
      map_extended_eq_some_iff] at hbody
    exact ⟨name, e, list, f, hname, hlist, hbody, hhead⟩
  · rintro ⟨name, e, list, f, hname, hlist, hbody, hhead⟩
    obtain ⟨a, -, ha⟩ := reaches_of_memberName hname
    have he := (passes_skipWhiteSpace e).trans (ofCursor_eq_ok_iff.1 hlist).1
    have hf := (passes_skipWhiteSpace f).trans (passes_of_matchChar hbody)
    have hesealed := hmark.between ha he (by simp)
    have hfsealed := hmark.between (ha.trans he) hf (by simp)
    refine ⟨name, e.extended b, list, f.extended b, (memberName_extended_iff hmark).2 hname,
      ?_, ?_, hhead⟩
    · rw [skipWhiteSpace_extended hesealed]
      exact ofCursor_extended_iff.2 hlist
    · rw [skipWhiteSpace_extended hfsealed, matchChar_extended hfsealed.skipWhiteSpace, hbody]
      rfl

theorem readsMember_extended_iff (hc : c.IsSealed) :
    ReadsMember (c.extended b) head (d.extended b) ↔ ReadsMember c head d := by
  have hmodifiers := isSealed_modifiers hc false
  have hfunction : LacksMarks "function".toList := by decide
  unfold ReadsMember
  rw [modifiers_extended hc, matchWord_extended hmodifiers hfunction]
  cases hword : (modifiers false c).2.matchWord "function".toList with
  | none => exact readsMethod_extended_iff hmodifiers
  | some next =>
    have hnext := hmodifiers.matchWord hfunction hword
    simp only [Option.map_some, skipWhiteSpace_extended hnext]
    exact readsFunction_extended_iff hnext.skipWhiteSpace

end

/-! ## Heads -/

/-- The head is read from the first cursor, and the second one stands behind
the mark that ends it. -/
inductive Head.ReadsTo (c : Cursor) (head : Head) (d : Cursor) : Prop
  | arrow (h : ReadsArrow false c head d)
  | asyncArrow {next : Cursor} (hplain : LacksArrow c)
    (hword : c.matchWord "async".toList = some next)
    (h : ReadsArrow true next.skipWhiteSpace head d)
  | member (hplain : LacksArrow c) (hasync : LacksAsyncArrow c) (h : ReadsMember c head d)

section

variable {a b : Text} {c d next : Cursor} {head : Head}

/-- Every head that is read ends somewhere. -/
theorem head_eq_ok_iff : Head.ofCursor c = .ok head ↔ ∃ d, head.ReadsTo c d := by
  constructor
  · intro h
    obtain ⟨⟨found, e⟩, hfirst, h⟩ := bind_eq_ok h
    cases found with
    | some arrow =>
      obtain rfl := Except.ok.inj h
      exact ⟨e, .arrow (arrow_eq_some_iff.1 hfirst)⟩
    | none =>
      have hplain := arrow_eq_none_iff.1 ⟨e, hfirst⟩
      obtain ⟨found, hsecond, h⟩ := bind_eq_ok h
      cases found with
      | some arrow =>
        obtain rfl := Except.ok.inj h
        obtain ⟨next, d, hword, harrow⟩ := asyncArrow_eq_some_iff.1 hsecond
        exact ⟨d, .asyncArrow hplain hword harrow⟩
      | none =>
        obtain ⟨d, hmember⟩ := member_eq_ok_iff.1 h
        exact ⟨d, .member hplain (asyncArrow_eq_none_iff.1 hsecond) hmember⟩
  · rintro ⟨d, h⟩
    show (Head.arrow false c >>= _) = _
    cases h with
    | arrow h =>
      rw [arrow_eq_some_iff.2 h]
      rfl
    | asyncArrow hplain hword h =>
      obtain ⟨e, he⟩ : ∃ e, Head.arrow false c = .ok (none, e) := arrow_eq_none_iff.2 hplain
      rw [he]
      show (Head.asyncArrow c >>= _) = _
      rw [asyncArrow_eq_some_iff.2 ⟨_, d, hword, h⟩]
      rfl
    | member hplain hasync h =>
      obtain ⟨e, he⟩ : ∃ e, Head.arrow false c = .ok (none, e) := arrow_eq_none_iff.2 hplain
      rw [he]
      show (Head.asyncArrow c >>= _) = _
      rw [asyncArrow_eq_none_iff.2 hasync]
      exact member_eq_ok_iff.2 ⟨d, h⟩

/-! ### The next character -/

theorem peek_of_passes {x : Char} (h : Passes (x :: a) c d) : c.peek = x := by
  rw [peek, h.rest]
  rfl

theorem matchWord_eq_none {x : Char} {w : Text} (h : c.peek ≠ x) :
    c.matchWord (x :: w) = none :=
  Option.eq_none_iff_forall_ne_some.2 fun _ hd => h (peek_of_passes (passes_of_matchWord hd))

theorem generatorMark_eq (h : c.peek ≠ '*') : generatorMark c = (false, c) := by
  have hnone : c.matchChar '*' = none :=
    Option.eq_none_iff_forall_ne_some.2 fun _ hd => h (peek_of_passes (passes_of_matchChar hd))
  rw [generatorMark, hnone]

/-- A function or a method does not begin with a parenthesis. -/
theorem peek_ne_of_readsMember (h : ReadsMember c head d) : c.peek ≠ '(' := by
  intro hpeek
  obtain ⟨rest, hrest⟩ := rest_of_peek hpeek (by decide)
  have hnone : c.identifier = none := identifier_eq_none hrest (by decide) (by decide)
  have hfunction : c.matchWord "function".toList = none :=
    matchWord_eq_none (by rw [hpeek]; decide)
  unfold ReadsMember at h
  rw [modifiers_of_none hnone, hfunction] at h
  obtain ⟨name, e, list, f, hname, -⟩ := h
  rw [generatorMark_eq (by rw [hpeek]; decide), memberName_eq_ok_iff] at hname
  rcases hname with hname | ⟨inner, -, rfl, hpass⟩ | ⟨quote, hquote, -, hpass⟩
  · rw [hnone] at hname
    cases hname
  · rw [peek_of_passes hpass] at hpeek
    exact absurd hpeek (by decide)
  · rw [peek_of_passes hpass] at hpeek
    subst hpeek
    exact absurd hquote (by decide)

/-! ### The word in front of a list -/

theorem identifier_of_matchWord {w : Text} (hw : name? w = some w)
    (h : c.matchWord w = some d) : c.identifier = some (w, d) := by
  unfold matchWord at h
  split at h
  · rename_i hstarts
    obtain ⟨hbegins, hends⟩ : w.isPrefixOf c.rest = true ∧
        (c.rest.drop w.length).head?.any isNameContinue = false := by
      simpa [startsWithWord] using hstarts
    obtain ⟨rest, hrest⟩ := List.isPrefixOf_iff_prefix.1 hbegins
    rw [← hrest, List.drop_left] at hends
    obtain rfl := Option.some.inj h
    rw [identifier, ← hrest, name?_append hw hends]
  · cases h

/-- If a parameter list stands behind the word `async`, that word is the name
of a method, and the list is its list. -/
theorem exists_ofCursor_of_async (hc : c.IsSealed) (h : ReadsMember c head d)
    (hword : c.matchWord "async".toList = some next) (hpeek : next.skipWhiteSpace.peek = '(') :
    ∃ list e, ParameterList.ofCursor next.skipWhiteSpace = .ok (list, e) ∧ e.IsSealed := by
  have hfirst : c.peek = 'a' := peek_of_passes (passes_of_matchWord hword)
  have hname := identifier_of_matchWord (by decide) hword
  have hmodifiers : modifiers false c = (false, c) := by
    rw [modifiers_of_some hname, hpeek, if_neg (by decide)]
  have hfunction : c.matchWord "function".toList = none :=
    matchWord_eq_none (by rw [hfirst]; decide)
  unfold ReadsMember at h
  rw [hmodifiers, hfunction] at h
  obtain ⟨name, e, list, f, hmember, hlist, hbody, -⟩ := h
  rw [generatorMark_eq (by rw [hfirst]; decide), memberName, hname] at hmember
  obtain ⟨rfl, rfl⟩ := Prod.mk.inj (Except.ok.inj hmember)
  have hpass := ((passes_of_matchWord hword).trans (passes_skipWhiteSpace next)).trans
    (ofCursor_eq_ok_iff.1 hlist).1
  exact ⟨list, f, hlist,
    hc.between hpass ((passes_skipWhiteSpace f).trans (passes_of_matchChar hbody)) (by simp)⟩

/-! ### Heads in the longer source -/

theorem lacksAsyncArrow_extended_iff (hc : c.IsSealed) (h : ReadsMember c head d) :
    LacksAsyncArrow (c.extended b) ↔ LacksAsyncArrow c := by
  have hasync : LacksMarks "async".toList := by decide
  unfold LacksAsyncArrow
  rw [matchWord_extended hc hasync]
  cases hword : c.matchWord "async".toList with
  | none => simp
  | some next =>
    have hnext := hc.matchWord hasync hword
    simp only [Option.map_some, Option.some.injEq, forall_eq', skipWhiteSpace_extended hnext]
    exact lacksArrow_extended_iff hnext.skipWhiteSpace (exists_ofCursor_of_async hc h hword)

/-- A head is read in a source exactly if it is read in every source that
goes on with something else behind the mark. -/
theorem readsTo_extended_iff (hc : c.IsSealed) :
    head.ReadsTo (c.extended b) (d.extended b) ↔ head.ReadsTo c d := by
  have hasync : LacksMarks "async".toList := by decide
  have hword : ∀ {next}, c.matchWord "async".toList = some next →
      (LacksArrow (c.extended b) ↔ LacksArrow c) := by
    intro next hword
    refine lacksArrow_extended_iff hc fun hpeek => ?_
    rw [peek_of_passes (passes_of_matchWord hword)] at hpeek
    exact absurd hpeek (by decide)
  have hmember : ReadsMember c head d → (LacksArrow (c.extended b) ↔ LacksArrow c) := fun h =>
    lacksArrow_extended_iff hc fun hpeek => absurd hpeek (peek_ne_of_readsMember h)
  constructor
  · intro h
    cases h with
    | arrow h => exact .arrow ((readsArrow_extended_iff hc).1 h)
    | @asyncArrow next' hplain hfound h =>
      rw [matchWord_extended hc hasync, Option.map_eq_some_iff] at hfound
      obtain ⟨next, hfound, rfl⟩ := hfound
      have hnext := hc.matchWord hasync hfound
      rw [skipWhiteSpace_extended hnext, readsArrow_extended_iff hnext.skipWhiteSpace] at h
      exact .asyncArrow ((hword hfound).1 hplain) hfound h
    | member hplain hnone h =>
      rw [readsMember_extended_iff hc] at h
      exact .member ((hmember h).1 hplain) ((lacksAsyncArrow_extended_iff hc h).1 hnone) h
  · intro h
    cases h with
    | arrow h => exact .arrow ((readsArrow_extended_iff hc).2 h)
    | @asyncArrow next hplain hfound h =>
      have hnext := hc.matchWord hasync hfound
      have hextended : (c.extended b).matchWord "async".toList = some (next.extended b) := by
        rw [matchWord_extended hc hasync, hfound]
        rfl
      rw [← readsArrow_extended_iff hnext.skipWhiteSpace, ← skipWhiteSpace_extended hnext] at h
      exact .asyncArrow ((hword hfound).2 hplain) hextended h
    | member hplain hnone h =>
      exact .member ((hmember h).2 hplain) ((lacksAsyncArrow_extended_iff hc h).2 hnone)
        ((readsMember_extended_iff hc).2 h)

end

end CallSignature
