/-
CallSignature.Proofs.Description.Bodies — a description does not depend on the body.

The body of a callable begins behind the mark that ends its head: behind the
parenthesis of a function with its word, behind an arrow, behind the bracket
of a method (`Head.bodyStart`).  Whatever stands there instead, the source
declares the same callable and has the same description, as long as its
comments are closed and it does not say that it is native
(`ofSource_body`).

A head is read from the cleaned source.  There nothing behind the mark matters
(`ofCode_of_readsTo`), and the mark, which is no part of a comment, cuts the
source into a front that is cleaned as before and the rest (`exists_front`).
-/
import CallSignature.Proofs.Description.Comments
import CallSignature.Proofs.Head.Extent
import CallSignature.Proofs.Head.Faithful

namespace CallSignature

open Cursor Unicode

/-! ## Where a body begins -/

/-- Whether the callable is declared by the word `function`, which stands
behind the modifiers. -/
def saysFunction (code : Text) : Bool :=
  ((modifiers false (Cursor.ofText code).skipWhiteSpace).2.matchWord "function".toList).isSome

namespace Head

/-- The position behind the parameter list in the cleaned source, and behind
its parenthesis if it has one. -/
def listEnd (code : Text) (head : Head) : Nat :=
  let last := head.parameters.offset + head.parameters.text.width
  if (code.dropBytes last).head? = some ')' then last + 1 else last

/-- The mark that ends the head. -/
def endMark (code : Text) (head : Head) : Text :=
  if head.form.isArrow then ['=', '>'] else if saysFunction code then [')'] else ['{']

/-- The position behind the mark that ends the head in the cleaned source, or
in the source, which is as wide. -/
def bodyStart (code : Text) (head : Head) : Nat :=
  let space := Text.width ((code.dropBytes (head.listEnd code)).takeWhile isWhiteSpace)
  if head.form.isArrow then head.listEnd code + space + 2
  else if saysFunction code then head.listEnd code
  else head.listEnd code + space + 1

end Head

/-! ## Behind a parameter list -/

section

variable {a : Text} {c d e : Cursor} {list : ParameterList} {head : Head}

theorem listEnd_of_ofCursor (h : ParameterList.ofCursor c = .ok (head.parameters, d)) :
    head.listEnd c.text = d.offset := by
  obtain ⟨hpass, -, hoffset⟩ := ofCursor_eq_ok_iff.1 h
  -- the cursor before the closing parenthesis
  have hinner : Passes ('(' :: head.parameters.text) c
      ⟨('(' :: head.parameters.text).reverse ++ c.behind, ')' :: d.rest⟩ :=
    ⟨by rw [hpass.rest]; simp, rfl⟩
  have hlast : head.parameters.offset + head.parameters.text.width
      = Cursor.offset ⟨('(' :: head.parameters.text).reverse ++ c.behind, ')' :: d.rest⟩ := by
    rw [hinner.offset, hoffset, Text.width_cons, Nat.add_assoc]
    rfl
  have hend : d.offset = head.parameters.offset + head.parameters.text.width + 1 := by
    rw [hpass.offset, width_group closerOf?_round, hoffset, ← Nat.add_assoc, ← Nat.add_assoc]
  rw [Head.listEnd, hlast, ← hinner.text_eq, dropBytes_offset, ← hlast, hend]
  rfl

theorem listEnd_of_passes (h : Passes head.parameters.text c d)
    (hoffset : head.parameters.offset = c.offset) (hd : d.rest.head? ≠ some ')') :
    head.listEnd c.text = d.offset := by
  rw [Head.listEnd, hoffset, ← h.offset, ← h.text_eq, dropBytes_offset, if_neg hd]

theorem listEnd_of_ofArrow (h : ParameterList.ofArrow c = .ok (some (head.parameters, d)))
    (hmark : d.skipWhiteSpace.matchText ['=', '>'] = some e) :
    head.listEnd c.text = d.offset := by
  rcases ofArrow_eq_some_iff.1 h with hlist | ⟨-, hname, hoffset⟩
  · exact listEnd_of_ofCursor hlist
  · refine listEnd_of_passes (identifier_eq_some hname).2 hoffset fun hparen => ?_
    -- white space stands before the arrow, and nothing else
    obtain ⟨rest, hrest⟩ := List.head?_eq_some_iff.1 hparen
    have hspace : isWhiteSpace ')' = false := by decide
    have harrow := (passes_of_matchText hmark).rest
    rw [rest_skipWhiteSpace, hrest, Text.trimStart, List.dropWhile_cons, hspace,
      if_neg Bool.false_ne_true] at harrow
    exact absurd (List.cons.inj harrow).1 (by decide)

/-- The body begins behind the white space and the mark behind the list. -/
theorem bodyStart_of_mark {mark : Text} (hlist : head.listEnd d.text = d.offset)
    (hmark : Passes mark d.skipWhiteSpace e) :
    (head.form.isArrow = true → mark.width = 2 → head.bodyStart d.text = e.offset) ∧
      (head.form.isArrow = false → saysFunction d.text = false → mark.width = 1 →
        head.bodyStart d.text = e.offset) := by
  rw [Head.bodyStart, hlist, dropBytes_offset, hmark.offset, (passes_skipWhiteSpace d).offset]
  refine ⟨fun harrow hwidth => ?_, fun harrow hfunction hwidth => ?_⟩
  · rw [if_pos harrow, hwidth]
  · rw [harrow, hfunction, hwidth]
    rfl

/-! ## Marks -/

/-- The second cursor stands where the body begins, behind the mark of the
head, and the mark is part of no literal. -/
structure Head.EndsAt (code : Text) (head : Head) (c d : Cursor) : Prop where
  bodyStart_eq : head.bodyStart code = d.offset
  mark : ∃ e, c.Reaches e ∧ Passes (head.endMark code) e d

theorem Cursor.Reaches.endsAt {code : Text} (h : c.Reaches d) (hd : head.EndsAt code d e) :
    head.EndsAt code c e := by
  obtain ⟨f, hf, hmark⟩ := hd.mark
  exact ⟨hd.bodyStart_eq, f, h.trans hf, hmark⟩

theorem endsAt_of_readsArrow {isAsync : Bool} (h : ReadsArrow isAsync c head d) :
    head.EndsAt c.text c d := by
  obtain ⟨list, e, hlist, hmark, rfl⟩ := h
  have hreach := reaches_of_ofArrow hlist
  have hpass := passes_of_matchText hmark
  refine ⟨?_, e.skipWhiteSpace, hreach.trans (reaches_skipWhiteSpace e), hpass⟩
  rw [← hreach.text_eq]
  refine (bodyStart_of_mark ?_ hpass).1 rfl rfl
  rw [hreach.text_eq]
  exact listEnd_of_ofArrow hlist hmark

theorem endsAt_of_readsFunction {isAsync : Bool} (h : ReadsFunction isAsync c head d)
    (hfunction : saysFunction c.text = true) : head.EndsAt c.text c d := by
  obtain ⟨list, hlist, rfl⟩ := h
  have hreach := ((reaches_generatorMark c).trans (reaches_getD_identifier _)).trans
    (reaches_skipWhiteSpace _)
  obtain ⟨hpass, horderly, -⟩ := ofCursor_eq_ok_iff.1 hlist
  refine hreach.endsAt ⟨?_, ⟨('(' :: list.text).reverse ++ _, ')' :: d.rest⟩,
    ⟨'(' :: list.text, ?_, ⟨by simp [hpass.rest], rfl⟩⟩, ?_⟩
  · rw [← hreach.text_eq, Head.bodyStart, hreach.text_eq, if_neg Bool.false_ne_true, hfunction,
      if_pos rfl, ← hreach.text_eq]
    exact listEnd_of_ofCursor hlist
  · exact (quiet_singleton (show isQuote '(' = false by decide)).append horderly.quiet
  · rw [Head.endMark, if_neg Bool.false_ne_true, hfunction, if_pos rfl]
    exact ⟨rfl, by simp [hpass.behind]⟩

theorem endsAt_of_readsMethod {isAsync : Bool} (h : ReadsMethod isAsync c head d)
    (hfunction : saysFunction c.text = false) : head.EndsAt c.text c d := by
  obtain ⟨name, e, list, f, hname, hlist, hbody, rfl⟩ := h
  have hbefore := ((reaches_generatorMark c).trans (reaches_of_memberName hname)).trans
    (reaches_skipWhiteSpace e)
  have hreach := hbefore.trans (listAhead_of_ofCursor hlist).2
  have hpass := passes_of_matchChar hbody
  refine ⟨?_, f.skipWhiteSpace, hreach.trans (reaches_skipWhiteSpace f), ?_⟩
  · rw [← hreach.text_eq] at hfunction ⊢
    refine (bodyStart_of_mark ?_ hpass).2 rfl hfunction rfl
    rw [hreach.text_eq, ← hbefore.text_eq]
    exact listEnd_of_ofCursor hlist
  · rw [Head.endMark, if_neg Bool.false_ne_true, hfunction, if_neg Bool.false_ne_true]
    exact hpass

/-- A head ends where the body begins. -/
theorem endsAt_of_readsTo {code : Text}
    (h : head.ReadsTo (Cursor.ofText code).skipWhiteSpace d) :
    head.EndsAt code (Cursor.ofText code).skipWhiteSpace d := by
  have hcode : (Cursor.ofText code).skipWhiteSpace.text = code :=
    (reaches_skipWhiteSpace (Cursor.ofText code)).text_eq
  cases h with
  | arrow h =>
    have hends := endsAt_of_readsArrow h
    rwa [hcode] at hends
  | @asyncArrow next hplain hword h =>
    have hreach := (reaches_of_matchWord (by decide) hword).trans (reaches_skipWhiteSpace next)
    have hends := hreach.endsAt (endsAt_of_readsArrow h)
    rwa [hreach.text_eq, hcode] at hends
  | member hplain hasync h =>
    have hmodifiers := reaches_modifiers false (Cursor.ofText code).skipWhiteSpace
    unfold ReadsMember at h
    cases hword : (modifiers false (Cursor.ofText code).skipWhiteSpace).2.matchWord
        "function".toList with
    | none =>
      have hfunction : saysFunction code = false := by rw [saysFunction, hword]; rfl
      rw [hword] at h
      have hends := hmodifiers.endsAt
        (endsAt_of_readsMethod h (by rwa [hmodifiers.text_eq, hcode]))
      rwa [hmodifiers.text_eq, hcode] at hends
    | some next =>
      have hfunction : saysFunction code = true := by rw [saysFunction, hword]; rfl
      rw [hword] at h
      have hreach := (hmodifiers.trans (reaches_of_matchWord (by decide) hword)).trans
        (reaches_skipWhiteSpace next)
      have hends := hreach.endsAt
        (endsAt_of_readsFunction h (by rwa [hreach.text_eq, hcode]))
      rwa [hreach.text_eq, hcode] at hends

end

/-! ## Other bodies -/

section

variable {b code front : Text} {c d : Cursor} {head : Head}

theorem classStart?_extended (hc : c.IsSealed) (b : Text) :
    classStart? (c.extended b) = (classStart? c).map (extended b) := by
  have hclass : LacksMarks "class".toList := by decide
  rw [classStart?, classStart?, matchWord_extended hc hclass]
  cases hword : c.matchWord "class".toList with
  | none => rfl
  | some next =>
    have hnext := hc.matchWord hclass hword
    simp only [Option.map_some, skipWhiteSpace_extended hnext,
      peek_extended hnext.skipWhiteSpace]
    split <;> rfl

/-- What a cleaned source declares, if it declares a callable. -/
theorem ofCode_eq_callable_iff : Declaration.ofCode code = .ok (.callable head) ↔
    classStart? (Cursor.ofText code).skipWhiteSpace = none ∧
      ∃ d, head.ReadsTo (Cursor.ofText code).skipWhiteSpace d := by
  rw [← head_eq_ok_iff, Declaration.ofCode]
  constructor
  · intro h
    split at h
    · obtain ⟨found, -, heq⟩ := map_eq_ok h
      cases heq
    · rename_i hclass
      obtain ⟨found, hfound, heq⟩ := map_eq_ok h
      obtain rfl := Declaration.callable.inj heq
      exact ⟨hclass, hfound⟩
  · rintro ⟨hclass, hhead⟩
    rw [hclass, hhead]
    rfl

/-- A cleaned source declares the same callable whatever it goes on with
behind the mark that ends the head. -/
theorem ofCode_of_readsTo (hfront : (Cursor.ofText front).IsSealed)
    (hclass : classStart? (Cursor.ofText (front ++ b)).skipWhiteSpace = none)
    (h : head.ReadsTo (Cursor.ofText (front ++ b)).skipWhiteSpace ⟨front.reverse, b⟩)
    (b' : Text) : Declaration.ofCode (front ++ b') = .ok (.callable head) := by
  have hstart := hfront.skipWhiteSpace
  have hskip : ∀ rest, (Cursor.ofText (front ++ rest)).skipWhiteSpace
      = (Cursor.ofText front).skipWhiteSpace.extended rest := skipWhiteSpace_extended hfront
  have hend : ∀ rest, (⟨front.reverse, rest⟩ : Cursor) = extended rest ⟨front.reverse, []⟩ :=
    fun _ => rfl
  rw [hskip, classStart?_extended hstart, Option.map_eq_none_iff] at hclass
  rw [hskip, hend b, readsTo_extended_iff hstart] at h
  refine ofCode_eq_callable_iff.2 ⟨?_, ⟨front.reverse, b'⟩, ?_⟩
  · rw [hskip, classStart?_extended hstart, hclass]
    rfl
  · rw [hskip, hend b', readsTo_extended_iff hstart]
    exact h

/-- The mark of a head ends it, in the sense of sealed cursors too. -/
theorem exists_endMark (code : Text) (head : Head) : ∃ front, ∃ m ∈ endMarks,
    head.endMark code = front ++ [m] ∧ isVisible m = true ∧ m ≠ '/' := by
  unfold Head.endMark
  split
  · exact ⟨['='], '>', by decide, rfl, by decide, by decide⟩
  · split
    · exact ⟨[], ')', by decide, rfl, by decide, by decide⟩
    · exact ⟨[], '{', by decide, rfl, by decide, by decide⟩

theorem isVisible_of_mem_endMark (code : Text) (head : Head) :
    ∀ c ∈ head.endMark code, isVisible c = true ∧ isQuote c = false := by
  have hall : (head.endMark code).all (fun c => isVisible c && !isQuote c) = true := by
    unfold Head.endMark
    split
    · decide
    · split <;> decide
  exact fun c hc => by simpa using List.all_eq_true.1 hall c hc

/-- The source up to the mark is cleaned as it is here, whatever it goes on
with, and it ends in the mark as well. -/
theorem exists_before_endMark {source t rest : Text} (ht : Quiet t)
    (h : withoutComments source = .ok (t ++ head.endMark code ++ rest)) :
    ∃ before, source.takeBytes (t ++ head.endMark code).width = before ++ head.endMark code ∧
      before.width = t.width ∧
      ∀ body cleaned, withoutComments (before ++ head.endMark code ++ body) = .ok cleaned →
        ∃ rest', cleaned = t ++ head.endMark code ++ rest' := by
  obtain ⟨front, m, -, hmark, hvisible, hslash⟩ := exists_endMark code head
  have hne : head.endMark code ≠ [] := by simp [hmark]
  obtain ⟨before, behind, hsource, hbefore⟩ :=
    exists_word ht hne (isVisible_of_mem_endMark code head) h
  have htake :
      source.takeBytes (t ++ head.endMark code).width = before ++ head.endMark code := by
    rw [Text.width_append, ← hbefore, ← Text.width_append, hsource, Text.takeBytes_append]
  have hcut : t ++ head.endMark code ++ rest = (t ++ front) ++ m :: rest := by simp [hmark]
  rw [hcut] at h
  obtain ⟨a, b, hsource', ha, hclean⟩ := exists_front hvisible hslash h
  -- the two ways to cut the source cut it at the same place
  have hwidth : (t ++ head.endMark code).width = (a ++ [m]).width := by
    rw [Text.width_append a, ha, hmark, ← List.append_assoc, Text.width_append]
  have htake' : source.takeBytes (t ++ head.endMark code).width = a ++ [m] := by
    rw [hwidth, hsource', show a ++ m :: b = (a ++ [m]) ++ b by simp, Text.takeBytes_append]
  refine ⟨before, htake, hbefore, fun body cleaned hcleaned => ?_⟩
  rw [← htake, htake', List.append_assoc] at hcleaned
  obtain ⟨rest', rfl⟩ := hclean body cleaned hcleaned
  exact ⟨rest', by simp [hmark]⟩

theorem isBlank_of_endMark (code : Text) (head : Head) (before body : Text) :
    Text.isBlank (before ++ head.endMark code ++ body) = false := by
  obtain ⟨front, m, hm, hmark, -, -⟩ := exists_endMark code head
  refine Bool.eq_false_iff.2 fun hblank => ?_
  have hspace := Text.isBlank_iff.1 hblank m (by simp [hmark])
  rw [stopsAtMarks_isWhiteSpace m hm] at hspace
  cases hspace

theorem isSealed_endMark (code : Text) (head : Head) (t : Text) :
    (Cursor.ofText (t ++ head.endMark code)).IsSealed := by
  obtain ⟨front, m, hm, hmark, -, -⟩ := exists_endMark code head
  exact ⟨t ++ front, m, hm, by simp [ofText, hmark]⟩

end

/-- The callable that a source declares, and its description, do not depend on
what stands behind the mark that ends its head: that mark stands in the source
where the body begins, and behind it any body will do whose comments are
closed and which does not say that it is native. -/
theorem ofSource_body {source code : Text} {head : Head}
    (h : Declaration.ofSource source = .ok (.callable head))
    (hcode : withoutComments source = .ok code) :
    (∃ before, source.takeBytes (head.bodyStart code) = before ++ head.endMark code ∧
      Text.width (before ++ head.endMark code) = head.bodyStart code) ∧
    ∀ body cleaned,
      withoutComments (source.takeBytes (head.bodyStart code) ++ body) = .ok cleaned →
      isNative (source.takeBytes (head.bodyStart code) ++ body) = false →
      Declaration.ofSource (source.takeBytes (head.bodyStart code) ++ body)
          = .ok (.callable head) ∧
        describeText (source.takeBytes (head.bodyStart code) ++ body)
          = describeText source := by
  obtain ⟨_, hclean, hdeclared⟩ := ofSource_eq_ok h
  obtain rfl := Except.ok.inj (hcode.symm.trans hclean)
  obtain ⟨hclass, d, hreads⟩ := ofCode_eq_callable_iff.1 hdeclared
  obtain ⟨hstart, e, hreach, hmark⟩ := endsAt_of_readsTo hreads
  obtain ⟨t, ht, hpass⟩ := (reaches_skipWhiteSpace (Cursor.ofText code)).trans hreach
  -- the cleaned source is the head, up to its mark, and a rest
  have hwhole := hpass.trans hmark
  have htext : code = t ++ head.endMark code ++ d.rest := hwhole.rest
  have hwidth : head.bodyStart code = (t ++ head.endMark code).width := by
    rw [hstart, hwhole.offset]
    exact Nat.zero_add _
  have hd : d = ⟨(t ++ head.endMark code).reverse, d.rest⟩ := by
    have heq := hwhole.eq hwhole.rest
    rwa [show (Cursor.ofText code).behind = [] from rfl, List.append_nil] at heq
  have hcut : withoutComments source = .ok (t ++ head.endMark code ++ d.rest) := by
    rw [← htext]
    exact hcode
  obtain ⟨before, htake, hbefore, hfront⟩ := exists_before_endMark ht hcut
  rw [hwidth, htake]
  refine ⟨⟨before, rfl, by rw [Text.width_append, hbefore, Text.width_append]⟩, ?_⟩
  intro body cleaned hcleaned hnative
  obtain ⟨rest, rfl⟩ := hfront body cleaned hcleaned
  have hdeclared : Declaration.ofSource (before ++ head.endMark code ++ body)
      = .ok (.callable head) := by
    rw [ofSource_of_withoutComments (isBlank_of_endMark code head before body) hnative
      hcleaned]
    refine ofCode_of_readsTo (b := d.rest) (isSealed_endMark code head t) ?_ ?_ rest
    · rw [← htext]
      exact hclass
    · rw [← htext, ← hd]
      exact hreads
  exact ⟨hdeclared, describe_congr (hdeclared.trans h.symm) {} Registry.empty {}⟩

/-- A method with comments in its head. -/
def commentedMethod : Text :=
  r"async /* ( */ run(a /* ) */, b) /* { */ { return a; }".toList

/-- The method without its comments. -/
def plainMethod : Text :=
  "async         run(a        , b)         { return a; }".toList

/-- The head of the method. -/
def runHead : Head :=
  { name := "run".toList
    form := { isAsync := true }
    parameters := ⟨"a        , b".toList, 18⟩ }

theorem ofSource_body_commentedMethod :
    commentedMethod.takeBytes 41 = r"async /* ( */ run(a /* ) */, b) /* { */ {".toList ∧
      Declaration.ofSource (commentedMethod.takeBytes 41 ++ r"'(' /* } */ )".toList)
        = .ok (.callable runHead) ∧
      describeText (commentedMethod.takeBytes 41 ++ r"'(' /* } */ )".toList)
        = describeText commentedMethod := by
  have hstart : runHead.bodyStart plainMethod = 41 := by decide +kernel
  have hbody := (@ofSource_body commentedMethod plainMethod runHead (by decide +kernel)
    (by decide +kernel)).2 r"'(' /* } */ )".toList
    r"async         run(a        , b)         {'('         )".toList
  rw [hstart] at hbody
  exact ⟨by decide +kernel, hbody (by decide +kernel) (by decide +kernel)⟩

end CallSignature
