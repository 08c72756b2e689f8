/-
CallSignature.Proofs.Description.PrivateFields — a constructor behind a
private field.

The name of a private field is a number sign with a word behind it, and a
cursor reads both as one name.  The search for a constructor looks back over
the word alone.  So a private field whose word is one of the modifiers is
taken for that modifier, and the constructor behind it for a method; behind
any other private field it is found (`ofSource_fieldSource`).

The body of such a class opens parentheses only in the list of the
constructor, and then there is one place where a constructor can stand
(`StandsIn.eq_of_only`).  It remains to ask what may stand in front of it.
-/
import CallSignature.Proofs.Description.Names
import CallSignature.Proofs.Head.ClassRecognition

namespace CallSignature

open Unicode

/-! ## Bodies with one place for a constructor -/

section

variable {front params behind : Text}

theorem trimEnd_constructorWord (a : Text) :
    Text.trimEnd (a ++ constructorWord) = a ++ constructorWord := by
  refine Text.trimEnd_eq_self fun c hc => ?_
  have hlast : constructorWord.getLast? = some 'r' := by decide
  rw [List.getLast?_append, hlast] at hc
  obtain rfl := Option.some.inj hc
  decide

/-- If parentheses are opened neither before a group nor behind it, no other
orderly front has a parenthesis behind it. -/
theorem eq_of_only_group {a a' inner t : Text} (ha : Orderly a) (ha' : Orderly a')
    (hinner : Orderly inner) (hlacks : '(' ∉ a) (hbehind : '(' ∉ behind)
    (h : a ++ '(' :: (inner ++ ')' :: behind) = a' ++ '(' :: t) : a = a' := by
  rcases List.append_eq_append_iff.1 h with ⟨u, rfl, hrest⟩ | ⟨u, rfl, hrest⟩
  · cases u with
    | nil => exact (List.append_nil a).symm
    | cons c u =>
      -- the group would be closed, and another parenthesis opened behind it
      obtain ⟨rfl, htail⟩ := List.cons.inj hrest
      obtain ⟨inner', rest, rfl, hinner'⟩ :=
        exists_closer_of_orderly closerOf?_round (ha'.of_append_left ha)
      have hgroup : inner ++ ')' :: behind = inner' ++ ')' :: (rest ++ '(' :: t) := by
        simpa using htail
      obtain ⟨-, rfl⟩ := eq_of_closer closerOf?_round hinner hinner' hgroup
      exact absurd (by simp) hbehind
  · cases u with
    | nil => exact List.append_nil a'
    | cons c u =>
      obtain ⟨rfl, -⟩ := List.cons.inj hrest
      exact absurd (by simp) hlacks

/-- If parentheses are opened neither before the word nor behind the list, a
constructor can stand nowhere else. -/
theorem StandsIn.eq_of_only {before space params' : Text} (hfront : Orderly front)
    (hparams : Orderly params) (hlacks : '(' ∉ front) (hbehind : '(' ∉ behind)
    (h : StandsIn (front ++ (constructorWord ++ '(' :: (params ++ ')' :: behind)))
      before space params') :
    before = front := by
  obtain ⟨between, after, -, heq⟩ := h.opens
  have hword : '(' ∉ constructorWord := by decide
  have hsame : front ++ constructorWord = before ++ constructorWord ++ space := by
    refine eq_of_only_group (t := params' ++ ')' :: (between ++ '{' :: after))
      (hfront.append orderly_constructorWord)
      ((h.outside.append orderly_constructorWord).append (orderly_of_isBlank h.spaced)) hparams
      (by simp [hlacks, hword]) hbehind ?_
    simpa using heq
  have htrim := congrArg Text.trimEnd hsame
  rw [Text.trimEnd_append_of_isBlank _ h.spaced, trimEnd_constructorWord,
    trimEnd_constructorWord] at htrim
  exact (List.append_cancel_right htrim).symm

/-- What stands in front of the one place decides whether a constructor is
found. -/
theorem isFirstIn_of_only {between after : Text} (hfront : Orderly front)
    (hparams : Orderly params) (hlacks : '(' ∉ front) (hbetween : between.isBlank = true)
    (hbehind : '(' ∉ between ++ '{' :: after) (start : Nat) :
    IsFirstIn
      (front ++ (constructorWord ++ '(' :: (params ++ ')' :: (between ++ '{' :: after)))) start
      (if endsWord front && endsMember front then
        some ⟨params, start + Text.width (front ++ constructorWord ++ ['('])⟩
      else none) := by
  cases hplace : endsWord front && endsMember front with
  | true =>
    obtain ⟨hword, hmember⟩ := Bool.and_eq_true_iff.1 hplace
    obtain ⟨hcalled, hmodified⟩ := endsMember_iff.1 hmember
    refine ⟨front, ⟨[], ⟨rfl, ⟨between, after, hbetween, by simp⟩, hfront, hparams,
      endsWord_iff.1 hword, hcalled, hmodified⟩, by simp⟩, fun other space params' h => ?_⟩
    rw [h.eq_of_only hfront hparams hlacks hbehind]
  | false =>
    intro before space params' h
    obtain rfl := h.eq_of_only hfront hparams hlacks hbehind
    rw [endsWord_iff.2 h.begins, endsMember_iff.2 ⟨h.not_called, h.not_modified⟩] at hplace
    cases hplace

end

/-! ## Words in front of a constructor -/

theorem contains_operators_eq_false {c : Char} (h : isNameContinue c = true) :
    operators.contains c = false := by
  have hall : operators.all (fun c => !isNameContinue c) = true := by decide
  refine Bool.eq_false_iff.2 fun hmem => ?_
  have hc := List.all_eq_true.1 hall c (List.contains_iff_mem.1 hmem)
  rw [h] at hc
  cases hc

/-- Of a word in front it is asked only whether it is a modifier, and not what
stands in front of the word. -/
theorem endsMember_word {l w space : Text}
    (hl : ∀ c, l.getLast? = some c → isNameContinue c = false) (hne : w ≠ [])
    (hw : ∀ c ∈ w, isNameContinue c = true) (hspace : space.isBlank = true) :
    endsMember (l ++ w ++ space) = !isMemberModifier w := by
  have hlast : (l ++ w).getLast? = some (w.getLast hne) := by
    rw [List.getLast?_append, List.getLast?_eq_some_getLast hne]
    rfl
  have hname := hw _ (List.getLast_mem hne)
  have htrim : Text.trimEnd (l ++ w ++ space) = l ++ w := by
    rw [Text.trimEnd_append_of_isBlank _ hspace]
    refine Text.trimEnd_eq_self fun c hc => ?_
    obtain rfl := Option.some.inj (hlast.symm.trans hc)
    exact isWhiteSpace_of_isNameContinue hname
  rw [endsMember, htrim, (lastWord_eq_iff hw).2 ⟨l, rfl, hl⟩, hlast, Option.any_some,
    contains_operators_eq_false hname, Bool.not_false, Bool.and_true]

/-! ## Classes with a private field -/

/-- A class with a private field and a constructor. -/
def fieldSource (w p : Text) : Text :=
  r"class A { #".toList ++ w ++ "\nconstructor(".toList ++ p ++ r") {} }".toList

/-- What stands before the word of the constructor in the body. -/
def fieldFront (w : Text) : Text :=
  ' ' :: '#' :: w ++ ['\n']

/-- The class, by its parts. -/
def fieldClass (w p : Text) : WrittenClass where
  name := some "A".toList
  superclass := none
  body := fieldFront w ++ (constructorWord ++ '(' :: (p ++ ')' :: [' ', '{', '}', ' ']))

theorem before_fieldClass (w p : Text) : (fieldClass w p).before = r"class A {".toList := by
  show wordRow ["class".toList, "A".toList] ++ ['{'] = _
  decide

theorem text_fieldClass (w p : Text) : (fieldClass w p).text = fieldSource w p := by
  have hstart : r"class A { #".toList = r"class A {".toList ++ [' ', '#'] := by decide
  have hword : "\nconstructor(".toList = ['\n'] ++ (constructorWord ++ ['(']) := by decide
  have hend : r") {} }".toList = [')', ' ', '{', '}', ' ', '}'] := by decide
  unfold fieldSource WrittenClass.text
  rw [before_fieldClass, hstart, hword, hend]
  generalize r"class A {".toList = start
  simp [fieldClass, fieldFront]

/-- No source that ends like this says that it is native. -/
theorem isNative_curly (t : Text) : isNative (t ++ r") {} }".toList) = false := by
  have hend : r") {} }".toList = ") {} ".toList ++ ['}'] := by decide
  have hbody : ") {} ".toList = r") {".toList ++ ['}'] ++ [' '] := by decide
  have hself : ∀ a : Text, Text.trimEnd (a ++ ['}']) = a ++ ['}'] := fun a =>
    Text.trimEnd_eq_self fun c hc => by
      rw [List.getLast?_concat] at hc
      obtain rfl := Option.some.inj hc
      decide
  refine Bool.eq_false_iff.2 fun h => ?_
  obtain ⟨inner, body, hs, hinner⟩ := exists_of_isNative h
  rw [hend, ← List.append_assoc, hself] at hs
  have hspace : Text.isBlank [' '] = true := by decide
  rw [← List.append_cancel_right hs, hbody, ← List.append_assoc, ← List.append_assoc,
    Text.trimEnd_append_of_isBlank _ hspace, hself] at hinner
  have hlast := congrArg List.getLast? hinner
  rw [List.getLast?_concat, List.getLast?_append,
    show "[native code]".toList.getLast? = some ']' by decide] at hlast
  cases hlast

section

variable {w p : Text}

/-- The number sign and the word are one name. -/
theorem IsReadable.isWord_private (h : IsReadable w) : IsWord ('#' :: w) := by
  cases w with
  | nil => cases h.1
  | cons c rest =>
    have htake : (c :: rest).takeWhile isNameContinue = c :: rest :=
      List.takeWhile_eq_self_iff.2 (List.all_eq_true.1 h.2)
    have hstart : (c :: rest).head?.any isNameStart = true := h.1
    rw [IsWord, Cursor.name?, htake, hstart]
    rfl

theorem orderly_fieldFront (hw : IsReadable w) : Orderly (fieldFront w) :=
  Orderly.cons (c := ' ') (by decide)
    ((orderly_name hw.isWord_private).append (orderly_of_isBlank (t := ['\n']) (by decide)))

theorem isMarkup_fieldFront (hw : IsReadable w) : IsMarkup (fieldFront w) :=
  (IsMarkup.append (a := [' ']) (by decide) hw.isWord_private.isMarkup).append
    (b := ['\n']) (by decide)

theorem not_mem_fieldFront (hw : IsReadable w) : '(' ∉ fieldFront w := by
  have hname := not_mem_name hw.isWord_private (show '(' ∈ nonNameChars by decide) (by decide)
  simpa [fieldFront] using hname

/-- A constructor may stand behind the field unless its word is a modifier. -/
theorem endsMember_fieldFront (hw : IsReadable w) :
    (endsWord (fieldFront w) && endsMember (fieldFront w)) = !isMemberModifier w := by
  have hne : w ≠ [] := by
    rintro rfl
    cases hw.1
  have hword : endsWord (fieldFront w) = true := by
    rw [endsWord, fieldFront, List.getLast?_concat]
    decide
  have hsharp : isNameContinue '#' = false := isNameContinue_of_nonName (by decide)
  have hbreak : Text.isBlank ['\n'] = true := by decide
  rw [hword, Bool.true_and]
  exact endsMember_word (l := [' ', '#']) (by simp [hsharp]) hne
    (List.all_eq_true.1 hw.2) hbreak

theorem wellFormed_fieldClass (hw : IsReadable w) (hp : Orderly p)
    (hclean : withoutComments p = .ok p) : (fieldClass w p).WellFormed where
  name v hv := by
    obtain rfl := Option.some.inj hv
    decide
  superclass := nofun
  body := by
    have hlist : Orderly ('(' :: p ++ [')']) := hp.group closerOf?_round
    have hbehind : Orderly [' ', '{', '}', ' '] := by decide
    have hbody := (orderly_fieldFront hw).append
      (orderly_constructorWord.append (hlist.append hbehind))
    simpa [fieldClass] using hbody
  clean := by
    have hword : IsMarkup (constructorWord ++ ['(']) := by decide
    have hbehind : IsMarkup [')', ' ', '{', '}', ' '] := by decide
    have hlist : Cleans (some ')') p p := .of_clean hp.quiet hclean ⟨by decide, by decide⟩
    have hbody := ((((isMarkup_fieldFront hw).append hword).cleans _).append
      (hlist.append (b := [')', ' ', '{', '}', ' ']) (hbehind.cleans none))).withoutComments_eq
    simpa [fieldClass] using hbody

/-- The constructor behind the field is the first of the class, or there is
none. -/
theorem isFirstIn_fieldClass (hw : IsReadable w) (hp : Orderly p) :
    IsFirstIn (fieldClass w p).body (fieldClass w p).before.width
      (if isMemberModifier w then none else some ⟨p, 24 + w.width⟩) := by
  have hbehind : '(' ∉ [' '] ++ '{' :: ['}', ' '] := by decide
  have hfirst := isFirstIn_of_only (orderly_fieldFront hw) hp (not_mem_fieldFront hw)
    (show Text.isBlank [' '] = true by decide) hbehind (fieldClass w p).before.width
  have hwidth : (fieldClass w p).before.width
      + Text.width (fieldFront w ++ constructorWord ++ ['(']) = 24 + w.width := by
    have hbefore : Text.width r"class A {".toList = 9 := by decide
    have hword : constructorWord.width = 11 := by decide
    rw [before_fieldClass, hbefore, fieldFront]
    simp only [Text.width_append, Text.width_cons, Text.width_nil, hword,
      show Char.utf8Size ' ' = 1 from rfl, show Char.utf8Size '#' = 1 from rfl,
      show Char.utf8Size '\n' = 1 from rfl, show Char.utf8Size '(' = 1 from rfl]
    omega
  rw [hwidth, endsMember_fieldFront hw] at hfirst
  cases hmodifier : isMemberModifier w <;> rw [hmodifier] at hfirst <;> exact hfirst

end

/-- The constructor is found unless the word of the private field is one of
the modifiers. -/
theorem ofSource_fieldSource {w p : Text} (hw : IsReadable w) (hp : Orderly p)
    (hclean : withoutComments p = .ok p) :
    Declaration.ofSource (fieldSource w p)
      = .ok (.ofClass
        { name := "A".toList
          superclass := none
          constructor := if isMemberModifier w then none else some ⟨p, 24 + w.width⟩ }) := by
  have hclass := wellFormed_fieldClass hw hp hclean
  have hnative : isNative (fieldSource w p) = false := isNative_curly _
  have hblank : (fieldSource w p).isBlank = false := by
    rw [← text_fieldClass, WrittenClass.text, before_fieldClass]
    rfl
  have hclean' : withoutComments (fieldSource w p) = .ok (fieldSource w p) := by
    rw [← text_fieldClass]
    exact (hclass.cleans none).withoutComments_eq
  obtain ⟨found, hfound, hfirst⟩ := hclass.exists_ofCode []
  rw [List.append_nil, text_fieldClass] at hfound
  rw [ofSource_of_withoutComments hblank hnative hclean', hfound,
    hfirst.eq (isFirstIn_fieldClass hw hp)]
  rfl

/-- The class is described without the parameters of its constructor. -/
example :
    (describeText (fieldSource "get".toList "a".toList)).map (·.parameters) = .ok [] := by
  decide

/-- A private field whose word is a modifier, and one whose word begins like
one. -/
theorem ofSource_fieldSource_statics :
    Declaration.ofSource (fieldSource "static".toList "a, b".toList)
        = .ok (.ofClass { name := "A".toList, superclass := none, constructor := none }) ∧
      Declaration.ofSource (fieldSource "statics".toList "a, b".toList)
        = .ok (.ofClass
          { name := "A".toList, superclass := none
            constructor := some ⟨"a, b".toList, 31⟩ }) := by
  have horderly : Orderly "a, b".toList := by decide
  have hclean : withoutComments "a, b".toList = .ok "a, b".toList := by decide
  exact ⟨ofSource_fieldSource (w := "static".toList) (by decide) horderly hclean,
    ofSource_fieldSource (w := "statics".toList) (by decide) horderly hclean⟩

/-- Not every constructor behind a private field is found. -/
theorem not_forall_ofSource_fieldSource :
    ¬ ∀ w p, IsReadable w → Orderly p → withoutComments p = .ok p →
      ∃ head list, Declaration.ofSource (fieldSource w p) = .ok (.ofClass head) ∧
        head.constructor = some list ∧ list.text = p := by
  intro h
  obtain ⟨head, list, hsource, hlist, -⟩ := h "static".toList "a".toList (by decide)
    (by decide) (by decide +kernel)
  have hrefused : Declaration.ofSource (fieldSource "static".toList "a".toList)
      = .ok (.ofClass { name := "A".toList, superclass := none, constructor := none }) := by
    decide
  obtain rfl := Declaration.ofClass.inj (Except.ok.inj (hsource.symm.trans hrefused))
  cases hlist

end CallSignature
