/-
CallSignature.Proofs.Head.Members — functions and methods as they are written.

The reader tries a class first, an arrow next, an arrow behind `async` after
it and a member at last.  `OpensMember` collects what makes a text fall
through to the last of them; it survives every modifier that is put before
the text.  Behind the modifiers, the steps of `Head.function` and
`Head.method` are followed over a known text.
-/
import CallSignature.Proofs.Head.Words

namespace CallSignature

open Cursor Unicode

/-! ## Members -/

/-- Behind the word `async` there is no arrow, if the text begins with it. -/
def NoAsyncArrow (t : Text) : Prop :=
  ∀ k, Head.asyncArrow ⟨k, t⟩ = .ok none

/-- The text does not begin like a class. -/
def NoClass (t : Text) : Prop :=
  ∀ k, classStart? ⟨k, t⟩ = none

/-- The text begins like neither a class nor an arrow, so that it is read as
a function or a method. -/
structure OpensMember (t : Text) : Prop where
  begins : BeginsMember t
  noClass : NoClass t
  noArrow : NoArrow t
  noAsyncArrow : NoAsyncArrow t

/-- The asterisk of a generator. -/
def starMark (isGenerator : Bool) : Text :=
  if isGenerator then ['*'] else []

section

variable {k t w p s : Text} {words : List Text}

theorem noClass_mark {c : Char} (hc : c ≠ 'c') (t : Text) : NoClass (c :: t) := by
  intro k
  have hword : (⟨k, c :: t⟩ : Cursor).matchWord "class".toList = none :=
    matchWord_mark (by simpa using hc.symm) (by decide)
  rw [classStart?, hword]

theorem noClass_word (hw : IsWord w) (ht : EndsWord t)
    (h : w = "class".toList → t.trimStart.head? = some '(') : NoClass (w ++ t) := by
  intro k
  rw [classStart?, matchWord_word (by decide) (by decide) hw ht]
  by_cases hclass : w = "class".toList
  · have hpeek : (⟨w.reverse ++ k, t⟩ : Cursor).skipWhiteSpace.peek = '(' := by
      rw [peek, rest_skipWhiteSpace, List.headD_eq_head?_getD]
      simp only [h hclass, Option.getD_some]
    simp only [if_pos hclass, if_pos hpeek]
  · simp only [if_neg hclass]

theorem noAsyncArrow_star (t : Text) : NoAsyncArrow ('*' :: t) := by
  intro k
  have hword : (⟨k, '*' :: t⟩ : Cursor).matchWord "async".toList = none :=
    matchWord_mark (by decide) (by decide)
  rw [Head.asyncArrow, hword]

theorem noAsyncArrow_word (hw : IsWord w) (ht : EndsWord t)
    (h : w = "async".toList → NoArrow t.trimStart) : NoAsyncArrow (w ++ t) := by
  intro k
  rw [Head.asyncArrow, matchWord_word (by decide) (by decide) hw ht]
  by_cases hasync : w = "async".toList
  · rw [if_pos hasync]
    have hrest := rest_skipWhiteSpace ⟨w.reverse ++ k, t⟩
    dsimp only at hrest ⊢
    generalize (⟨w.reverse ++ k, t⟩ : Cursor).skipWhiteSpace = c at hrest ⊢
    obtain ⟨k', rest⟩ := c
    obtain rfl : rest = t.trimStart := hrest
    obtain ⟨d, hd⟩ := h hasync true k'
    rw [hd]
    rfl
  · rw [if_neg hasync]

theorem opensMember_star (t : Text) : OpensMember ('*' :: t) where
  begins := beginsMember_star t
  noClass := noClass_mark (by decide) t
  noArrow := noArrow_star t
  noAsyncArrow := noAsyncArrow_star t

/-- A word begins a member unless what follows it makes it the word `class`
of a class, the parameter of an arrow or the word `async` of one. -/
theorem opensMember_word (hw : IsWord w) (ht : EndsWord t)
    (hmark : t.trimStart.head? ≠ some '=')
    (hclass : w = "class".toList → t.trimStart.head? = some '(')
    (hasync : w = "async".toList → NoArrow t.trimStart) : OpensMember (w ++ t) where
  begins := beginsMember_word hw t
  noClass := noClass_word hw ht hclass
  noArrow := noArrow_word hw ht hmark
  noAsyncArrow := noAsyncArrow_word hw ht hasync

theorem OpensMember.modifier (hm : isMemberModifier w = true) (h : OpensMember t) :
    OpensMember (w ++ ' ' :: t) := by
  have hclass : w ≠ "class".toList := by
    rintro rfl
    cases hm
  refine opensMember_word (isWord_of_isMemberModifier hm) (endsWord_space t) ?_
    (fun heq => absurd heq hclass) fun _ => ?_
  · rw [h.begins.trimStart_eq]
    exact h.begins.head?_ne
  · rw [h.begins.trimStart_eq]
    exact h.noArrow

theorem OpensMember.row (hwords : ∀ m ∈ words, isMemberModifier m = true) (h : OpensMember t) :
    OpensMember (wordRow words ++ t) := by
  induction words with
  | nil => exact h
  | cons m words ih =>
    obtain ⟨hm, hwords⟩ := List.forall_mem_cons.1 hwords
    rw [wordRow_cons]
    exact (ih hwords).modifier hm

theorem OpensMember.ofCursor_eq (h : OpensMember t) (k : Text) :
    Head.ofCursor ⟨k, t⟩ = Head.member ⟨k, t⟩ := by
  obtain ⟨d, hd⟩ := h.noArrow false k
  rw [Head.ofCursor, hd]
  show (Head.asyncArrow ⟨k, t⟩ >>= _) = _
  rw [h.noAsyncArrow k]
  rfl

/-- What is read behind a row of modifiers is a function or a method. -/
theorem OpensMember.ofCursor_row (hwords : ∀ m ∈ words, isMemberModifier m = true)
    (h : OpensMember t) (hstop : StopsModifiers t) (k : Text) :
    Head.ofCursor ⟨k, wordRow words ++ t⟩
      = match (⟨(wordRow words).reverse ++ k, t⟩ : Cursor).matchWord "function".toList with
        | some next => Head.function (words.contains "async".toList) next.skipWhiteSpace
        | none => Head.method (words.contains "async".toList)
            ⟨(wordRow words).reverse ++ k, t⟩ := by
  have hmember := member_eq ⟨k, wordRow words ++ t⟩
  rw [modifiers_row hwords h.begins hstop, Bool.false_or] at hmember
  rw [(h.row hwords).ofCursor_eq]
  exact hmember

end

/-! ## Functions and methods -/

/-- The name of a function, with a space before it. -/
def spacedName : Option Text → Text
  | none => []
  | some w => ' ' :: w

section

variable {k s t w p : Text}

theorem generatorMark_starMark (isGenerator : Bool) (hs : s.isBlank = true)
    (ht : t.head?.any isWhiteSpace = false) (hstar : t.head? ≠ some '*') :
    generatorMark (⟨k, starMark isGenerator ++ (s ++ t)⟩ : Cursor).skipWhiteSpace
      = (isGenerator, ⟨(starMark isGenerator ++ s).reverse ++ k, t⟩) := by
  cases isGenerator with
  | true =>
    have hself : (⟨k, '*' :: (s ++ t)⟩ : Cursor).skipWhiteSpace = ⟨k, '*' :: (s ++ t)⟩ :=
      skipWhiteSpace_eq_self (head?_mark (by decide) _)
    have hskip : (⟨'*' :: k, s ++ t⟩ : Cursor).skipWhiteSpace = ⟨s.reverse ++ '*' :: k, t⟩ :=
      skipWhiteSpace_append hs ht
    simp [starMark, hself, generatorMark, matchChar, advance, hskip]
  | false =>
    have hskip : (⟨k, s ++ t⟩ : Cursor).skipWhiteSpace = ⟨s.reverse ++ k, t⟩ :=
      skipWhiteSpace_append hs ht
    simp [starMark, hskip, generatorMark, matchChar, hstar]

theorem IsWord.head (hw : IsWord w) (t : Text) :
    (w ++ t).head?.any isWhiteSpace = false ∧ (w ++ t).head? ≠ some '*' := by
  obtain ⟨c, rest, rfl, hspace, -, hstar, -⟩ := hw.exists_eq
  exact ⟨by simpa using hspace, by simpa using hstar⟩

theorem ofCursor_behind (a : Text) (hp : Orderly p) :
    ParameterList.ofCursor (⟨a.reverse ++ k, '(' :: (p ++ ')' :: t)⟩ : Cursor).skipWhiteSpace
      = .ok (⟨p, k.width + (a ++ ['(']).width⟩,
        ⟨('(' :: p ++ [')']).reverse ++ (a.reverse ++ k), t⟩) := by
  have hwidth : Text.width (a.reverse ++ k) + 1 = k.width + Text.width (a ++ ['(']) := by
    rw [Text.width_append, Text.width_append, Text.width_reverse, Nat.add_comm a.width,
      Nat.add_assoc]
    rfl
  rw [skipWhiteSpace_eq_self (head?_mark (by decide) _), ofCursor_list hp, hwidth]

/-- What stands behind the word `function` is read as it is written. -/
theorem function_eq_ok (isAsync isGenerator : Bool) {name : Option Text}
    (hname : ∀ w ∈ name, IsWord w) (hp : Orderly p) :
    Head.function isAsync (⟨k, starMark isGenerator ++ (spacedName name ++
        '(' :: (p ++ ')' :: t))⟩ : Cursor).skipWhiteSpace
      = .ok
        { name := name.getD []
          form := { isAsync, isGenerator }
          parameters :=
            ⟨p, k.width + (starMark isGenerator ++ spacedName name ++ ['(']).width⟩ } := by
  rw [function_eq_ok_iff]
  cases name with
  | none =>
    have hparen : ('(' :: (p ++ ')' :: t)).head?.any isWhiteSpace = false :=
      head?_mark (by decide) _
    have hmark := generatorMark_starMark (k := k) isGenerator
      (show Text.isBlank [] = true from rfl) hparen (by simp)
    rw [spacedName, hmark, identifier_mark (by decide)]
    exact ⟨_, _, ofCursor_behind _ hp, rfl⟩
  | some w =>
    have hw : IsWord w := hname w rfl
    obtain ⟨hspace, hstar⟩ := hw.head ('(' :: (p ++ ')' :: t))
    have hmark := generatorMark_starMark (k := k) isGenerator
      (show Text.isBlank [' '] = true by decide) hspace hstar
    have hbehind : w.reverse ++ ((starMark isGenerator ++ [' ']).reverse ++ k)
        = (starMark isGenerator ++ ' ' :: w).reverse ++ k := by simp
    rw [spacedName, show ' ' :: w ++ '(' :: (p ++ ')' :: t)
      = [' '] ++ (w ++ '(' :: (p ++ ')' :: t)) from rfl, hmark,
      identifier_word hw (endsWord_paren _), hbehind]
    exact ⟨_, _, ofCursor_behind _ hp, rfl⟩

/-- A method is read as it is written. -/
theorem method_eq_ok (isAsync isGenerator : Bool) (hw : IsWord w) (hp : Orderly p) :
    Head.method isAsync ⟨k, starMark isGenerator ++ (w ++
        '(' :: (p ++ ')' :: ' ' :: '{' :: t))⟩
      = .ok
        { name := w
          form := { isAsync, isGenerator }
          parameters := ⟨p, k.width + (starMark isGenerator ++ w ++ ['(']).width⟩ } := by
  obtain ⟨hspace, hstar⟩ := hw.head ('(' :: (p ++ ')' :: ' ' :: '{' :: t))
  have hfirst : (starMark isGenerator ++ (w ++ '(' :: (p ++ ')' :: ' ' :: '{' :: t))).head?.any
      isWhiteSpace = false := by
    cases isGenerator with
    | true => exact head?_mark (by decide) _
    | false => exact hspace
  have hmark := generatorMark_starMark (k := k) isGenerator
    (show Text.isBlank [] = true from rfl) hspace hstar
  rw [List.nil_append, List.append_nil, skipWhiteSpace_eq_self hfirst] at hmark
  have hbehind : w.reverse ++ ((starMark isGenerator).reverse ++ k)
      = (starMark isGenerator ++ w).reverse ++ k := by simp
  have hname : memberName (generatorMark ⟨k, starMark isGenerator ++ (w ++
      '(' :: (p ++ ')' :: ' ' :: '{' :: t))⟩).2
      = .ok (w, ⟨(starMark isGenerator ++ w).reverse ++ k,
        '(' :: (p ++ ')' :: ' ' :: '{' :: t)⟩) := by
    rw [hmark, memberName, identifier_word hw (endsWord_paren _), hbehind]
  refine method_eq_ok_iff.2 ⟨_, _, _, _, hname, ofCursor_behind _ hp, ?_, ?_⟩
  · rw [skipWhiteSpace_space (head?_mark (by decide) _)]
    rfl
  · rw [hmark]

theorem endsWord_spacedName (name : Option Text) (t : Text) :
    EndsWord (spacedName name ++ '(' :: t) := by
  cases name with
  | none => exact endsWord_paren t
  | some w => exact endsWord_space _

theorem isWord_function : IsWord "function".toList := by decide

/-- The word `function` begins a member, whatever name it has. -/
theorem opensMember_function (isGenerator : Bool) {name : Option Text}
    (hname : ∀ w ∈ name, IsWord w) (t : Text) :
    EndsWord (starMark isGenerator ++ (spacedName name ++ '(' :: t)) ∧
      OpensMember
        ("function".toList ++ (starMark isGenerator ++ (spacedName name ++ '(' :: t))) := by
  have hends : EndsWord (starMark isGenerator ++ (spacedName name ++ '(' :: t)) := by
    cases isGenerator with
    | true => exact endsWord_cons (by decide) _
    | false => exact endsWord_spacedName name t
  refine ⟨hends, opensMember_word isWord_function hends ?_ (fun heq => by cases heq)
    fun heq => by cases heq⟩
  cases isGenerator with
  | true =>
    rw [show starMark true ++ (spacedName name ++ '(' :: t)
      = '*' :: (spacedName name ++ '(' :: t) from rfl, trimStart_mark (by decide)]
    simp
  | false =>
    cases name with
    | none =>
      rw [show starMark false ++ (spacedName none ++ '(' :: t) = '(' :: t from rfl,
        trimStart_mark (by decide)]
      simp
    | some w =>
      have hbegins := beginsMember_word (hname w rfl) ('(' :: t)
      rw [show starMark false ++ (spacedName (some w) ++ '(' :: t) = ' ' :: (w ++ '(' :: t)
        from rfl, hbegins.trimStart_eq]
      exact hbegins.head?_ne

/-- The name of a method begins a member, whatever word it is. -/
theorem opensMember_method (isGenerator : Bool) (hw : IsWord w) (hp : Orderly p) :
    OpensMember (starMark isGenerator ++ (w ++ '(' :: (p ++ ')' :: ' ' :: '{' :: t))) ∧
      StopsModifiers
        (starMark isGenerator ++ (w ++ '(' :: (p ++ ')' :: ' ' :: '{' :: t))) := by
  cases isGenerator with
  | true => exact ⟨opensMember_star _, stopsModifiers_star _⟩
  | false =>
    have htrim : Text.trimStart ('(' :: (p ++ ')' :: ' ' :: '{' :: t))
        = '(' :: (p ++ ')' :: ' ' :: '{' :: t) := trimStart_mark (by decide) _
    show OpensMember (w ++ '(' :: (p ++ ')' :: ' ' :: '{' :: t)) ∧
      StopsModifiers (w ++ '(' :: (p ++ ')' :: ' ' :: '{' :: t))
    refine ⟨opensMember_word hw (endsWord_paren _) ?_ (fun _ => ?_) fun _ => ?_,
      stopsModifiers_word hw (endsWord_paren _) fun _ => ?_⟩
    · simp [htrim]
    · simp [htrim]
    · rw [htrim]
      refine noArrow_list hp ?_
      rw [trimStart_space, trimStart_mark (by decide)]
      simp
    · rw [htrim]
      rfl

end

end CallSignature
