/-
CallSignature.Proofs.Head.ClassRecognition — every written class is
recognised.

A class is written down by its name, its supertype and its body, of which the
first two may be missing (`WrittenClass`).  Whatever these are, and whatever
follows the body, the class is read with exactly this name and this supertype,
and with the first constructor that stands in the body (`ofSource_class`).

The name is told from the word `extends` by where the word ends, and the
supertype from the body by the first curly bracket outside its groups.  So
there is one equation for each part of the head, over any rest.
-/
import CallSignature.Proofs.Head.OwnConstructor
import CallSignature.Proofs.Head.Recognition
import CallSignature.Proofs.Segment.Elements

namespace CallSignature

open Cursor Unicode

/-! ## Written classes -/

/-- The words before the body that tell the supertype. -/
def extendsWords : Option Text → List Text
  | none => []
  | some reference => ["extends".toList, reference]

/-- A class as it is written. -/
structure WrittenClass where
  name : Option Text
  superclass : Option Text
  body : Text

namespace WrittenClass

/-- What is written before the body. -/
def before (c : WrittenClass) : Text :=
  wordRow ("class".toList :: (c.name.toList ++ extendsWords c.superclass)) ++ ['{']

/-- The whole class. -/
def text (c : WrittenClass) : Text :=
  c.before ++ c.body ++ ['}']

end WrittenClass

/-- The text can stand behind the word `extends`. -/
structure IsSupertype (reference : Text) : Prop where
  notEmpty : reference ≠ []
  trimmed : reference.Trimmed
  orderly : Orderly reference
  /-- The body does not begin within the supertype. -/
  lacksCurly : LacksTop '{' reference
  clean : withoutComments reference = .ok reference

/-- The class can be written like this. -/
structure WrittenClass.WellFormed (c : WrittenClass) : Prop where
  name : ∀ w ∈ c.name, IsWord w ∧ w ≠ "extends".toList
  superclass : ∀ reference ∈ c.superclass, IsSupertype reference
  body : Orderly c.body
  clean : withoutComments c.body = .ok c.body

/-! ## The name -/

section

variable {k t w reference body : Text}

theorem isWord_class : IsWord "class".toList := by decide

theorem isWord_extends : IsWord "extends".toList := by decide

theorem matchWord_extends (hw : IsWord w) (t : Text) :
    (⟨k, w ++ ' ' :: t⟩ : Cursor).matchWord "extends".toList
      = if w = "extends".toList then some ⟨w.reverse ++ k, ' ' :: t⟩ else none :=
  matchWord_word (by decide) (by decide) hw (endsWord_space t)

theorem matchWord_extends_curly (k t : Text) :
    (⟨k, '{' :: t⟩ : Cursor).matchWord "extends".toList = none :=
  matchWord_mark (by decide) (by decide)

theorem startsWithWord_eq (word : Text) (c : Cursor) :
    c.startsWithWord word = (c.matchWord word).isSome := by
  unfold matchWord
  cases c.startsWithWord word <;> rfl

/-- The text begins neither with white space nor with a parameter list. -/
def BeginsClause (t : Text) : Prop :=
  ∃ d rest, t = d :: rest ∧ isWhiteSpace d = false ∧ d ≠ '('

theorem BeginsClause.head (h : BeginsClause t) : t.head?.any isWhiteSpace = false := by
  obtain ⟨d, rest, rfl, hspace, -⟩ := h
  exact hspace

theorem beginsClause_word (hw : IsWord w) (t : Text) : BeginsClause (w ++ t) := by
  obtain ⟨d, rest, rfl, hspace, hends, -, -⟩ := hw.exists_eq
  refine ⟨d, rest ++ t, rfl, hspace, ?_⟩
  rintro rfl
  cases hends

/-- Behind the name comes the word `extends` or the body. -/
theorem extendsWords_cases (superclass : Option Text) (t : Text) :
    (∃ rest, wordRow (extendsWords superclass) ++ '{' :: t = "extends".toList ++ ' ' :: rest) ∨
      wordRow (extendsWords superclass) ++ '{' :: t = '{' :: t := by
  cases superclass with
  | none => exact .inr rfl
  | some reference => exact .inl ⟨_, wordRow_cons "extends".toList [reference] ('{' :: t)⟩

theorem beginsClause_extendsWords (superclass : Option Text) (t : Text) :
    BeginsClause (wordRow (extendsWords superclass) ++ '{' :: t) := by
  rcases extendsWords_cases superclass t with ⟨rest, heq⟩ | heq
  · rw [heq]
    exact beginsClause_word isWord_extends _
  · exact ⟨'{', t, heq, by decide, by decide⟩

theorem beginsClause_name {name : Option Text} (hname : ∀ w ∈ name, IsWord w)
    (superclass : Option Text) (t : Text) :
    BeginsClause (wordRow name.toList ++ (wordRow (extendsWords superclass) ++ '{' :: t)) := by
  cases name with
  | none => exact beginsClause_extendsWords superclass t
  | some w =>
    rw [Option.toList_some, wordRow_cons]
    exact beginsClause_word (hname w rfl) _

/-- The name is read as far as it goes, and nothing if there is none. -/
theorem exists_className {name : Option Text}
    (hname : ∀ w ∈ name, IsWord w ∧ w ≠ "extends".toList) (superclass : Option Text)
    (k t : Text) :
    ∃ d, className ⟨k, wordRow name.toList ++ (wordRow (extendsWords superclass) ++ '{' :: t)⟩
        = (name.getD [], d) ∧
      d.skipWhiteSpace
        = ⟨(wordRow name.toList).reverse ++ k,
          wordRow (extendsWords superclass) ++ '{' :: t⟩ := by
  have hhead := (beginsClause_extendsWords superclass t).head
  cases name with
  | none =>
    refine ⟨⟨k, wordRow (extendsWords superclass) ++ '{' :: t⟩, ?_,
      skipWhiteSpace_eq_self hhead⟩
    show className ⟨k, wordRow (extendsWords superclass) ++ '{' :: t⟩ = _
    rw [className, startsWithWord_eq]
    rcases extendsWords_cases superclass t with ⟨rest, heq⟩ | heq
    · rw [heq, matchWord_extends isWord_extends, if_pos rfl]
      rfl
    · rw [heq, matchWord_extends_curly, identifier_mark (by decide)]
      rfl
  | some w =>
    obtain ⟨hw, hextends⟩ := hname w rfl
    refine ⟨⟨w.reverse ++ k, ' ' :: (wordRow (extendsWords superclass) ++ '{' :: t)⟩, ?_, ?_⟩
    · rw [Option.toList_some, wordRow_cons, className, startsWithWord_eq, matchWord_extends hw,
        if_neg hextends, identifier_word hw (endsWord_space _)]
      rfl
    · rw [skipWhiteSpace_space hhead]
      simp [wordRow]

/-! ## The supertype and the body -/

/-- The supertype is what stands before the first curly bracket that is
outside its groups. -/
theorem supertypeReference_eq (h : IsSupertype reference) (k t : Text) :
    supertypeReference ⟨k, ' ' :: (reference ++ ' ' :: '{' :: t)⟩
      = .ok (reference, ⟨(' ' :: reference ++ [' ']).reverse ++ k, '{' :: t⟩) := by
  have hspace : Orderly [' '] ∧ LacksTop '{' [' '] := by decide
  have horderly : Orderly ([' '] ++ reference ++ [' ']) :=
    (hspace.1.append h.orderly).append hspace.1
  have hlacks : LacksTop '{' ([' '] ++ reference ++ [' ']) :=
    (lacksTop_append (hspace.1.append h.orderly) hspace.1).2
      ⟨(lacksTop_append hspace.1 h.orderly).2 ⟨hspace.2, h.lacksCurly⟩, hspace.2⟩
  have hrest :
      ' ' :: (reference ++ ' ' :: '{' :: t) = [' '] ++ reference ++ [' '] ++ '{' :: t := by
    simp
  have hbody : bodyDistance ⟨k, ' ' :: (reference ++ ' ' :: '{' :: t)⟩
      = .ok (Text.width ([' '] ++ reference ++ [' '])) := by
    rw [bodyDistance]
    simp only [hrest]
    rw [firstVisit_eq_some_iff.2 (find?_opener closerOf?_curly horderly hlacks t)]
  have hblank : Text.isBlank [' '] = true := by decide
  rw [supertypeReference, hbody]
  simp only [hrest, Text.takeBytes_append, Text.trim_padded hblank h.trimmed hblank]
  rw [if_neg (by simpa using h.notEmpty), (passes_seek rfl).eq rfl]
  rfl

theorem extendsClause_eq {superclass : Option Text}
    (h : ∀ reference ∈ superclass, IsSupertype reference) (k t : Text) :
    extendsClause ⟨k, wordRow (extendsWords superclass) ++ '{' :: t⟩
      = .ok (superclass, ⟨(wordRow (extendsWords superclass)).reverse ++ k, '{' :: t⟩) := by
  cases superclass with
  | none =>
    show extendsClause ⟨k, '{' :: t⟩ = _
    rw [extendsClause, matchWord_extends_curly]
    rfl
  | some reference =>
    rw [extendsWords, wordRow_cons, wordRow_cons, extendsClause,
      matchWord_extends isWord_extends, if_pos rfl]
    show (supertypeReference ⟨_, ' ' :: (reference ++ ' ' :: '{' :: t)⟩).map _ = _
    rw [supertypeReference_eq (h reference rfl)]
    generalize "extends".toList = word
    simp [Except.map, wordRow]

/-- The constructor is looked for in the whole body and nowhere else. -/
theorem exists_bodyConstructor (hbody : Orderly body) (k t : Text) :
    ∃ found, bodyConstructor ⟨k, '{' :: (body ++ '}' :: t)⟩ = .ok found ∧
      IsFirstIn body (k.width + 1) found := by
  have hlast : closerDistance k.width ('{' :: (body ++ '}' :: t)) = .ok (1 + body.width) :=
    (closerDistance_eq_ok_iff closerOf?_curly).2 ⟨body, t, rfl, hbody, rfl⟩
  have htext : (⟨k, '{' :: (body ++ '}' :: t)⟩ : Cursor).text
      = (k.reverse ++ ['{']) ++ body ++ '}' :: t := by simp [text]
  have hwidth : k.width + 1 = Text.width (k.reverse ++ ['{']) := by
    rw [Text.width_append, Text.width_reverse]
    rfl
  rw [bodyConstructor, if_pos (by rfl), htext]
  simp only [Cursor.offset, hlast, ← Nat.add_assoc, hwidth]
  exact ownConstructor_eq_first hbody (k.reverse ++ ['{']) t

end

/-! ## The whole class -/

namespace WrittenClass

variable {c : WrittenClass}

theorem text_append (c : WrittenClass) (t : Text) :
    c.text ++ t = "class".toList ++ ' ' :: (wordRow c.name.toList ++
      (wordRow (extendsWords c.superclass) ++ '{' :: (c.body ++ '}' :: t))) := by
  rw [text, before]
  generalize "class".toList = word
  simp [wordRow]

/-- The head behind the word `class` is read as it is written. -/
theorem WellFormed.exists_classHead (h : c.WellFormed) (k t : Text) :
    ∃ found, ClassHead.ofCursor ⟨k, ' ' :: (wordRow c.name.toList ++
        (wordRow (extendsWords c.superclass) ++ '{' :: (c.body ++ '}' :: t)))⟩
        = .ok { name := c.name.getD [], superclass := c.superclass, constructor := found } ∧
      IsFirstIn c.body
        (k.width + Text.width
          (' ' :: (wordRow c.name.toList ++ wordRow (extendsWords c.superclass) ++ ['{'])))
        found := by
  obtain ⟨d, hclassName, hd⟩ := exists_className h.name c.superclass (' ' :: k)
    (c.body ++ '}' :: t)
  obtain ⟨found, hfound, hfirst⟩ := exists_bodyConstructor h.body
    ((wordRow (extendsWords c.superclass)).reverse ++
      ((wordRow c.name.toList).reverse ++ ' ' :: k)) t
  have hhead := (beginsClause_name (fun w hw => (h.name w hw).1) c.superclass
    (c.body ++ '}' :: t)).head
  refine ⟨found, ?_, ?_⟩
  · rw [ClassHead.ofCursor, skipWhiteSpace_space hhead, hclassName]
    dsimp only
    rw [hd, extendsClause_eq h.superclass]
    show (bodyConstructor (Cursor.skipWhiteSpace _) >>= _) = _
    rw [skipWhiteSpace_eq_self (head?_mark (by decide) _), hfound]
    rfl
  · convert hfirst using 1
    simp only [Text.width_append, Text.width_cons, Text.width_reverse, Text.width_nil,
      show Char.utf8Size '{' = 1 from rfl]
    omega

/-- The word `class` begins a class, since no parameter list follows it. -/
theorem WellFormed.classStart (h : c.WellFormed) (t : Text) :
    classStart? ⟨[], "class".toList ++ ' ' :: (wordRow c.name.toList ++
        (wordRow (extendsWords c.superclass) ++ '{' :: t))⟩
      = some ⟨"class".toList.reverse, ' ' :: (wordRow c.name.toList ++
        (wordRow (extendsWords c.superclass) ++ '{' :: t))⟩ := by
  obtain ⟨d, rest, heq, hspace, hparen⟩ := beginsClause_name (fun w hw => (h.name w hw).1)
    c.superclass t
  rw [heq, classStart?, matchWord_word (by decide) (by decide) isWord_class
    (endsWord_space _), if_pos rfl]
  dsimp only
  rw [skipWhiteSpace_space (by simpa using hspace), if_neg (by simpa [peek] using hparen),
    List.append_nil]

theorem WellFormed.exists_ofCode (h : c.WellFormed) (t : Text) :
    ∃ found, Declaration.ofCode (c.text ++ t)
        = .ok (.ofClass
          { name := c.name.getD [], superclass := c.superclass, constructor := found }) ∧
      IsFirstIn c.body c.before.width found := by
  obtain ⟨found, hfound, hfirst⟩ := h.exists_classHead "class".toList.reverse t
  refine ⟨found, ?_, ?_⟩
  · rw [Declaration.ofCode, text_append, Cursor.ofText,
      skipWhiteSpace_eq_self (isWord_class.head _).1, h.classStart]
    dsimp only
    rw [hfound]
    rfl
  · convert hfirst using 1
    rw [before, Text.width_reverse, ← Text.width_append]
    generalize "class".toList = word
    simp [wordRow]

/-! ## Cleaning a written class -/

theorem cleans_wordRow {words : List Text} (h : ∀ w ∈ words, Cleans (some ' ') w w)
    (next : Option Char) : Cleans next (wordRow words) (wordRow words) := by
  induction words with
  | nil => exact IsMarkup.cleans (show IsMarkup [] by decide) next
  | cons w words ih =>
    obtain ⟨hw, hwords⟩ := List.forall_mem_cons.1 h
    have hspace : IsMarkup [' '] := by decide
    have hspaced : ∀ next, Cleans next (w ++ [' ']) (w ++ [' ']) := fun next =>
      Cleans.append (b := [' ']) hw (hspace.cleans next)
    exact (hspaced _).append (ih hwords)

theorem WellFormed.cleans (h : c.WellFormed) (next : Option Char) :
    Cleans next c.text c.text := by
  have hwords : ∀ w ∈ "class".toList :: (c.name.toList ++ extendsWords c.superclass),
      Cleans (some ' ') w w := by
    refine List.forall_mem_cons.2 ⟨isWord_class.isMarkup.cleans _, fun w hw => ?_⟩
    rcases List.mem_append.1 hw with hname | hsuper
    · exact (h.name w (by simpa using hname)).1.isMarkup.cleans _
    · cases hsuperclass : c.superclass with
      | none => simp [hsuperclass, extendsWords] at hsuper
      | some reference =>
        have hreference := h.superclass reference hsuperclass
        rw [hsuperclass, extendsWords] at hsuper
        rcases List.mem_cons.1 hsuper with rfl | hsuper
        · exact isWord_extends.isMarkup.cleans _
        · obtain rfl := List.mem_singleton.1 hsuper
          exact .of_clean hreference.orderly.quiet hreference.clean ⟨by decide, by decide⟩
  have hcurly : IsMarkup ['{'] ∧ IsMarkup ['}'] := by decide
  have hbefore : ∀ next, Cleans next c.before c.before := fun next =>
    (cleans_wordRow hwords _).append (hcurly.1.cleans next)
  have hbody : Cleans (some '}') c.body c.body :=
    .of_clean h.body.quiet h.clean ⟨by decide, by decide⟩
  exact Cleans.append (b := ['}']) ((hbefore _).append hbody) (hcurly.2.cleans next)

end WrittenClass

/-- Every written class is recognised, with its name and its supertype, and
its constructor is the first one of the body. -/
theorem ofSource_class {c : WrittenClass} (h : c.WellFormed) {b cleaned : Text}
    (hcleaned : withoutComments (c.text ++ b) = .ok cleaned)
    (hnative : isNative (c.text ++ b) = false) :
    ∃ found, Declaration.ofSource (c.text ++ b)
        = .ok (.ofClass
          { name := c.name.getD [], superclass := c.superclass, constructor := found }) ∧
      ∀ constructor, IsFirstIn c.body c.before.width constructor ↔ constructor = found := by
  have hblank : (c.text ++ b).isBlank = false := by
    rw [c.text_append]
    rfl
  obtain ⟨rest, rfl⟩ := (h.cleans b.head?).exists_of_append hcleaned
  obtain ⟨found, hread, hfirst⟩ := h.exists_ofCode rest
  refine ⟨found, ?_,
    fun constructor => ⟨fun hother => hother.eq hfirst, fun heq => heq ▸ hfirst⟩⟩
  rw [Declaration.ofSource, hblank, if_neg Bool.false_ne_true, hnative,
    if_neg Bool.false_ne_true, hcleaned]
  exact hread

/-- A class whose body writes the word `constructor` three times before its
constructor: in a literal, behind a modifier and behind a dot. -/
def areaClass : WrittenClass where
  name := some "Área".toList
  superclass := some "mix({a: 1})".toList
  body := r#"x = "constructor(){"; "#.toList ++ "static constructor() {} ".toList
    ++ "y = f.constructor() ".toList ++ "constructor (a, b = ')') {}".toList

theorem wellFormed_areaClass : areaClass.WellFormed where
  name w hw := by
    obtain rfl := Option.some.inj hw
    decide +kernel
  superclass reference hreference := by
    obtain rfl := Option.some.inj hreference
    exact ⟨by decide +kernel, by decide +kernel, by decide +kernel, by decide +kernel,
      by decide +kernel⟩
  body := by decide +kernel
  clean := by decide +kernel

theorem ofSource_class_areaClass :
    Declaration.ofSource (areaClass.text ++ r" // {".toList)
        = .ok (.ofClass
          { name := "Área".toList
            superclass := some "mix({a: 1})".toList
            constructor := some ⟨"a, b = ')'".toList, 112⟩ }) ∧
      IsFirstIn areaClass.body 33 (some ⟨"a, b = ')'".toList, 112⟩) := by
  obtain ⟨found, hread, hfirst⟩ :=
    @ofSource_class areaClass wellFormed_areaClass r" // {".toList
      (areaClass.text ++ "     ".toList) (by decide +kernel) (by decide +kernel)
  have hrun : Declaration.ofSource (areaClass.text ++ r" // {".toList)
      = .ok (.ofClass
        { name := "Área".toList
          superclass := some "mix({a: 1})".toList
          constructor := some ⟨"a, b = ')'".toList, 112⟩ }) := by decide +kernel
  have hfound := congrArg ClassHead.constructor
    (Declaration.ofClass.inj (Except.ok.inj (hread.symm.trans hrun)))
  exact ⟨hrun, (hfirst _).2 hfound.symm⟩

end CallSignature
