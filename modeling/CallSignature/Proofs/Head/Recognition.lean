/-
CallSignature.Proofs.Head.Recognition — every written head is recognised.

A head is written down by its modifiers, its asterisk, its name and the text
of its parameters (`WrittenHead`).  Whatever these are, and whatever follows
them, the head is read with exactly this name, these marks and this range of
parameters.

Blanking out the comments of a source does not touch a written head, and so
it is enough to follow the reader over the head and any rest.
-/
import CallSignature.Proofs.Comment.Range
import CallSignature.Proofs.Head.Members

namespace CallSignature

open Cursor Unicode

/-! ## Arrows -/

/-- The text begins with the head of an arrow function, whose parameters are
`p`, `n` bytes behind its beginning. -/
structure OpensArrow (t p : Text) (n : Nat) : Prop where
  first : t.head?.any isWhiteSpace = false
  mark : t.head? ≠ some '='
  noClass : NoClass t
  arrow : ∀ isAsync k, ∃ d, Head.arrow isAsync ⟨k, t⟩
    = .ok (some { form := { isAsync, isArrow := true }, parameters := ⟨p, k.width + n⟩ }, d)

/-- The word `async`, if the callable is asynchronous. -/
def asyncWords (isAsync : Bool) : List Text :=
  if isAsync then ["async".toList] else []

section

variable {k t w p : Text} {n : Nat}

theorem arrow_of_ofArrow {list : ParameterList} {c : Cursor} (isAsync : Bool)
    (h : ParameterList.ofArrow c = .ok (some (list, ⟨k, ' ' :: '=' :: '>' :: t⟩))) :
    ∃ d, Head.arrow isAsync c
      = .ok (some { form := { isAsync, isArrow := true }, parameters := list }, d) := by
  have hskip : (⟨k, ' ' :: '=' :: '>' :: t⟩ : Cursor).skipWhiteSpace
      = ⟨' ' :: k, '=' :: '>' :: t⟩ :=
    skipWhiteSpace_space (head?_mark (by decide) _)
  rw [Head.arrow, h]
  dsimp only
  rw [hskip]
  exact ⟨_, rfl⟩

theorem opensArrow_list (hp : Orderly p) :
    OpensArrow ('(' :: (p ++ ')' :: ' ' :: '=' :: '>' :: t)) p 1 where
  first := head?_mark (by decide) _
  mark := by simp
  noClass := noClass_mark (by decide) _
  arrow isAsync _ := arrow_of_ofArrow isAsync (ofArrow_list hp)

theorem opensArrow_bare (hw : IsWord w) (hclass : w ≠ "class".toList) :
    OpensArrow (w ++ ' ' :: '=' :: '>' :: t) w 0 where
  first := (hw.head _).1
  mark := (beginsMember_word hw _).head?_ne
  noClass := noClass_word hw (endsWord_space _) fun heq => absurd heq hclass
  arrow isAsync _ := arrow_of_ofArrow isAsync (ofArrow_word hw (endsWord_space _))

theorem isWord_async : IsWord "async".toList := by decide

/-- The word `async` before an arrow is not its parameter. -/
theorem OpensArrow.noArrow (h : OpensArrow t p n) : NoArrow ("async".toList ++ ' ' :: t) := by
  refine noArrow_word isWord_async (endsWord_space t) ?_
  rw [trimStart_space, Text.trimStart_eq_self fun c hc => by simpa [hc] using h.first]
  exact h.mark

theorem OpensArrow.asyncArrow (h : OpensArrow t p n) (k : Text) :
    Head.asyncArrow ⟨k, "async".toList ++ ' ' :: t⟩
      = .ok (some
        { form := { isAsync := true, isArrow := true }
          parameters := ⟨p, k.width + (wordRow (asyncWords true)).width + n⟩ }) := by
  obtain ⟨d, hd⟩ := h.arrow true (' ' :: ("async".toList.reverse ++ k))
  have hwidth : Text.width (' ' :: ("async".toList.reverse ++ k))
      = k.width + (wordRow (asyncWords true)).width := by
    rw [Text.width_cons, Text.width_append, Text.width_reverse, Nat.add_comm _ k.width,
      Nat.add_left_comm]
    rfl
  rw [hwidth] at hd
  rw [Head.asyncArrow, matchWord_word (by decide) (by decide) isWord_async
    (endsWord_space t), if_pos rfl]
  dsimp only
  rw [skipWhiteSpace_space h.first, hd]
  rfl

/-- An arrow function is read as it is written, with `async` or without. -/
theorem OpensArrow.ofCursor_eq (h : OpensArrow t p n) (isAsync : Bool) (k : Text) :
    NoClass (wordRow (asyncWords isAsync) ++ t) ∧
      Head.ofCursor ⟨k, wordRow (asyncWords isAsync) ++ t⟩
        = .ok
          { form := { isAsync, isArrow := true }
            parameters := ⟨p, k.width + (wordRow (asyncWords isAsync)).width + n⟩ } := by
  cases isAsync with
  | false =>
    obtain ⟨d, hd⟩ := h.arrow false k
    refine ⟨h.noClass, ?_⟩
    show Head.ofCursor ⟨k, t⟩ = _
    rw [Head.ofCursor, hd]
    rfl
  | true =>
    obtain ⟨d, hd⟩ := h.noArrow false k
    show NoClass ("async".toList ++ ' ' :: t) ∧
      Head.ofCursor ⟨k, "async".toList ++ ' ' :: t⟩ = _
    refine ⟨noClass_word isWord_async (endsWord_space t) fun heq => (by cases heq), ?_⟩
    rw [Head.ofCursor, hd]
    show (Head.asyncArrow ⟨k, "async".toList ++ ' ' :: t⟩ >>= _) = _
    rw [h.asyncArrow k]
    rfl

end

/-! ## Written heads -/

/-- The head of a callable without its parameters. -/
inductive WrittenHead
  | function (isAsync isGenerator : Bool) (name : Option Text)
  | arrow (isAsync : Bool)
  | bareArrow (isAsync : Bool)
  | method (modifiers : List Text) (isGenerator : Bool) (name : Text)

namespace WrittenHead

/-- What is written before the parameters. -/
def before : WrittenHead → Text
  | function isAsync isGenerator name =>
    wordRow (asyncWords isAsync) ++ "function".toList ++ starMark isGenerator
      ++ spacedName name ++ ['(']
  | arrow isAsync => wordRow (asyncWords isAsync) ++ ['(']
  | bareArrow isAsync => wordRow (asyncWords isAsync)
  | method modifiers isGenerator name =>
    wordRow modifiers ++ starMark isGenerator ++ name ++ ['(']

/-- What is written behind the parameters. -/
def behind : WrittenHead → Text
  | function _ _ _ => [')']
  | arrow _ => ") =>".toList
  | bareArrow _ => " =>".toList
  | method _ _ _ => r") {".toList

/-- The name that is written, or nothing if there is none. -/
def name : WrittenHead → Text
  | function _ _ name => name.getD []
  | arrow _ | bareArrow _ => []
  | method _ _ name => name

/-- The marks that are written. -/
def form : WrittenHead → Form
  | function isAsync isGenerator _ => { isAsync, isGenerator }
  | arrow isAsync | bareArrow isAsync => { isAsync, isArrow := true }
  | method modifiers isGenerator _ =>
    { isAsync := modifiers.contains "async".toList, isGenerator }

/-- The head can be written with these parameters.  The parameters before a
bare arrow are its one word, which is not `class`; a method is not called
`function`. -/
def Accepts (p : Text) : WrittenHead → Prop
  | function _ _ name => (∀ w ∈ name, IsWord w) ∧ Orderly p ∧ withoutComments p = .ok p
  | arrow _ => Orderly p ∧ withoutComments p = .ok p
  | bareArrow _ => IsWord p ∧ p ≠ "class".toList
  | method modifiers _ name =>
    (∀ m ∈ modifiers, isMemberModifier m = true) ∧ IsWord name ∧ name ≠ "function".toList ∧
      Orderly p ∧ withoutComments p = .ok p

/-- The head with the parameters behind it. -/
def read (written : WrittenHead) (p : Text) : Head :=
  { name := written.name, form := written.form, parameters := ⟨p, written.before.width⟩ }

end WrittenHead

/-! ## Reading a written head -/

/-- The text is code that is read as this callable. -/
structure Reads (t : Text) (head : Head) : Prop where
  first : t.head?.any isWhiteSpace = false
  noClass : NoClass t
  ofCursor : Head.ofCursor ⟨[], t⟩ = .ok head

section

variable {t w p : Text} {head : Head}

theorem Reads.ofCode (h : Reads t head) : Declaration.ofCode t = .ok (.callable head) := by
  rw [Declaration.ofCode, Cursor.ofText, skipWhiteSpace_eq_self h.first, h.noClass, h.ofCursor]
  rfl

theorem isMemberModifier_asyncWords (isAsync : Bool) :
    ∀ m ∈ asyncWords isAsync, isMemberModifier m = true := by
  cases isAsync <;> decide

theorem contains_asyncWords (isAsync : Bool) :
    (asyncWords isAsync).contains "async".toList = isAsync := by
  cases isAsync <;> decide

theorem reads_function (isAsync isGenerator : Bool) {name : Option Text}
    (hname : ∀ w ∈ name, IsWord w) (hp : Orderly p) (rest : Text) :
    Reads ((WrittenHead.function isAsync isGenerator name).before ++ p
        ++ (WrittenHead.function isAsync isGenerator name).behind ++ rest)
      ((WrittenHead.function isAsync isGenerator name).read p) := by
  obtain ⟨hends, hopens⟩ := opensMember_function isGenerator hname (p ++ ')' :: rest)
  have hstop := stopsModifiers_word isWord_function hends fun hm => by cases hm
  have hrow := hopens.row (isMemberModifier_asyncWords isAsync)
  have hread := hopens.ofCursor_row (isMemberModifier_asyncWords isAsync) hstop []
  rw [matchWord_word (by decide) (by decide) isWord_function hends, if_pos rfl] at hread
  dsimp only at hread
  rw [contains_asyncWords, function_eq_ok isAsync isGenerator hname hp] at hread
  have htext : (WrittenHead.function isAsync isGenerator name).before ++ p
      ++ (WrittenHead.function isAsync isGenerator name).behind ++ rest
      = wordRow (asyncWords isAsync) ++ ("function".toList ++ (starMark isGenerator ++
          (spacedName name ++ '(' :: (p ++ ')' :: rest)))) := by
    simp [WrittenHead.before, WrittenHead.behind]
  rw [htext]
  refine ⟨hrow.begins.head, hrow.noClass, hread.trans ?_⟩
  simp [WrittenHead.read, WrittenHead.name, WrittenHead.form, WrittenHead.before,
    Text.width_append, Text.width_reverse, Nat.add_assoc, Nat.add_comm, Nat.add_left_comm]

theorem reads_method {modifiers : List Text} (isGenerator : Bool)
    (hmodifiers : ∀ m ∈ modifiers, isMemberModifier m = true) (hw : IsWord w)
    (hfunction : w ≠ "function".toList) (hp : Orderly p) (rest : Text) :
    Reads ((WrittenHead.method modifiers isGenerator w).before ++ p
        ++ (WrittenHead.method modifiers isGenerator w).behind ++ rest)
      ((WrittenHead.method modifiers isGenerator w).read p) := by
  obtain ⟨hopens, hstop⟩ := @opensMember_method rest w p isGenerator hw hp
  have hrow := hopens.row hmodifiers
  have hread := hopens.ofCursor_row hmodifiers hstop []
  have hword : (⟨(wordRow modifiers).reverse ++ [], starMark isGenerator ++
      (w ++ '(' :: (p ++ ')' :: ' ' :: '{' :: rest))⟩ : Cursor).matchWord "function".toList
        = none := by
    cases isGenerator with
    | true => exact matchWord_mark (by decide) (by decide)
    | false =>
      exact (matchWord_word (by decide) (by decide) hw (endsWord_paren _)).trans
        (if_neg hfunction)
  rw [hword] at hread
  dsimp only at hread
  rw [method_eq_ok _ isGenerator hw hp] at hread
  have htext : (WrittenHead.method modifiers isGenerator w).before ++ p
      ++ (WrittenHead.method modifiers isGenerator w).behind ++ rest
      = wordRow modifiers ++ (starMark isGenerator ++
          (w ++ '(' :: (p ++ ')' :: ' ' :: '{' :: rest))) := by
    simp [WrittenHead.before, WrittenHead.behind]
  rw [htext]
  refine ⟨hrow.begins.head, hrow.noClass, hread.trans ?_⟩
  simp [WrittenHead.read, WrittenHead.name, WrittenHead.form, WrittenHead.before,
    Text.width_append, Text.width_reverse, Nat.add_assoc, Nat.add_comm]

theorem OpensArrow.reads {n : Nat} (h : OpensArrow t p n) (isAsync : Bool) :
    Reads (wordRow (asyncWords isAsync) ++ t)
      { form := { isAsync, isArrow := true }
        parameters := ⟨p, (wordRow (asyncWords isAsync)).width + n⟩ } := by
  obtain ⟨hclass, hread⟩ := h.ofCursor_eq isAsync []
  refine ⟨?_, hclass, hread.trans ?_⟩
  · cases isAsync with
    | true => rfl
    | false => exact h.first
  · simp

theorem reads_arrow (isAsync : Bool) (hp : Orderly p) (rest : Text) :
    Reads
      ((WrittenHead.arrow isAsync).before ++ p ++ (WrittenHead.arrow isAsync).behind ++ rest)
      ((WrittenHead.arrow isAsync).read p) := by
  have hreads := (@opensArrow_list rest p hp).reads isAsync
  have hwidth : (wordRow (asyncWords isAsync)).width + 1
      = (WrittenHead.arrow isAsync).before.width := by
    rw [WrittenHead.before, Text.width_append]
    rfl
  rw [hwidth] at hreads
  have htext : (WrittenHead.arrow isAsync).before ++ p
      ++ (WrittenHead.arrow isAsync).behind ++ rest
        = wordRow (asyncWords isAsync) ++ '(' :: (p ++ ')' :: ' ' :: '=' :: '>' :: rest) := by
    simp [WrittenHead.before, WrittenHead.behind]
  rw [htext]
  exact hreads

theorem reads_bareArrow (isAsync : Bool) (hw : IsWord w) (hclass : w ≠ "class".toList)
    (rest : Text) :
    Reads ((WrittenHead.bareArrow isAsync).before ++ w
        ++ (WrittenHead.bareArrow isAsync).behind ++ rest)
      ((WrittenHead.bareArrow isAsync).read w) := by
  have hreads := (@opensArrow_bare rest w hw hclass).reads isAsync
  have htext : (WrittenHead.bareArrow isAsync).before ++ w
      ++ (WrittenHead.bareArrow isAsync).behind ++ rest
      = wordRow (asyncWords isAsync) ++ (w ++ ' ' :: '=' :: '>' :: rest) := by
    simp [WrittenHead.before, WrittenHead.behind]
  rw [htext]
  exact hreads

namespace WrittenHead

variable {written : WrittenHead}

theorem Accepts.reads (h : written.Accepts p) (rest : Text) :
    Reads (written.before ++ p ++ written.behind ++ rest) (written.read p) := by
  cases written with
  | function isAsync isGenerator name =>
    exact reads_function isAsync isGenerator h.1 h.2.1 rest
  | arrow isAsync => exact reads_arrow isAsync h.1 rest
  | bareArrow isAsync => exact reads_bareArrow isAsync h.1 h.2 rest
  | method modifiers isGenerator name =>
    exact reads_method isGenerator h.1 h.2.1 h.2.2.1 h.2.2.2.1 rest

/-! ## Cleaning a written head -/

theorem Accepts.parameters (h : written.Accepts p) :
    Orderly p ∧ withoutComments p = .ok p := by
  cases written with
  | function isAsync isGenerator name => exact h.2
  | arrow isAsync => exact h
  | bareArrow isAsync =>
    exact ⟨orderly_name h.1, withoutComments_eq_self_iff.2
      (Zone.cleaned_of_lacksSlash (not_mem_name h.1 (by decide) (by decide)))⟩
  | method modifiers isGenerator name => exact h.2.2.2

end WrittenHead

/-- Characters that begin neither a comment nor a literal. -/
def IsMarkup (t : Text) : Prop :=
  '/' ∉ t ∧ t.any isQuote = false

instance (t : Text) : Decidable (IsMarkup t) :=
  inferInstanceAs (Decidable ('/' ∉ t ∧ t.any isQuote = false))

theorem IsMarkup.append {a b : Text} (ha : IsMarkup a) (hb : IsMarkup b) :
    IsMarkup (a ++ b) := by
  refine ⟨?_, ?_⟩
  · simp [ha.1, hb.1]
  · rw [List.any_append, ha.2, hb.2]
    rfl

theorem IsMarkup.cleans (h : IsMarkup t) (next : Option Char) : Cleans next t t :=
  .of_lacksSlash (quiet_of_lacksQuotes h.2) h.1

theorem IsWord.isMarkup (hw : IsWord w) : IsMarkup w := by
  refine ⟨not_mem_name hw (by decide) (by decide), List.any_eq_false.2 fun c hc => ?_⟩
  simp [(isVisible_of_mem_name hw c hc).2]

theorem isMarkup_wordRow {words : List Text} (h : ∀ m ∈ words, isMemberModifier m = true) :
    IsMarkup (wordRow words) := by
  induction words with
  | nil => decide
  | cons m words ih =>
    obtain ⟨hm, hwords⟩ := List.forall_mem_cons.1 h
    have hspaced :=
      (isWord_of_isMemberModifier hm).isMarkup.append (show IsMarkup [' '] by decide)
    exact hspaced.append (ih hwords)

theorem isMarkup_starMark (isGenerator : Bool) : IsMarkup (starMark isGenerator) := by
  cases isGenerator <;> decide

theorem isMarkup_spacedName {name : Option Text} (h : ∀ w ∈ name, IsWord w) :
    IsMarkup (spacedName name) := by
  cases name with
  | none => decide
  | some w => exact IsMarkup.append (show IsMarkup [' '] by decide) (h w rfl).isMarkup

namespace WrittenHead

variable {written : WrittenHead}

theorem isMarkup_behind (written : WrittenHead) : IsMarkup written.behind := by
  cases written <;> rw [behind] <;> decide

theorem Accepts.isMarkup (h : written.Accepts p) : IsMarkup written.before := by
  have hasync : ∀ isAsync, IsMarkup (wordRow (asyncWords isAsync)) := fun isAsync =>
    isMarkup_wordRow (isMemberModifier_asyncWords isAsync)
  have hparen : IsMarkup ['('] := by decide
  cases written with
  | function isAsync isGenerator name =>
    have hword : IsMarkup "function".toList := by decide
    exact ((((hasync isAsync).append hword).append (isMarkup_starMark isGenerator)).append
      (isMarkup_spacedName h.1)).append hparen
  | arrow isAsync => exact (hasync isAsync).append hparen
  | bareArrow isAsync => exact hasync isAsync
  | method modifiers isGenerator name =>
    exact (((isMarkup_wordRow h.1).append (isMarkup_starMark isGenerator)).append
      h.2.1.isMarkup).append hparen

theorem behind_eq_cons (written : WrittenHead) :
    ∃ c rest, written.behind = c :: rest ∧ Zone.IsInert (some c) := by
  cases written <;> exact ⟨_, _, rfl, by decide, by decide⟩

theorem Accepts.cleans (h : written.Accepts p) (next : Option Char) :
    Cleans next (written.before ++ p ++ written.behind)
      (written.before ++ p ++ written.behind) := by
  obtain ⟨horderly, hclean⟩ := h.parameters
  obtain ⟨c, tail, htail, hinert⟩ := written.behind_eq_cons
  have hp : Cleans (written.behind.head?.or next) p p :=
    .of_clean horderly.quiet hclean (by rw [htail]; exact hinert)
  exact ((h.isMarkup.cleans _).append hp).append ((isMarkup_behind written).cleans next)

/-- A written head stays as it is when the comments of its source are blanked
out. -/
theorem Accepts.exists_of_cleaned (h : written.Accepts p) {b cleaned : Text}
    (hcleaned : withoutComments (written.before ++ p ++ written.behind ++ b) = .ok cleaned) :
    ∃ rest, cleaned = written.before ++ p ++ written.behind ++ rest :=
  (h.cleans _).exists_of_append hcleaned

end WrittenHead

/-- Every written head is recognised, with its name, its marks and the range
of its parameters. -/
theorem ofSource_written {written : WrittenHead} {p b cleaned : Text} (h : written.Accepts p)
    (hcleaned : withoutComments (written.before ++ p ++ written.behind ++ b) = .ok cleaned)
    (hnative : isNative (written.before ++ p ++ written.behind ++ b) = false) :
    Declaration.ofSource (written.before ++ p ++ written.behind ++ b)
      = .ok (.callable
        { name := written.name
          form := written.form
          parameters := ⟨p, written.before.width⟩ }) := by
  have hblank : (written.before ++ p ++ written.behind ++ b).isBlank = false := by
    have hfirst := (h.reads b).first
    obtain ⟨c, tail, htail, -⟩ := written.behind_eq_cons
    cases hsource : written.before ++ p ++ written.behind ++ b with
    | nil => simp [htail] at hsource
    | cons d source =>
      rw [hsource, List.head?_cons, Option.any_some] at hfirst
      simp [Text.isBlank, hfirst]
  obtain ⟨rest, rfl⟩ := h.exists_of_cleaned hcleaned
  rw [Declaration.ofSource, hblank, if_neg Bool.false_ne_true, hnative,
    if_neg Bool.false_ne_true, hcleaned]
  exact (h.reads rest).ofCode

theorem ofSource_written_asyncGenerator :
    Declaration.ofSource r"static async *get(a = '(') { /* } */ }".toList
      = .ok (.callable
        { name := "get".toList
          form := { isAsync := true, isGenerator := true }
          parameters := ⟨"a = '('".toList, 18⟩ }) :=
  @ofSource_written (.method ["static".toList, "async".toList] true "get".toList)
    "a = '('".toList r" /* } */ }".toList
    "static async *get(a = '(') {         }".toList
    ⟨by decide, by decide +kernel, by decide, orderly_iff_fault.2 (by decide +kernel),
      by decide +kernel⟩
    (by decide +kernel) (by decide +kernel)

end

end CallSignature
