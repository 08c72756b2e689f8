/-
CallSignature.Proofs.Description.Names — names that are bindable and names
that are readable.

A parameter may be called by any identifier.  In front of a parameter list and
in front of an arrow, however, a name is read by other properties of its
characters, and not every identifier is read there as a whole: `IsReadable`
says which are.

An identifier in parentheses is always described as the parameter that it is.
As the name of a function, and as a parameter without parentheses, it is
described exactly if it is readable as a whole; otherwise the reader stops at
the first character that it does not take for a part of a name.
-/
import CallSignature.Proofs.Description.Comments
import CallSignature.Proofs.Head.Classes
import CallSignature.Proofs.Head.Recognition
import CallSignature.Proofs.Parameter.Identifiers
import Mathlib.Data.List.Basic

namespace CallSignature

open Cursor Unicode

/-! ## Describing a callable -/

/-- A callable that is declared in the source is described by its head and
its parameters. -/
theorem describeText_of_callable {s : Text} {head : Head} {parameters : List Parameter}
    (hsource : Declaration.ofSource s = .ok (.callable head))
    (hown : head.inheritedFrom = none)
    (hparameters : Options.parameters {} head.parameters.text = .ok parameters)
    (hlast : checkRestLast parameters = .ok ()) :
    describeText s = .ok
      { name := head.name, form := head.form, parameters
        minArity := minArity parameters, maxArity := maxArity parameters } := by
  have hnamed : Callable.named { source := some s } head = head := by
    rw [Callable.named]
    split
    · rename_i hempty
      obtain ⟨name, form, list, inherited⟩ := head
      obtain rfl : name = [] := List.isEmpty_iff.1 hempty
      rfl
    · rfl
  have hhead : Options.head {} Registry.empty s = .ok head := by rw [Options.head, hsource]
  have hfound : Options.parametersOf {} head = .ok parameters := by
    rw [Options.parametersOf, hparameters, hown]
    rfl
  show ((Options.head {} Registry.empty s >>= _).map _) = _
  rw [hhead]
  show ((Options.parametersOf {} head >>= _).map _) = _
  rw [hfound]
  show ((Descriptor.ofHead (Callable.named { source := some s } head) parameters).map _) = _
  rw [hnamed, Descriptor.ofHead, hlast]
  rfl

theorem beforeMark?_eq_some_iff {mark t before : Text} :
    beforeMark? mark t = some before ↔ t.trimEnd = before ++ mark := by
  rw [beforeMark?, Option.map_eq_some_iff]
  constructor
  · rintro ⟨found, hfound, rfl⟩
    simpa using congrArg List.reverse (Text.afterPrefix?_eq_some_iff.1 hfound)
  · intro h
    refine ⟨before.reverse, Text.afterPrefix?_eq_some_iff.2 ?_, List.reverse_reverse before⟩
    rw [h, List.reverse_append]

/-- A source says that it is native with a mark in curly brackets at its end. -/
theorem exists_of_isNative {s : Text} (h : isNative s = true) :
    ∃ inner body, s.trimEnd = inner ++ ['}'] ∧
      inner.trimEnd = body ++ "[native code]".toList := by
  rw [isNative, Option.isSome_iff_exists] at h
  obtain ⟨last, h⟩ := h
  obtain ⟨body, hbody, -⟩ := Option.bind_eq_some_iff.1 h
  obtain ⟨inner, hinner, hbody⟩ := Option.bind_eq_some_iff.1 hbody
  exact ⟨inner, body, beforeMark?_eq_some_iff.1 hinner, beforeMark?_eq_some_iff.1 hbody⟩

/-- The word for native code stands in square brackets. -/
theorem mem_of_isNative {s : Text} (h : isNative s = true) : '[' ∈ s := by
  obtain ⟨inner, body, hs, hinner⟩ := exists_of_isNative h
  obtain ⟨r, -, hs'⟩ := Text.exists_trimEnd s
  obtain ⟨r', -, hinner'⟩ := Text.exists_trimEnd inner
  have hmark : '[' ∈ body ++ "[native code]".toList := List.mem_append_right _ (by decide)
  have hmem : '[' ∈ inner := by
    rw [hinner', hinner]
    exact List.mem_append_left _ hmark
  rw [hs', hs]
  exact List.mem_append_left _ (List.mem_append_left _ hmem)

/-- A source without comments and without native code is read as it is. -/
theorem ofSource_eq_ofCode {s : Text} {c : Char} (hc : c ∈ s)
    (hvisible : isWhiteSpace c = false) (hslash : '/' ∉ s) (hsquare : '[' ∉ s) :
    Declaration.ofSource s = Declaration.ofCode s := by
  have hblank : s.isBlank = false := Bool.eq_false_iff.2 fun hblank => by
    rw [Text.isBlank_iff.1 hblank c hc] at hvisible
    cases hvisible
  exact ofSource_of_withoutComments hblank
    (Bool.eq_false_iff.2 fun h => hsquare (mem_of_isNative h))
    (withoutComments_eq_self_iff.2 (Zone.cleaned_of_lacksSlash hslash))

/-- An identifier brings neither comments nor native code into a source. -/
theorem ofSource_around {w : Text} (h : isIdentifier w = true) {a b : Text}
    (hslash : '/' ∉ a ++ b) (hsquare : '[' ∉ a ++ b) :
    Declaration.ofSource (a ++ w ++ b) = Declaration.ofCode (a ++ w ++ b) := by
  have hlacks : ∀ c ∈ nonIdentifierChars, c ∉ a ++ b → c ∉ a ++ w ++ b := by
    intro c hc
    simp only [List.mem_append, not_or]
    exact fun ⟨ha, hb⟩ => ⟨⟨ha, not_mem_identifier h hc⟩, hb⟩
  obtain ⟨c, rest, rfl, hvisible, -⟩ := exists_cons_of_isIdentifier h
  exact ofSource_eq_ofCode (c := c) (by simp) hvisible (hlacks '/' (by decide) hslash)
    (hlacks '[' (by decide) hsquare)

/-! ## Sources with one name -/

/-- A function of that name, without parameters. -/
def functionSource (w : Text) : Text :=
  "function".toList ++ ' ' :: w ++ "() {}".toList

theorem functionSource_eq (w : Text) :
    functionSource w = "function".toList ++ ' ' :: (w ++ "() {}".toList) :=
  List.append_assoc ..

/-- An arrow function with that parameter, without parentheses. -/
def bareArrowSource (w : Text) : Text :=
  w ++ " => 0".toList

/-- An arrow function with that parameter in parentheses. -/
def listArrowSource (w : Text) : Text :=
  '(' :: w ++ ") => 0".toList

/-- The description of a function of that name, without parameters. -/
def nullaryFunction (w : Text) : Descriptor :=
  { name := w, form := {}, parameters := [], minArity := 0, maxArity := .bounded 0 }

/-- The description of an arrow function with that parameter. -/
def unaryArrow (w : Text) : Descriptor :=
  { name := [], form := { isArrow := true }, parameters := [⟨w, .bare w, none⟩]
    minArity := 1, maxArity := .bounded 1 }

section

variable {w : Text} (h : isIdentifier w = true)

include h

theorem ofSource_functionSource :
    Declaration.ofSource (functionSource w) = Declaration.ofCode (functionSource w) := by
  have haround := ofSource_around h (a := "function".toList ++ [' ']) (b := "() {}".toList)
    (by decide) (by decide)
  rwa [List.append_assoc "function".toList] at haround

theorem ofSource_listArrowSource :
    Declaration.ofSource (listArrowSource w) = Declaration.ofCode (listArrowSource w) :=
  ofSource_around h (a := ['(']) (by decide) (by decide)

theorem ofSource_bareArrowSource :
    Declaration.ofSource (bareArrowSource w) = Declaration.ofCode (bareArrowSource w) :=
  ofSource_around h (a := []) (by decide) (by decide)

/-- In parentheses every identifier is the parameter that it names. -/
theorem describeText_listArrowSource :
    describeText (listArrowSource w) = .ok (unaryArrow w) := by
  have hreads := (reads_arrow false (orderly_identifier h) " 0".toList).ofCode
  have htext : (WrittenHead.arrow false).before ++ w ++ (WrittenHead.arrow false).behind
      ++ " 0".toList = listArrowSource w := by
    simp [WrittenHead.before, WrittenHead.behind, asyncWords, wordRow, listArrowSource]
  rw [htext, ← ofSource_listArrowSource h] at hreads
  exact describeText_of_callable hreads rfl (parameters_identifier h {}) rfl

/-- An identifier that is readable is the parameter without parentheses too. -/
theorem describeText_bareArrowSource (hw : IsWord w) :
    describeText (bareArrowSource w) = .ok (unaryArrow w) := by
  have hclass : w ≠ "class".toList := by
    rintro rfl
    exact absurd h (by decide)
  have hreads := (reads_bareArrow false hw hclass " 0".toList).ofCode
  have htext : (WrittenHead.bareArrow false).before ++ w
      ++ (WrittenHead.bareArrow false).behind ++ " 0".toList = bareArrowSource w := by
    simp [WrittenHead.before, WrittenHead.behind, asyncWords, wordRow, bareArrowSource]
  rw [htext, ← ofSource_bareArrowSource h] at hreads
  exact describeText_of_callable hreads rfl (parameters_identifier h {}) rfl

/-- An identifier that is readable names a function. -/
theorem describeText_functionSource (hw : IsWord w) :
    describeText (functionSource w) = .ok (nullaryFunction w) := by
  have hname : ∀ v ∈ some w, IsWord v := by
    rintro v ⟨⟩
    exact hw
  have hreads := (reads_function false false hname orderly_nil " {}".toList).ofCode
  have htext : (WrittenHead.function false false (some w)).before ++ []
      ++ (WrittenHead.function false false (some w)).behind ++ " {}".toList
        = functionSource w := by
    simp [WrittenHead.before, WrittenHead.behind, asyncWords, wordRow, starMark, spacedName,
      functionSource_eq]
  rw [htext, ← ofSource_functionSource h] at hreads
  exact describeText_of_callable hreads rfl rfl rfl

end

/-! ## Names that are not readable as a whole -/

/-- The front of the text that is readable as a name. -/
def readableFront (w : Text) : Text :=
  (name? w).getD []

/-- What ends a name in front of a text ends every part of it. -/
theorem name?_append_of_endsWord {w t : Text} (hne : w ≠ []) (hsharp : '#' ∉ w)
    (ht : EndsWord t) : name? (w ++ t) = name? w := by
  cases w with
  | nil => exact absurd rfl hne
  | cons c rest =>
    have hc : (c == '#') = false := by
      simpa using fun heq => hsharp (by simp [heq])
    have hnone : t.takeWhile isNameContinue = [] := by
      cases t with
      | nil => rfl
      | cons d t => simpa [EndsWord] using ht
    have htake : (rest ++ t).takeWhile isNameContinue = rest.takeWhile isNameContinue := by
      rw [List.takeWhile_append, hnone]
      split
      · rename_i hlength
        rw [List.append_nil]
        exact ((List.takeWhile_sublist _).eq_of_length hlength).symm
      · rfl
    rw [List.cons_append, name?, name?, hc, Bool.false_and, Bool.false_and, htake]

/-- Each character of the text is one by which a name is read. -/
def IsReadable (w : Text) : Prop :=
  w.head?.any isNameStart = true ∧ w.all isNameContinue = true

instance (w : Text) : Decidable (IsReadable w) :=
  inferInstanceAs (Decidable (_ ∧ _))

theorem IsReadable.isWord {w : Text} (h : IsReadable w) : IsWord w := by
  cases w with
  | nil => cases h.1
  | cons c rest =>
    have htake : rest.takeWhile isNameContinue = rest :=
      List.takeWhile_eq_self_iff.2 fun d hd =>
        List.all_eq_true.1 h.2 d (List.mem_cons_of_mem c hd)
    have hc : isNameStart c = true := by simpa using h.1
    rw [IsWord, name?, htake, hc, Bool.true_or, if_pos rfl]

/-- Only the number sign is part of a name by its place and not by itself. -/
theorem isReadable_of_isWord {w : Text} (h : IsWord w) (hsharp : '#' ∉ w) : IsReadable w := by
  constructor
  · cases w with
    | nil => cases h
    | cons c rest =>
      have hc : c ≠ '#' := fun heq => hsharp (by simp [heq])
      rw [IsWord, name?] at h
      split at h
      · rename_i hstart
        simpa [hc] using hstart
      · cases h
  · refine List.all_eq_true.2 fun c hc => ?_
    refine (isNameContinue_of_mem_name? h c hc).resolve_left ?_
    rintro rfl
    exact hsharp hc

theorem filter_isBlank {t : Text} (h : t.isBlank = true) : t.filter (!isWhiteSpace ·) = [] :=
  List.filter_eq_nil_iff.2 fun c hc => by simp [Text.isBlank_iff.1 h c hc]

/-- Two rows of words that differ in white space are compared without it. -/
theorem eq_filter_append_of_spaced {w a name between : Text}
    (hw : ∀ c ∈ w, isWhiteSpace c = false) (hname : ∀ c ∈ name, isWhiteSpace c = false)
    (hbetween : between.isBlank = true) (h : w ++ [' '] = a ++ name ++ between) :
    w = a.filter (!isWhiteSpace ·) ++ name := by
  have hkept :
      ∀ {t : Text}, (∀ c ∈ t, isWhiteSpace c = false) → t.filter (!isWhiteSpace ·) = t :=
    fun ht => List.filter_eq_self.2 fun c hc => by simp [ht c hc]
  have hspace : Text.isBlank [' '] = true := by decide
  have hfilter := congrArg (List.filter (!isWhiteSpace ·)) h
  rwa [List.filter_append, List.filter_append, List.filter_append, hkept hw, hkept hname,
    filter_isBlank hbetween, filter_isBlank hspace, List.append_nil,
    List.append_nil] at hfilter

section

variable {w : Text} (h : isIdentifier w = true)

include h

/-- A character follows the front that is readable, unless that is all. -/
theorem exists_of_not_isWord (hw : ¬ IsWord w) :
    ∃ d tail, w = readableFront w ++ d :: tail := by
  have hparts : ∃ rest, w = readableFront w ++ rest ∧ rest ≠ [] := by
    rw [readableFront]
    cases hname : name? w with
    | none => exact ⟨w, rfl, ne_nil_of_isIdentifier h⟩
    | some name =>
      obtain ⟨rest, hrest, hword, -⟩ := name?_eq_some hname
      refine ⟨rest, hrest, ?_⟩
      rintro rfl
      rw [hrest, List.append_nil] at hw
      exact hw hword
  obtain ⟨rest, hrest, hne⟩ := hparts
  obtain ⟨d, tail, rfl⟩ := List.exists_cons_of_ne_nil hne
  exact ⟨d, tail, hrest⟩

/-- A reader of names gets behind the front that is readable. -/
theorem getD_identifier_eq {k t tail : Text} (hw : w = readableFront w ++ tail)
    (ht : EndsWord t) :
    (⟨k, w ++ t⟩ : Cursor).identifier.getD ([], ⟨k, w ++ t⟩)
      = (readableFront w, ⟨(readableFront w).reverse ++ k, tail ++ t⟩) := by
  have hsharp : '#' ∉ w := not_mem_identifier h (by decide)
  have hname := name?_append_of_endsWord (ne_nil_of_isIdentifier h) hsharp ht
  rw [identifier, hname]
  rw [readableFront] at hw ⊢
  cases hfront : name? w with
  | none =>
    rw [hfront] at hw
    rw [hw]
    rfl
  | some name =>
    rw [hfront] at hw
    have hrest : (⟨k, w ++ t⟩ : Cursor).rest = name ++ (tail ++ t) := by
      show w ++ t = _
      rw [hw, Option.getD_some, List.append_assoc]
    show (name, (⟨k, w ++ t⟩ : Cursor).advance name.length) = _
    rw [(passes_advance hrest).eq hrest]
    rfl

/-- Behind the word `function` a name that is not readable as a whole is taken
for one that no parameter list follows. -/
theorem function_identifier (hw : ¬ IsWord w) (k t : Text) (isAsync : Bool) :
    Head.function isAsync ⟨k, w ++ '(' :: t⟩
      = .error ((Cause.parameterListExpected.located
        (k.width + (readableFront w).width)).withHint .expectCallable) := by
  obtain ⟨d, tail, htail⟩ := exists_of_not_isWord h hw
  have hd : d ∈ w := by
    rw [htail]
    simp
  have hstar : (w ++ '(' :: t).head? ≠ some '*' := by
    obtain ⟨c, rest, hc, -, hne⟩ := exists_cons_of_isIdentifier h
    simpa [hc] using hne '*' (by decide)
  have hmark : generatorMark ⟨k, w ++ '(' :: t⟩ = (false, ⟨k, w ++ '(' :: t⟩) := by
    rw [generatorMark, matchChar, if_neg hstar]
  have hspace :
      (⟨(readableFront w).reverse ++ k, d :: tail ++ '(' :: t⟩ : Cursor).skipWhiteSpace
        = ⟨(readableFront w).reverse ++ k, d :: tail ++ '(' :: t⟩ :=
    skipWhiteSpace_eq_self (by simp [isWhiteSpace_of_mem_identifier h d hd])
  have hlist : ParameterList.ofCursor ⟨(readableFront w).reverse ++ k, d :: tail ++ '(' :: t⟩
      = .error ((Cause.parameterListExpected.located
        (k.width + (readableFront w).width)).withHint .expectCallable) := by
    have hparen : d ≠ '(' := by
      rintro rfl
      exact not_mem_identifier h (by decide) hd
    rw [ParameterList.ofCursor, if_neg (by simpa [peek] using hparen), Cursor.offset,
      Text.width_append, Text.width_reverse, Nat.add_comm]
  rw [Head.function, hmark]
  show (ParameterList.ofCursor ((⟨k, w ++ '(' :: t⟩ : Cursor).identifier.getD
    ([], ⟨k, w ++ '(' :: t⟩)).2.skipWhiteSpace >>= _) = _
  rw [getD_identifier_eq h htail (endsWord_paren t), hspace, hlist]
  rfl

/-- In front of an identifier the word `function` is no name. -/
theorem opensMember_functionSource (t : Text) :
    OpensMember ("function".toList ++ ' ' :: (w ++ t)) := by
  obtain ⟨c, rest, hc, hspace, hne⟩ := exists_cons_of_isIdentifier h
  have htrim : Text.trimStart (' ' :: (w ++ t)) = w ++ t := by
    rw [trimStart_space, Text.trimStart_eq_self]
    simpa [hc] using hspace
  refine opensMember_word isWord_function (endsWord_space _) ?_ (fun heq => by cases heq)
    fun heq => by cases heq
  rw [htrim]
  simpa [hc] using hne '=' (by decide)

theorem ofCode_functionSource (hw : ¬ IsWord w) :
    Declaration.ofCode (functionSource w) = .error
      ((Cause.parameterListExpected.located (9 + (readableFront w).width)).withHint
        .expectCallable) := by
  have hopens := opensMember_functionSource h "() {}".toList
  have hstop := stopsModifiers_word isWord_function (endsWord_space (w ++ "() {}".toList))
    fun hm => by cases hm
  have hspace : (⟨"function".toList.reverse ++ [], ' ' :: (w ++ "() {}".toList)⟩
      : Cursor).skipWhiteSpace
        = ⟨' ' :: ("function".toList.reverse ++ []), w ++ "() {}".toList⟩ := by
    obtain ⟨c, rest, hc, hspace, -⟩ := exists_cons_of_isIdentifier h
    exact skipWhiteSpace_space (by simpa [hc] using hspace)
  have hfunction := function_identifier h hw (' ' :: ("function".toList.reverse ++ []))
    ") {}".toList false
  have hread : Head.ofCursor ⟨[], functionSource w⟩ = .error
      ((Cause.parameterListExpected.located (9 + (readableFront w).width)).withHint
        .expectCallable) := by
    rw [functionSource_eq, hopens.ofCursor_eq, member_eq, hstop,
      matchWord_word (by decide) (by decide) isWord_function (endsWord_space _), if_pos rfl]
    dsimp only
    rw [hspace]
    exact hfunction
  rw [← functionSource_eq] at hopens
  rw [Declaration.ofCode, Cursor.ofText, skipWhiteSpace_eq_self hopens.begins.head,
    hopens.noClass, hread]
  rfl

/-- A name that is not readable as a whole names no function. -/
theorem describeText_functionSource_of_not_isWord (hw : ¬ IsWord w) :
    describeText (functionSource w) = .error
      ((Cause.parameterListExpected.located (9 + (readableFront w).width)).withHint
        .expectCallable) :=
  describe_eq_error ((ofSource_functionSource h).trans (ofCode_functionSource h hw)) {}
    Registry.empty {}

/-- In front of the arrow stands a name, or the word `async` and a name. -/
theorem exists_of_bareAhead {list : ParameterList}
    (hbare : BareAhead (Cursor.ofText (bareArrowSource w)) list) :
    IsWord list.text ∧ (w = list.text ∨ w = "async".toList ++ list.text) := by
  obtain ⟨a, d, hpass, ⟨between, behind, hrest, hname, hblank, -⟩, ha⟩ := hbare
  have hwhole : bareArrowSource w = a ++ d.rest := hpass.rest
  rw [hrest] at hwhole
  have htext : (w ++ [' ']) ++ '=' :: ['>', ' ', '0']
      = (a ++ list.text ++ between) ++ '=' :: '>' :: behind := by
    simpa [bareArrowSource] using hwhole
  have hequals : '=' ∉ w ++ [' '] := by
    simp [not_mem_identifier h (show '=' ∈ _ by decide)]
  have hfront := ((List.append_cons_inj_of_notMem hequals (by decide)).1 htext).1
  have hw := eq_filter_append_of_spaced (isWhiteSpace_of_mem_identifier h)
    (isWhiteSpace_of_mem_name hname) hblank hfront
  refine ⟨hname, ?_⟩
  rcases ha with rfl | ⟨space, rfl, hspace⟩
  · exact .inl hw
  · have hasync : ("async".toList ++ space).filter (!isWhiteSpace ·) = "async".toList := by
      rw [List.filter_append, filter_isBlank hspace]
      decide
    exact .inr (by rw [hw, hasync])

/-- What stands before an arrow is a name that is readable as a whole. -/
theorem isWord_of_bareAhead {list : ParameterList}
    (hbare : BareAhead (Cursor.ofText (bareArrowSource w)) list) : IsWord w := by
  obtain ⟨hname, heq | heq⟩ := exists_of_bareAhead h hbare
  · rwa [heq]
  · have hsharp : '#' ∉ list.text := fun hmem => not_mem_identifier h (show '#' ∈ _ by decide)
      (by simp [heq, hmem])
    have hasync : IsReadable "async".toList := by decide
    rw [heq]
    refine IsReadable.isWord ⟨hasync.1, ?_⟩
    rw [List.all_append, hasync.2, (isReadable_of_isWord hname hsharp).2, Bool.true_and]

theorem isWord_of_ofCode {declaration : Declaration}
    (hcode : Declaration.ofCode (bareArrowSource w) = .ok declaration) : IsWord w := by
  have hself : (Cursor.ofText (bareArrowSource w)).skipWhiteSpace
      = Cursor.ofText (bareArrowSource w) := by
    obtain ⟨c, rest, hc, hspace, -⟩ := exists_cons_of_isIdentifier h
    exact skipWhiteSpace_eq_self (by simpa [bareArrowSource, hc] using hspace)
  rw [Declaration.ofCode, hself] at hcode
  split at hcode
  · rename_i behind hclass
    obtain ⟨head, hhead, -⟩ := map_eq_ok hcode
    have hbody := mem_text_of_class hhead
    rw [(reaches_of_classStart? hclass).text_eq, text_ofText, bareArrowSource] at hbody
    have hcurly := not_mem_identifier h (show '{' ∈ _ by decide)
    simp [hcurly] at hbody
  · obtain ⟨head, hhead, -⟩ := map_eq_ok hcode
    rcases list_of_head hhead with ⟨a, behind, hrest, -⟩ | hbare
    · have hparen := not_mem_identifier h (show '(' ∈ _ by decide)
      have hmem : '(' ∈ bareArrowSource w := by
        rw [show bareArrowSource w = a ++ '(' :: head.parameters.text ++ ')' :: behind
          from hrest]
        simp
      simp [bareArrowSource, hparen] at hmem
    · exact isWord_of_bareAhead h hbare

theorem exists_fault_bareArrowSource (hw : ¬ IsWord w) :
    ∃ fault, describeText (bareArrowSource w) = .error fault := by
  cases hsource : Declaration.ofSource (bareArrowSource w) with
  | error fault => exact ⟨fault, describe_eq_error hsource {} Registry.empty {}⟩
  | ok declaration =>
    rw [ofSource_bareArrowSource h] at hsource
    exact absurd (isWord_of_ofCode h hsource) hw

end

/-! ## Two notions of a name -/

/-- In parentheses every identifier is described as the parameter that it is.
An identifier that is readable is described in the same way without them, and
as the name of a function.  Any other is refused in both places; in front of a
parameter list, behind the front of it that is readable. -/
theorem describeText_identifier {w : Text} (h : isIdentifier w = true) :
    describeText (listArrowSource w) = .ok (unaryArrow w) ∧
      (IsReadable w → describeText (functionSource w) = .ok (nullaryFunction w) ∧
        describeText (bareArrowSource w) = .ok (unaryArrow w)) ∧
      (¬ IsReadable w →
        describeText (functionSource w) = .error
          ((Cause.parameterListExpected.located (9 + (readableFront w).width)).withHint
            .expectCallable) ∧
        ∃ fault, describeText (bareArrowSource w) = .error fault) := by
  refine ⟨describeText_listArrowSource h, fun hw => ?_, fun hw => ?_⟩
  · exact ⟨describeText_functionSource h hw.isWord, describeText_bareArrowSource h hw.isWord⟩
  · have hnoWord : ¬ IsWord w := fun hword =>
      hw (isReadable_of_isWord hword (not_mem_identifier h (by decide)))
    exact ⟨describeText_functionSource_of_not_isWord h hnoWord,
      exists_fault_bareArrowSource h hnoWord⟩

/-- A name with a letter outside ASCII, and one with a zero-width non-joiner. -/
theorem describeText_identifier_nonJoiner :
    describeText (functionSource "\u00f1and\u00fa9".toList)
        = .ok (nullaryFunction "\u00f1and\u00fa9".toList) ∧
      describeText (bareArrowSource "\u00f1and\u00fa9".toList)
        = .ok (unaryArrow "\u00f1and\u00fa9".toList) ∧
      describeText (listArrowSource "a\u200cb".toList) = .ok (unaryArrow "a\u200cb".toList) ∧
      describeText (functionSource "a\u200cb".toList) = .error
        ((Cause.parameterListExpected.located 10).withHint .expectCallable) ∧
      ∃ fault, describeText (bareArrowSource "a\u200cb".toList) = .error fault := by
  obtain ⟨-, hletters, -⟩ :=
    describeText_identifier (w := "\u00f1and\u00fa9".toList) (by decide +kernel)
  obtain ⟨hfunction, harrow⟩ := hletters (by decide +kernel)
  obtain ⟨hlist, -, hjoined⟩ :=
    describeText_identifier (w := "a\u200cb".toList) (by decide +kernel)
  obtain ⟨hrefused, hnoArrow⟩ := hjoined (by decide +kernel)
  have hfront : (readableFront "a\u200cb".toList).width = 1 := by decide +kernel
  rw [hfront] at hrefused
  exact ⟨hfunction, harrow, hlist, hrefused, hnoArrow⟩

/-- Not every name that a parameter may have is read in front of a parameter
list and in front of an arrow. -/
theorem not_forall_describeText_identifier :
    ¬ ∀ w, isIdentifier w = true →
      (∃ d, describeText (functionSource w) = .ok d ∧ d.name = w) ∧
        ∃ d d', describeText (bareArrowSource w) = .ok d ∧
          describeText (listArrowSource w) = .ok d' ∧ d.parameters = d'.parameters ∧
          d.parameters.map (·.name) = [w] := by
  intro h
  obtain ⟨⟨d, hd, -⟩, -⟩ := h "a\u200cb".toList (by decide +kernel)
  have hrefused : describeText (functionSource "a\u200cb".toList) = .error
      ((Cause.parameterListExpected.located 10).withHint .expectCallable) := by
    decide +kernel
  rw [hrefused] at hd
  cases hd

end CallSignature
