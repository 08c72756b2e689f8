/-
CallSignature.Proofs.Head.Words — what a cursor does before a known text.

Heads are made of words with a space behind each, of an asterisk, and of a
parameter list.  For a cursor that stands before one of these there is one
equation per step, which says where the step leads whatever follows.

The words of a head are words only by their place, and what decides is how
the text behind a word begins: `BeginsMember` says that a word may still be a
modifier there, and `NoArrow` that what the cursor stands before is not the
parameters of an arrow.
-/
import CallSignature.Declaration
import CallSignature.Proofs.Head.Lists
import CallSignature.Proofs.Text.Trimming

namespace CallSignature

open Cursor Unicode

/-- The text is a name that a head may have. -/
def IsWord (w : Text) : Prop :=
  name? w = some w

instance (w : Text) : Decidable (IsWord w) :=
  inferInstanceAs (Decidable (name? w = some w))

/-- The name of a callable ends before this text. -/
def EndsWord (t : Text) : Prop :=
  t.head?.any isNameContinue = false

theorem endsWord_cons {c : Char} (hc : c ∈ nonNameChars) (t : Text) : EndsWord (c :: t) := by
  simp [EndsWord, isNameContinue_of_nonName hc]

theorem endsWord_space (t : Text) : EndsWord (' ' :: t) :=
  endsWord_cons (by decide) t

theorem endsWord_paren (t : Text) : EndsWord ('(' :: t) :=
  endsWord_cons (by decide) t

theorem IsWord.exists_eq {w : Text} (h : IsWord w) :
    ∃ c rest, w = c :: rest ∧ isWhiteSpace c = false ∧ endsName c = false ∧ c ≠ '*' ∧
      ∀ d ∈ rest, isNameContinue d = true := by
  cases w with
  | nil => cases h
  | cons c rest =>
    have hnot : ∀ d ∈ nonNameChars, d ≠ '#' → c ≠ d := fun d hd hsharp heq =>
      not_mem_name h hd hsharp (by simp [heq])
    refine ⟨c, rest, rfl, isWhiteSpace_of_mem_name h c (by simp), ?_,
      hnot _ (by decide) (by decide), fun d hd => ?_⟩
    · simp [endsName, hnot '(' (by decide) (by decide), hnot '=' (by decide) (by decide),
        hnot '{' (by decide) (by decide), hnot '\x00' (by decide) (by decide)]
    · rw [IsWord, name?] at h
      split at h
      · obtain ⟨-, htake⟩ := List.cons.inj (Option.some.inj h)
        rw [← htake] at hd
        exact List.mem_takeWhile_imp hd
      · cases h

/-- The marks that stand between the words of a head. -/
def headMarks : List Char := ['(', '*', '=', '{']

theorem isWhiteSpace_mark {c : Char} (hc : c ∈ headMarks) : isWhiteSpace c = false := by
  have hall : headMarks.all (fun c => !isWhiteSpace c) = true := by decide
  simpa using List.all_eq_true.1 hall c hc

theorem head?_mark {c : Char} (hc : c ∈ headMarks) (t : Text) :
    (c :: t).head?.any isWhiteSpace = false := by
  simp [isWhiteSpace_mark hc]

theorem trimStart_mark {c : Char} (hc : c ∈ headMarks) (t : Text) :
    Text.trimStart (c :: t) = c :: t := by
  simp [Text.trimStart, isWhiteSpace_mark hc]

theorem trimStart_space (t : Text) : Text.trimStart (' ' :: t) = t.trimStart :=
  Text.trimStart_append_of_isBlank (show Text.isBlank [' '] = true by decide) t

/-! ## Steps -/

section

variable {k s t w : Text}

theorem skipWhiteSpace_append (hs : s.isBlank = true) (ht : t.head?.any isWhiteSpace = false) :
    (⟨k, s ++ t⟩ : Cursor).skipWhiteSpace = ⟨s.reverse ++ k, t⟩ := by
  have htake : (s ++ t).takeWhile isWhiteSpace = s := by
    rw [List.takeWhile_append_of_pos (List.all_eq_true.1 hs)]
    cases t with
    | nil => simp
    | cons c t => simpa using ht
  have hpass := passes_skipWhiteSpace ⟨k, s ++ t⟩
  simp only [htake] at hpass
  exact hpass.eq rfl

theorem skipWhiteSpace_eq_self (ht : t.head?.any isWhiteSpace = false) :
    (⟨k, t⟩ : Cursor).skipWhiteSpace = ⟨k, t⟩ :=
  skipWhiteSpace_append (show Text.isBlank [] = true from rfl) ht

theorem skipWhiteSpace_space (ht : t.head?.any isWhiteSpace = false) :
    (⟨k, ' ' :: t⟩ : Cursor).skipWhiteSpace = ⟨' ' :: k, t⟩ :=
  skipWhiteSpace_append (show Text.isBlank [' '] = true by decide) ht

theorem identifier_word (hw : IsWord w) (ht : EndsWord t) :
    (⟨k, w ++ t⟩ : Cursor).identifier = some (w, ⟨w.reverse ++ k, t⟩) := by
  rw [identifier, name?_append hw ht]
  exact congrArg (fun d => some (w, d)) ((passes_advance rfl).eq rfl)

theorem identifier_mark {c : Char} (hc : c ∈ headMarks) :
    (⟨k, c :: t⟩ : Cursor).identifier = none := by
  have hall : headMarks.all (fun c => nonNameChars.contains c && c != '#') = true := by decide
  obtain ⟨hnonName, hsharp⟩ : c ∈ nonNameChars ∧ c ≠ '#' := by
    simpa using List.all_eq_true.1 hall c hc
  exact identifier_eq_none rfl hnonName hsharp

/-- A word is matched by itself only. -/
theorem matchWord_word {word : Text} (hword : word.all isNameContinue = true)
    (hne : word ≠ []) (hw : IsWord w) (ht : EndsWord t) :
    (⟨k, w ++ t⟩ : Cursor).matchWord word
      = if w = word then some ⟨w.reverse ++ k, t⟩ else none := by
  unfold matchWord
  by_cases heq : w = word
  · subst heq
    have hstarts : (⟨k, w ++ t⟩ : Cursor).startsWithWord w = true := by
      unfold EndsWord at ht
      simp [startsWithWord, ht]
    rw [if_pos rfl, if_pos hstarts]
    exact congrArg some ((passes_advance rfl).eq rfl)
  · rw [if_neg heq, if_neg]
    intro hstarts
    simp only [startsWithWord, Bool.and_eq_true, Bool.not_eq_true'] at hstarts
    obtain ⟨hbegins, hends⟩ := hstarts
    obtain ⟨rest, hrest⟩ := List.isPrefixOf_iff_prefix.1 hbegins
    rw [← hrest, List.drop_left] at hends
    obtain ⟨c, tail, rfl, -, -, -, htail⟩ := hw.exists_eq
    rcases List.append_eq_append_iff.1 hrest with ⟨u, hu, -⟩ | ⟨u, hu, hu'⟩
    · -- the longer word goes on with a character of a name
      cases u with
      | nil => exact heq (by simpa using hu)
      | cons d u =>
        obtain ⟨e, word, rfl⟩ := List.exists_cons_of_ne_nil hne
        obtain ⟨rfl, rfl⟩ := List.cons.inj hu
        obtain rfl : rest = d :: u ++ t := by simpa using hrest
        rw [List.cons_append, List.head?_cons, Option.any_some, htail d (by simp)] at hends
        cases hends
    · cases u with
      | nil => exact heq (by simpa using hu.symm)
      | cons d u =>
        rw [EndsWord, hu', List.cons_append, List.head?_cons, Option.any_some,
          List.all_eq_true.1 hword d (by rw [hu]; simp)] at ht
        cases ht

theorem matchWord_mark {word : Text} {c : Char} (h : word.head? ≠ some c) (hne : word ≠ []) :
    (⟨k, c :: t⟩ : Cursor).matchWord word = none := by
  obtain ⟨d, word, rfl⟩ := List.exists_cons_of_ne_nil hne
  have hdc : d ≠ c := by simpa using h
  rw [matchWord, if_neg]
  simp [startsWithWord, List.isPrefixOf, hdc]

theorem ofCursor_list {p : Text} (hp : Orderly p) :
    ParameterList.ofCursor ⟨k, '(' :: (p ++ ')' :: t)⟩
      = .ok (⟨p, k.width + 1⟩, ⟨('(' :: p ++ [')']).reverse ++ k, t⟩) :=
  ofCursor_eq_ok_iff.2 ⟨⟨by simp, rfl⟩, hp, rfl⟩

theorem ofArrow_word (hw : IsWord w) (ht : EndsWord t) :
    ParameterList.ofArrow ⟨k, w ++ t⟩ = .ok (some (⟨w, k.width⟩, ⟨w.reverse ++ k, t⟩)) := by
  obtain ⟨c, rest, rfl, -, hends, -, -⟩ := hw.exists_eq
  have hparen : c ≠ '(' := by
    rintro rfl
    cases hends
  rw [ParameterList.ofArrow, if_neg (by simpa [peek] using hparen), identifier_word hw ht]
  rfl

theorem ofArrow_list {p : Text} (hp : Orderly p) :
    ParameterList.ofArrow ⟨k, '(' :: (p ++ ')' :: t)⟩
      = .ok (some (⟨p, k.width + 1⟩, ⟨('(' :: p ++ [')']).reverse ++ k, t⟩)) := by
  rw [ParameterList.ofArrow, if_pos (by simp [peek]), ofCursor_list hp]
  rfl

theorem matchText_arrow {c : Cursor} (h : c.rest.head? ≠ some '=') :
    c.matchText ['=', '>'] = none := by
  rw [matchText, if_neg]
  cases hrest : c.rest with
  | nil => simp
  | cons d rest =>
    rw [hrest] at h
    have hd : '=' ≠ d := fun heq => h (by rw [heq]; rfl)
    simp [List.isPrefixOf, hd]

end

/-! ## No arrow -/

/-- The text does not begin with the parameters of an arrow, and a cursor
before it finds that out without a fault. -/
def NoArrow (t : Text) : Prop :=
  ∀ isAsync k, ∃ d, Head.arrow isAsync ⟨k, t⟩ = .ok (none, d)

section

variable {t w p : Text}

theorem noArrow_of_ofArrow (h : ∀ k, ∃ found, ParameterList.ofArrow ⟨k, t⟩ = .ok found ∧
    ∀ list d, found = some (list, d) → d.rest.trimStart.head? ≠ some '=') : NoArrow t := by
  intro isAsync k
  obtain ⟨found, hfound, hnext⟩ := h k
  rw [Head.arrow, hfound]
  cases found with
  | none => exact ⟨_, rfl⟩
  | some pair =>
    have hmark : pair.2.skipWhiteSpace.rest.head? ≠ some '=' := by
      rw [rest_skipWhiteSpace]
      exact hnext pair.1 pair.2 rfl
    simp only [matchText_arrow hmark]
    exact ⟨_, rfl⟩

theorem noArrow_word (hw : IsWord w) (ht : EndsWord t) (hmark : t.trimStart.head? ≠ some '=') :
    NoArrow (w ++ t) := by
  refine noArrow_of_ofArrow fun k => ⟨_, ofArrow_word hw ht, ?_⟩
  rintro list d ⟨⟩
  exact hmark

theorem noArrow_star (t : Text) : NoArrow ('*' :: t) := by
  refine noArrow_of_ofArrow fun k => ?_
  rw [ParameterList.ofArrow, if_neg (by simp [peek]), identifier_mark (by decide)]
  refine ⟨none, rfl, ?_⟩
  intro list d hfound
  cases hfound

theorem noArrow_list (hp : Orderly p) (hmark : t.trimStart.head? ≠ some '=') :
    NoArrow ('(' :: (p ++ ')' :: t)) := by
  refine noArrow_of_ofArrow fun k => ⟨_, ofArrow_list hp, ?_⟩
  rintro list d ⟨⟩
  exact hmark

end

/-! ## Modifiers -/

/-- The text begins in a way that leaves the word before it a modifier. -/
def BeginsMember (t : Text) : Prop :=
  ∃ c rest, t = c :: rest ∧ isWhiteSpace c = false ∧ endsName c = false

/-- The words, each with a space behind it. -/
def wordRow (words : List Text) : Text :=
  words.flatMap (· ++ [' '])

/-- A cursor that stands before the text has no modifier before it. -/
def StopsModifiers (t : Text) : Prop :=
  ∀ isAsync k, modifiers isAsync ⟨k, t⟩ = (isAsync, ⟨k, t⟩)

section

variable {t w : Text} {words : List Text}

theorem wordRow_cons (w : Text) (words : List Text) (t : Text) :
    wordRow (w :: words) ++ t = w ++ ' ' :: (wordRow words ++ t) := by
  simp [wordRow]

theorem isWord_of_isMemberModifier (h : isMemberModifier w = true) : IsWord w := by
  have hmem : w ∈ memberModifiers := by simpa [isMemberModifier] using h
  simp only [memberModifiers, List.mem_cons, List.not_mem_nil, or_false] at hmem
  rcases hmem with rfl | rfl | rfl | rfl <;> decide

theorem BeginsMember.head (h : BeginsMember t) : t.head?.any isWhiteSpace = false := by
  obtain ⟨c, rest, rfl, hspace, -⟩ := h
  exact hspace

theorem BeginsMember.trimStart_eq (h : BeginsMember t) : Text.trimStart (' ' :: t) = t := by
  obtain ⟨c, rest, rfl, hspace, -⟩ := h
  rw [trimStart_space, Text.trimStart, List.dropWhile_cons, if_neg (by simp [hspace])]

theorem BeginsMember.head?_ne (h : BeginsMember t) : t.head? ≠ some '=' := by
  obtain ⟨c, rest, rfl, -, hends⟩ := h
  rintro ⟨⟩
  cases hends

theorem beginsMember_word (hw : IsWord w) (t : Text) : BeginsMember (w ++ t) := by
  obtain ⟨c, rest, rfl, hspace, hends, -, -⟩ := hw.exists_eq
  exact ⟨c, rest ++ t, rfl, hspace, hends⟩

theorem beginsMember_star (t : Text) : BeginsMember ('*' :: t) :=
  ⟨'*', t, rfl, by decide, by decide⟩

theorem beginsMember_row (hwords : ∀ m ∈ words, isMemberModifier m = true)
    (ht : BeginsMember t) : BeginsMember (wordRow words ++ t) := by
  cases words with
  | nil => exact ht
  | cons m words =>
    rw [wordRow_cons]
    exact beginsMember_word (isWord_of_isMemberModifier (hwords m (by simp))) _

theorem stopsModifiers_star (t : Text) : StopsModifiers ('*' :: t) :=
  fun _ _ => modifiers_of_none (identifier_mark (by decide))

theorem stopsModifiers_word (hw : IsWord w) (ht : EndsWord t)
    (h : isMemberModifier w = true → endsName (t.trimStart.headD '\x00') = true) :
    StopsModifiers (w ++ t) := by
  intro isAsync k
  rw [modifiers_of_some (identifier_word hw ht), if_neg]
  rw [peek, rest_skipWhiteSpace]
  intro hmore
  obtain ⟨hmodifier, hends⟩ := Bool.and_eq_true_iff.1 hmore
  rw [h hmodifier] at hends
  cases hends

theorem modifiers_cons (hm : isMemberModifier w = true) (ht : BeginsMember t) (isAsync : Bool)
    (k : Text) : modifiers isAsync ⟨k, w ++ ' ' :: t⟩
      = modifiers (isAsync || w == "async".toList) ⟨' ' :: (w.reverse ++ k), t⟩ := by
  have hword := isWord_of_isMemberModifier hm
  have hspace : (⟨w.reverse ++ k, ' ' :: t⟩ : Cursor).skipWhiteSpace
      = ⟨' ' :: (w.reverse ++ k), t⟩ := skipWhiteSpace_space ht.head
  obtain ⟨c, rest, rfl, -, hends⟩ := ht
  rw [modifiers_of_some (identifier_word hword (endsWord_space _)), hspace,
    if_pos (by simp [hm, peek, hends])]

/-- All modifiers of a row are read, and `async` is noticed among them. -/
theorem modifiers_row (hwords : ∀ m ∈ words, isMemberModifier m = true) (ht : BeginsMember t)
    (hstop : StopsModifiers t) (isAsync : Bool) (k : Text) :
    modifiers isAsync ⟨k, wordRow words ++ t⟩
      = (isAsync || words.contains "async".toList, ⟨(wordRow words).reverse ++ k, t⟩) := by
  induction words generalizing isAsync k with
  | nil => simpa [wordRow] using hstop isAsync k
  | cons m words ih =>
    obtain ⟨hm, hwords⟩ := List.forall_mem_cons.1 hwords
    rw [wordRow_cons, modifiers_cons hm (beginsMember_row hwords ht), ih hwords]
    have hcontains : (m :: words).contains "async".toList
        = (m == "async".toList || words.contains "async".toList) := by
      rw [List.contains_cons, Bool.beq_comm]
    rw [hcontains, Bool.or_assoc]
    simp [wordRow]

end

end CallSignature
