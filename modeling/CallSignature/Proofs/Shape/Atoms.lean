/-
CallSignature.Proofs.Shape.Atoms — what a shape keeps of its source.

The ATOMS of a pattern are the keys and the leaves of its shape, from left to
right.  `Shape.Spelled` relates a text to the shape that it spells and to the
atoms, and is all about texts: a list is a row of pieces with commas between
them, an entry is a key, a sign and a value, and only an entry that begins
with three dots gives its key once although its shape holds it twice.

Two inductions meet at this relation.  What the reader makes of a token is
spelled by it (`spelled_of_shapeWithin`, on the room that is left), and the
atoms of what a text spells stand in the text, one behind the other, with
nothing but white space and punctuation between them (`isStrung_of_spelled`,
on the shape).  So reading a pattern loses nothing and repeats nothing.
-/
import CallSignature.Proofs.Shape.Produced

namespace CallSignature

open Shape Unicode

/-! ## Places of atoms -/

/-- Whether a pattern may have the character between two of its atoms. -/
def isPunctuation (c : Char) : Bool :=
  "{}[],:=.".toList.contains c

/-- The ranges hold the atoms in the text: each goes from the beginning of a
character to the end of one, no two of them overlap, and outside them there
is only white space and punctuation. -/
structure Holds (t : Text) (ranges : List (Nat × Nat)) (atoms : List Text) : Prop where
  texts : ranges.map (fun range => t.slice range.1 range.2) = atoms
  bounded : ∀ range ∈ ranges, ∃ before atom behind : Text, t = before ++ atom ++ behind ∧
    range = (before.width, before.width + atom.width)
  ordered : ranges.Pairwise fun range later => range.2 ≤ later.1
  outside : ∀ (before : Text) (c : Char) (behind : Text), t = before ++ c :: behind →
    (∀ range ∈ ranges, ¬ (range.1 ≤ before.width ∧ before.width < range.2)) →
    isWhiteSpace c = true ∨ isPunctuation c = true

/-- The same range in a text that begins `base` bytes earlier. -/
def movedRange (base : Nat) (range : Nat × Nat) : Nat × Nat :=
  (base + range.1, base + range.2)

theorem Holds.slice_append {s : Text} {rs : List (Nat × Nat)} {as : List Text}
    (hs : Holds s rs as) (t : Text) {range : Nat × Nat} (hrange : range ∈ rs) :
    Text.slice (s ++ t) range.1 range.2 = s.slice range.1 range.2 := by
  obtain ⟨before, atom, behind, rfl, rfl⟩ := hs.bounded range hrange
  rw [List.append_assoc, Text.slice_append, Text.slice_append]

theorem Holds.slice_movedRange {t : Text} {qs : List (Nat × Nat)} {bs : List Text}
    (ht : Holds t qs bs) (s : Text) {range : Nat × Nat} (hrange : range ∈ qs) :
    Text.slice (s ++ t) (movedRange s.width range).1 (movedRange s.width range).2
      = t.slice range.1 range.2 := by
  obtain ⟨before, atom, behind, rfl, rfl⟩ := ht.bounded range hrange
  have hslice := Text.slice_append (s ++ before) atom behind
  rw [Text.width_append, List.append_assoc, List.append_assoc, Nat.add_assoc] at hslice
  rw [Text.slice_append, List.append_assoc]
  exact hslice

/-- Two texts side by side hold what each of them holds. -/
theorem Holds.append {s t : Text} {rs qs : List (Nat × Nat)} {as bs : List Text}
    (hs : Holds s rs as) (ht : Holds t qs bs) :
    Holds (s ++ t) (rs ++ qs.map (movedRange s.width)) (as ++ bs) := by
  refine ⟨?_, ?_, ?_, ?_⟩
  · rw [List.map_append, List.map_map, ← hs.texts, ← ht.texts]
    congr 1
    · exact List.map_congr_left fun range hrange => hs.slice_append t hrange
    · exact List.map_congr_left fun range hrange => ht.slice_movedRange s hrange
  · intro range hrange
    rcases List.mem_append.1 hrange with hrange | hrange
    · obtain ⟨before, atom, behind, rfl, rfl⟩ := hs.bounded range hrange
      exact ⟨before, atom, behind ++ t, by simp, rfl⟩
    · obtain ⟨inner, hinner, rfl⟩ := List.mem_map.1 hrange
      obtain ⟨before, atom, behind, rfl, rfl⟩ := ht.bounded inner hinner
      exact ⟨s ++ before, atom, behind, by simp, by simp [movedRange, Nat.add_assoc]⟩
  · refine List.pairwise_append.2 ⟨hs.ordered, ?_, ?_⟩
    · refine List.pairwise_map.2 (ht.ordered.imp fun h => ?_)
      simpa [movedRange] using h
    · intro range hrange later hlater
      obtain ⟨before, atom, behind, rfl, rfl⟩ := hs.bounded range hrange
      obtain ⟨inner, -, rfl⟩ := List.mem_map.1 hlater
      simp only [movedRange, Text.width_append]
      omega
  · intro before c behind heq hfree
    -- what is free of the moved ranges in the whole is free of them in `t`
    have hright : ∀ more : Text, before = s ++ more → t = more ++ c :: behind →
        isWhiteSpace c = true ∨ isPunctuation c = true := by
      rintro more rfl ht'
      refine ht.outside more c behind ht' fun range hrange hin => ?_
      refine hfree _ (List.mem_append_right _ (List.mem_map_of_mem hrange)) ?_
      simp only [movedRange, Text.width_append]
      omega
    rcases List.append_eq_append_iff.1 heq with ⟨more, hbefore, ht'⟩ | ⟨more, rfl, hmore⟩
    · exact hright more hbefore ht'
    · cases more with
      | nil => exact hright [] (by simp) hmore.symm
      | cons d more =>
        obtain ⟨rfl, -⟩ := List.cons.inj hmore
        exact hs.outside before c more rfl fun range hrange =>
          hfree range (List.mem_append_left _ hrange)

/-- The atoms stand in the text in this order, with nothing but white space
and punctuation between them. -/
def IsStrung (t : Text) (atoms : List Text) : Prop :=
  ∃ ranges, Holds t ranges atoms

theorem IsStrung.append {s t : Text} {as bs : List Text} (hs : IsStrung s as)
    (ht : IsStrung t bs) : IsStrung (s ++ t) (as ++ bs) := by
  obtain ⟨rs, hs⟩ := hs
  obtain ⟨qs, ht⟩ := ht
  exact ⟨_, hs.append ht⟩

theorem isStrung_gap {t : Text}
    (h : ∀ c ∈ t, isWhiteSpace c = true ∨ isPunctuation c = true) : IsStrung t [] :=
  ⟨[], rfl, by simp, .nil, fun before c behind heq _ => h c (by simp [heq])⟩

theorem isStrung_atom (t : Text) : IsStrung t [t] := by
  refine ⟨[(0, t.width)], ?_, ?_, List.pairwise_singleton _ _, ?_⟩
  · have hslice := Text.slice_append [] t []
    rw [List.nil_append, List.append_nil, Text.width_nil, Nat.zero_add] at hslice
    simp [hslice]
  · intro range hrange
    rw [List.mem_singleton.1 hrange]
    exact ⟨[], t, [], by simp, by simp⟩
  · intro before c behind heq hfree
    refine absurd ⟨Nat.zero_le _, ?_⟩ (hfree (0, t.width) (List.mem_singleton_self _))
    have := c.utf8Size_pos
    simp only [heq, Text.width_append, Text.width_cons]
    omega

theorem isStrung_of_isBlank {t : Text} (h : t.isBlank = true) : IsStrung t [] :=
  isStrung_gap fun c hc => .inl (Text.isBlank_iff.1 h c hc)

theorem isStrung_mark {c : Char} (h : isPunctuation c = true) : IsStrung [c] [] :=
  isStrung_gap fun _ hd => .inr (List.mem_singleton.1 hd ▸ h)

theorem isStrung_dots : IsStrung dots [] := by
  have hall : dots.all isPunctuation = true := by decide
  exact isStrung_gap fun c hc => .inr (List.all_eq_true.1 hall c hc)

/-- White space around a text does not matter. -/
theorem IsStrung.of_trim {t : Text} {atoms : List Text} (h : IsStrung t.trim atoms) :
    IsStrung t atoms := by
  obtain ⟨l, r, hl, hr, heq⟩ := Text.exists_trim t
  have hwhole := ((isStrung_of_isBlank hl).append h).append (isStrung_of_isBlank hr)
  rw [← heq] at hwhole
  simpa using hwhole

theorem IsStrung.mark_cons {c : Char} (hc : isPunctuation c = true) {t : Text}
    {atoms : List Text} (h : IsStrung t atoms) : IsStrung (c :: t) atoms := by
  simpa using (isStrung_mark hc).append h

/-! ## Rows -/

/-- The texts between the commas of a list, trimmed.  A blank list has none,
and what stands behind the last comma is left out if it is blank. -/
def IsRow (t : Text) (texts : List Text) : Prop :=
  t.isBlank = true ∧ texts = [] ∨
    ∃ p ps, t = joined ',' p ps ∧ (∀ q ∈ p :: ps, IsPiece q) ∧
      ((p :: ps).map Text.trim = texts ∧ texts.getLast? ≠ some [] ∨
        (p :: ps).map Text.trim = texts ++ [[]])

/-- The elements of a list are the texts of its row. -/
theorem isRow_of_elements {list : Segment} {parts : List Segment}
    (h : list.elements = .ok parts) : IsRow list.text (parts.map (·.text)) := by
  cases hblank : list.text.isBlank with
  | true =>
    rw [Segment.elements, if_pos hblank] at h
    exact .inl ⟨hblank, by rw [← Except.ok.inj h]; rfl⟩
  | false =>
    obtain ⟨p, ps, htext, hps⟩ := exists_joined (orderly_of_elements h)
    obtain ⟨text, offset⟩ := list
    subst htext
    rw [elements_joined hps hblank] at h
    obtain rfl := Except.ok.inj h
    refine .inr ⟨p, ps, rfl, hps, ?_⟩
    have htexts := map_text_placed offset p ps
    unfold Segment.withoutTrailing
    split
    · rename_i htrailing
      -- the last piece is empty, and it is the one that is left out
      obtain ⟨front, last, hlast⟩ : ∃ front last, placed offset p ps = front ++ [last] := by
        rcases List.eq_nil_or_concat (placed offset p ps) with hnil | ⟨front, last, hconcat⟩
        · rw [hnil] at htrailing
          simp at htrailing
        · exact ⟨front, last, hconcat.trans (List.concat_eq_append ..)⟩
      rw [hlast] at htrailing htexts ⊢
      have hempty : last.text = [] := by simpa [Segment.isEmpty] using htrailing.2
      refine .inr ?_
      rw [← htexts, List.dropLast_concat, List.map_append, List.map_singleton, hempty]
    · rename_i hkept
      refine .inl ⟨htexts.symm, fun hlast => hkept ⟨?_, ?_⟩⟩
      · -- a single piece that is empty would make the list blank
        rw [length_placed]
        cases ps with
        | nil =>
          have hnil : p.trim = [] := by simpa [placed, Segment.trimmed] using hlast
          rw [joined, Text.isBlank_of_trim_eq_nil hnil] at hblank
          cases hblank
        | cons q ps => simp
      · rw [List.getLast?_map] at hlast
        obtain ⟨last, hsome, hempty⟩ := Option.map_eq_some_iff.1 hlast
        simp [hsome, Segment.isEmpty, hempty]

/-- Each of the texts is strung from its part of the atoms. -/
inductive AreStrung : List Text → List Text → Prop
  | nil : AreStrung [] []
  | cons {t : Text} {ts own others : List Text} (head : IsStrung t own)
      (tail : AreStrung ts others) : AreStrung (t :: ts) (own ++ others)

theorem AreStrung.append_nil {ts atoms : List Text} (h : AreStrung ts atoms) :
    AreStrung (ts ++ [[]]) atoms := by
  induction h with
  | nil => exact .cons (isStrung_of_isBlank Text.isBlank_nil) .nil
  | cons head tail ih => exact .cons head ih

theorem isStrung_joined {p : Text} {ps atoms : List Text}
    (h : AreStrung ((p :: ps).map Text.trim) atoms) : IsStrung (joined ',' p ps) atoms := by
  induction ps generalizing p atoms with
  | nil =>
    cases h with
    | cons head tail =>
      cases tail
      simpa [joined] using head.of_trim
  | cons q ps ih =>
    cases h with
    | cons head tail => exact head.of_trim.append ((ih tail).mark_cons (by decide))

/-- A row is strung if the texts between its commas are. -/
theorem IsRow.isStrung {t : Text} {texts atoms : List Text} (hrow : IsRow t texts)
    (h : AreStrung texts atoms) : IsStrung t atoms := by
  rcases hrow with ⟨hblank, rfl⟩ | ⟨p, ps, rfl, -, ⟨rfl, -⟩ | hlast⟩
  · cases h
    exact isStrung_of_isBlank hblank
  · exact isStrung_joined h
  · exact isStrung_joined (hlast ▸ h.append_nil)

/-! ## Spelling -/

namespace Shape

mutual

/-- The text spells the shape with these atoms. -/
def Spelled : Shape → Text → List Text → Prop
  | bool value, t, atoms => t = (bool value).source ∧ atoms = [t]
  | text words quote, t, atoms =>
    t = (text words quote).source ∧ atoms = if (text words quote).isHole then [] else [t]
  | sequence items, t, atoms =>
    ∃ (inner : Text) (texts : List Text), t = '[' :: inner ++ [']'] ∧ IsRow inner.trim texts ∧
      SpelledItems items texts atoms
  | mapping entries, t, atoms =>
    ∃ (inner : Text) (texts : List Text), t = '{' :: inner ++ ['}'] ∧ IsRow inner.trim texts ∧
      SpelledEntries entries texts atoms
  | spread operand, t, atoms =>
    ∃ rest : Text, t = dots ++ rest ∧ operand.Spelled rest.trim atoms

/-- The texts spell the items, one each. -/
def SpelledItems : List Shape → List Text → List Text → Prop
  | [], texts, atoms => texts = [] ∧ atoms = []
  | item :: rest, texts, atoms =>
    ∃ t ts own others, texts = t :: ts ∧ atoms = own ++ others ∧ item.Spelled t own ∧
      SpelledItems rest ts others

/-- The text spells the entry.  An entry that begins with three dots gives its
key once, and every other one with a value gives its key and the atoms of the
value. -/
def SpelledEntry : Entry → Text → List Text → Prop
  | .shorthand key, t, atoms => t = key ∧ atoms = [key]
  | .valued key value, t, atoms =>
    (∃ operand : Text, t = dots ++ operand ∧ operand.trim = key ∧ value = spread (bare key) ∧
        atoms = [key]) ∨
      (dots.isPrefixOf t = false ∧ ∃ (before behind : Text) (sign : Char) (own : List Text),
        t = before ++ sign :: behind ∧ (sign = ':' ∨ sign = '=') ∧ before.trim = key ∧
          value.Spelled behind.trim own ∧ atoms = key :: own)

/-- The texts spell the entries, one each. -/
def SpelledEntries : List Entry → List Text → List Text → Prop
  | [], texts, atoms => texts = [] ∧ atoms = []
  | entry :: rest, texts, atoms =>
    ∃ t ts own others, texts = t :: ts ∧ atoms = own ++ others ∧ SpelledEntry entry t own ∧
      SpelledEntries rest ts others

end

/-! ## Spelled texts are strung -/

mutual

/-- The atoms of what a text spells stand in the text. -/
theorem isStrung_of_spelled : ∀ (s : Shape) {t : Text} {atoms : List Text},
    s.Spelled t atoms → IsStrung t atoms
  | bool _, t, _, ⟨_, hatoms⟩ => hatoms ▸ isStrung_atom t
  | text words quote, t, atoms, ⟨htext, hatoms⟩ => by
    cases hhole : (text words quote).isHole with
    | true =>
      rw [hhole, if_pos rfl] at hatoms
      rw [hatoms, htext, source_eq_nil_iff.2 hhole]
      exact isStrung_of_isBlank Text.isBlank_nil
    | false =>
      rw [hhole] at hatoms
      exact hatoms ▸ isStrung_atom t
  | sequence items, _, _, ⟨_, _, htext, hrow, hitems⟩ => by
    have hinner := hrow.isStrung (areStrung_of_spelledItems items hitems)
    rw [htext]
    simpa using (hinner.of_trim.mark_cons (c := '[') (by decide)).append
      (isStrung_mark (c := ']') (by decide))
  | mapping entries, _, _, ⟨_, _, htext, hrow, hentries⟩ => by
    have hinner := hrow.isStrung (areStrung_of_spelledEntries entries hentries)
    rw [htext]
    simpa using (hinner.of_trim.mark_cons (c := '{') (by decide)).append
      (isStrung_mark (c := '}') (by decide))
  | spread operand, _, _, ⟨_, htext, hoperand⟩ => by
    rw [htext]
    exact isStrung_dots.append (isStrung_of_spelled operand hoperand).of_trim

theorem areStrung_of_spelledItems : ∀ (items : List Shape) {texts atoms : List Text},
    SpelledItems items texts atoms → AreStrung texts atoms
  | [], _, _, ⟨htexts, hatoms⟩ => htexts ▸ hatoms ▸ .nil
  | item :: rest, _, _, ⟨_, _, _, _, htexts, hatoms, hitem, hrest⟩ =>
    htexts ▸ hatoms ▸ .cons (isStrung_of_spelled item hitem)
      (areStrung_of_spelledItems rest hrest)

theorem isStrung_of_spelledEntry : ∀ (entry : Entry) {t : Text} {atoms : List Text},
    SpelledEntry entry t atoms → IsStrung t atoms
  | .shorthand key, _, _, ⟨htext, hatoms⟩ => htext ▸ hatoms ▸ isStrung_atom key
  | .valued _ _, _, _, .inl ⟨_, htext, hkey, _, hatoms⟩ => by
    rw [htext, hatoms, ← hkey]
    exact isStrung_dots.append (isStrung_atom _).of_trim
  | .valued key value, _, _,
    .inr ⟨_, before, _, sign, _, htext, hsign, hkey, hvalue, hatoms⟩ => by
    have hmark : isPunctuation sign = true := by
      rcases hsign with rfl | rfl <;> decide
    rw [htext, hatoms, ← hkey]
    exact (isStrung_atom before.trim).of_trim.append
      ((isStrung_of_spelled value hvalue).of_trim.mark_cons hmark)

theorem areStrung_of_spelledEntries : ∀ (entries : List Entry) {texts atoms : List Text},
    SpelledEntries entries texts atoms → AreStrung texts atoms
  | [], _, _, ⟨htexts, hatoms⟩ => htexts ▸ hatoms ▸ .nil
  | entry :: rest, _, _, ⟨_, _, _, _, htexts, hatoms, hentry, hrest⟩ =>
    htexts ▸ hatoms ▸
      .cons (isStrung_of_spelledEntry entry hentry) (areStrung_of_spelledEntries rest hrest)

end

/-! ## What is read is spelled -/

/-- Every shape that the reader gives is spelled by its token. -/
def Spells (read : Segment → Except Fault Shape) : Prop :=
  ∀ ⦃token : Segment⦄ ⦃s : Shape⦄, token.text.Trimmed → read token = .ok s →
    ∃ atoms, s.Spelled token.text atoms

theorem spelledItems_of_mapM {read : Segment → Except Fault Shape} (hread : Spells read)
    {parts : List Segment} {items : List Shape} (hparts : ∀ part ∈ parts, part.text.Trimmed)
    (h : parts.mapM (readItem read) = .ok items) :
    ∃ atoms, SpelledItems items (parts.map (·.text)) atoms := by
  induction parts generalizing items with
  | nil =>
    obtain rfl := Except.ok.inj h
    exact ⟨[], rfl, rfl⟩
  | cons part parts ih =>
    obtain ⟨item, rest, rfl, hitem, hrest⟩ := mapM_cons_eq_ok h
    obtain ⟨hpart, hparts⟩ := List.forall_mem_cons.1 hparts
    obtain ⟨others, hothers⟩ := ih hparts hrest
    have hown : ∃ own, item.Spelled part.text own := by
      unfold readItem at hitem
      split at hitem
      · rename_i hempty
        obtain rfl := Except.ok.inj hitem
        exact ⟨[], (List.isEmpty_iff.1 hempty : part.text = []), rfl⟩
      · exact hread hpart hitem
    obtain ⟨own, hown⟩ := hown
    exact ⟨own ++ others, _, _, own, others, rfl, rfl, hown, hothers⟩

/-- The characters that a pattern begins with, if it is no leaf without quotes. -/
def openingChars : List Char := ['{', '[', '.', '\'', '"', '`']

theorem not_mem_name_of_opening {name : Text} (hname : isIdentifier name = true) {c : Char}
    (hc : c ∈ openingChars) : c ∉ name := by
  have hall : openingChars ⊆ nonIdentifierChars := by decide
  exact not_mem_identifier hname (hall hc)

/-- A name can stand behind three dots as it is. -/
theorem isLeafText_of_isIdentifier {name : Text} (hname : isIdentifier name = true)
    (htrimmed : name.Trimmed) (horderly : Orderly name) : IsLeafText ⟨false, false⟩ name where
  trimmed := htrimmed
  orderly := horderly
  ne_true := by
    rintro rfl
    exact absurd hname (by decide)
  ne_false := by
    rintro rfl
    exact absurd hname (by decide)
  lacksDots := by
    cases hbegins : dots.isPrefixOf name with
    | false => rfl
    | true =>
      obtain ⟨rest, rfl⟩ := List.isPrefixOf_iff_prefix.1 hbegins
      exact absurd (by simp [dots]) (not_mem_name_of_opening hname (show '.' ∈ _ by decide))
  not_isLiteral := by
    intro hliteral
    obtain ⟨quote, words, heq, -, hquote, -⟩ := hliteral.exists_eq
    have hopening : quote ∈ openingChars := by
      rcases eq_of_isQuote hquote with rfl | rfl | rfl <;> decide
    exact not_mem_name_of_opening hname hopening (by simp [heq])
  not_object := by
    rintro ⟨closer, inner, -, -, heq⟩
    exact not_mem_name_of_opening hname (show '{' ∈ _ by decide) (by simp [heq])
  not_array := by
    rintro ⟨closer, inner, -, -, heq⟩
    exact not_mem_name_of_opening hname (show '[' ∈ _ by decide) (by simp [heq])
  ne_nil _ := ne_nil_of_isIdentifier hname
  lacksComma h := nomatch h

/-- A leaf without quotes is read as it is. -/
theorem eq_bare_of_isLeafText {place : Place} {t : Text} (hleaf : IsLeafText place t)
    {limit room offset : Nat} {s : Shape} (h : shapeWithin limit room ⟨t, offset⟩ = .ok s) :
    s = bare t := by
  cases room with
  | zero => cases h
  | succ room =>
    rw [shapeWithin, readToken_leaf _ hleaf.orderly hleaf.not_object hleaf.not_array
      hleaf.lacksDots, ofLeaf_bare hleaf.ne_true hleaf.ne_false hleaf.not_isLiteral] at h
    exact (Except.ok.inj h).symm

/-- What three dots and a name are read as. -/
theorem eq_spread_of_rest {limit room : Nat} {operand : Text} (horderly : Orderly operand)
    (hname : isIdentifier operand.trim = true) {offset : Nat} {s : Shape}
    (h : shapeWithin limit room ⟨dots ++ operand, offset⟩ = .ok s) :
    s = spread (bare operand.trim) := by
  cases room with
  | zero => cases h
  | succ room =>
    rw [shapeWithin, readToken_dots _ horderly (ne_nil_of_isIdentifier hname)] at h
    obtain ⟨inner, hinner, rfl⟩ := map_eq_ok h
    have hleaf := isLeafText_of_isIdentifier hname (Text.trimmed_trim operand) horderly.trim
    rw [eq_bare_of_isLeafText hleaf hinner]

theorem spelledEntry_of_readEntry {limit room : Nat} (hread : Spells (shapeWithin limit room))
    {part : Segment} {entry : Entry} (hpart : IsElement part.text)
    (h : readEntry (shapeWithin limit room) part = .ok entry) :
    ∃ atoms, SpelledEntry entry part.text atoms := by
  obtain ⟨text, offset⟩ := part
  obtain ⟨form, hform, h⟩ := bind_eq_ok h
  rw [EntryForm.ofSegment] at hform
  split at hform
  · cases hform
  · split at hform
    · -- three dots and a name
      rename_i operand hoperand
      obtain rfl := Text.afterPrefix?_eq_some_iff.1 hoperand
      split at hform
      · rename_i hname
        obtain rfl := Except.ok.inj hform
        obtain ⟨value, hvalue, h⟩ := bind_eq_ok h
        obtain rfl := Except.ok.inj h
        have horderly : Orderly operand := hpart.2.1.of_append_left (by decide : Orderly dots)
        exact ⟨_, .inl ⟨operand, rfl, rfl, eq_spread_of_rest horderly hname hvalue, rfl⟩⟩
      · cases hform
    · rename_i hnone
      have hdots : dots.isPrefixOf text = false := Text.afterPrefix?_eq_none_iff.1 hnone
      split at hform
      · cases hform
      · obtain rfl := Except.ok.inj hform
        obtain rfl := Except.ok.inj h
        exact ⟨_, rfl, rfl⟩
      · -- a key, a sign and a value
        rename_i place sign hdivider
        obtain ⟨before, behind, rfl, rfl, -, -, -, -, hsize⟩ :=
          exists_of_divider hpart.1 hpart.2.1 hdivider
        unfold EntryForm.ofDivided at hform
        rw [sliceFrom_sign hsize] at hform
        simp only at hform
        split at hform
        · cases hform
        · obtain rfl := Except.ok.inj hform
          obtain ⟨value, hvalue, h⟩ := bind_eq_ok h
          split at h
          · cases h
          · obtain rfl := Except.ok.inj h
            obtain ⟨own, hown⟩ := hread (Text.trimmed_trim behind) hvalue
            exact ⟨_, .inr ⟨hdots, before, behind, sign, own, rfl, sign_of_divider hdivider,
              by rw [Text.takeBytes_append], hown, rfl⟩⟩

theorem spelledEntries_of_mapM {limit room : Nat} (hread : Spells (shapeWithin limit room))
    {parts : List Segment} {entries : List Entry}
    (hparts : ∀ part ∈ parts, IsElement part.text)
    (h : parts.mapM (readEntry (shapeWithin limit room)) = .ok entries) :
    ∃ atoms, SpelledEntries entries (parts.map (·.text)) atoms := by
  induction parts generalizing entries with
  | nil =>
    obtain rfl := Except.ok.inj h
    exact ⟨[], rfl, rfl⟩
  | cons part parts ih =>
    obtain ⟨entry, rest, rfl, hentry, hrest⟩ := mapM_cons_eq_ok h
    obtain ⟨hpart, hparts⟩ := List.forall_mem_cons.1 hparts
    obtain ⟨own, hown⟩ := spelledEntry_of_readEntry hread hpart hentry
    obtain ⟨others, hothers⟩ := ih hparts hrest
    exact ⟨own ++ others, _, _, own, others, rfl, rfl, hown, hothers⟩

theorem spelled_ofLeaf (t : Text) : ∃ atoms, (Shape.ofLeaf t).Spelled t atoms := by
  unfold Shape.ofLeaf
  split
  · exact ⟨_, ‹_›, rfl⟩
  · split
    · exact ⟨_, ‹_›, rfl⟩
    · split
      · rename_i quote words hliteral
        exact ⟨_, (wholeLiteral?_eq_some_iff.1 hliteral).1, rfl⟩
      · exact ⟨_, rfl, rfl⟩

/-- A reader that goes one level further down. -/
theorem spells_readToken {limit room : Nat} (hread : Spells (shapeWithin limit room)) :
    Spells (readToken (shapeWithin limit room)) := by
  rintro ⟨text, offset⟩ s htrimmed h
  obtain ⟨found, hfound, h⟩ := bind_eq_ok h
  have horderly := orderly_of_tokenClass hfound
  have hclass := describes_of_tokenClass hfound
  cases found with
  | object =>
    obtain ⟨parts, hparts, h⟩ := bind_eq_ok h
    obtain ⟨entries, hentries, h⟩ := bind_eq_ok h
    obtain rfl := Except.ok.inj h
    obtain ⟨closer, inner, hcloser, -, rfl⟩ := hclass
    obtain rfl : '}' = closer := Option.some.inj hcloser
    obtain ⟨atoms, hatoms⟩ :=
      spelledEntries_of_mapM hread (fun _ => isPiece_of_mem_elements hparts) hentries
    have hrow := isRow_of_elements hparts
    rw [interior_group closerOf?_curly] at hrow
    exact ⟨atoms, inner, _, rfl, hrow, hatoms⟩
  | array =>
    obtain ⟨parts, hparts, h⟩ := bind_eq_ok h
    obtain ⟨items, hitems, h⟩ := bind_eq_ok h
    obtain rfl := Except.ok.inj h
    obtain ⟨closer, inner, hcloser, -, rfl⟩ := hclass
    obtain rfl : ']' = closer := Option.some.inj hcloser
    obtain ⟨atoms, hatoms⟩ :=
      spelledItems_of_mapM hread
        (fun _ hpart => (isPiece_of_mem_elements hparts hpart).1) hitems
    have hrow := isRow_of_elements hparts
    rw [interior_group closerOf?_square] at hrow
    exact ⟨atoms, inner, _, rfl, hrow, hatoms⟩
  | spread =>
    obtain ⟨rest, rfl⟩ := List.isPrefixOf_iff_prefix.1 hclass
    have hslice := sliceFrom_append dots rest offset
    change readSpread _ _ = _ at h
    rw [readSpread, show (3 : Nat) = Text.width dots from rfl, hslice] at h
    simp only at h
    split at h
    · cases h
    · obtain ⟨operand, hoperand, rfl⟩ := map_eq_ok h
      obtain ⟨atoms, hatoms⟩ := hread (Text.trimmed_trim rest) hoperand
      exact ⟨atoms, rest, rfl, hatoms⟩
  | leaf =>
    obtain rfl := Except.ok.inj h
    exact spelled_ofLeaf text

/-- Every level of a reader reads what is spelled: the induction is on the
room. -/
theorem spells_shapeWithin (limit room : Nat) : Spells (shapeWithin limit room) := by
  induction room with
  | zero =>
    intro token s htoken h
    cases h
  | succ room ih => exact spells_readToken ih

/-- The atoms of a shape that is read stand in the text that it was read from,
each at its own place and in their order, and there is nothing else in the
text but white space and punctuation. -/
theorem exists_holds_of_shape {options : Options} {t : Text} {offset : Nat} {s : Shape}
    (h : options.shape (.trimmed t offset) = .ok s) :
    ∃ atoms, s.Spelled t.trim atoms ∧ ∃ ranges, Holds t ranges atoms := by
  obtain ⟨atoms, hatoms⟩ := spells_shapeWithin _ _ (Text.trimmed_trim t) h
  exact ⟨atoms, hatoms, (isStrung_of_spelled s hatoms).of_trim⟩

/-- An object pattern with a hole, a literal, and one name that stands twice
and one that stands once although their values are alike. -/
def mixedObject : Shape :=
  mapping [.valued ['a'] (sequence [hole, text ['b'] (some '\''), bool true]),
    .valued ['k'] (spread (bare ['k'])), .valued ['r'] (spread (bare ['r']))]

/-- The pattern that it is read from. -/
def mixedSource : Text :=
  r"{a: [, 'b', true], k: ...k, ...r}".toList

theorem exists_holds_of_shape_mixedObject :
    Options.shape {} (.trimmed mixedSource 0) = .ok mixedObject ∧
      ∃ atoms, mixedObject.Spelled mixedSource.trim atoms ∧
        ∃ ranges, Holds mixedSource ranges atoms :=
  have hread : Options.shape {} (.trimmed mixedSource 0) = .ok mixedObject := by decide +kernel
  ⟨hread, exists_holds_of_shape hread⟩

end Shape

end CallSignature
