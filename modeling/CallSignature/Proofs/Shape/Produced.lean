/-
CallSignature.Proofs.Shape.Produced — a shape that is read is canonical.

Cutting a token into elements, and an entry into key and value, leaves texts
that are trimmed, in order and free of what was cut at.  From there on the
reader only looks at the kind of each token, and so the shape it gives is one
that could be written as it is, and no deeper than there was room
(`canonical_of_read`).

With the round trip of canonical shapes this says when the shape that a
pattern was read as can be written and read again
(`readShape_source_iff`): exactly if every rest entry is called by a name.
-/
import CallSignature.Proofs.Shape.RoundTrip
import CallSignature.Proofs.Success

namespace CallSignature

open Shape Unicode

/-! ## Names as keys -/

theorem not_mem_of_isIdentifier {word : Text} (h : isIdentifier word = true) {c : Char}
    (hc : isIdentifierContinue c = false) (hstart : isIdentifierStart c = false) :
    c ∉ word := by
  intro hmem
  cases word with
  | nil => cases hmem
  | cons d rest =>
    simp only [isIdentifier, hasIdentifierForm, Bool.and_eq_true, List.all_eq_true] at h
    rcases List.mem_cons.1 hmem with rfl | hmem
    · rw [hstart] at h
      exact absurd h.1.1 Bool.false_ne_true
    · rw [h.1.2 c hmem] at hc
      cases hc

/-- Characters that are no part of an identifier. -/
def nonIdentifierChars : List Char :=
  [' ', '\n', '\r', '\'', '"', '`', '(', ')', '[', ']', '{', '}', '/', '*', '=', '>',
    '#', '\x00', '.', ',', ':']

theorem not_mem_identifier {word : Text} (h : isIdentifier word = true) {c : Char}
    (hc : c ∈ nonIdentifierChars) : c ∉ word := by
  have hall : nonIdentifierChars.all (fun c => !isIdentifierContinue c && !isIdentifierStart c)
      = true := by decide
  have hno := List.all_eq_true.1 hall c hc
  simp only [Bool.and_eq_true, Bool.not_eq_true'] at hno
  exact not_mem_of_isIdentifier h hno.1 hno.2

theorem ne_nil_of_isIdentifier {word : Text} (h : isIdentifier word = true) : word ≠ [] := by
  rintro rfl
  cases h

/-- A text without colons and equals signs has nothing to divide it. -/
theorem lacksDivider_of_not_mem {t : Text} (hcolon : ':' ∉ t) (hequals : '=' ∉ t) :
    LacksDivider t := by
  intro v hv
  obtain ⟨a, b, rfl, -, -⟩ := exists_of_mem_visits hv
  cases hseparates : Segment.separatesAt (a ++ v.char :: b) v with
  | false => rfl
  | true =>
    rcases (eq_of_separatesAt hseparates).2 with hchar | ⟨hchar, -⟩
    · exact absurd (by simp [hchar]) hcolon
    · exact absurd (by simp [hchar]) hequals

theorem isKey_of_isIdentifier {key : Text} (h : isIdentifier key = true)
    (htrimmed : key.Trimmed) (horderly : Orderly key) (hcomma : LacksTop ',' key) :
    IsKey key := by
  refine ⟨ne_nil_of_isIdentifier h, htrimmed, horderly, hcomma,
    lacksDivider_of_not_mem (not_mem_identifier h (by decide))
      (not_mem_identifier h (by decide)), ?_⟩
  cases hdots : dots.isPrefixOf key with
  | false => rfl
  | true =>
    obtain ⟨rest, rfl⟩ := List.isPrefixOf_iff_prefix.1 hdots
    exact absurd (by simp [dots]) (not_mem_identifier h (show '.' ∈ _ by decide))

/-! ## Entries -/

/-- A name behind three dots. -/
theorem isKey_of_rest {operand : Text} (h : IsPiece (dots ++ operand))
    (hname : isIdentifier operand.trim = true) : IsKey operand.trim := by
  have hdots : Orderly dots := by decide
  have horderly : Orderly operand := h.1.of_append_left hdots
  have hpiece : IsPiece operand.trim :=
    IsPiece.trim ⟨horderly, ((lacksTop_append hdots horderly).1 h.2).2⟩
  exact isKey_of_isIdentifier hname (Text.trimmed_trim operand) hpiece.1 hpiece.2

/-- What stands before the divider of an entry that does not begin with three
dots. -/
theorem isKey_of_divided {a : Text} {b : Text} (htrimmed : (a ++ b).Trimmed) (ha : Orderly a)
    (hcomma : LacksTop ',' a) (hlacks : LacksDivider a.trim)
    (hdots : dots.isPrefixOf (a ++ b) = false) (hne : a.trim ≠ []) : IsKey a.trim := by
  obtain ⟨r, -, heq⟩ := htrimmed.exists_trim_left
  refine ⟨hne, Text.trimmed_trim a, ha.trim, hcomma.trim ha, hlacks, ?_⟩
  cases hbegins : dots.isPrefixOf a.trim with
  | false => rfl
  | true =>
    obtain ⟨rest, hrest⟩ := List.isPrefixOf_iff_prefix.1 hbegins
    rw [heq, ← hrest] at hdots
    simp [dots] at hdots

/-- An entry is a pair if its divider is found. -/
theorem isKey_of_ofDivided {text : Text} {offset place : Nat} {sign : Char} {form : EntryForm}
    (hentry : IsWritten .value text) (hdots : dots.isPrefixOf text = false)
    (hdivider : Segment.divider ⟨text, offset⟩ = .ok (some (place, sign)))
    (h : EntryForm.ofDivided ⟨text, offset⟩ place sign = .ok form) :
    ∃ key value, form = .valued key value ∧ (key ≠ [] → IsKey key) ∧
      IsWritten .value value.text := by
  obtain ⟨a, b, rfl, rfl, ha, hb, hlacks, hplain, hsize⟩ :=
    exists_of_divider hentry.trimmed hentry.orderly hdivider
  obtain ⟨hcommaA, hcommaB⟩ :=
    (lacksTop_append ha (hb.cons hplain)).1 (hentry.isElement rfl).2.2
  have hpiece : IsPiece (Text.trim b) :=
    IsPiece.trim ⟨hb, ((lacksTop_cons hplain hb).1 hcommaB).2⟩
  unfold EntryForm.ofDivided at h
  simp only [sliceFrom_sign hsize] at h
  split at h
  · cases h
  · rename_i hvalue
    obtain rfl := Except.ok.inj h
    refine ⟨_, _, rfl, ?_, Text.trimmed_trim b, hpiece.1, fun _ => hpiece.2, fun _ => ?_⟩
    · simp only [Text.takeBytes_append]
      exact isKey_of_divided hentry.trimmed ha hcommaA hlacks hdots
    · simpa [Segment.isEmpty] using hvalue

/-- An element that has a form as an entry is not empty. -/
theorem IsElement.isWritten {entry : Segment} {form : EntryForm} (h : IsElement entry.text)
    (hform : EntryForm.ofSegment entry = .ok form) : IsWritten .value entry.text := by
  refine ⟨h.1, h.2.1, fun _ => h.2.2, fun _ hnil => ?_⟩
  rw [EntryForm.ofSegment, if_pos (by simp [Segment.isEmpty, hnil])] at hform
  cases hform

/-- What the form of an entry says about its key and its value. -/
theorem isKey_of_ofSegment {entry : Segment} {form : EntryForm}
    (hentry : IsWritten .value entry.text) (h : EntryForm.ofSegment entry = .ok form) :
    match form with
    | .rest key => IsKey key
    | .shorthand key => IsKey key
    | .valued key value => (key ≠ [] → IsKey key) ∧ IsWritten .value value.text := by
  obtain ⟨text, offset⟩ := entry
  have hpiece := (hentry.isElement rfl).2
  rw [EntryForm.ofSegment, if_neg (by simpa [Segment.isEmpty] using hentry.ne_nil rfl)] at h
  split at h
  · -- a rest entry
    rename_i operand hoperand
    obtain rfl := Text.afterPrefix?_eq_some_iff.1 hoperand
    split at h
    · obtain rfl := Except.ok.inj h
      exact isKey_of_rest hpiece ‹_›
    · cases h
  · rename_i hnone
    have hdots : dots.isPrefixOf text = false := Text.afterPrefix?_eq_none_iff.1 hnone
    split at h
    · cases h
    · -- a key by itself
      rename_i hdivider
      obtain rfl := Except.ok.inj h
      exact ⟨hentry.ne_nil rfl, hentry.trimmed, hpiece.1, hpiece.2,
        (lacksDivider_of_divider hdivider).2, hdots⟩
    · -- a key and a value
      rename_i hdivider
      obtain ⟨key, value, rfl, hkey⟩ := isKey_of_ofDivided hentry hdots hdivider h
      exact hkey

/-! ## One level -/

/-- What the reader gives for a token that stands at a place is canonical
there, and lower than `room`. -/
def IsSound (room : Nat) (read : Segment → Except Fault Shape) : Prop :=
  ∀ ⦃place : Place⦄ ⦃token : Segment⦄ ⦃s : Shape⦄, IsWritten place token.text →
    read token = .ok s → s.Canonical place ∧ s.height < room

section

variable {room : Nat} {read : Segment → Except Fault Shape} (hread : IsSound room read)

include hread

theorem canonicalItems_of_mapM {parts : List Segment} {items : List Shape}
    (hparts : ∀ part ∈ parts, IsElement part.text)
    (h : parts.mapM (readItem read) = .ok items) :
    CanonicalItems items ∧ heightOfItems items ≤ room := by
  induction parts generalizing items with
  | nil =>
    obtain rfl := Except.ok.inj h
    exact ⟨trivial, Nat.zero_le _⟩
  | cons part parts ih =>
    obtain ⟨item, rest, rfl, hitem, hrest⟩ := mapM_cons_eq_ok h
    obtain ⟨hpart, hparts⟩ := List.forall_mem_cons.1 hparts
    obtain ⟨hcanonical, hheight⟩ := ih hparts hrest
    have hitem : item.Canonical .item ∧ (item.isHole = false → item.height < room) := by
      unfold readItem at hitem
      split at hitem
      · obtain rfl := Except.ok.inj hitem
        exact ⟨⟨Text.trimmed_nil, orderly_nil, by decide, by decide, rfl, by decide, by decide,
          by decide, by simp [Place.item], fun _ => isPiece_nil.2⟩,
          by simp [hole, bare, isHole]⟩
      · have hwritten : IsWritten .item part.text :=
          ⟨hpart.1, hpart.2.1, fun _ => hpart.2.2, by simp [Place.item]⟩
        exact (hread hwritten hitem).imp_right fun h _ => h
    exact ⟨⟨hitem.1, hcanonical⟩, heightOfItems_cons_le.2 ⟨hitem.2, hheight⟩⟩

theorem canonicalEntries_of_readEntry {part : Segment} {entry : Entry}
    (hpart : IsElement part.text) (h : readEntry read part = .ok entry) :
    CanonicalEntries [entry] ∧ heightOfEntries [entry] ≤ room := by
  obtain ⟨form, hform, h⟩ := bind_eq_ok h
  have hwritten := hpart.isWritten hform
  have hkey := isKey_of_ofSegment hwritten hform
  cases form with
  | rest key =>
    obtain ⟨value, hvalue, h⟩ := bind_eq_ok h
    obtain rfl := Except.ok.inj h
    obtain ⟨hcanonical, hheight⟩ := hread hwritten hvalue
    exact ⟨⟨hkey, hcanonical, trivial⟩, heightOfEntries_cons_le.2 ⟨hheight, Nat.zero_le _⟩⟩
  | shorthand key =>
    obtain rfl := Except.ok.inj h
    exact ⟨⟨hkey, trivial⟩, Nat.zero_le _⟩
  | valued key token =>
    obtain ⟨value, hvalue, h⟩ := bind_eq_ok h
    split at h
    · cases h
    · rename_i hne
      obtain rfl := Except.ok.inj h
      obtain ⟨hcanonical, hheight⟩ := hread hkey.2 hvalue
      exact ⟨⟨hkey.1 (by simpa using hne), hcanonical, trivial⟩,
        heightOfEntries_cons_le.2 ⟨hheight, Nat.zero_le _⟩⟩

theorem canonicalEntries_of_mapM {parts : List Segment} {entries : List Entry}
    (hparts : ∀ part ∈ parts, IsElement part.text)
    (h : parts.mapM (readEntry read) = .ok entries) :
    CanonicalEntries entries ∧ heightOfEntries entries ≤ room := by
  induction parts generalizing entries with
  | nil =>
    obtain rfl := Except.ok.inj h
    exact ⟨trivial, Nat.zero_le _⟩
  | cons part parts ih =>
    obtain ⟨entry, rest, rfl, hentry, hrest⟩ := mapM_cons_eq_ok h
    obtain ⟨hpart, hparts⟩ := List.forall_mem_cons.1 hparts
    obtain ⟨hcanonical, hheight⟩ := ih hparts hrest
    obtain ⟨hfirst, hlow⟩ := canonicalEntries_of_readEntry hread hpart hentry
    cases entry with
    | shorthand key => exact ⟨⟨hfirst.1, hcanonical⟩, hheight⟩
    | valued key value =>
      exact ⟨⟨hfirst.1, hfirst.2.1, hcanonical⟩,
        heightOfEntries_cons_le.2 ⟨(heightOfEntries_cons_le.1 hlow).1, hheight⟩⟩

theorem canonical_of_readSpread {place : Place} {token : Segment} {s : Shape}
    (htoken : IsWritten place token.text) (hdots : dots.isPrefixOf token.text = true)
    (h : readSpread read token = .ok s) : s.Canonical place ∧ s.height < room + 1 := by
  obtain ⟨text, offset⟩ := token
  obtain ⟨rest, rfl⟩ := List.isPrefixOf_iff_prefix.1 hdots
  have hslice := sliceFrom_append dots rest offset
  rw [show Text.width dots = 3 from rfl] at hslice
  rw [readSpread, hslice] at h
  simp only at h
  split at h
  · cases h
  · rename_i hne
    obtain ⟨operand, hoperand, rfl⟩ := map_eq_ok h
    have horderly : Orderly rest := htoken.orderly.of_append_left (by decide : Orderly dots)
    have hwritten : IsWritten place.operand (Text.trim rest) :=
      ⟨Text.trimmed_trim rest, horderly.trim, fun hplace =>
        ((lacksTop_append (by decide) horderly).1 (htoken.lacksComma hplace)).2.trim horderly,
        fun _ hnil => hne (List.isEmpty_iff.2 hnil)⟩
    obtain ⟨hcanonical, hheight⟩ := hread hwritten hoperand
    exact ⟨hcanonical, by rw [height]; omega⟩

end

theorem canonical_ofLeaf {place : Place} {t : Text} (h : IsWritten place t)
    (hobject : ¬ IsGroup '{' t) (harray : ¬ IsGroup '[' t)
    (hdots : dots.isPrefixOf t = false) :
    (Shape.ofLeaf t).Canonical place ∧ (Shape.ofLeaf t).height = 0 := by
  unfold Shape.ofLeaf
  split
  · exact ⟨trivial, rfl⟩
  · rename_i htrue
    split
    · exact ⟨trivial, rfl⟩
    · rename_i hfalse
      split
      · rename_i quote words hliteral
        obtain ⟨rfl, hliteral⟩ := wholeLiteral?_eq_some_iff.1 hliteral
        exact ⟨hliteral, rfl⟩
      · rename_i hnone
        exact ⟨⟨h.trimmed, h.orderly, htrue, hfalse, hdots, wholeLiteral?_eq_none_iff.1 hnone,
          hobject, harray, h.ne_nil, h.lacksComma⟩, rfl⟩

/-- A reader that goes one level further down. -/
theorem isSound_readToken {room : Nat} {read : Segment → Except Fault Shape}
    (hread : IsSound room read) : IsSound (room + 1) (readToken read) := by
  intro place token s htoken h
  obtain ⟨found, hfound, h⟩ := bind_eq_ok h
  have hclass := describes_of_tokenClass hfound
  cases found with
  | object =>
    obtain ⟨parts, hparts, h⟩ := bind_eq_ok h
    obtain ⟨entries, hentries, h⟩ := bind_eq_ok h
    obtain rfl := Except.ok.inj h
    obtain ⟨hcanonical, hheight⟩ :=
      canonicalEntries_of_mapM hread (fun _ => isPiece_of_mem_elements hparts) hentries
    exact ⟨hcanonical, Nat.lt_succ_of_le hheight⟩
  | array =>
    obtain ⟨parts, hparts, h⟩ := bind_eq_ok h
    obtain ⟨items, hitems, h⟩ := bind_eq_ok h
    obtain rfl := Except.ok.inj h
    obtain ⟨hcanonical, hheight⟩ :=
      canonicalItems_of_mapM hread (fun _ => isPiece_of_mem_elements hparts) hitems
    exact ⟨hcanonical, Nat.lt_succ_of_le hheight⟩
  | spread => exact canonical_of_readSpread hread htoken hclass h
  | leaf =>
    obtain rfl := Except.ok.inj h
    obtain ⟨hobject, harray, hdots⟩ := hclass
    obtain ⟨hcanonical, hheight⟩ := canonical_ofLeaf htoken hobject harray hdots
    exact ⟨hcanonical, by omega⟩

/-! ## All levels -/

/-- Every level of a reader is sound: the induction is on the room. -/
theorem isSound_shapeWithin (limit room : Nat) : IsSound room (shapeWithin limit room) := by
  induction room with
  | zero =>
    intro place token s htoken h
    cases h
  | succ room ih => exact isSound_readToken ih

/-- A shape that is read from a trimmed text by itself. -/
theorem canonical_of_shapeWithin {limit room : Nat} {token : Segment} {s : Shape}
    (htrimmed : token.text.Trimmed) (h : shapeWithin limit room token = .ok s) :
    s.Canonical .whole ∧ s.height < room := by
  cases room with
  | zero => cases h
  | succ room =>
    -- the reader has looked at the order of the whole token first
    obtain ⟨found, hfound, -⟩ := bind_eq_ok h
    have hwritten : IsWritten .whole token.text :=
      ⟨htrimmed, orderly_of_tokenClass hfound, by simp [Place.whole], by simp [Place.whole]⟩
    exact isSound_shapeWithin limit (room + 1) hwritten h

/-- Whatever the text, the options and the place of the text in the source, a
shape that is read is canonical as a whole: everything in it is where it could
have been cut out of a pattern. -/
theorem canonical_of_shape {options : Options} {t : Text} {offset : Nat} {s : Shape}
    (h : options.shape (.trimmed t offset) = .ok s) : s.Canonical .whole :=
  (canonical_of_shapeWithin (Text.trimmed_trim t) h).1

/-- Comparisons, literals that are no leaf by themselves, holes and commas
inside groups. -/
theorem canonical_of_shape_nestedEntries :
    (mapping [.valued "a == 0".toList (sequence [hole, spread (bare "b(c, d)".toList)]),
        .valued "e".toList (mapping [.valued "f".toList (bare "'x' + 'y'".toList),
          .valued "g".toList (text "h, i".toList (some '"'))]),
        .valued "k".toList (spread (bare "k".toList))]).Canonical .whole :=
  @canonical_of_shape { maxDepth := 3 }
    r#"  {a == 0: [, ...b(c, d)], e = {f: 'x' + 'y', g: "h, i"}, ...k,} "#.toList 7 _
    (by decide +kernel)

/-! ## Writing what was read -/

/-- The shape of a pattern can be written and read again under the same
options exactly if every entry that is written with three dots has a key that
can be bound. -/
theorem shape_source_iff {options : Options} {t : Text} {offset : Nat} {s : Shape}
    (h : options.shape (.trimmed t offset) = .ok s) (again : Nat) :
    options.shape (.trimmed s.source again) = .ok s ↔ s.RestsBindable := by
  obtain ⟨hcanonical, hheight⟩ := canonical_of_shapeWithin (Text.trimmed_trim t) h
  rw [(reread_trimmed hcanonical options again).ok_iff]
  exact and_iff_right (Nat.le_of_lt_succ hheight)

/-- The source of a shape that was read is read as the shape again, or refused
for the key of a rest entry. -/
theorem readShape_source {t : Text} {s : Shape} (h : readShape t = .ok s) :
    (s.RestsBindable → readShape s.source = .ok s) ∧
      (¬ s.RestsBindable → ∃ key place, readShape s.source
        = .error (((Cause.restKeyNotBindable key).located place).withHint
          .restMustBeIdentifier)) := by
  obtain ⟨hcanonical, hheight⟩ := canonical_of_shapeWithin (Text.trimmed_trim t) h
  have hfits : s.height ≤ ({} : Options).maxDepth := Nat.le_of_lt_succ hheight
  have hread := reread_trimmed hcanonical {} 0
  constructor
  · intro hbindable
    exact hread.ok_iff.2 ⟨hfits, hbindable⟩
  · intro hbindable
    exact hread.eq_restFault hfits hbindable

/-- An object pattern whose one entry has a spread for its value. -/
def spreadEntry (key operand : Text) : Shape :=
  mapping [.valued key (spread (bare operand))]

theorem readShape_source_spreadEntry :
    readShape "{k: ...v}".toList = .ok (spreadEntry ['k'] ['v']) ∧
      readShape (spreadEntry ['k'] ['v']).source = .ok (spreadEntry ['k'] ['v']) ∧
      readShape "{1: ...1}".toList = .ok (spreadEntry ['1'] ['1']) ∧
      ∃ key place, readShape (spreadEntry ['1'] ['1']).source
        = .error (((Cause.restKeyNotBindable key).located place).withHint
          .restMustBeIdentifier) :=
  have hname : readShape "{k: ...v}".toList = .ok (spreadEntry ['k'] ['v']) := by
    decide +kernel
  have hnumeral : readShape "{1: ...1}".toList = .ok (spreadEntry ['1'] ['1']) := by
    decide +kernel
  ⟨hname, (readShape_source hname).1 (by decide +kernel), hnumeral,
    (readShape_source hnumeral).2 (by decide +kernel)⟩

/-- Not every shape that is read can be written and read again. -/
theorem not_forall_readShape_source :
    ¬ ∀ t s, readShape t = .ok s → readShape s.source = .ok s := by
  intro h
  have hread : readShape "{1: ...1}".toList = .ok (spreadEntry ['1'] ['1']) := by
    decide +kernel
  have hagain :
      readShape (spreadEntry ['1'] ['1']).source ≠ .ok (spreadEntry ['1'] ['1']) := by
    decide +kernel
  exact hagain (h _ _ hread)

end CallSignature
