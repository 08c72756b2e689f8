/-
CallSignature.Proofs.Shape.Token — what the reader makes of one token.

A token is met in four forms: an array pattern, an object pattern, a spread or
a leaf; and an entry of an object pattern in three.  For each form there is
one equation, which says what the next level is asked to read, and where.  No
proof behind this module looks at `readToken` or `EntryForm.ofSegment` again
to find out what they do with a text that was written.
-/
import CallSignature.Proofs.Shape.Written

namespace CallSignature

open Shape Unicode

/-! ## Segments -/

theorem trimmed_space {t : Text} (h : t.Trimmed) (offset : Nat) :
    ∃ place, Segment.trimmed (' ' :: t) offset = ⟨t, place⟩ := by
  have htrim : Text.trim (' ' :: t) = t := by
    simpa using Text.trim_padded (l := [' ']) (by decide) h Text.isBlank_nil
  exact ⟨_, by rw [Segment.trimmed, htrim]⟩

theorem sliceFrom_append (a b : Text) (offset : Nat) :
    Segment.sliceFrom ⟨a ++ b, offset⟩ a.width = Segment.trimmed b (offset + a.width) := by
  have hslice := Text.slice_append a b []
  rw [List.append_nil] at hslice
  rw [Segment.sliceFrom, Segment.slice]
  simp only [Text.width_append, hslice]

/-- What stands behind a sign of one byte. -/
theorem sliceFrom_sign {sign : Char} (hsize : sign.utf8Size = 1) (a b : Text) (offset : Nat) :
    Segment.sliceFrom ⟨a ++ sign :: b, offset⟩ (a.width + 1)
      = Segment.trimmed b (offset + a.width + 1) := by
  have hslice := sliceFrom_append (a ++ [sign]) b offset
  rwa [List.append_assoc, List.cons_append, List.nil_append,
    show Text.width (a ++ [sign]) = a.width + 1 by simp [hsize], ← Nat.add_assoc] at hslice

theorem interior_group {opener closer : Char} (h : closerOf? opener = some closer)
    (inner : Text) (offset : Nat) : Segment.interior ⟨opener :: inner ++ [closer], offset⟩
      = Segment.trimmed inner (offset + 1) := by
  have hopener := utf8Size_of_closerOf? h
  have hcloser := utf8Size_of_isCloser (isCloser_of_closerOf? h)
  have hslice := Text.slice_append [opener] inner [closer]
  simp only [Text.width_cons, Text.width_nil, hopener, Nat.add_zero] at hslice
  have hlast : Text.width (opener :: inner ++ [closer]) - 1 = 1 + inner.width := by
    simp [hopener, hcloser]
    omega
  rw [Segment.interior, Segment.slice]
  simp only [hlast]
  exact congrArg (Segment.trimmed · (offset + 1)) hslice

theorem orderly_interior {opener : Char} {token : Segment} (h : IsGroup opener token.text) :
    Orderly token.interior.text := by
  obtain ⟨text, offset⟩ := token
  obtain ⟨closer', inner, hcloser, hinner, rfl⟩ := h
  rw [interior_group hcloser]
  exact hinner.trim

theorem orderly_operand {token : Segment} (h : Orderly token.text)
    (hdots : dots.isPrefixOf token.text = true) : Orderly (token.sliceFrom 3).text := by
  obtain ⟨text, offset⟩ := token
  obtain ⟨rest, rfl⟩ := List.isPrefixOf_iff_prefix.1 hdots
  have hslice := sliceFrom_append dots rest offset
  rw [show Text.width dots = 3 from rfl] at hslice
  rw [hslice]
  exact (h.of_append_left (by decide : Orderly dots)).trim

/-! ## Tokens -/

variable {limit room : Nat} (read : Segment → Except Fault Shape)

theorem readToken_array {inner : Text} (horderly : Orderly inner) (htrimmed : inner.Trimmed)
    (offset : Nat) {parts : List Segment}
    (hparts : Segment.elements ⟨inner, offset + 1⟩ = .ok parts) :
    readToken read ⟨'[' :: inner ++ [']'], offset⟩
      = (parts.mapM (readItem read)).map .sequence := by
  have hgroup : IsGroup '[' ('[' :: inner ++ [']']) := ⟨']', inner, rfl, horderly, rfl⟩
  rw [readToken, tokenClass_of_orderly (horderly.group closerOf?_square),
    ofVisits_array hgroup, interior_group closerOf?_square, trimmed_of_trimmed htrimmed,
    hparts]
  rfl

theorem readToken_object {inner : Text} (horderly : Orderly inner) (htrimmed : inner.Trimmed)
    (offset : Nat) {parts : List Segment}
    (hparts : Segment.elements ⟨inner, offset + 1⟩ = .ok parts) :
    readToken read ⟨'{' :: inner ++ ['}'], offset⟩
      = (parts.mapM (readEntry read)).map .mapping := by
  have hgroup : IsGroup '{' ('{' :: inner ++ ['}']) := ⟨'}', inner, rfl, horderly, rfl⟩
  rw [readToken, tokenClass_of_orderly (horderly.group closerOf?_curly),
    ofVisits_object hgroup, interior_group closerOf?_curly, trimmed_of_trimmed htrimmed,
    hparts]
  rfl

/-- A text that begins with another character is no group of this kind. -/
theorem not_isGroup_of_head {opener c : Char} {t : Text} (hhead : t.head? = some c)
    (hne : c ≠ opener) : ¬ IsGroup opener t := by
  rintro ⟨closer, inner, -, -, rfl⟩
  exact hne (Option.some.inj hhead).symm

/-- Three dots are read with what stands behind them, white space apart. -/
theorem readToken_dots {operand : Text} (horderly : Orderly operand) (hne : operand.trim ≠ [])
    (offset : Nat) : readToken read ⟨dots ++ operand, offset⟩
      = (read (.trimmed operand (offset + 3))).map .spread := by
  have hdots : Orderly dots := by decide
  have hslice := sliceFrom_append dots operand offset
  rw [show Text.width dots = 3 from rfl] at hslice
  rw [readToken, tokenClass_of_orderly (hdots.append horderly),
    ofVisits_of_not_isGroup (not_isGroup_of_head (c := '.') rfl (by decide))
      (not_isGroup_of_head (c := '.') rfl (by decide)),
    if_pos (by simp [dots])]
  show readSpread read ⟨dots ++ operand, offset⟩ = _
  rw [readSpread, hslice, if_neg (by simpa [Segment.isEmpty, Segment.trimmed] using hne)]

theorem readToken_spread {operand : Text} (horderly : Orderly operand)
    (htrimmed : operand.Trimmed) (hne : operand ≠ []) (offset : Nat) :
    readToken read ⟨dots ++ operand, offset⟩ = (read ⟨operand, offset + 3⟩).map .spread := by
  rw [readToken_dots read horderly (by rwa [show operand.trim = operand from htrimmed]),
    trimmed_of_trimmed htrimmed]

theorem readToken_leaf {t : Text} (horderly : Orderly t) (hobject : ¬ IsGroup '{' t)
    (harray : ¬ IsGroup '[' t) (hdots : dots.isPrefixOf t = false) (offset : Nat) :
    readToken read ⟨t, offset⟩ = .ok (Shape.ofLeaf t) := by
  rw [readToken, tokenClass_of_orderly horderly, ofVisits_of_not_isGroup hobject harray,
    if_neg (by simp [hdots])]
  rfl

theorem ofLeaf_bare {t : Text} (htrue : t ≠ "true".toList) (hfalse : t ≠ "false".toList)
    (hliteral : ¬ IsLiteral t) : Shape.ofLeaf t = .text t .none := by
  rw [Shape.ofLeaf, if_neg htrue, if_neg hfalse, wholeLiteral?_eq_none_iff.2 hliteral]
  rfl

theorem ofLeaf_literal {quote : Char} {words : Text}
    (hliteral : IsLiteral (quote :: words ++ [quote])) :
    Shape.ofLeaf (quote :: words ++ [quote]) = .text words (some quote) := by
  obtain ⟨q, ws, heq, -, hquote, -, -⟩ := hliteral.exists_eq
  obtain ⟨rfl, -⟩ := List.cons.inj heq
  have hword : ∀ word ∈ ["true".toList, "false".toList], quote :: words ++ [quote] ≠ word := by
    intro word hword h
    have hhead : word.head? = some quote := by rw [← h]; rfl
    simp only [List.mem_cons, List.not_mem_nil, or_false] at hword
    rcases hword with rfl | rfl <;> obtain rfl := Option.some.inj hhead <;>
      exact absurd hquote (by decide)
  rw [Shape.ofLeaf, if_neg (hword _ (by simp)), if_neg (hword _ (by simp)),
    wholeLiteral?_eq_some_iff.2 ⟨rfl, hliteral⟩]

/-! ## Entries -/

/-- A text that lacks a character begins the same before that character as by
itself. -/
theorem isPrefixOf_append_cons {p : Text} {c : Char} (h : c ∉ p) (a b : Text) :
    p.isPrefixOf (a ++ c :: b) = p.isPrefixOf a := by
  induction p generalizing a with
  | nil => rfl
  | cons d p ih =>
    obtain ⟨hne, hmem⟩ := not_or.1 (mt List.mem_cons.2 h)
    cases a with
    | nil => simp [List.isPrefixOf, Ne.symm hne]
    | cons e a => rw [List.cons_append, List.isPrefixOf, List.isPrefixOf, ih hmem]

theorem divider_of_lacks {t : Text} (horderly : Orderly t) (h : LacksDivider t)
    (offset : Nat) : Segment.divider ⟨t, offset⟩ = .ok none := by
  have hfind : t.visits.find? (Segment.separatesAt t) = none :=
    List.find?_eq_none.2 fun v hv => by simp [h v hv]
  rw [show Segment.divider ⟨t, offset⟩ = _ from divider_of_orderly horderly, hfind]
  rfl

theorem ofSegment_shorthand {key : Text} (h : IsKey key) (offset : Nat) :
    EntryForm.ofSegment ⟨key, offset⟩ = .ok (.shorthand key) := by
  have hempty : Segment.isEmpty ⟨key, offset⟩ = false := by
    simpa [Segment.isEmpty] using h.ne_nil
  rw [EntryForm.ofSegment, if_neg (by simp [hempty])]
  simp only [Text.afterPrefix?_eq_none_iff.2 h.lacksDots,
    divider_of_lacks h.orderly h.lacksDivider]

theorem ofSegment_pair {key value : Text} (hkey : IsKey key) (hvalue : IsWritten .value value)
    (offset : Nat) : ∃ place,
      EntryForm.ofSegment ⟨key ++ [':', ' '] ++ value, offset⟩
        = .ok (.valued key ⟨value, place⟩) := by
  have hspace : Orderly (' ' :: value) := (hvalue.isElement rfl).2.space.1
  have hdots : dots.isPrefixOf (key ++ ':' :: ' ' :: value) = false := by
    rw [isPrefixOf_append_cons (by decide), hkey.lacksDots]
  obtain ⟨place, hplace⟩ := trimmed_space hvalue.trimmed (offset + key.width + 1)
  have hslice :=
    sliceFrom_sign (show Char.utf8Size ':' = 1 by decide) key (' ' :: value) offset
  rw [hplace] at hslice
  refine ⟨place, ?_⟩
  rw [show key ++ [':', ' '] ++ value = key ++ ':' :: ' ' :: value by simp,
    EntryForm.ofSegment, if_neg (by simp [Segment.isEmpty])]
  simp only [Text.afterPrefix?_eq_none_iff.2 hdots,
    divider_of_key hkey.orderly hkey.lacksDivider hspace]
  rw [EntryForm.ofDivided, hslice]
  simp only [Text.takeBytes_append, show key.trim = key from hkey.trimmed]
  rw [if_neg (by simpa [Segment.isEmpty] using hvalue.ne_nil rfl)]

/-- The fault of an entry at byte `place` that would collect the rest of an
object under a key that is no name. -/
def restFault (key : Text) (place : Nat) : Fault :=
  ((Cause.restKeyNotBindable key).located place).withHint .restMustBeIdentifier

/-- What three dots stand before in an object pattern has to be a name. -/
theorem ofSegment_rest {key : Text} (h : key.Trimmed) (offset : Nat) :
    EntryForm.ofSegment ⟨dots ++ key, offset⟩
      = if isIdentifier key then .ok (.rest key) else .error (restFault key offset) := by
  rw [EntryForm.ofSegment, if_neg (by simp [Segment.isEmpty, dots])]
  simp only [Text.afterPrefix?_eq_some_iff.2 rfl, show key.trim = key from h]
  rfl

theorem readEntry_shorthand {key : Text} (h : IsKey key) (offset : Nat) :
    readEntry read ⟨key, offset⟩ = .ok (.shorthand key) := by
  rw [readEntry, ofSegment_shorthand h]
  rfl

theorem readEntry_pair {key value : Text} (hkey : IsKey key) (hvalue : IsWritten .value value)
    (offset : Nat) : ∃ place, readEntry read ⟨key ++ [':', ' '] ++ value, offset⟩
      = (read ⟨value, place⟩).map (.valued key) := by
  obtain ⟨place, hform⟩ := ofSegment_pair hkey hvalue offset
  have hempty : key.isEmpty = false := by simpa using hkey.ne_nil
  refine ⟨place, ?_⟩
  rw [readEntry, hform]
  cases hread : read ⟨value, place⟩ with
  | error fault => simp [hread, bind, Except.bind, Except.map]
  | ok shape => simp [hread, hempty, bind, Except.bind, Except.map, pure, Except.pure]

/-- The rest of an object is read as a whole, dots and all. -/
theorem readEntry_rest {key : Text} (h : key.Trimmed) (hname : isIdentifier key = true)
    (offset : Nat) : readEntry read ⟨dots ++ key, offset⟩
      = (read ⟨dots ++ key, offset⟩).map (.valued key) := by
  rw [readEntry, ofSegment_rest h, if_pos hname]
  show (read ⟨dots ++ key, offset⟩).bind (fun shape => .ok (Entry.valued key shape)) = _
  cases read ⟨dots ++ key, offset⟩ <;> rfl

theorem readEntry_refused {key : Text} (h : key.Trimmed) (hname : ¬ isIdentifier key = true)
    (offset : Nat) :
    readEntry read ⟨dots ++ key, offset⟩ = .error (restFault key offset) := by
  rw [readEntry, ofSegment_rest h, if_neg hname]
  rfl

end CallSignature
