/-
CallSignature.Proofs.Shape.RoundTrip — a written shape is read back.

Reading what was written can end in three ways, and `Reread` says which of
them are possible when: the shape is read, the room runs out, or a rest entry
is refused whose key is not a name.  The three are kept apart all the way
down, so that one induction over the shape settles both what is read and what
is not.

The theorem about well formed shapes is `shape_of_written`.
-/
import CallSignature.Proofs.Shape.Token

namespace CallSignature

open Shape Unicode

/-! ## Three ways to end -/

/-- The fault of a reader that has run out of room at byte `place`. -/
def depthFault (limit place : Nat) : Fault :=
  ((Cause.nestingTooDeep limit).located place).withHint .raiseMaxDepth

/-- How reading what was written for `value` can end, where `fits` says that
there is room enough and `bindable` that no entry would be refused. -/
inductive Reread {α : Type} (limit : Nat) (fits bindable : Prop) (value : α) :
    Except Fault α → Prop
  | read (hfits : fits) (hbindable : bindable) : Reread limit fits bindable value (.ok value)
  | tooDeep (place : Nat) (h : ¬ fits) :
    Reread limit fits bindable value (.error (depthFault limit place))
  | refused (key : Text) (place : Nat) (h : ¬ bindable) :
    Reread limit fits bindable value (.error (restFault key place))

namespace Reread

variable {α β : Type} {limit : Nat} {fits bindable fits' bindable' : Prop} {value : α}

theorem congr {result : Except Fault α} (h : Reread limit fits bindable value result)
    (hfits : fits ↔ fits') (hbindable : bindable ↔ bindable') :
    Reread limit fits' bindable' value result := by
  rwa [← hfits, ← hbindable]

theorem map {result : Except Fault α} (h : Reread limit fits bindable value result)
    (f : α → β) : Reread limit fits bindable (f value) (result.map f) := by
  cases h with
  | read hfits hbindable => exact .read hfits hbindable
  | tooDeep place h => exact .tooDeep place h
  | refused key place h => exact .refused key place h

/-- The parts of a list are read one after the other, and the first fault
ends the reading. -/
theorem cons {read : Segment → Except Fault α} {part : Segment} {parts : List Segment}
    {values : List α} (head : Reread limit fits bindable value (read part))
    (tail : Reread limit fits' bindable' values (parts.mapM read)) :
    Reread limit (fits ∧ fits') (bindable ∧ bindable') (value :: values)
      ((part :: parts).mapM read) := by
  rw [List.mapM_cons]
  cases hhead : read part with
  | error fault =>
    rw [hhead] at head
    cases head with
    | tooDeep place h => exact .tooDeep place fun hboth => h hboth.1
    | refused key place h => exact .refused key place fun hboth => h hboth.1
  | ok first =>
    cases htail : parts.mapM read with
    | error fault =>
      rw [htail] at tail
      cases tail with
      | tooDeep place h => exact .tooDeep place fun hboth => h hboth.2
      | refused key place h => exact .refused key place fun hboth => h hboth.2
    | ok rest =>
      rw [hhead] at head
      rw [htail] at tail
      cases head
      cases tail
      exact .read ⟨‹_›, ‹_›⟩ ⟨‹_›, ‹_›⟩

theorem ok_iff {result : Except Fault α} (h : Reread limit fits bindable value result) :
    result = .ok value ↔ fits ∧ bindable := by
  cases h with
  | read hfits hbindable => exact ⟨fun _ => ⟨hfits, hbindable⟩, fun _ => rfl⟩
  | tooDeep place h => exact ⟨nofun, fun hboth => absurd hboth.1 h⟩
  | refused key place h => exact ⟨nofun, fun hboth => absurd hboth.2 h⟩

/-- A shape that fits is refused only for the key of a rest entry. -/
theorem eq_restFault {result : Except Fault α} (h : Reread limit fits bindable value result)
    (hfits : fits) (hbindable : ¬ bindable) :
    ∃ key place, result = .error (restFault key place) := by
  cases h with
  | read _ h => exact absurd h hbindable
  | tooDeep place h => exact absurd hfits h
  | refused key place _ => exact ⟨key, place, rfl⟩

/-- If nothing is refused, a shape that does not fit is too deep. -/
theorem eq_depthFault {result : Except Fault α} (h : Reread limit fits bindable value result)
    (hbindable : bindable) (hfits : ¬ fits) :
    ∃ place, result = .error (depthFault limit place) := by
  cases h with
  | read h _ => exact absurd h hfits
  | tooDeep place _ => exact ⟨place, rfl⟩
  | refused key place h => exact absurd hbindable h

end Reread

/-! ## The induction over the shape -/

section

variable {limit : Nat}

theorem reread_leaf {place : Place} {s : Shape} (h : IsWritten place s.source)
    (hheight : s.height = 0) (hbindable : s.RestsBindable) (hobject : ¬ IsGroup '{' s.source)
    (harray : ¬ IsGroup '[' s.source) (hdots : dots.isPrefixOf s.source = false)
    (hleaf : Shape.ofLeaf s.source = s) (room offset : Nat) :
    Reread limit (s.height < room) s.RestsBindable s
      (shapeWithin limit room ⟨s.source, offset⟩) := by
  cases room with
  | zero => exact .tooDeep offset (Nat.not_lt_zero _)
  | succ room =>
    rw [shapeWithin, readToken_leaf _ h.orderly hobject harray hdots, hleaf]
    exact .read (by omega) hbindable

theorem reread_literal {quote : Char} {words : Text}
    (h : IsLiteral (quote :: words ++ [quote])) (room offset : Nat) :
    Reread limit ((text words (some quote)).height < room) True (text words (some quote))
      (shapeWithin limit room ⟨quote :: words ++ [quote], offset⟩) := by
  obtain ⟨q, ws, heq, -, hquote, -, -⟩ := h.exists_eq
  obtain ⟨rfl, -⟩ := List.cons.inj heq
  have hne : ∀ c ∈ ['{', '[', '.'], quote ≠ c := by
    rintro c hc rfl
    rcases eq_of_isQuote hquote with rfl | rfl | rfl <;> revert hc <;> decide
  have hdots : dots.isPrefixOf (quote :: words ++ [quote]) = false := by
    have hdot : ('.' == quote) = false := by simpa using (hne '.' (by simp)).symm
    simp only [dots, List.cons_append, List.isPrefixOf, hdot, Bool.false_and]
  exact reread_leaf (s := text words (some quote)) (h.isWritten .whole) rfl trivial
    (not_isGroup_of_head rfl (hne _ (by simp))) (not_isGroup_of_head rfl (hne _ (by simp)))
    hdots (ofLeaf_literal h) room offset

/-- An element of an array pattern is read unless it is empty. -/
theorem reread_item {item : Shape} {room : Nat} {part : Segment}
    (htext : part.text = item.source)
    (h : Reread limit (item.height < room) item.RestsBindable item
      (shapeWithin limit room part)) :
    Reread limit (item.isHole = false → item.height < room) item.RestsBindable item
      (readItem (shapeWithin limit room) part) := by
  have hempty : part.isEmpty = item.isHole := by
    rw [Segment.isEmpty, htext, Bool.eq_iff_iff, List.isEmpty_iff, source_eq_nil_iff]
  rw [readItem, hempty]
  cases hhole : item.isHole with
  | true =>
    rw [eq_hole hhole, if_pos rfl]
    exact .read (by simp) trivial
  | false =>
    rw [if_neg Bool.false_ne_true]
    exact h.congr (by simp) Iff.rfl

theorem heightOfItems_cons_le {item : Shape} {rest : List Shape} {room : Nat} :
    heightOfItems (item :: rest) ≤ room ↔
      (item.isHole = false → item.height < room) ∧ heightOfItems rest ≤ room := by
  rw [heightOfItems]
  cases item.isHole with
  | true => simp
  | false =>
    simp
    omega

/-- An entry with a value is read in one of two ways, by what it was written
as. -/
theorem reread_entry {key : Text} {value : Shape} {room : Nat} {part : Segment}
    (hkey : IsKey key) (hvalue : IsWritten .value value.source)
    (htext : part.text
      = if value.collects key then dots ++ key else key ++ [':', ' '] ++ value.source)
    (h : ∀ offset, Reread limit (value.height < room) value.RestsBindable value
      (shapeWithin limit room ⟨value.source, offset⟩)) :
    Reread limit (value.height < room)
      ((value.collects key = true → isIdentifier key = true) ∧ value.RestsBindable)
      (.valued key value) (readEntry (shapeWithin limit room) part) := by
  obtain ⟨text, offset⟩ := part
  obtain rfl : text = _ := htext
  cases hcollects : value.collects key with
  | false =>
    obtain ⟨place, hread⟩ := readEntry_pair (shapeWithin limit room) hkey hvalue offset
    simp only [Bool.false_eq_true, if_false, hread]
    exact ((h place).map _).congr Iff.rfl (by simp)
  | true =>
    have hsource : value.source = dots ++ key := by
      cases value with
      | spread operand =>
        cases operand with
        | text words quote => cases quote <;> simp_all [collects, bareWords?, source]
        | _ => simp [collects, bareWords?] at hcollects
      | _ => simp [collects] at hcollects
    simp only [if_true]
    by_cases hname : isIdentifier key = true
    · rw [readEntry_rest _ hkey.trimmed hname, ← hsource]
      exact ((h offset).map _).congr Iff.rfl (by simp [hname])
    · rw [readEntry_refused _ hkey.trimmed hname]
      exact .refused key offset fun hboth => hname (hboth.1 trivial)

theorem heightOfEntries_cons_le {key : Text} {value : Shape} {rest : List Entry} {room : Nat} :
    heightOfEntries (.valued key value :: rest) ≤ room ↔
      value.height < room ∧ heightOfEntries rest ≤ room := by
  rw [heightOfEntries]
  omega

namespace Shape

mutual

/-- The source of a canonical shape is read as the shape, unless there is not
room enough or an entry is refused. -/
theorem reread_source : ∀ {place : Place} (s : Shape), s.Canonical place →
    ∀ room offset : Nat, Reread limit (s.height < room) s.RestsBindable s
      (shapeWithin limit room ⟨s.source, offset⟩)
  | _, .bool true, h, room, offset =>
    reread_leaf (isWritten_source _ h) rfl trivial
      (not_isGroup_of_head (c := 't') rfl (by decide))
      (not_isGroup_of_head (c := 't') rfl (by decide)) rfl rfl room offset
  | _, .bool false, h, room, offset =>
    reread_leaf (isWritten_source _ h) rfl trivial
      (not_isGroup_of_head (c := 'f') rfl (by decide))
      (not_isGroup_of_head (c := 'f') rfl (by decide)) rfl rfl room offset
  | _, text words .none, h, room, offset =>
    have hleaf : IsLeafText _ words := h
    reread_leaf (s := text words .none) (IsLeafText.isWritten h) rfl trivial hleaf.not_object
      hleaf.not_array hleaf.lacksDots
      (ofLeaf_bare hleaf.ne_true hleaf.ne_false hleaf.not_isLiteral) room offset
  | _, text _ (some _), h, room, offset => reread_literal h room offset
  | _, sequence _, _, 0, offset => .tooDeep offset (Nat.not_lt_zero _)
  | _, sequence items, h, room + 1, offset => by
    have helements := isElement_sourceOfItems items h
    have hmark := isMark_holeMark items
    obtain ⟨parts, hparts, htexts⟩ := elements_of_row helements hmark (offset + 1)
    rw [source, List.cons_append, shapeWithin,
      readToken_array _ (orderly_row helements hmark) (trimmed_row helements hmark) offset
        hparts]
    exact ((reread_sourceOfItems items h room parts htexts).map _).congr
      Nat.lt_succ_iff.symm Iff.rfl
  | _, mapping _, _, 0, offset => .tooDeep offset (Nat.not_lt_zero _)
  | _, mapping entries, h, room + 1, offset => by
    have hentries := isElement_sourceOfEntries entries h
    have helements := fun t ht => (hentries t ht).1
    have hmark := isMark_nil fun t ht => (hentries t ht).2
    obtain ⟨parts, hparts, htexts⟩ := elements_of_row helements hmark (offset + 1)
    have horderly := orderly_row helements hmark
    have htrimmed := trimmed_row helements hmark
    rw [List.append_nil] at hparts horderly htrimmed
    rw [source, shapeWithin, readToken_object _ horderly htrimmed offset hparts]
    exact ((reread_sourceOfEntries entries h room parts htexts).map _).congr
      Nat.lt_succ_iff.symm Iff.rfl
  | _, spread _, _, 0, offset => .tooDeep offset (Nat.not_lt_zero _)
  | _, spread operand, h, room + 1, offset => by
    have hwritten := isWritten_source operand h
    rw [source, shapeWithin,
      readToken_spread _ hwritten.orderly hwritten.trimmed (hwritten.ne_nil rfl)]
    refine ((reread_source operand h room (offset + 3)).map _).congr ?_ Iff.rfl
    rw [height]
    omega

theorem reread_sourceOfItems : ∀ items : List Shape, CanonicalItems items → ∀ room : Nat,
    ∀ parts : List Segment, parts.map (·.text) = sourceOfItems items →
    Reread limit (heightOfItems items ≤ room) (RestsBindableItems items) items
      (parts.mapM (readItem (shapeWithin limit room)))
  | [], _, room, parts, htexts => by
    obtain rfl := List.map_eq_nil_iff.1 htexts
    exact .read (Nat.zero_le _) trivial
  | item :: rest, ⟨hitem, hrest⟩, room, parts, htexts => by
    obtain ⟨part, parts, rfl, htext, hparts⟩ := List.map_eq_cons_iff.1 htexts
    have hread := reread_source item hitem room part.offset
    rw [← htext] at hread
    exact ((reread_item htext hread).cons
      (reread_sourceOfItems rest hrest room parts hparts)).congr
        heightOfItems_cons_le.symm Iff.rfl

theorem reread_sourceOfEntries : ∀ entries : List Entry, CanonicalEntries entries →
    ∀ room : Nat, ∀ parts : List Segment, parts.map (·.text) = sourceOfEntries entries →
    Reread limit (heightOfEntries entries ≤ room) (RestsBindableEntries entries) entries
      (parts.mapM (readEntry (shapeWithin limit room)))
  | [], _, room, parts, htexts => by
    obtain rfl := List.map_eq_nil_iff.1 htexts
    exact .read (Nat.zero_le _) trivial
  | .shorthand key :: rest, ⟨hkey, hrest⟩, room, parts, htexts => by
    obtain ⟨⟨text, offset⟩, parts, rfl, htext, hparts⟩ := List.map_eq_cons_iff.1 htexts
    obtain rfl : text = key := htext
    have hread : Reread limit True True (Entry.shorthand text)
        (readEntry (shapeWithin limit room) ⟨text, offset⟩) := by
      rw [readEntry_shorthand _ hkey]
      exact .read trivial trivial
    exact (hread.cons (reread_sourceOfEntries rest hrest room parts hparts)).congr
      (by simp [heightOfEntries]) (by simp [RestsBindableEntries])
  | .valued key value :: rest, ⟨hkey, hvalue, hrest⟩, room, parts, htexts => by
    obtain ⟨part, parts, rfl, htext, hparts⟩ := List.map_eq_cons_iff.1 htexts
    have hread := reread_entry hkey (isWritten_source value hvalue) htext
      (reread_source value hvalue room)
    exact (hread.cons (reread_sourceOfEntries rest hrest room parts hparts)).congr
      heightOfEntries_cons_le.symm (by simp [RestsBindableEntries, and_assoc])

end

end Shape

end

/-! ## Well formed shapes -/

theorem reread_trimmed {s : Shape} {place : Place} (h : s.Canonical place) (options : Options)
    (offset : Nat) : Reread options.maxDepth (s.height ≤ options.maxDepth) s.RestsBindable s
      (options.shape (.trimmed s.source offset)) := by
  rw [trimmed_of_trimmed (isWritten_source s h).trimmed, Options.shape]
  exact (reread_source s h _ offset).congr Nat.lt_succ_iff Iff.rfl

/-- Reading undoes writing.  Wherever the source of a well formed shape
stands, it is read as the shape if the limit is at least the height of the
shape, and refused as too deep if it is not. -/
theorem shape_of_written {s : Shape} (h : s.WellFormed) (options : Options) (offset : Nat) :
    (s.height ≤ options.maxDepth → options.shape (.trimmed s.source offset) = .ok s) ∧
      (options.maxDepth < s.height → ∃ place, options.shape (.trimmed s.source offset)
        = .error (((Cause.nestingTooDeep options.maxDepth).located place).withHint
          .raiseMaxDepth)) := by
  obtain ⟨hcanonical, hbindable⟩ := h
  have hread := reread_trimmed hcanonical options offset
  constructor
  · intro hfits
    exact hread.ok_iff.2 ⟨hfits, hbindable⟩
  · intro hdeep
    exact hread.eq_depthFault hbindable (Nat.not_le.2 hdeep)

/-- An object pattern with a hole at each end of a list, quotes and a rest. -/
def sampleObject : Shape :=
  mapping [.shorthand "a".toList,
    .valued "b".toList (sequence [hole, bare "c".toList, hole]),
    .valued "d".toList (text "e, f".toList (some '"')),
    .valued "rest".toList (spread (bare "rest".toList))]

theorem shape_of_written_sampleObject :
    sampleObject.WellFormed ∧
      Options.shape {} (.trimmed sampleObject.source 0) = .ok sampleObject ∧
      ∃ place, Options.shape { maxDepth := 1 } (.trimmed sampleObject.source 0)
        = .error (((Cause.nestingTooDeep 1).located place).withHint .raiseMaxDepth) :=
  have h : sampleObject.WellFormed := by decide +kernel
  ⟨h, (shape_of_written h {} 0).1 (by decide),
    (shape_of_written h { maxDepth := 1 } 0).2 (by decide)⟩

end CallSignature
