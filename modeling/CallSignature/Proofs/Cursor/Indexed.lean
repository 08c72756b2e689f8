/-
CallSignature.Proofs.Cursor.Indexed — a cursor that is kept as an index.

A cursor keeps what lies behind it and what lies before it.  A reader that
wants to copy nothing keeps the number of characters it has read instead, and
a table that says of each character of the source at which byte it begins.
Such a reader looks its position up in the table, and to get from a position
back to a character it searches the table.

Nothing in this says that the two numbers stay together, the index and the
position.  `Cursor.indexed` is the index that belongs to a cursor, and each
step from it leads to the index that belongs to the cursor behind the same
step.

Past the end of the table there is nothing to see, which `peek` reports as
U+0000.  So a loop over the next characters comes to an end only because
U+0000 is not what it goes on for.
-/
import CallSignature.Proofs.Cursor.Steps

namespace CallSignature

open Unicode

/-! ## The table -/

namespace Text

/-- The characters of a text that begins at byte `offset`, each with the byte
at which it begins itself. -/
def charTable (offset : Nat) : Text → List (Nat × Char)
  | [] => []
  | c :: rest => (offset, c) :: charTable (offset + c.utf8Size) rest

@[simp] theorem length_charTable (offset : Nat) (t : Text) :
    (charTable offset t).length = t.length := by
  induction t generalizing offset with
  | nil => rfl
  | cons c t ih => simp [charTable, ih]

/-- The entry behind a part is that of the character behind it. -/
theorem getElem?_charTable_append (offset : Nat) (a b : Text) :
    (charTable offset (a ++ b))[a.length]? = b.head?.map ((offset + a.width, ·)) := by
  induction a generalizing offset with
  | nil => cases b <;> rfl
  | cons c a ih =>
    rw [List.cons_append, charTable, List.length_cons, List.getElem?_cons_succ, ih, width_cons,
      Nat.add_assoc]

/-- The first character that begins at byte `n` or later stands where the
text is cut at that byte. -/
theorem findIdx_charTable (offset n : Nat) (t : Text) :
    (charTable offset t).findIdx (fun entry => n ≤ entry.1)
      = (takeBytes (n - offset) t).length := by
  induction t generalizing offset with
  | nil => rfl
  | cons c t ih =>
    rw [charTable, List.findIdx_cons, takeBytes]
    by_cases hle : n ≤ offset
    · rw [decide_eq_true hle, if_pos (Nat.sub_eq_zero_of_le hle)]
      rfl
    · rw [decide_eq_false hle, if_neg (by omega), ih, Nat.sub_sub]
      rfl

end Text

/-! ## The cursor -/

/-- A place in a source, told by the number of characters in front of it. -/
structure IndexedCursor where
  source : Text
  current : Nat
  deriving DecidableEq, Repr

namespace IndexedCursor

variable {c : IndexedCursor} {p : Char → Bool}

/-- The cursor at the beginning of a source. -/
def ofText (t : Text) : IndexedCursor := ⟨t, 0⟩

/-- Where the characters of the source begin. -/
def table (c : IndexedCursor) : List (Nat × Char) := c.source.charTable 0

/-- The position of the next character, or of the end if there is none. -/
def offset (c : IndexedCursor) : Nat := (c.table[c.current]?.map (·.1)).getD c.source.width

/-- What has not been read. -/
def rest (c : IndexedCursor) : Text := c.source.dropBytes c.offset

/-- Whether everything has been read. -/
def isAtEnd (c : IndexedCursor) : Bool := c.table.length ≤ c.current

/-- The next character. -/
def peek (c : IndexedCursor) : Char := (c.table[c.current]?.map (·.2)).getD '\x00'

/-- The character behind the next one. -/
def peekNext (c : IndexedCursor) : Char := (c.table[c.current + 1]?.map (·.2)).getD '\x00'

/-- The cursor `n` characters further on, whether they are there or not. -/
def forward (n : Nat) (c : IndexedCursor) :
    IndexedCursor := { c with current := c.current + n }

/-- The cursor behind the next character, if there is one. -/
def advance (c : IndexedCursor) : IndexedCursor := if c.isAtEnd then c else c.forward 1

/-- The cursor at the first character that begins at byte `offset` or later. -/
def seek (offset : Nat) (c : IndexedCursor) : IndexedCursor :=
  { c with current := c.table.findIdx (fun entry => offset ≤ entry.1) }

/-- The cursor behind the character, if that is the next one. -/
def matchChar (expected : Char) (c : IndexedCursor) : Option IndexedCursor :=
  if c.isAtEnd || c.peek != expected then none else some (c.forward 1)

/-- The cursor behind the text, if the source goes on with it. -/
def matchText (expected : Text) (c : IndexedCursor) : Option IndexedCursor :=
  if expected.isPrefixOf c.rest then some (c.forward expected.length) else none

/-- Whether the source goes on with the word and the word ends there. -/
def startsWithWord (word : Text) (c : IndexedCursor) : Bool :=
  word.isPrefixOf c.rest && !(c.rest.dropBytes word.width).head?.any isNameContinue

/-- The cursor behind the word, if the source goes on with it and the word
ends there. -/
def matchWord (word : Text) (c : IndexedCursor) : Option IndexedCursor :=
  if c.startsWithWord word then some (c.forward word.length) else none

/-- A character that the end is not taken for is there. -/
theorem current_lt_of_peek (hp : p '\x00' = false) (h : p c.peek = true) :
    c.current < c.table.length := by
  by_contra hend
  rw [peek, List.getElem?_eq_none (Nat.not_lt.1 hend)] at h
  exact Bool.false_ne_true (hp.symm.trans h)

theorem advance_of_lt (h : c.current < c.table.length) : c.advance = c.forward 1 :=
  if_neg (by simpa [isAtEnd] using h)

/-- The cursor behind the characters for which `p` holds, which goes on as
long as `p` holds of the next one. -/
def skipWhile (p : Char → Bool) (hp : p '\x00' = false) (c : IndexedCursor) : IndexedCursor :=
  if p c.peek then skipWhile p hp c.advance else c
termination_by c.table.length - c.current
decreasing_by
  have hlt := current_lt_of_peek hp (by assumption)
  rw [advance_of_lt hlt]
  exact Nat.sub_lt_sub_left hlt (Nat.lt_succ_self _)

/-- The cursor behind the white space it stands before. -/
def skipWhiteSpace (c : IndexedCursor) : IndexedCursor :=
  c.skipWhile isWhiteSpace (by decide)

/-- The readable name the cursor stands before, cut out of the source, and the
cursor behind it. -/
def identifier (c : IndexedCursor) : Option (Text × IndexedCursor) :=
  if isNameStart c.peek || (c.peek == '#' && isNameStart c.peekNext) then
    let next := c.advance.skipWhile isNameContinue (by decide)
    some (c.source.slice c.offset next.offset, next)
  else none

end IndexedCursor

/-! ## The index that belongs to a cursor -/

namespace Cursor

/-- The cursor, told by an index. -/
def indexed (c : Cursor) : IndexedCursor := ⟨c.text, c.behind.length⟩

variable {a : Text} {c d : Cursor} {p : Char → Bool}

/-- The entry that is looked up is that of the next character. -/
theorem getElem?_table_indexed (c : Cursor) :
    c.indexed.table[c.indexed.current]? = c.rest.head?.map ((c.offset, ·)) := by
  have hentry := Text.getElem?_charTable_append 0 c.behind.reverse c.rest
  rwa [List.length_reverse, Nat.zero_add, Text.width_reverse] at hentry

theorem offset_indexed (c : Cursor) : c.indexed.offset = c.offset := by
  rw [IndexedCursor.offset, getElem?_table_indexed]
  cases hrest : c.rest with
  | nil =>
    show c.text.width = c.offset
    rw [text, hrest, List.append_nil, Text.width_reverse, offset]
  | cons x rest => rfl

theorem rest_indexed (c : Cursor) : c.indexed.rest = c.rest := by
  rw [IndexedCursor.rest, offset_indexed]
  exact dropBytes_offset c

theorem isAtEnd_indexed (c : Cursor) : c.indexed.isAtEnd = c.isAtEnd := by
  have hlength : c.indexed.table.length = c.behind.length + c.rest.length := by
    simp [IndexedCursor.table, indexed, text]
  rw [IndexedCursor.isAtEnd, hlength, isAtEnd, indexed]
  cases c.rest with
  | nil => simp
  | cons x rest => exact decide_eq_false (by simp)

theorem peek_indexed (c : Cursor) : c.indexed.peek = c.peek := by
  rw [IndexedCursor.peek, getElem?_table_indexed, peek, List.headD_eq_head?_getD]
  cases c.rest.head? <;> rfl

/-! ## Steps -/

/-- Reading on by characters that are there. -/
theorem forward_indexed (h : Passes a c d) : c.indexed.forward a.length = d.indexed := by
  rw [indexed, indexed, h.text_eq, h.behind, List.length_append, List.length_reverse,
    Nat.add_comm a.length]
  rfl

theorem advance_indexed (c : Cursor) : c.indexed.advance = (c.advance 1).indexed := by
  rw [IndexedCursor.advance, isAtEnd_indexed, isAtEnd]
  obtain ⟨behind, rest⟩ := c
  cases rest with
  | nil => rfl
  | cons x rest => exact forward_indexed (passes_next behind x rest)

theorem peekNext_indexed (c : Cursor) : c.indexed.peekNext = c.peekNext := by
  obtain ⟨behind, rest⟩ := c
  cases rest with
  | nil =>
    have hnone : (indexed ⟨behind, []⟩).table[(indexed ⟨behind, []⟩).current + 1]? = none :=
      List.getElem?_eq_none (by simp [IndexedCursor.table, indexed, text])
    rw [IndexedCursor.peekNext, hnone]
    rfl
  | cons x rest =>
    -- the next character but one is the next of the cursor behind the next
    have hnext := peek_indexed ⟨x :: behind, rest⟩
    rwa [← forward_indexed (passes_next behind x rest)] at hnext

theorem seek_indexed (n : Nat) (c : Cursor) : c.indexed.seek n = (c.seek n).indexed := by
  rw [IndexedCursor.seek, IndexedCursor.table, Text.findIdx_charTable, indexed, indexed,
    text_seek, seek, List.length_reverse]
  rfl

theorem matchChar_indexed (x : Char) (c : Cursor) :
    c.indexed.matchChar x = (c.matchChar x).map indexed := by
  rw [IndexedCursor.matchChar, isAtEnd_indexed, peek_indexed, matchChar, isAtEnd, peek]
  obtain ⟨behind, rest⟩ := c
  cases rest with
  | nil => rfl
  | cons y rest =>
    by_cases hy : y = x
    · subst hy
      rw [if_neg (by simp), if_pos (show (y :: rest).head? = some y from rfl)]
      exact congrArg some (forward_indexed (passes_next behind y rest))
    · simp [hy]

theorem matchText_indexed (w : Text) (c : Cursor) :
    c.indexed.matchText w = (c.matchText w).map indexed := by
  rw [IndexedCursor.matchText, rest_indexed, matchText]
  split
  · rename_i hbegins
    obtain ⟨rest, hrest⟩ := List.isPrefixOf_iff_prefix.1 hbegins
    exact congrArg some (forward_indexed (passes_advance hrest.symm))
  · rfl

theorem startsWithWord_indexed (w : Text) (c : Cursor) :
    c.indexed.startsWithWord w = c.startsWithWord w := by
  rw [IndexedCursor.startsWithWord, rest_indexed, startsWithWord]
  cases hbegins : w.isPrefixOf c.rest with
  | false => rfl
  | true =>
    obtain ⟨rest, hrest⟩ := List.isPrefixOf_iff_prefix.1 hbegins
    rw [← hrest, Text.dropBytes_append, List.drop_left]

theorem matchWord_indexed (w : Text) (c : Cursor) :
    c.indexed.matchWord w = (c.matchWord w).map indexed := by
  rw [IndexedCursor.matchWord, startsWithWord_indexed, matchWord]
  split
  · rename_i hstarts
    obtain ⟨hbegins, -⟩ : w.isPrefixOf c.rest = true ∧ _ := by
      simpa [startsWithWord] using hstarts
    obtain ⟨rest, hrest⟩ := List.isPrefixOf_iff_prefix.1 hbegins
    exact congrArg some (forward_indexed (passes_advance hrest.symm))
  · rfl

/-- The loop stops where the row of characters does, and at the end. -/
theorem skipWhile_indexed (hp : p '\x00' = false) (c : Cursor) :
    c.indexed.skipWhile p hp = (c.skipWhile p).indexed := by
  obtain ⟨behind, rest⟩ := c
  induction rest generalizing behind with
  | nil =>
    have hpeek : p (indexed ⟨behind, []⟩).peek = false := by rw [peek_indexed]; exact hp
    rw [IndexedCursor.skipWhile, hpeek, if_neg Bool.false_ne_true]
    rfl
  | cons x rest ih =>
    have hpeek : (indexed ⟨behind, x :: rest⟩).peek = x := peek_indexed _
    rw [IndexedCursor.skipWhile, hpeek, advance_indexed]
    cases hx : p x with
    | false =>
      rw [if_neg Bool.false_ne_true, skipWhile, List.takeWhile_cons, hx]
      rfl
    | true =>
      have hrow := (passes_next behind x rest).trans (passes_skipWhile p ⟨x :: behind, rest⟩)
      have hwhole := passes_skipWhile p ⟨behind, x :: rest⟩
      rw [List.takeWhile_cons, hx, if_pos rfl] at hwhole
      rw [if_pos rfl, hwhole.unique hrow]
      exact ih (x :: behind)

theorem skipWhiteSpace_indexed (c : Cursor) :
    c.indexed.skipWhiteSpace = c.skipWhiteSpace.indexed :=
  skipWhile_indexed (by decide) c

/-- What lies between two cursors is what is read on the way. -/
theorem slice_indexed (h : Passes a c d) :
    c.indexed.source.slice c.indexed.offset d.indexed.offset = a := by
  have hslice := Text.slice_append c.behind.reverse a d.rest
  rw [List.append_assoc, ← h.rest, Text.width_reverse] at hslice
  rw [offset_indexed, offset_indexed, h.offset]
  exact hslice

theorem identifier_indexed (c : Cursor) :
    c.indexed.identifier = c.identifier.map fun (name, next) => (name, next.indexed) := by
  rw [IndexedCursor.identifier, peek_indexed, peekNext_indexed, identifier]
  obtain ⟨behind, rest⟩ := c
  cases rest with
  | nil => rfl
  | cons x rest =>
    have hnext : (rest.headD '\x00' |> isNameStart) = rest.head?.any isNameStart := by
      cases rest with
      | nil => decide
      | cons y rest => rfl
    show (if isNameStart x || (x == '#' && isNameStart (rest.headD '\x00')) then _
      else none) = _
    rw [hnext, name?]
    split
    · have hpass := (passes_next behind x rest).trans
        (passes_skipWhile isNameContinue ⟨x :: behind, rest⟩)
      have hnext := hpass.unique (passes_advance hpass.rest)
      dsimp only
      rw [advance_indexed, skipWhile_indexed]
      exact congrArg some (Prod.ext (slice_indexed hpass) (congrArg indexed hnext))
    · rfl

end Cursor

end CallSignature
