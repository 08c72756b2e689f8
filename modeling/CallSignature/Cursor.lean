/-
CallSignature.Cursor — a place in a source, and the small steps from it.

A cursor keeps what lies behind it and what lies before it, so that its
position is the width of the one and what is unread is the other.  A step
that can fail returns the cursor behind what it has read, or `none`, and then
the reader still has the cursor it had.

Past the end of the source there is nothing to see, which `peek` reports as
U+0000.
-/
import CallSignature.Word

namespace CallSignature

open Unicode

/-- A place in a source. -/
structure Cursor where
  /-- What has been read, the last character first. -/
  behind : Text
  /-- What has not been read. -/
  rest : Text
  deriving DecidableEq, Repr

namespace Cursor

/-! ## Where the cursor stands -/

/-- The cursor at the beginning of a source. -/
def ofText (t : Text) : Cursor := ⟨[], t⟩

/-- The whole source. -/
def text (c : Cursor) : Text := c.behind.reverse ++ c.rest

/-- The position of the cursor, in bytes from the beginning of the source. -/
def offset (c : Cursor) : Nat := Text.width c.behind

/-- Whether everything has been read. -/
def isAtEnd (c : Cursor) : Bool := c.rest.isEmpty

/-- The next character. -/
def peek (c : Cursor) : Char := c.rest.headD '\x00'

/-- The character behind the next one. -/
def peekNext (c : Cursor) : Char := c.rest.tail.headD '\x00'

/-! ## Steps -/

/-- The cursor after `n` more characters. -/
def advance (n : Nat) (c : Cursor) : Cursor :=
  ⟨(c.rest.take n).reverse ++ c.behind, c.rest.drop n⟩

/-- The cursor at the first character that begins at byte `offset` or later. -/
def seek (offset : Nat) (c : Cursor) : Cursor :=
  ⟨(Text.takeBytes offset c.text).reverse, Text.dropBytes offset c.text⟩

/-- The cursor behind the characters for which `p` holds. -/
def skipWhile (p : Char → Bool) (c : Cursor) : Cursor :=
  c.advance (c.rest.takeWhile p).length

/-- The cursor behind the white space it stands before. -/
def skipWhiteSpace (c : Cursor) : Cursor :=
  c.skipWhile isWhiteSpace

/-- The cursor behind the character, if that is the next one. -/
def matchChar (expected : Char) (c : Cursor) : Option Cursor :=
  if c.rest.head? = some expected then some (c.advance 1) else none

/-- The cursor behind the text, if the source goes on with it. -/
def matchText (expected : Text) (c : Cursor) : Option Cursor :=
  if expected.isPrefixOf c.rest then some (c.advance expected.length) else none

/-- Whether the source goes on with the word and the word ends there. -/
def startsWithWord (word : Text) (c : Cursor) : Bool :=
  word.isPrefixOf c.rest && !(c.rest.drop word.length).head?.any isNameContinue

/-- The cursor behind the word, if the source goes on with it and the word
ends there. -/
def matchWord (word : Text) (c : Cursor) : Option Cursor :=
  if c.startsWithWord word then some (c.advance word.length) else none

/-- The readable name at the beginning of a text, if there is one.  A private
name begins with a number sign. -/
def name? : Text → Option Text
  | [] => none
  | c :: rest =>
    if isNameStart c || (c == '#' && rest.head?.any isNameStart) then
      some (c :: rest.takeWhile isNameContinue)
    else none

/-- The readable name the cursor stands before, and the cursor behind it. -/
def identifier (c : Cursor) : Option (Text × Cursor) :=
  match name? c.rest with
  | none => none
  | some name => some (name, c.advance name.length)

/-! ## What the steps keep -/

@[simp] theorem text_ofText (t : Text) : (ofText t).text = t := rfl

/-- Reading on changes no character. -/
@[simp] theorem text_advance (n : Nat) (c : Cursor) : (c.advance n).text = c.text := by
  simp [text, advance]

/-- Going elsewhere changes no character. -/
@[simp] theorem text_seek (n : Nat) (c : Cursor) : (c.seek n).text = c.text := by
  simp [text, seek, Text.takeBytes_append_dropBytes]

/-- A name takes at least one character. -/
theorem rest_lt_of_identifier {c next : Cursor} {name : Text}
    (h : c.identifier = some (name, next)) : next.rest.length < c.rest.length := by
  unfold identifier at h
  split at h
  · exact absurd h (by simp)
  · rename_i found hfound
    obtain ⟨rfl, rfl⟩ := Prod.mk.inj (Option.some.inj h)
    cases hr : c.rest with
    | nil => simp [name?, hr] at hfound
    | cons d rest =>
      rw [hr] at hfound
      simp only [name?] at hfound
      split at hfound
      · obtain rfl := Option.some.inj hfound
        simp only [advance, hr, List.length_cons, List.drop_succ_cons, List.length_drop]
        omega
      · exact absurd hfound (by simp)

/-- Skipping leaves no more to read than there was. -/
theorem rest_skipWhile_le (p : Char → Bool) (c : Cursor) :
    (c.skipWhile p).rest.length ≤ c.rest.length := by
  simp [skipWhile, advance]

end Cursor

end CallSignature
