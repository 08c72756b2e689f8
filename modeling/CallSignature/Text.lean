/-
CallSignature.Text — source text, and positions in it.

A text is the list of its characters, so that a scan is a recursion on the
list and relating a part to the whole is an ordinary induction.  Positions
are counted in BYTES of the UTF-8 encoding, because that is what every offset
this library reports is counted in.

A position is the width of what stands before it.  Cutting at a position that
falls inside a character cuts behind that character: `takeBytes` keeps it,
`dropBytes` drops it, and the two together always make the whole text
(`takeBytes_append_dropBytes`).  At a position between two characters both do
what their names say (`takeBytes_append`, `dropBytes_append`).

White space is what has the property White_Space of the Unicode database.
-/
import CallSignature.Unicode.RangeTable

namespace CallSignature

/-! ## White space -/

namespace Unicode

/-- The code points with the property White_Space: twenty-five characters, the
no-break spaces, U+0085 and the line and paragraph separators among them.
U+200B and U+FEFF are not white space. -/
def whiteSpaceRanges : RangeTable := [
  (0x9, 0xD), (0x20, 0x20), (0x85, 0x85), (0xA0, 0xA0), (0x1680, 0x1680), (0x2000, 0x200A),
  (0x2028, 0x2029), (0x202F, 0x202F), (0x205F, 0x205F), (0x3000, 0x3000)]

/-- Whether the character is white space. -/
def isWhiteSpace (c : Char) : Bool :=
  whiteSpaceRanges.holds c.toNat

theorem ascending_whiteSpaceRanges : whiteSpaceRanges.ascending = true := by decide

/-- Every character that the ASCII notion of white space knows is one. -/
theorem isWhiteSpace_of_isWhitespace {c : Char} (h : c.isWhitespace = true) :
    isWhiteSpace c = true := by
  simp only [Char.isWhitespace, Bool.or_eq_true, decide_eq_true_eq] at h
  rcases h with ((rfl | rfl) | rfl) | rfl <;> decide

end Unicode

open Unicode

/-- Source text, character by character. -/
abbrev Text := List Char

namespace Text

/-! ## Width -/

/-- The number of bytes the text occupies in UTF-8. -/
def width : Text → Nat
  | [] => 0
  | c :: rest => c.utf8Size + width rest

@[simp] theorem width_nil : width [] = 0 := rfl

@[simp] theorem width_cons (c : Char) (t : Text) : width (c :: t) = c.utf8Size + width t := rfl

@[simp] theorem width_append (s t : Text) : width (s ++ t) = width s + width t := by
  induction s with
  | nil => simp
  | cons c s ih => simp [ih, Nat.add_assoc]

/-- Only the empty text is empty in bytes. -/
theorem width_eq_zero_iff {t : Text} : width t = 0 ↔ t = [] := by
  cases t with
  | nil => simp
  | cons c t =>
    have := c.utf8Size_pos
    simp only [width_cons]
    constructor <;> intro h <;> simp_all

/-- The width is the number of bytes that the string takes. -/
theorem width_eq_utf8ByteSize (t : Text) : width t = (String.ofList t).utf8ByteSize := by
  induction t with
  | nil => simp
  | cons c t ih =>
    have hc : String.ofList (c :: t) = String.singleton c ++ String.ofList t := by
      rw [String.singleton_eq_ofList, ← String.ofList_append]; rfl
    rw [width_cons, ih, hc, String.utf8ByteSize_append, String.utf8ByteSize_singleton]

/-! ## Cutting at a byte position -/

/-- The characters that begin before byte `n`. -/
def takeBytes (n : Nat) : Text → Text
  | [] => []
  | c :: rest => if n = 0 then [] else c :: takeBytes (n - c.utf8Size) rest

/-- The characters that begin at byte `n` or later. -/
def dropBytes (n : Nat) : Text → Text
  | [] => []
  | c :: rest => if n = 0 then c :: rest else dropBytes (n - c.utf8Size) rest

/-- The part of the text from byte `first` up to but excluding byte `last`. -/
def slice (t : Text) (first last : Nat) : Text :=
  takeBytes (last - first) (dropBytes first t)

@[simp] theorem takeBytes_zero (t : Text) : takeBytes 0 t = [] := by
  cases t <;> simp [takeBytes]

@[simp] theorem dropBytes_zero (t : Text) : dropBytes 0 t = t := by
  cases t <;> simp [dropBytes]

/-- The two cuts at one position make the whole text again. -/
theorem takeBytes_append_dropBytes (n : Nat) (t : Text) :
    takeBytes n t ++ dropBytes n t = t := by
  induction t generalizing n with
  | nil => rfl
  | cons c t ih => by_cases h : n = 0 <;> simp [takeBytes, dropBytes, h, ih]

/-- Cutting where a part ends gives that part. -/
@[simp] theorem takeBytes_append (s t : Text) : takeBytes (width s) (s ++ t) = s := by
  induction s with
  | nil => simp
  | cons c s ih =>
    have := c.utf8Size_pos
    rw [List.cons_append, width_cons, takeBytes, if_neg (by omega), Nat.add_sub_cancel_left,
      ih]

/-- Cutting where a part ends leaves what follows it. -/
@[simp] theorem dropBytes_append (s t : Text) : dropBytes (width s) (s ++ t) = t := by
  induction s with
  | nil => simp
  | cons c s ih =>
    have := c.utf8Size_pos
    rw [List.cons_append, width_cons, dropBytes, if_neg (by omega), Nat.add_sub_cancel_left,
      ih]

/-- A text is cut at one place in one way. -/
theorem append_inj_of_width {s s' t t' : Text} (h : s ++ t = s' ++ t')
    (hwidth : width s = width s') : s = s' ∧ t = t' := by
  have hfront := congrArg (takeBytes (width s)) h
  rw [takeBytes_append, hwidth, takeBytes_append] at hfront
  exact ⟨hfront, List.append_cancel_left (hfront ▸ h)⟩

/-- Of two cuts of a text, the one further on has more in front of it. -/
theorem exists_append_of_width_le {s s' t t' : Text} (h : s ++ t = s' ++ t')
    (hle : width s ≤ width s') : ∃ more, s' = s ++ more ∧ t = more ++ t' := by
  rcases List.append_eq_append_iff.1 h with ⟨more, hs', ht⟩ | ⟨more, rfl, rfl⟩
  · exact ⟨more, hs', ht⟩
  · rw [width_append] at hle
    obtain rfl : more = [] := width_eq_zero_iff.1 (by omega)
    exact ⟨[], by simp, rfl⟩

/-- A slice between the ends of two parts is what lies between them. -/
theorem slice_append (s m t : Text) :
    slice (s ++ m ++ t) (width s) (width s + width m) = m := by
  rw [slice, List.append_assoc, dropBytes_append, Nat.add_sub_cancel_left, takeBytes_append]

/-- What follows a character of one byte. -/
theorem slice_inner {c : Char} (hc : c.utf8Size = 1) (s m t : Text) :
    slice (s ++ c :: (m ++ t)) (width s + 1) (width s + (1 + width m)) = m := by
  have hslice := slice_append (s ++ [c]) m t
  simpa [hc, Nat.add_assoc] using hslice

/-! ## Trimming -/

/-- The text without the white space it begins with. -/
def trimStart (t : Text) : Text :=
  t.dropWhile isWhiteSpace

/-- The text without the white space it ends with. -/
def trimEnd (t : Text) : Text :=
  (t.reverse.dropWhile isWhiteSpace).reverse

/-- The text without the white space around it. -/
def trim (t : Text) : Text :=
  trimEnd (trimStart t)

/-- Whether the text holds nothing but white space. -/
def isBlank (t : Text) : Bool :=
  t.all isWhiteSpace

/-! ## Prefixes and decimal numerals -/

/-- What follows `start` in the text, if the text starts with it. -/
def afterPrefix? (start : Text) (t : Text) : Option Text :=
  if start.isPrefixOf t then some (t.drop start.length) else none

theorem afterPrefix?_eq_some_iff {start t rest : Text} :
    afterPrefix? start t = some rest ↔ t = start ++ rest := by
  unfold afterPrefix?
  split
  · rename_i hbegins
    obtain ⟨behind, rfl⟩ := List.isPrefixOf_iff_prefix.1 hbegins
    simp
  · rename_i hbegins
    refine iff_of_false (by simp) ?_
    rintro rfl
    exact hbegins (by simp)

theorem afterPrefix?_eq_none_iff {start t : Text} :
    afterPrefix? start t = none ↔ start.isPrefixOf t = false := by
  unfold afterPrefix?
  cases start.isPrefixOf t <;> simp

/-- A number in decimal digits. -/
def ofNat (n : Nat) : Text :=
  Nat.toDigits 10 n

end Text

end CallSignature
