/-
CallSignature.Proofs.Nesting.Balanced — the grammar of balanced texts.

The grammar knows nothing of trackers.  A text is BALANCED if it is a row of
plain characters, whole literals and groups, and what a group holds is
balanced again (`Balanced`).  A place is INSIDE so many groups if the text in
front of it and the text behind it close each other that many times
(`Inside`).

Two questions are answered by recursion along the grammar alone.  Every
character of a balanced text is part of a literal or stands inside a certain
number of groups (`exists_stands`), and every text is balanced or broken in
one of four ways (`balanced_or_broken`).
-/
import CallSignature.Proofs.Literal.Body

namespace CallSignature

/-! ## Balanced texts -/

/-- A row of plain characters, literals and groups. -/
inductive Balanced : Text → Prop
  | nil : Balanced []
  | plain {c : Char} {rest : Text} (hc : isPlain c = true) (hrest : Balanced rest) :
    Balanced (c :: rest)
  | literal {quote : Char} {words rest : Text} (hquote : isQuote quote = true)
    (hwords : IsBody quote words) (hrest : Balanced rest) :
    Balanced (quote :: words ++ quote :: rest)
  | group {opener closer : Char} {inner rest : Text} (hopener : closerOf? opener = some closer)
    (hinner : Balanced inner) (hrest : Balanced rest) :
    Balanced (opener :: inner ++ closer :: rest)

theorem Balanced.append {a b : Text} (ha : Balanced a) (hb : Balanced b) :
    Balanced (a ++ b) := by
  induction ha with
  | nil => exact hb
  | plain hc _ ih => exact .plain hc ih
  | literal hquote hwords _ ih =>
    rw [List.append_assoc, List.cons_append]
    exact .literal hquote hwords ih
  | group hopener hinner _ _ ih =>
    rw [List.append_assoc, List.cons_append]
    exact .group hopener hinner ih

theorem balanced_plain {c : Char} (hc : isPlain c = true) : Balanced [c] :=
  .plain hc .nil

theorem balanced_literal {quote : Char} {words : Text} (hquote : isQuote quote = true)
    (hwords : IsBody quote words) : Balanced (quote :: words ++ [quote]) :=
  .literal hquote hwords .nil

theorem balanced_group {opener closer : Char} {inner : Text}
    (hopener : closerOf? opener = some closer) (hinner : Balanced inner) :
    Balanced (opener :: inner ++ [closer]) :=
  .group hopener hinner .nil

/-! ## Places in a balanced text -/

/-- Between the two texts a place is inside this many groups: each of them is
opened in the first text and closed in the second, and nothing else is open. -/
inductive Inside : Nat → Text → Text → Prop
  | outermost {a b : Text} (ha : Balanced a) (hb : Balanced b) : Inside 0 a b
  | group {depth : Nat} {a m m' b : Text} {opener closer : Char} (h : Inside depth a b)
    (hopener : closerOf? opener = some closer) (hm : Balanced m) (hm' : Balanced m') :
    Inside (depth + 1) (a ++ opener :: m) (m' ++ closer :: b)

theorem inside_nil {b : Text} (hb : Balanced b) : Inside 0 [] b :=
  .outermost .nil hb

namespace Inside

variable {depth : Nat} {a b m : Text}

/-- A balanced text in front of the whole changes nothing. -/
theorem prepend (h : Inside depth a b) (hm : Balanced m) : Inside depth (m ++ a) b := by
  induction h with
  | outermost ha hb => exact .outermost (hm.append ha) hb
  | group _ hopener hl hl' ih =>
    rw [← List.append_assoc]
    exact .group ih hopener hl hl'

/-- In one more group around the whole the place is one level deeper. -/
theorem wrap (h : Inside depth a b) {opener closer : Char}
    (hopener : closerOf? opener = some closer) (hm : Balanced m) :
    Inside (depth + 1) (opener :: a) (b ++ closer :: m) := by
  induction h with
  | outermost ha hb => exact .group (inside_nil hm) hopener ha hb
  | group _ hinner hl hl' ih =>
    rw [List.append_assoc, List.cons_append, ← List.cons_append]
    exact .group ih hinner hl hl'

end Inside

/-! ## Characters of a balanced text -/

/-- How the character between the two texts stands there: as part of a
literal, or as part of the code inside this many groups.  A bracket stands
outside the group that it bounds. -/
inductive Stands : Text → Char → Text → Sighting → Prop
  | plain {depth : Nat} {a b : Text} {c : Char} (h : Inside depth a b)
    (hc : isPlain c = true) :
    Stands a c b (.code depth)
  | opener {depth : Nat} {a b m : Text} {opener closer : Char} (h : Inside depth a b)
    (hopener : closerOf? opener = some closer) (hm : Balanced m) :
    Stands a opener (m ++ closer :: b) (.code depth)
  | closer {depth : Nat} {a b m : Text} {opener closer : Char} (h : Inside depth a b)
    (hopener : closerOf? opener = some closer) (hm : Balanced m) :
    Stands (a ++ opener :: m) closer b (.code depth)
  | literal {depth : Nat} {a b l r words : Text} {quote c : Char} (h : Inside depth a b)
    (hquote : isQuote quote = true) (hwords : IsBody quote words)
    (hparts : quote :: words ++ [quote] = l ++ c :: r) : Stands (a ++ l) c (r ++ b) .literal

namespace Stands

variable {a b m : Text} {c : Char} {s : Sighting}

theorem prepend (h : Stands a c b s) (hm : Balanced m) : Stands (m ++ a) c b s := by
  cases h with
  | plain h hc => exact .plain (h.prepend hm) hc
  | opener h hopener hinner => exact .opener (h.prepend hm) hopener hinner
  | closer h hopener hinner =>
    rw [← List.append_assoc]
    exact .closer (h.prepend hm) hopener hinner
  | literal h hquote hwords hparts =>
    rw [← List.append_assoc]
    exact .literal (h.prepend hm) hquote hwords hparts

theorem wrap (h : Stands a c b s) {opener closer : Char}
    (hopener : closerOf? opener = some closer) (hm : Balanced m) :
    Stands (opener :: a) c (b ++ closer :: m) (s.lifted 1) := by
  cases h with
  | plain h hc => exact .plain (h.wrap hopener hm) hc
  | opener h hinner hl =>
    rw [List.append_assoc, List.cons_append]
    exact .opener (h.wrap hopener hm) hinner hl
  | closer h hinner hl =>
    rw [← List.cons_append]
    exact .closer (h.wrap hopener hm) hinner hl
  | literal h hquote hwords hparts =>
    rw [List.append_assoc, ← List.cons_append]
    exact .literal (h.wrap hopener hm) hquote hwords hparts

end Stands

/-- A character of two texts side by side is a character of one of them. -/
theorem cut_append {m n a b : Text} {c : Char} (h : m ++ n = a ++ c :: b) :
    (∃ r, m = a ++ c :: r ∧ b = r ++ n) ∨ ∃ l, a = m ++ l ∧ n = l ++ c :: b := by
  rcases List.append_eq_append_iff.1 h with ⟨l, ha, hn⟩ | ⟨r, hm, hcons⟩
  · exact .inr ⟨l, ha, hn⟩
  · rcases List.cons_eq_append_iff.1 hcons with ⟨rfl, hn⟩ | ⟨r, rfl, hb⟩
    · exact .inr ⟨[], by simpa using hm.symm, hn⟩
    · exact .inl ⟨r, hm, hb⟩

/-- A character of a group is one of its brackets or stands between them. -/
theorem cut_group {opener closer c : Char} {inner a b : Text}
    (h : opener :: inner ++ [closer] = a ++ c :: b) :
    (a = [] ∧ c = opener ∧ b = inner ++ [closer]) ∨
      (∃ l r, a = opener :: l ∧ inner = l ++ c :: r ∧ b = r ++ [closer]) ∨
      (a = opener :: inner ∧ c = closer ∧ b = []) := by
  rcases List.cons_eq_append_iff.1 h with ⟨rfl, heq⟩ | ⟨l, rfl, hl⟩
  · obtain ⟨rfl, rfl⟩ := List.cons.inj heq
    exact .inl ⟨rfl, rfl, rfl⟩
  · rcases cut_append hl with ⟨r, rfl, rfl⟩ | ⟨l, rfl, hlast⟩
    · exact .inr (.inl ⟨_, r, rfl, rfl, rfl⟩)
    · obtain ⟨rfl, rfl, rfl⟩ : l = [] ∧ c = closer ∧ b = [] := by
        rcases List.cons_eq_append_iff.1 hlast with ⟨rfl, heq⟩ | ⟨l, -, hl⟩
        · obtain ⟨rfl, rfl⟩ := List.cons.inj heq
          exact ⟨rfl, rfl, rfl⟩
        · simp at hl
      exact .inr (.inr ⟨by simp, rfl, rfl⟩)

/-- Every character of a balanced text is part of a literal or of the code. -/
theorem exists_stands {a b : Text} {c : Char} (h : Balanced (a ++ c :: b)) :
    ∃ s, Stands a c b s := by
  generalize ht : a ++ c :: b = t at h
  induction h generalizing a b with
  | nil => simp at ht
  | @plain d rest hd hrest ih =>
    rcases List.cons_eq_append_iff.1 ht.symm with ⟨rfl, heq⟩ | ⟨l, rfl, hl⟩
    · obtain ⟨rfl, rfl⟩ := List.cons.inj heq
      exact ⟨_, .plain (inside_nil hrest) hd⟩
    · obtain ⟨s, hs⟩ := ih hl.symm
      exact ⟨s, hs.prepend (balanced_plain hd)⟩
  | @literal quote words rest hquote hwords hrest ih =>
    rw [List.append_cons (quote :: words)] at ht
    rcases cut_append ht.symm with ⟨r, hparts, rfl⟩ | ⟨l, rfl, hl⟩
    · exact ⟨_, .literal (inside_nil hrest) hquote hwords hparts⟩
    · obtain ⟨s, hs⟩ := ih hl.symm
      exact ⟨s, hs.prepend (balanced_literal hquote hwords)⟩
  | @group opener closer inner rest hopener hinner hrest ihinner ihrest =>
    rw [List.append_cons (opener :: inner)] at ht
    rcases cut_append ht.symm with ⟨r, hgroup, rfl⟩ | ⟨l, rfl, hl⟩
    · rcases cut_group hgroup with ⟨rfl, rfl, rfl⟩ | ⟨l, r, rfl, rfl, rfl⟩ | ⟨rfl, rfl, rfl⟩
      · rw [← List.append_cons]
        exact ⟨_, .opener (inside_nil hrest) hopener hinner⟩
      · obtain ⟨s, hs⟩ := ihinner rfl
        rw [← List.append_cons]
        exact ⟨_, hs.wrap hopener hrest⟩
      · exact ⟨_, .closer (inside_nil hrest) hopener hinner⟩
    · obtain ⟨s, hs⟩ := ihrest hl.symm
      exact ⟨s, hs.prepend (balanced_group hopener hinner)⟩

/-! ## Broken texts -/

/-- The text is not balanced, and this is the fault: a closing bracket that
does not match the innermost group that is open, or else a literal without an
end, or else the innermost group without one.  What stands in front of the
closing bracket, the quote or the group could be completed to a balanced
text, so that nothing is wrong before. -/
inductive Broken (t : Text) : Fault → Prop
  /-- A closing bracket stands outside all groups. -/
  | unmatched {a b : Text} {found : Char} (ht : t = a ++ found :: b)
    (hfound : isCloser found = true) (ha : Balanced a) :
    Broken t (((Cause.closerUnmatched found).located a.width).withHint .checkBrackets)
  /-- A closing bracket stands where the innermost group needs another. -/
  | mismatch {depth : Nat} {a rest m b : Text} {opener expected found : Char}
    (ht : t = a ++ opener :: m ++ found :: b) (ha : Inside depth a rest)
    (hopener : closerOf? opener = some expected) (hm : Balanced m)
    (hfound : isCloser found = true) (hne : expected ≠ found) :
    Broken t (((Cause.closerMismatch expected found).located
      (Text.width (a ++ opener :: m))).withHint (.groupNeverClosed a.width))
  /-- A literal is open at the end. -/
  | literal {depth : Nat} {a rest b : Text} {quote : Char} (ht : t = a ++ quote :: b)
    (ha : Inside depth a rest) (hquote : isQuote quote = true) (hb : IsOpenBody quote b) :
    Broken t ((Cause.literalUnterminated quote).located a.width)
  /-- A group is open at the end. -/
  | unclosed {depth : Nat} {a rest m : Text} {opener expected : Char}
    (ht : t = a ++ opener :: m) (ha : Inside depth a rest)
    (hopener : closerOf? opener = some expected) (hm : Balanced m) :
    Broken t ((Cause.groupUnclosed expected).located a.width)

section

variable {t : Text}

/-- A text that is broken is broken behind a balanced text. -/
theorem exists_broken_prepend {m : Text} (hm : Balanced m) (h : ∃ fault, Broken t fault) :
    ∃ fault, Broken (m ++ t) fault := by
  obtain ⟨fault, h⟩ := h
  cases h with
  | unmatched ht hfound ha =>
    exact ⟨_, .unmatched (by rw [ht, List.append_assoc]) hfound (hm.append ha)⟩
  | @mismatch depth a rest inner b opener expected found ht ha hopener hinner hfound hne =>
    exact ⟨_, @Broken.mismatch _ depth (m ++ a) rest inner b opener expected found
      (by simp [ht]) (ha.prepend hm) hopener hinner hfound hne⟩
  | literal ht ha hquote hb => exact ⟨_, .literal (by simp [ht]) (ha.prepend hm) hquote hb⟩
  | unclosed ht ha hopener hinner =>
    exact ⟨_, .unclosed (by simp [ht]) (ha.prepend hm) hopener hinner⟩

/-- A text that is broken is broken in a group that it begins, unless it has
the bracket for it. -/
theorem exists_broken_of_opener {opener closer : Char}
    (hopener : closerOf? opener = some closer) (h : ∃ fault, Broken t fault) :
    (∃ fault, Broken (opener :: t) fault) ∨
      ∃ inner rest, t = inner ++ closer :: rest ∧ Balanced inner := by
  obtain ⟨fault, h⟩ := h
  cases h with
  | @unmatched a b found ht hfound ha =>
    by_cases heq : closer = found
    · exact .inr ⟨a, b, by rw [ht, heq], ha⟩
    · exact .inl ⟨_, @Broken.mismatch _ 0 [] [] a b opener closer found (by simp [ht])
        (inside_nil .nil) hopener ha hfound heq⟩
  | mismatch ht ha hinner hm hfound hne =>
    exact .inl ⟨_, .mismatch (by rw [ht]; rfl) (ha.wrap hopener .nil) hinner hm hfound hne⟩
  | literal ht ha hquote hb =>
    exact .inl ⟨_, .literal (by simp [ht]) (ha.wrap hopener .nil) hquote hb⟩
  | unclosed ht ha hinner hm =>
    exact .inl ⟨_, .unclosed (by simp [ht]) (ha.wrap hopener .nil) hinner hm⟩

/-- Every text is balanced or broken.  The induction is on the length, because
a group is followed by the rest behind it. -/
theorem balanced_or_broken (t : Text) : Balanced t ∨ ∃ fault, Broken t fault := by
  induction hlength : t.length using Nat.strongRecOn generalizing t with
  | ind length ih =>
    subst hlength
    cases t with
    | nil => exact .inl .nil
    | cons c t =>
      by_cases hquote : isQuote c = true
      · rcases exists_body c t with ⟨words, rest, rfl, hwords⟩ | hopen
        · rcases ih rest.length (by simp; omega) rest rfl with hrest | hrest
          · exact .inl (.literal hquote hwords hrest)
          · have := exists_broken_prepend (balanced_literal hquote hwords) hrest
            exact .inr (by simpa using this)
        · exact .inr ⟨_, @Broken.literal _ 0 [] [] t c rfl (inside_nil .nil) hquote hopen⟩
      · cases hopener : closerOf? c with
        | some closer =>
          rcases ih t.length (by simp) t rfl with ht | ht
          · exact .inr ⟨_,
              @Broken.unclosed _ 0 [] [] t c closer rfl (inside_nil .nil) hopener ht⟩
          · rcases exists_broken_of_opener hopener ht with ht | ⟨inner, rest, rfl, hinner⟩
            · exact .inr ht
            · rcases ih rest.length (by simp; omega) rest rfl with hrest | hrest
              · exact .inl (.group hopener hinner hrest)
              · have := exists_broken_prepend (balanced_group hopener hinner) hrest
                exact .inr (by simpa using this)
        | none =>
          by_cases hcloser : isCloser c = true
          · exact .inr ⟨_, @Broken.unmatched _ [] t c rfl hcloser .nil⟩
          · have hplain : isPlain c = true :=
              isPlain_iff.2 ⟨by simpa using hquote, hopener, by simpa using hcloser⟩
            rcases ih t.length (by simp) t rfl with ht | ht
            · exact .inl (.plain hplain ht)
            · exact .inr (exists_broken_prepend (balanced_plain hplain) ht)

end

end CallSignature
