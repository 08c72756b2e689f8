/-
CallSignature.Proofs.Comment.Cleaning — taking comments out, part by part.

`withoutCommentsFrom` fails at the end or not at all, and so it is two total
functions and a question: the zone behind a text (`Zone.after`), the text
without its comments (`Zone.cleaned`), and whether the zone may end there.
Both depend on what follows only through the character that follows
(`withoutCommentsFrom_append`), and on that only if it is a slash or a star
(`cleaned_ahead`).

Whatever is taken out is white space afterwards.  So the quotes of the
cleaned text are those of the source (`quotes_after`), and there is nothing
left to take out (`withoutComments_idempotent`).
-/
import CallSignature.Comment
import CallSignature.Proofs.Nesting.Quiet

namespace CallSignature

open Unicode

/-! ## Zones -/

namespace Zone

/-- The state of the quotes in this zone.  A comment stands outside literals. -/
def quotes : Zone → QuoteState
  | code quotes => quotes
  | line | blockOpening _ | block _ | blockClosing _ => .outside

/-- The zone behind a text that begins at byte `offset` and is followed by
`next`. -/
def after (next : Option Char) (z : Zone) (offset : Nat) : Text → Zone
  | [] => z
  | c :: rest =>
    (z.step offset c (rest.head?.or next)).after next (offset + c.utf8Size) rest

/-- The text without its comments, if it begins at byte `offset` and is
followed by `next`. -/
def cleaned (next : Option Char) (z : Zone) (offset : Nat) : Text → Text
  | [] => []
  | c :: rest =>
    (if z.covers c (rest.head?.or next) then blank c else [c]) ++
      (z.step offset c (rest.head?.or next)).cleaned next (offset + c.utf8Size) rest

end Zone

/-- Comments are taken out of a part by itself, and of what follows it in the
zone behind it. -/
theorem withoutCommentsFrom_append (z : Zone) (offset : Nat) (a b : Text) :
    withoutCommentsFrom z offset (a ++ b)
      = (withoutCommentsFrom (z.after b.head? offset a) (offset + a.width) b).map
        (z.cleaned b.head? offset a ++ ·) := by
  induction a generalizing z offset with
  | nil =>
    show withoutCommentsFrom z offset b = _
    rw [Zone.after, Text.width_nil, Nat.add_zero]
    cases withoutCommentsFrom z offset b <;> rfl
  | cons c a ih =>
    rw [List.cons_append, withoutCommentsFrom, List.head?_append, ih, Zone.after, Zone.cleaned,
      Text.width_cons, Nat.add_assoc]
    cases withoutCommentsFrom _ _ b with
    | error fault => rfl
    | ok stripped => simp [Except.map]

theorem withoutCommentsFrom_eq (z : Zone) (offset : Nat) (a : Text) :
    withoutCommentsFrom z offset a
      = match (z.after none offset a).unfinished? with
        | none => .ok (z.cleaned none offset a)
        | some fault => .error fault := by
  have h := withoutCommentsFrom_append z offset a []
  rw [List.append_nil, withoutCommentsFrom] at h
  rw [h]
  cases hunfinished : (z.after none offset a).unfinished? <;>
    simp [hunfinished, Except.map]

theorem withoutCommentsFrom_eq_ok_iff {z : Zone} {offset : Nat} {a t : Text} :
    withoutCommentsFrom z offset a = .ok t ↔
      (z.after none offset a).unfinished? = none ∧ z.cleaned none offset a = t := by
  rw [withoutCommentsFrom_eq]
  cases (z.after none offset a).unfinished? <;> simp

/-! ## What is taken out -/

theorem width_blank (c : Char) : (blank c).width = c.utf8Size := by
  unfold blank
  split
  · simp
  · induction c.utf8Size with
    | zero => rfl
    | succ n ih =>
      rw [List.replicate_succ, Text.width_cons, ih, show Char.utf8Size ' ' = 1 from rfl,
        Nat.add_comm]

/-- Whether the character can be seen: it is none of those that stand in the
place of a comment. -/
def isVisible (c : Char) : Bool :=
  c != ' ' && c != '\n' && c != '\r'

theorem eq_of_mem_blank {c d : Char} (h : d ∈ blank c) : d = ' ' ∨ d = '\n' ∨ d = '\r' := by
  unfold blank at h
  split at h
  · rename_i hbreak
    rw [List.mem_singleton.1 h]
    exact .inr hbreak
  · exact .inl (List.eq_of_mem_replicate h)

theorem isBlank_blank (c : Char) : (blank c).isBlank = true := by
  refine Text.isBlank_iff.2 fun d hd => ?_
  rcases eq_of_mem_blank hd with rfl | rfl | rfl <;> decide

theorem isVisible_of_mem_blank {c d : Char} (h : d ∈ blank c) : isVisible d = false := by
  rcases eq_of_mem_blank h with rfl | rfl | rfl <;> rfl

namespace Zone

variable {next : Option Char} {z : Zone} {offset : Nat} {a : Text}

@[simp] theorem width_cleaned (next : Option Char) (z : Zone) (offset : Nat) (a : Text) :
    (z.cleaned next offset a).width = a.width := by
  induction a generalizing z offset with
  | nil => rfl
  | cons c a ih =>
    rw [cleaned, Text.width_append, ih, Text.width_cons]
    split
    · rw [width_blank]
    · rfl

/-! ## One character -/

/-- A character that is left in its place is a character of the code or of a
literal, or the line break behind a line comment. -/
theorem step_of_not_covers {c : Char} (h : z.covers c next = false) :
    z.step offset c next = code (z.quotes.step offset c) := by
  cases z with
  | code q =>
    rw [step]
    split
    · rename_i hslash
      obtain ⟨hcovers, rfl⟩ : q.covers c = false ∧ c = '/' := by simpa using hslash
      obtain ⟨rfl, hquote⟩ := QuoteState.eq_outside_of_covers hcovers
      unfold covers at h
      have hnext : next ≠ some '/' ∧ next ≠ some '*' := by simpa [hcovers] using h
      rw [behindSlash]
      · rfl
      · exact hnext.1
      · exact hnext.2
    · rfl
  | line =>
    obtain rfl : c = '\n' := by simpa [covers] using h
    rfl
  | blockOpening openedAt => cases h
  | block openedAt => cases h
  | blockClosing openedAt => cases h

/-- Behind a character that is taken out no literal is open, and none was. -/
theorem quotes_of_covers (offset : Nat) {c : Char} (h : z.covers c next = true) :
    z.quotes = .outside ∧ (z.step offset c next).quotes = .outside := by
  cases z with
  | code q =>
    obtain ⟨⟨hcovers, rfl⟩, hnext⟩ :
        (q.covers c = false ∧ c = '/') ∧ (next = some '/' ∨ next = some '*') := by
      simpa [covers] using h
    obtain ⟨rfl, -⟩ := QuoteState.eq_outside_of_covers hcovers
    rcases hnext with rfl | rfl <;> exact ⟨rfl, rfl⟩
  | line =>
    rw [step]
    split <;> exact ⟨rfl, rfl⟩
  | blockOpening openedAt => exact ⟨rfl, rfl⟩
  | block openedAt =>
    rw [step]
    split <;> exact ⟨rfl, rfl⟩
  | blockClosing openedAt => exact ⟨rfl, rfl⟩

/-! ## Quotes -/

/-- The quotes of the cleaned text are the quotes of the source. -/
theorem quotes_after (next : Option Char) (z : Zone) (offset : Nat) (a : Text) :
    (z.after next offset a).quotes = z.quotes.after offset (z.cleaned next offset a) := by
  induction a generalizing z offset with
  | nil => rfl
  | cons c a ih =>
    rw [after, ih, cleaned]
    cases h : z.covers c (a.head?.or next) with
    | false => rw [step_of_not_covers h]; rfl
    | true =>
      obtain ⟨hbefore, hbehind⟩ := quotes_of_covers offset h
      rw [hbefore, hbehind, if_pos rfl, QuoteState.after_append,
        (quiet_of_isBlank (isBlank_blank c)).after, width_blank]

/-! ## Parts -/

theorem after_append (next : Option Char) (z : Zone) (offset : Nat) (a b : Text) :
    z.after next offset (a ++ b)
      = (z.after (b.head?.or next) offset a).after next (offset + a.width) b := by
  induction a generalizing z offset with
  | nil => rfl
  | cons c a ih =>
    rw [List.cons_append, after, List.head?_append, Option.or_assoc, ih, after,
      Text.width_cons, Nat.add_assoc]

theorem cleaned_append (next : Option Char) (z : Zone) (offset : Nat) (a b : Text) :
    z.cleaned next offset (a ++ b)
      = z.cleaned (b.head?.or next) offset a ++
        (z.after (b.head?.or next) offset a).cleaned next (offset + a.width) b := by
  induction a generalizing z offset with
  | nil => rfl
  | cons c a ih =>
    rw [List.cons_append, cleaned, List.head?_append, Option.or_assoc, ih, cleaned, after,
      Text.width_cons, Nat.add_assoc, List.append_assoc]

/-! ## The character ahead -/

/-- The character makes no comment of the one before it, and ends none. -/
def IsInert (next : Option Char) : Prop :=
  next ≠ some '/' ∧ next ≠ some '*'

theorem step_ahead (h : IsInert next) (z : Zone) (offset : Nat) (c : Char) :
    z.step offset c next = z.step offset c none := by
  cases z with
  | code q =>
    have hslash : behindSlash offset next = code .outside := behindSlash.eq_3 _ _ h.1 h.2
    rw [step, step, hslash]
    rfl
  | block openedAt => simp [step, h.1]
  | _ => rfl

theorem covers_ahead (h : IsInert next) (z : Zone) (c : Char) :
    z.covers c next = z.covers c none := by
  cases z with
  | code q => simp [covers, h.1, h.2]
  | _ => rfl

theorem after_ahead (h : IsInert next) (z : Zone) (offset : Nat) (a : Text) :
    z.after next offset a = z.after none offset a := by
  induction a generalizing z offset with
  | nil => rfl
  | cons c a ih =>
    rw [after, after, ih]
    cases a with
    | nil => exact congrArg (after none · _ _) (step_ahead h z offset c)
    | cons d a => rfl

theorem cleaned_ahead (h : IsInert next) (z : Zone) (offset : Nat) (a : Text) :
    z.cleaned next offset a = z.cleaned none offset a := by
  induction a generalizing z offset with
  | nil => rfl
  | cons c a ih =>
    rw [cleaned, cleaned, ih]
    cases a with
    | nil =>
      rw [List.head?_nil, Option.none_or, covers_ahead h, step_ahead h]
      rfl
    | cons d a => rfl

/-! ## Where the source begins -/

/-- The same zone of a reader that began `base` bytes further on. -/
def shifted (base : Nat) : Zone → Zone
  | code quotes => code (quotes.shifted base)
  | line => line
  | blockOpening openedAt => blockOpening (openedAt + base)
  | block openedAt => block (openedAt + base)
  | blockClosing openedAt => blockClosing (openedAt + base)

theorem step_shifted (base : Nat) (z : Zone) (offset : Nat) (c : Char) (next : Option Char) :
    (z.shifted base).step (offset + base) c next = (z.step offset c next).shifted base := by
  cases z with
  | code q =>
    rw [shifted, step, step, QuoteState.covers_shifted, QuoteState.step_shifted]
    split
    · unfold behindSlash
      split <;> rfl
    · rfl
  | line => rw [shifted, step, step]; split <;> rfl
  | blockOpening openedAt => rfl
  | block openedAt => rw [shifted, step, step]; split <;> rfl
  | blockClosing openedAt => rfl

theorem covers_shifted (base : Nat) (z : Zone) (c : Char) (next : Option Char) :
    (z.shifted base).covers c next = z.covers c next := by
  cases z with
  | code q => rw [shifted, covers, covers, QuoteState.covers_shifted]
  | _ => rfl

end Zone

/-- A part is cleaned as it would be by itself, and its fault is moved. -/
theorem withoutCommentsFrom_shifted (base : Nat) (z : Zone) (offset : Nat) (a : Text) :
    withoutCommentsFrom (z.shifted base) (offset + base) a
      = shiftFault base (withoutCommentsFrom z offset a) := by
  induction a generalizing z offset with
  | nil => cases z <;> rfl
  | cons c a ih =>
    rw [withoutCommentsFrom, withoutCommentsFrom, Zone.step_shifted, Zone.covers_shifted,
      Nat.add_right_comm, ih]
    cases withoutCommentsFrom _ _ a <;> rfl

theorem withoutCommentsFrom_outside (offset : Nat) (a : Text) :
    withoutCommentsFrom (.code .outside) offset a = shiftFault offset (withoutComments a) := by
  have h := withoutCommentsFrom_shifted offset (.code .outside) 0 a
  rwa [Nat.zero_add] at h

/-! ## Text without comments -/

namespace Zone

variable {next : Option Char} {z : Zone} {q : QuoteState} {offset : Nat} {a : Text}

/-- Without a slash there is no comment. -/
theorem cleaned_of_lacksSlash (h : '/' ∉ a) : (code q).cleaned next offset a = a := by
  induction a generalizing q offset with
  | nil => rfl
  | cons c a ih =>
    obtain ⟨hc, ha⟩ := not_or.1 (mt List.mem_cons.2 h)
    have hcovers : (code q).covers c (a.head?.or next) = false := by
      simp [covers, Ne.symm hc]
    rw [cleaned, hcovers, step_of_not_covers hcovers, ih ha]
    rfl

/-- If nothing is taken out of a text, it is code and literals throughout. -/
theorem after_of_cleaned_eq (h : (code q).cleaned next offset a = a) :
    (code q).after next offset a = code (q.after offset a) := by
  induction a generalizing q offset with
  | nil => rfl
  | cons c a ih =>
    unfold cleaned at h
    cases hcovers : (code q).covers c (a.head?.or next) with
    | true =>
      obtain ⟨⟨-, rfl⟩, -⟩ : (q.covers c = false ∧ c = '/') ∧ _ := by
        simpa [covers] using hcovers
      rw [hcovers] at h
      obtain ⟨hspace, -⟩ := List.cons.inj h
      exact absurd hspace (by decide)
    | false =>
      rw [hcovers, step_of_not_covers hcovers] at h
      rw [after, step_of_not_covers hcovers, ih (List.cons.inj h).2]
      rfl

/-- A cleaned text begins like the source, unless that begins with a slash. -/
theorem head?_cleaned (h : IsInert (a.head?.or next)) :
    ((code .outside).cleaned next offset a).head?.or next = a.head?.or next := by
  cases a with
  | nil => rfl
  | cons c a =>
    have hslash : c ≠ '/' := fun heq => h.1 (by rw [heq]; rfl)
    have hcovers : (code .outside).covers c (a.head?.or next) = false := by
      simp [covers, hslash]
    rw [cleaned, hcovers]
    rfl

/-- There is nothing left to take out of a cleaned text. -/
theorem cleaned_cleaned (next : Option Char) (z : Zone) (offset : Nat) (a : Text) :
    (code z.quotes).cleaned next offset (z.cleaned next offset a)
      = z.cleaned next offset a := by
  induction a generalizing z offset with
  | nil => rfl
  | cons c a ih =>
    rw [cleaned]
    cases h : z.covers c (a.head?.or next) with
    | true =>
      -- white space stands where the character stood
      obtain ⟨hbefore, hbehind⟩ := quotes_of_covers offset h
      have hslash : '/' ∉ blank c := fun hmem => by
        rcases eq_of_mem_blank hmem with h | h | h <;> exact absurd h (by decide)
      have hih := ih (z.step offset c (a.head?.or next)) (offset + c.utf8Size)
      rw [hbehind] at hih
      rw [if_pos rfl, hbefore, cleaned_append, cleaned_of_lacksSlash hslash,
        after_of_cleaned_eq (cleaned_of_lacksSlash hslash),
        (quiet_of_isBlank (isBlank_blank c)).after, width_blank, hih]
    | false =>
      have hih := ih (z.step offset c (a.head?.or next)) (offset + c.utf8Size)
      rw [step_of_not_covers h] at hih ⊢
      have hstays : (code z.quotes).covers c
          (((code (z.quotes.step offset c)).cleaned next
            (offset + c.utf8Size) a).head?.or next) = false := by
        rw [covers]
        cases hslash : !z.quotes.covers c && c == '/' with
        | false => rfl
        | true =>
          -- a slash that opens no comment is followed by the same character as before
          obtain ⟨hcovers, rfl⟩ : z.quotes.covers c = false ∧ c = '/' := by
            simpa using hslash
          obtain ⟨houtside, hquote⟩ := QuoteState.eq_outside_of_covers hcovers
          have hinert : IsInert (a.head?.or next) := by
            cases z with
            | code q => simpa [covers, show q.covers '/' = false from hcovers, IsInert] using h
            | line => simp [covers] at h
            | _ => cases h
          rw [houtside, QuoteState.step_outside_of_not_isQuote hquote, head?_cleaned hinert]
          simp [hinert.1, hinert.2]
      rw [if_neg Bool.false_ne_true, List.singleton_append, cleaned, hstays,
        step_of_not_covers hstays]
      exact congrArg _ hih

end Zone

/-- A text without comments is one that cleaning leaves alone. -/
theorem withoutComments_eq_self_iff {a : Text} :
    withoutComments a = .ok a ↔ (Zone.code .outside).cleaned none 0 a = a := by
  rw [withoutComments, withoutCommentsFrom_eq_ok_iff]
  refine and_iff_right_of_imp fun h => ?_
  rw [Zone.after_of_cleaned_eq h]
  rfl

theorem withoutComments_idempotent {source t : Text} (h : withoutComments source = .ok t) :
    withoutComments t = .ok t := by
  obtain ⟨-, rfl⟩ := withoutCommentsFrom_eq_ok_iff.1 h
  rw [withoutComments_eq_self_iff]
  exact Zone.cleaned_cleaned none (.code .outside) 0 source

end CallSignature
