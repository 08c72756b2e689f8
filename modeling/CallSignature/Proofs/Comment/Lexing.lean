/-
CallSignature.Proofs.Comment.Lexing — what a source is made of.

Read from left to right, a source falls into LEXEMES: single characters of
the code, literals, line comments and block comments.  The last of them may
be cut off by the end of the source.  `Lexeme.Fits` says of each sort where
it ends and what may stand behind it; there is exactly one way to cut a
source like that (`exists_lexes`, `Lexes.unique`).

Taking the comments out of a source works lexeme by lexeme: comments are
overwritten with spaces (`Text.overwritten`), the rest is kept, and only a
block comment that is cut off is a fault (`withoutComments_lexes`).
-/
import CallSignature.Proofs.Comment.Gap
import CallSignature.Proofs.Literal.Body

namespace CallSignature

/-! ## Lexemes -/

/-- A part of a source. -/
inductive Lexeme
  /-- A character that stands outside literals and comments. -/
  | code (c : Char)
  | literal (quote : Char) (words : Text)
  /-- A literal that goes on to the end of the source. -/
  | openLiteral (quote : Char) (words : Text)
  | lineComment (words : Text)
  | blockComment (words : Text)
  /-- A block comment that goes on to the end of the source. -/
  | openComment (words : Text)
  deriving DecidableEq, Repr

namespace Lexeme

/-- The lexeme as it stands in the source. -/
def text : Lexeme → Text
  | code c => [c]
  | literal quote words => quote :: words ++ [quote]
  | openLiteral quote words => quote :: words
  | lineComment words => '/' :: '/' :: words
  | blockComment words => '/' :: '*' :: words ++ ['*', '/']
  | openComment words => '/' :: '*' :: words

/-- The lexeme can stand in front of `rest`.  A character is code if it opens
neither a literal nor a comment; a literal ends at the first quote that is
not escaped; a line comment ends where the line does, and a block comment at
the first star and slash behind its opening. -/
def Fits (rest : Text) : Lexeme → Prop
  | code c =>
    isQuote c = false ∧ ¬ (c = '/' ∧ (rest.head? = some '/' ∨ rest.head? = some '*'))
  | literal quote words => isQuote quote = true ∧ IsBody quote words
  | openLiteral quote words => isQuote quote = true ∧ IsOpenBody quote words ∧ rest = []
  | lineComment words => '\n' ∉ words ∧ ∀ c ∈ rest.head?, c = '\n'
  | blockComment words => ¬ ['*', '/'] <:+: words
  | openComment words => ¬ ['*', '/'] <:+: words ∧ rest = []

/-- Whether the lexeme is a comment. -/
def isComment : Lexeme → Bool
  | code _ | literal .. | openLiteral .. => false
  | lineComment _ | blockComment _ | openComment _ => true

end Lexeme

/-- The text, overwritten with spaces: line breaks stay, and a character of
`n` bytes becomes `n` spaces. -/
def Text.overwritten : Text → Text
  | [] => []
  | '\n' :: rest => '\n' :: overwritten rest
  | '\r' :: rest => '\r' :: overwritten rest
  | c :: rest => List.replicate c.utf8Size ' ' ++ overwritten rest

/-- The lexeme as it is left when comments are taken out: a comment is
overwritten with spaces, and what is no comment stays. -/
def Lexeme.cleaned (l : Lexeme) : Text :=
  if l.isComment then l.text.overwritten else l.text

/-- Where the lexeme begins that stands behind these. -/
def startBehind (before : List Lexeme) : Nat :=
  Text.width (before.flatMap Lexeme.text)

/-- The source falls into these lexemes. -/
inductive Lexes : Text → List Lexeme → Prop
  | nil : Lexes [] []
  | cons {l : Lexeme} {rest : Text} {lexemes : List Lexeme} (hfits : l.Fits rest)
    (hrest : Lexes rest lexemes) : Lexes (l.text ++ rest) (l :: lexemes)

/-! ## Ends of comments -/

section

variable {t words words' u rest rest' : Text} {c : Char}

/-- The words of a block comment end where its closing begins. -/
theorem eq_nil_of_closing (h : ¬ ['*', '/'] <:+: words ++ u)
    (heq : '*' :: '/' :: rest = u ++ '*' :: '/' :: rest') : u = [] := by
  cases u with
  | nil => rfl
  | cons c u =>
    obtain ⟨rfl, htail⟩ := List.cons.inj heq
    cases u with
    | nil => simp at htail
    | cons d u =>
      obtain ⟨rfl, -⟩ := List.cons.inj htail
      exact absurd ⟨words, u, by simp⟩ h

theorem closing_inj (h : ¬ ['*', '/'] <:+: words) (h' : ¬ ['*', '/'] <:+: words')
    (heq : words ++ '*' :: '/' :: rest = words' ++ '*' :: '/' :: rest') :
    words = words' ∧ rest = rest' := by
  rcases List.append_eq_append_iff.1 heq with ⟨u, rfl, htail⟩ | ⟨u, rfl, htail⟩
  · obtain rfl := eq_nil_of_closing h' htail
    exact ⟨by simp, by simpa using htail⟩
  · obtain rfl := eq_nil_of_closing h htail
    exact ⟨by simp, by simpa using htail.symm⟩

/-- A block comment is closed by the first star and slash, or by none. -/
theorem exists_closing (t : Text) :
    (∃ words rest, t = words ++ '*' :: '/' :: rest ∧ ¬ ['*', '/'] <:+: words) ∨
      ¬ ['*', '/'] <:+: t := by
  induction t with
  | nil => exact .inr (by simp)
  | cons c t ih =>
    by_cases hcloses : ['*', '/'] <+: c :: t
    · obtain ⟨rest, hrest⟩ := hcloses
      exact .inl ⟨[], rest, hrest.symm, by simp⟩
    · rcases ih with ⟨words, rest, rfl, hwords⟩ | hopen
      · refine .inl ⟨c :: words, rest, rfl, fun hin => ?_⟩
        rcases List.infix_cons_iff.1 hin with hfirst | hin
        · exact hcloses (hfirst.trans (List.prefix_append (c :: words) _))
        · exact hwords hin
      · refine .inr fun hin => ?_
        rcases List.infix_cons_iff.1 hin with hfirst | hin
        · exact hcloses hfirst
        · exact hopen hin

/-- A line has one end. -/
theorem line_inj (h : '\n' ∉ words) (h' : '\n' ∉ words') (hrest : ∀ c ∈ rest.head?, c = '\n')
    (hrest' : ∀ c ∈ rest'.head?, c = '\n') (heq : words ++ rest = words' ++ rest') :
    words = words' ∧ rest = rest' := by
  have hnil : ∀ {a u b b' : Text}, '\n' ∉ a ++ u → (∀ c ∈ b.head?, c = '\n') → b = u ++ b' →
      u = [] := by
    intro a u b b' hline hbreak hb
    cases u with
    | nil => rfl
    | cons c u =>
      obtain rfl : c = '\n' := hbreak c (by rw [hb]; rfl)
      exact absurd (by simp) hline
  rcases List.append_eq_append_iff.1 heq with ⟨u, rfl, htail⟩ | ⟨u, rfl, htail⟩
  · obtain rfl := hnil h' hrest htail
    exact ⟨by simp, by simpa using htail⟩
  · obtain rfl := hnil h hrest' htail
    exact ⟨by simp, by simpa using htail.symm⟩

end

/-! ## One way to cut a source -/

namespace Lexeme

variable {l l' : Lexeme} {rest rest' : Text}

theorem text_ne_nil (l : Lexeme) : l.text ≠ [] := by
  cases l <;> simp [text]

/-- The sorts of lexemes that can be told by how they begin. -/
inductive Opening
  | code
  | quote
  | line
  | block
  deriving DecidableEq

/-- How the lexeme begins. -/
def opening : Lexeme → Opening
  | code _ => .code
  | literal .. | openLiteral .. => .quote
  | lineComment _ => .line
  | blockComment _ | openComment _ => .block

/-- How the first lexeme of a source begins. -/
def firstOpening (t : Text) : Opening :=
  if t.head?.any isQuote then .quote
  else if ['/', '/'].isPrefixOf t then .line
  else if ['/', '*'].isPrefixOf t then .block
  else .code

theorem Fits.firstOpening (h : l.Fits rest) : firstOpening (l.text ++ rest) = l.opening := by
  cases l with
  | code c =>
    obtain ⟨hquote, hcomment⟩ := h
    have hmark : ∀ d : Char, d = '/' ∨ d = '*' → ['/', d].isPrefixOf (c :: rest) = false := by
      intro d hd
      refine Bool.eq_false_iff.2 fun hbegins => hcomment ?_
      obtain ⟨behind, hbehind⟩ := List.isPrefixOf_iff_prefix.1 hbegins
      obtain ⟨rfl, rfl⟩ := List.cons.inj hbehind
      exact ⟨rfl, hd.imp (congrArg some) (congrArg some)⟩
    simp [Lexeme.firstOpening, text, opening, hquote, hmark]
  | literal quote words => simp [Lexeme.firstOpening, text, opening, h.1]
  | openLiteral quote words => simp [Lexeme.firstOpening, text, opening, h.1]
  | lineComment words => rfl
  | blockComment words => rfl
  | openComment words => rfl

/-- What a source begins with is one lexeme. -/
theorem Fits.eq (h : l.Fits rest) (h' : l'.Fits rest')
    (heq : l.text ++ rest = l'.text ++ rest') : l = l' ∧ rest = rest' := by
  have hopening : l.opening = l'.opening := by rw [← h.firstOpening, ← h'.firstOpening, heq]
  cases l with
  | code c =>
    cases l' with
    | code c' =>
      obtain ⟨rfl, rfl⟩ := List.cons.inj heq
      exact ⟨rfl, rfl⟩
    | _ => cases hopening
  | literal quote words =>
    have hne := ne_backslash_of_isQuote h.1
    cases l' with
    | literal quote' words' =>
      obtain ⟨rfl, htail⟩ := List.cons.inj (by simpa [text] using heq)
      obtain ⟨rfl, rfl⟩ := h.2.append_quote_inj hne h'.2 htail
      exact ⟨rfl, rfl⟩
    | openLiteral quote' words' =>
      obtain ⟨-, hopen, rfl⟩ := h'
      obtain ⟨rfl, htail⟩ := List.cons.inj (by simpa [text] using heq)
      exact absurd htail.symm (hopen.ne_closed hne h.2)
    | _ => cases hopening
  | openLiteral quote words =>
    have hne := ne_backslash_of_isQuote h.1
    obtain ⟨-, hopen, rfl⟩ := h
    cases l' with
    | literal quote' words' =>
      obtain ⟨rfl, htail⟩ := List.cons.inj (by simpa [text] using heq)
      exact absurd htail (hopen.ne_closed hne h'.2)
    | openLiteral quote' words' =>
      obtain ⟨-, -, rfl⟩ := h'
      obtain ⟨rfl, rfl⟩ := List.cons.inj (by simpa [text] using heq)
      exact ⟨rfl, rfl⟩
    | _ => cases hopening
  | lineComment words =>
    cases l' with
    | lineComment words' =>
      obtain ⟨rfl, rfl⟩ := line_inj h.1 h'.1 h.2 h'.2 (by simpa [text] using heq)
      exact ⟨rfl, rfl⟩
    | _ => cases hopening
  | blockComment words =>
    cases l' with
    | blockComment words' =>
      obtain ⟨rfl, rfl⟩ := closing_inj h h' (by simpa [text] using heq)
      exact ⟨rfl, rfl⟩
    | openComment words' =>
      obtain ⟨hopen, rfl⟩ := h'
      exact absurd ⟨words, rest, by simpa [text] using heq⟩ hopen
    | _ => cases hopening
  | openComment words =>
    obtain ⟨hopen, rfl⟩ := h
    cases l' with
    | blockComment words' =>
      exact absurd ⟨words', rest', by simpa [text] using heq.symm⟩ hopen
    | openComment words' =>
      obtain ⟨-, rfl⟩ := h'
      obtain rfl : words = words' := by simpa [text] using heq
      exact ⟨rfl, rfl⟩
    | _ => cases hopening

/-- A source that is not empty begins with a lexeme. -/
theorem exists_fits {t : Text} (h : t ≠ []) :
    ∃ (l : Lexeme) (rest : Text), t = l.text ++ rest ∧ l.Fits rest := by
  obtain ⟨c, t, rfl⟩ := List.exists_cons_of_ne_nil h
  cases hquote : isQuote c with
  | true =>
    rcases exists_body c t with ⟨words, rest, rfl, hwords⟩ | hopen
    · exact ⟨.literal c words, rest, by simp [text], hquote, hwords⟩
    · exact ⟨.openLiteral c t, [], by simp [text], hquote, hopen, rfl⟩
  | false =>
    by_cases hcomment : c = '/' ∧ (t.head? = some '/' ∨ t.head? = some '*')
    · obtain ⟨rfl, hline | hblock⟩ := hcomment
      · obtain ⟨t, rfl⟩ := List.head?_eq_some_iff.1 hline
        refine ⟨.lineComment (t.takeWhile (· != '\n')), t.dropWhile (· != '\n'), ?_, ?_, ?_⟩
        · simp [text, List.takeWhile_append_dropWhile]
        · intro hmem
          simpa using List.all_eq_true.1 List.all_takeWhile _ hmem
        · intro d hd
          have hstops := List.head?_dropWhile_not (· != '\n') t
          rw [Option.mem_def.1 hd] at hstops
          simpa using hstops
      · obtain ⟨t, rfl⟩ := List.head?_eq_some_iff.1 hblock
        rcases exists_closing t with ⟨words, rest, rfl, hwords⟩ | hopen
        · exact ⟨.blockComment words, rest, by simp [text], hwords⟩
        · exact ⟨.openComment t, [], by simp [text], hopen, rfl⟩
    · exact ⟨.code c, t, rfl, hquote, hcomment⟩

end Lexeme

/-- Every source falls into lexemes. -/
theorem exists_lexes (source : Text) : ∃ lexemes, Lexes source lexemes := by
  induction hlength : source.length using Nat.strongRecOn generalizing source with
  | ind length ih =>
    by_cases hsource : source = []
    · exact ⟨[], hsource ▸ .nil⟩
    · obtain ⟨l, rest, rfl, hfits⟩ := Lexeme.exists_fits hsource
      have hl := List.length_pos_iff.2 l.text_ne_nil
      rw [List.length_append] at hlength
      obtain ⟨lexemes, hrest⟩ := ih rest.length (by omega) rest rfl
      exact ⟨l :: lexemes, .cons hfits hrest⟩

namespace Lexes

variable {source : Text} {lexemes other before : List Lexeme} {words : Text}

/-- A source falls into lexemes in one way only. -/
theorem unique (h : Lexes source lexemes) (h' : Lexes source other) : lexemes = other := by
  induction h generalizing other with
  | nil =>
    generalize hsource : ([] : Text) = source at h'
    cases h' with
    | nil => rfl
    | @cons l => exact absurd (List.append_eq_nil_iff.1 hsource.symm).1 l.text_ne_nil
  | @cons l rest lexemes hfits _ ih =>
    generalize hsource : l.text ++ rest = source at h'
    cases h' with
    | nil => exact absurd (List.append_eq_nil_iff.1 hsource).1 l.text_ne_nil
    | cons hfits' hrest' =>
      obtain ⟨rfl, rfl⟩ := hfits.eq hfits' hsource
      rw [ih hrest']

/-- The lexemes are the source, one behind the other. -/
theorem flatMap_text (h : Lexes source lexemes) : lexemes.flatMap Lexeme.text = source := by
  induction h with
  | nil => rfl
  | cons _ _ ih => rw [List.flatMap_cons, ih]

/-- Only the last lexeme can be a comment that is cut off. -/
theorem exists_before (h : Lexes source lexemes) (hmem : .openComment words ∈ lexemes) :
    ∃ before, lexemes = before ++ [.openComment words] ∧
      ∀ words, .openComment words ∉ before := by
  induction h with
  | nil => cases hmem
  | @cons l rest lexemes hfits hrest ih =>
    by_cases hopen : ∃ words, l = .openComment words
    · obtain ⟨words', rfl⟩ := hopen
      obtain ⟨-, rfl⟩ := hfits
      obtain rfl := hrest.unique .nil
      rw [List.mem_singleton.1 hmem]
      exact ⟨[], rfl, by simp⟩
    · have hne : ∀ words, .openComment words ≠ l := fun words heq => hopen ⟨words, heq.symm⟩
      obtain ⟨before, rfl, hbefore⟩ := ih ((List.mem_cons.1 hmem).resolve_left (hne words))
      exact ⟨l :: before, rfl, fun words => by simp [hne words, hbefore words]⟩

end Lexes

/-! ## Taking the comments out -/

/-- Blanking out character by character overwrites the text with spaces. -/
theorem flatMap_blank (t : Text) : t.flatMap blank = t.overwritten := by
  fun_induction Text.overwritten t with
  | case1 => rfl
  | case2 rest ih => exact congrArg ('\n' :: ·) ih
  | case3 rest ih => exact congrArg ('\r' :: ·) ih
  | case4 c rest hfeed hreturn ih =>
    have hbreak : ¬ (c = '\n' ∨ c = '\r') := not_or.2 ⟨hfeed, hreturn⟩
    rw [List.flatMap_cons, ih, blank, if_neg hbreak]

theorem width_overwritten (t : Text) : t.overwritten.width = t.width := by
  rw [← flatMap_blank]
  induction t with
  | nil => rfl
  | cons c t ih => rw [List.flatMap_cons, Text.width_append, width_blank, ih, Text.width_cons]

/-- A literal is left as it is, even if nothing closes it. -/
theorem cleaned_openBody {quote : Char} {words : Text} (h : IsOpenBody quote words)
    (next : Option Char) (openedAt offset : Nat) :
    (Zone.code (.inside quote openedAt false)).cleaned next offset words = words := by
  induction h generalizing offset with
  | nil => rfl
  | backslash => rfl
  | @plain c rest hquote hescape _ ih =>
    have hstep : (Zone.code (.inside quote openedAt false)).step offset c (rest.head?.or next)
        = .code (.inside quote openedAt false) := by
      rw [Zone.step_of_not_covers rfl, Zone.quotes, step_plain hquote hescape]
    rw [Zone.cleaned, hstep, ih]
    rfl
  | @escape c rest _ ih => exact congrArg (fun t => '\\' :: c :: t) (ih _)

theorem cleaned_quote {quote : Char} {words : Text} (hquote : isQuote quote = true)
    (h : IsOpenBody quote words) (next : Option Char) (offset : Nat) :
    (Zone.code .outside).cleaned next offset (quote :: words) = quote :: words := by
  have hcovers : (Zone.code .outside).covers quote (words.head?.or next) = false := by
    simp [Zone.covers, QuoteState.covers, hquote]
  have hopens : Zone.quotes (.code .outside) = .outside := rfl
  rw [Zone.cleaned, hcovers, Zone.step_of_not_covers hcovers, hopens, QuoteState.step,
    if_pos hquote, cleaned_openBody h]
  rfl

/-- A line comment ends in front of a line break, which is then read as it is
read in the code. -/
theorem withoutCommentsFrom_line {t : Text} (h : ∀ c ∈ t.head?, c = '\n') (offset : Nat) :
    withoutCommentsFrom .line offset t = withoutCommentsFrom (.code .outside) offset t := by
  cases t with
  | nil => rfl
  | cons c t =>
    obtain rfl := h c rfl
    rfl

theorem Cleans.withoutCommentsFrom_append {a b p : Text} (h : Cleans b.head? a p)
    (offset : Nat) :
    withoutCommentsFrom (.code .outside) offset (a ++ b)
      = (withoutCommentsFrom (.code .outside) (offset + a.width) b).map (p ++ ·) := by
  rw [CallSignature.withoutCommentsFrom_append, (h offset).1, (h offset).2]

namespace Lexeme

variable {l : Lexeme} {rest words : Text}

theorem cleaned_comment (h : l.isComment = true) : l.cleaned = l.text.flatMap blank := by
  rw [cleaned, if_pos h, flatMap_blank]

theorem width_cleaned (l : Lexeme) : l.cleaned.width = l.text.width := by
  rw [cleaned]
  split
  · exact width_overwritten _
  · rfl

/-- The comments are taken out of a source lexeme by lexeme. -/
theorem Fits.withoutCommentsFrom_append (h : l.Fits rest)
    (hclosed : ∀ words, l ≠ .openComment words) (offset : Nat) :
    withoutCommentsFrom (.code .outside) offset (l.text ++ rest)
      = (withoutCommentsFrom (.code .outside) (offset + l.text.width) rest).map
        (l.cleaned ++ ·) := by
  cases l with
  | code c =>
    obtain ⟨hquote, hcomment⟩ := h
    have hcovers : (Zone.code .outside).covers c rest.head? = false := by
      simpa [Zone.covers, QuoteState.covers, hquote] using hcomment
    refine Cleans.withoutCommentsFrom_append
      (.of_kept (quiet_singleton hquote) fun offset => ?_) offset
    rw [Zone.cleaned, List.head?_nil, Option.none_or, hcovers]
    rfl
  | literal quote words =>
    obtain ⟨hquote, hbody⟩ := h
    have hslash : '/' ∉ [quote] := fun hmem => by
      rw [← List.mem_singleton.1 hmem] at hquote
      exact absurd hquote (by decide)
    refine Cleans.withoutCommentsFrom_append
      (.of_kept (hbody.quiet hquote) fun offset => ?_) offset
    have hkept := cleaned_quote hquote hbody.isOpenBody (some quote) offset
    rw [Zone.cleaned_append, List.head?_cons, Option.some_or, hkept,
      Zone.after_of_cleaned_eq hkept, Zone.cleaned_of_lacksSlash hslash]
  | openLiteral quote words =>
    obtain ⟨hquote, hopen, rfl⟩ := h
    have hkept := cleaned_quote hquote hopen none offset
    have hread : withoutCommentsFrom (.code .outside) offset (quote :: words)
        = .ok (quote :: words) := by
      rw [withoutCommentsFrom_eq_ok_iff, Zone.after_of_cleaned_eq hkept]
      exact ⟨rfl, hkept⟩
    rw [text, List.append_nil, hread]
    show _ = Except.ok (cleaned (openLiteral quote words) ++ [])
    rw [List.append_nil]
    rfl
  | lineComment words =>
    obtain ⟨hclean, hafter⟩ := cleaned_lineWords h.1 rest.head? (offset + 1 + 1)
    have hzone : (Zone.code .outside).after rest.head? offset ('/' :: '/' :: words) = .line :=
      hafter
    have hblank : (Zone.code .outside).cleaned rest.head? offset ('/' :: '/' :: words)
        = ('/' :: '/' :: words).flatMap blank :=
      congrArg (fun rest => blank '/' ++ (blank '/' ++ rest)) hclean
    rw [cleaned_comment rfl, text, CallSignature.withoutCommentsFrom_append, hzone, hblank,
      withoutCommentsFrom_line h.2]
  | blockComment words =>
    rw [cleaned_comment rfl]
    exact (cleans_block h _).withoutCommentsFrom_append offset
  | openComment words => exact absurd rfl (hclosed words)

end Lexeme

namespace Lexes

variable {source : Text} {lexemes before : List Lexeme} {words : Text}

theorem withoutCommentsFrom_eq_ok (h : Lexes source lexemes)
    (hclosed : ∀ words, .openComment words ∉ lexemes) (offset : Nat) :
    withoutCommentsFrom (.code .outside) offset source
      = .ok (lexemes.flatMap Lexeme.cleaned) := by
  induction h generalizing offset with
  | nil => rfl
  | @cons l rest lexemes hfits _ ih =>
    have hl : ∀ words, l ≠ .openComment words := fun words heq => hclosed words (by simp [heq])
    have hrest : ∀ words, .openComment words ∉ lexemes := fun words hmem =>
      hclosed words (List.mem_cons_of_mem _ hmem)
    rw [hfits.withoutCommentsFrom_append hl, ih hrest, List.flatMap_cons]
    rfl

/-- A block comment that is cut off is a fault where it begins. -/
theorem withoutCommentsFrom_eq_error (h : Lexes source (before ++ [.openComment words]))
    (hbefore : ∀ words, .openComment words ∉ before) (offset : Nat) :
    withoutCommentsFrom (.code .outside) offset source
      = .error ((Cause.commentUnterminated.located
          (offset + startBehind before)).withHint .closeComment) := by
  induction before generalizing source offset with
  | nil =>
    generalize hlexemes : [] ++ [Lexeme.openComment words] = lexemes at h
    cases h with
    | nil => cases hlexemes
    | cons hfits hrest =>
      obtain ⟨rfl, rfl⟩ := List.cons.inj hlexemes
      obtain ⟨hopen, rfl⟩ := hfits
      obtain ⟨-, hafter⟩ := cleaned_blockWords hopen
        (by simp : (none : Option Char) ≠ some '/') offset (offset + 1 + 1)
      have hzone :
          (Zone.code .outside).after none offset ('/' :: '*' :: words) = .block offset :=
        hafter
      rw [Lexeme.text, List.append_nil, withoutCommentsFrom_eq, hzone]
      rfl
  | cons l before ih =>
    generalize hlexemes : l :: before ++ [Lexeme.openComment words] = lexemes at h
    cases h with
    | nil => cases hlexemes
    | cons hfits hrest =>
      obtain ⟨rfl, rfl⟩ := List.cons.inj hlexemes
      have hl : ∀ words, l ≠ .openComment words :=
        fun words heq => hbefore words (by simp [heq])
      have hstart : startBehind (l :: before) = l.text.width + startBehind before := by
        rw [startBehind, List.flatMap_cons, Text.width_append, startBehind]
      rw [hfits.withoutCommentsFrom_append hl,
        ih hrest fun words hmem => hbefore words (List.mem_cons_of_mem _ hmem), hstart,
        Nat.add_assoc]
      rfl

end Lexes

theorem width_flatMap_cleaned (lexemes : List Lexeme) :
    Text.width (lexemes.flatMap Lexeme.cleaned) = startBehind lexemes := by
  induction lexemes with
  | nil => rfl
  | cons l lexemes ih =>
    rw [List.flatMap_cons, Text.width_append, ih, Lexeme.width_cleaned, startBehind,
      startBehind, List.flatMap_cons, Text.width_append]

/-- In the cleaned source every lexeme is found where it stands in the source. -/
theorem slice_flatMap_cleaned (before : List Lexeme) (l : Lexeme) (behind : List Lexeme) :
    Text.slice ((before ++ l :: behind).flatMap Lexeme.cleaned) (startBehind before)
      (startBehind before + l.text.width) = l.cleaned := by
  have hslice := Text.slice_append (before.flatMap Lexeme.cleaned) l.cleaned
    (behind.flatMap Lexeme.cleaned)
  rw [width_flatMap_cleaned, Lexeme.width_cleaned] at hslice
  simpa using hslice

/-- A comment that is cut off is reported where it begins. -/
theorem withoutComments_isBoundary (source : Text) :
    FaultsSatisfy (fun fault => ∃ place, source.IsBoundary place ∧
        fault = (Cause.commentUnterminated.located place).withHint .closeComment)
      (withoutComments source) := by
  intro fault hfault
  obtain ⟨lexemes, h⟩ := exists_lexes source
  by_cases hopen : ∃ words, .openComment words ∈ lexemes
  · obtain ⟨words, hmem⟩ := hopen
    obtain ⟨before, rfl, hbefore⟩ := h.exists_before hmem
    have hread := h.withoutCommentsFrom_eq_error hbefore 0
    rw [Nat.zero_add] at hread
    refine ⟨startBehind before, ?_, Except.error.inj (hfault.symm.trans hread)⟩
    refine ⟨before.flatMap Lexeme.text, Lexeme.text (.openComment words), ?_, rfl⟩
    rw [← h.flatMap_text]
    simp
  · have hread := h.withoutCommentsFrom_eq_ok (not_exists.1 hopen) 0
    rw [withoutComments, hread] at hfault
    cases hfault

/-- A source falls into lexemes in one way.  If none of them is a block
comment that is cut off, then taking the comments out blanks them out where
they stand and keeps everything else; otherwise the comment that is cut off is
the last lexeme, and the fault lies where it begins. -/
theorem withoutComments_lexes (source : Text) : ∃ lexemes, Lexes source lexemes ∧
    (∀ other, Lexes source other → other = lexemes) ∧
    (∀ out, withoutComments source = .ok out ↔
      (∀ words, .openComment words ∉ lexemes) ∧ out = lexemes.flatMap Lexeme.cleaned) ∧
    (∀ out, withoutComments source = .ok out → out.width = source.width ∧
      ∀ before l behind, lexemes = before ++ l :: behind →
        out.slice (startBehind before) (startBehind before + l.text.width) = l.cleaned) ∧
    ∀ words, .openComment words ∈ lexemes →
      ∃ before fault, lexemes = before ++ [.openComment words] ∧
        withoutComments source = .error fault ∧ fault.kind = .decompositionFailure ∧
        fault.offset = some (startBehind before) := by
  obtain ⟨lexemes, h⟩ := exists_lexes source
  have hopen : ∀ words, .openComment words ∈ lexemes →
      ∃ before, lexemes = before ++ [.openComment words] ∧ withoutComments source
        = .error ((Cause.commentUnterminated.located (startBehind before)).withHint
            .closeComment) := by
    intro words hmem
    obtain ⟨before, rfl, hbefore⟩ := h.exists_before hmem
    have hread := h.withoutCommentsFrom_eq_error hbefore 0
    rw [Nat.zero_add] at hread
    exact ⟨before, rfl, hread⟩
  have hiff : ∀ out, withoutComments source = .ok out ↔
      (∀ words, .openComment words ∉ lexemes) ∧ out = lexemes.flatMap Lexeme.cleaned := by
    intro out
    constructor
    · intro hout
      have hclosed : ∀ words, .openComment words ∉ lexemes := fun words hmem => by
        obtain ⟨before, -, herror⟩ := hopen words hmem
        rw [herror] at hout
        cases hout
      exact ⟨hclosed, Except.ok.inj (hout.symm.trans (h.withoutCommentsFrom_eq_ok hclosed 0))⟩
    · rintro ⟨hclosed, rfl⟩
      exact h.withoutCommentsFrom_eq_ok hclosed 0
  refine ⟨lexemes, h, fun other hother => hother.unique h, hiff, fun out hout => ?_,
    fun words hmem => ?_⟩
  · obtain ⟨-, rfl⟩ := (hiff out).1 hout
    refine ⟨?_, ?_⟩
    · rw [width_flatMap_cleaned, startBehind, h.flatMap_text]
    · rintro before l behind rfl
      exact slice_flatMap_cleaned before l behind
  · obtain ⟨before, hbefore, hread⟩ := hopen words hmem
    exact ⟨before, _, hbefore, hread, rfl, rfl⟩

/-- The star that opens a comment does not close it, and a quote inside a
comment opens nothing. -/
example : withoutComments "a /*/ ' */ '/*' // é\nb".toList
    = .ok "a          '/*'      \nb".toList := by
  rfl

end CallSignature
