/-
CallSignature.Proofs.Cursor.Runs — what a reader does step by step.

A reader goes on, goes elsewhere, skips white space, or looks for something
and stays where it is if that is not there.  `Takes` says of each of these
steps what it answers and where it leads: a text that is found was the
beginning of what was unread, and what is unread behind it is the rest.

Every step is one that `Takes` allows (`takes_step`), and it changes no
character of the source (`text_runSteps`).  So after any row of steps the
cursor stands at a boundary of the source it began with.  A reader that keeps
an index is told the same and comes to the same place (`runSteps_indexed`).
-/
import CallSignature.Proofs.Cursor.Indexed
import CallSignature.Proofs.Text.Edges

namespace CallSignature

open Unicode

/-! ## Looking for something -/

/-- Something that a reader can look for. -/
inductive Target
  | char (expected : Char)
  | text (expected : Text)
  | word (expected : Text)
  | name
  deriving DecidableEq, Repr

/-- The text is what is looked for, with this text behind it.  A word or a
name is there only as a whole. -/
def Target.Fits : Target → Text → Text → Prop
  | char x, a, _ => a = [x]
  | text w, a, _ => a = w
  | word w, a, behind => a = w ∧ behind.head?.any isNameContinue = false
  | name, a, behind => Cursor.name? a = some a ∧ behind.head?.any isNameContinue = false

/-- What is looked for, and the cursor behind it. -/
def Cursor.find? (c : Cursor) : Target → Option (Text × Cursor)
  | .char x => (c.matchChar x).map ([x], ·)
  | .text w => (c.matchText w).map (w, ·)
  | .word w => (c.matchWord w).map (w, ·)
  | .name => c.identifier

/-- What is looked for, and the cursor behind it. -/
def IndexedCursor.find? (c : IndexedCursor) : Target → Option (Text × IndexedCursor)
  | .char x => (c.matchChar x).map ([x], ·)
  | .text w => (c.matchText w).map (w, ·)
  | .word w => (c.matchWord w).map (w, ·)
  | .name => c.identifier

namespace Cursor

variable {a : Text} {c d : Cursor}

theorem matchChar_eq_some_iff {x : Char} : c.matchChar x = some d ↔ Passes [x] c d := by
  refine ⟨passes_of_matchChar, fun h => ?_⟩
  rw [matchChar, if_pos (by rw [h.rest]; rfl)]
  exact congrArg some ((passes_advance h.rest).unique h)

theorem matchText_eq_some_iff {w : Text} : c.matchText w = some d ↔ Passes w c d := by
  refine ⟨passes_of_matchText, fun h => ?_⟩
  rw [matchText, if_pos (by rw [h.rest]; simp)]
  exact congrArg some ((passes_advance h.rest).unique h)

theorem startsWithWord_iff {w : Text} (h : Passes w c d) :
    c.startsWithWord w = true ↔ d.rest.head?.any isNameContinue = false := by
  simp [startsWithWord, h.rest]

theorem matchWord_eq_some_iff {w : Text} :
    c.matchWord w = some d ↔ Passes w c d ∧ d.rest.head?.any isNameContinue = false := by
  constructor
  · intro h
    have hpass := passes_of_matchWord h
    refine ⟨hpass, (startsWithWord_iff hpass).1 ?_⟩
    by_contra hstarts
    rw [matchWord, if_neg hstarts] at h
    cases h
  · rintro ⟨hpass, hends⟩
    rw [matchWord, if_pos ((startsWithWord_iff hpass).2 hends)]
    exact congrArg some ((passes_advance hpass.rest).unique hpass)

/-- The name that is read is the only one that ends where it does. -/
theorem identifier_eq_some_iff : c.identifier = some (a, d) ↔
    Passes a c d ∧ name? a = some a ∧ d.rest.head?.any isNameContinue = false := by
  constructor
  · intro h
    obtain ⟨hname, hpass⟩ := identifier_eq_some h
    obtain ⟨rest, hrest, hself, hends⟩ := name?_eq_some hname
    obtain rfl := List.append_cancel_left (hrest.symm.trans hpass.rest)
    exact ⟨hpass, hself, hends⟩
  · rintro ⟨hpass, hself, hends⟩
    have hname : name? c.rest = some a := by
      rw [hpass.rest]
      exact name?_append hself hends
    rw [identifier, hname]
    exact congrArg (fun next => some (a, next)) ((passes_advance hpass.rest).unique hpass)

theorem map_mk_eq_some_iff {w : Text} {found : Option Cursor} :
    found.map (w, ·) = some (a, d) ↔ found = some d ∧ a = w := by
  cases found <;> simp [and_comm, eq_comm]

/-- A reader finds what it looks for exactly if that is next. -/
theorem find?_eq_some_iff {target : Target} :
    c.find? target = some (a, d) ↔ Passes a c d ∧ target.Fits a d.rest := by
  cases target with
  | char x =>
    rw [find?, map_mk_eq_some_iff, matchChar_eq_some_iff, Target.Fits]
    exact and_congr_left fun ha => by rw [ha]
  | text w =>
    rw [find?, map_mk_eq_some_iff, matchText_eq_some_iff, Target.Fits]
    exact and_congr_left fun ha => by rw [ha]
  | word w =>
    rw [find?, map_mk_eq_some_iff, matchWord_eq_some_iff, Target.Fits, and_assoc,
      and_comm (b := a = w)]
    exact and_congr_left fun ha => by rw [ha.1]
  | name => exact identifier_eq_some_iff

theorem find?_indexed (target : Target) (c : Cursor) :
    c.indexed.find? target = (c.find? target).map (Prod.map id indexed) := by
  cases target with
  | char x =>
    rw [IndexedCursor.find?, matchChar_indexed, find?, Option.map_map, Option.map_map]
    rfl
  | text w =>
    rw [IndexedCursor.find?, matchText_indexed, find?, Option.map_map, Option.map_map]
    rfl
  | word w =>
    rw [IndexedCursor.find?, matchWord_indexed, find?, Option.map_map, Option.map_map]
    rfl
  | name => exact identifier_indexed c

end Cursor

/-! ## Steps and runs -/

/-- A step of a reader. -/
inductive Step
  | advance
  | seek (offset : Nat)
  | skipWhiteSpace
  | find (target : Target)
  deriving DecidableEq, Repr

/-- What a reader is told about a step. -/
inductive Answer
  /-- This was the next character. -/
  | read (c : Char)
  | moved
  | found (a : Text)
  | missed
  deriving DecidableEq, Repr

/-- The answer to a search, and the cursor behind it.  A reader that has found
nothing stays where it is. -/
def Answer.ofFind {σ : Type} (c : σ) : Option (Text × σ) → Answer × σ
  | some (a, next) => (.found a, next)
  | none => (.missed, c)

/-- The answer to a step, and the cursor behind it. -/
def Cursor.step (c : Cursor) : Step → Answer × Cursor
  | .advance => (.read c.peek, c.advance 1)
  | .seek offset => (.moved, c.seek offset)
  | .skipWhiteSpace => (.moved, c.skipWhiteSpace)
  | .find target => Answer.ofFind c (c.find? target)

/-- The answer to a step, and the cursor behind it. -/
def IndexedCursor.step (c : IndexedCursor) : Step → Answer × IndexedCursor
  | .advance => (.read c.peek, c.advance)
  | .seek offset => (.moved, c.seek offset)
  | .skipWhiteSpace => (.moved, c.skipWhiteSpace)
  | .find target => Answer.ofFind c (c.find? target)

/-- The answers to a row of steps, and the cursor behind the last one. -/
def runSteps {σ : Type} (step : σ → Step → Answer × σ) (c : σ) : List Step → List Answer × σ
  | [] => ([], c)
  | s :: steps =>
    let (answer, next) := step c s
    let (answers, last) := runSteps step next steps
    (answer :: answers, last)

/-- Readers that go hand in hand at every step do so all the way. -/
theorem runSteps_map {σ τ : Type} {step : σ → Step → Answer × σ}
    {step' : τ → Step → Answer × τ} {f : σ → τ}
    (h : ∀ c s, step' (f c) s = Prod.map id f (step c s)) (c : σ) (steps : List Step) :
    runSteps step' (f c) steps = Prod.map id f (runSteps step c steps) := by
  induction steps generalizing c with
  | nil => rfl
  | cons s steps ih =>
    simp only [runSteps, h, Prod.map_fst, Prod.map_snd, ih]
    rfl

/-- What every step keeps is kept all the way. -/
theorem runSteps_keeps {σ α : Type} {step : σ → Step → Answer × σ} {f : σ → α}
    (h : ∀ c s, f (step c s).2 = f c) (c : σ) (steps : List Step) :
    f (runSteps step c steps).2 = f c := by
  induction steps generalizing c with
  | nil => rfl
  | cons s steps ih => exact (ih (step c s).2).trans (h c s)

namespace Cursor

variable {c d : Cursor}

theorem step_indexed (c : Cursor) (s : Step) :
    c.indexed.step s = Prod.map id indexed (c.step s) := by
  cases s with
  | advance => rw [IndexedCursor.step, peek_indexed, advance_indexed]; rfl
  | seek n => rw [IndexedCursor.step, seek_indexed]; rfl
  | skipWhiteSpace => rw [IndexedCursor.step, skipWhiteSpace_indexed]; rfl
  | find target =>
    rw [IndexedCursor.step, find?_indexed, step]
    cases c.find? target <;> rfl

/-- A reader that keeps an index is told the same and comes to the same
place. -/
theorem runSteps_indexed (c : Cursor) (steps : List Step) :
    runSteps IndexedCursor.step c.indexed steps
      = Prod.map id indexed (runSteps step c steps) :=
  runSteps_map step_indexed c steps

/-! ## What a step does -/

/-- From the first cursor the step leads to the second one, with this answer. -/
inductive Takes (c : Cursor) : Step → Answer → Cursor → Prop
  /-- One character is read. -/
  | next {x : Char} {d : Cursor} (h : Passes [x] c d) : Takes c .advance (.read x) d
  /-- There is no character left, and U+0000 stands for it. -/
  | stay (h : c.rest = []) : Takes c .advance (.read '\x00') c
  /-- The next boundary from byte `n` on is gone to, or the end. -/
  | goTo {n : Nat} {d : Cursor} (htext : d.text = c.text) (hle : min n c.text.width ≤ d.offset)
    (hfirst : ∀ place, c.text.IsBoundary place → n ≤ place → d.offset ≤ place) :
    Takes c (.seek n) .moved d
  /-- White space is passed, as much of it as there is. -/
  | skip {space : Text} {d : Cursor} (h : Passes space c d) (hblank : space.isBlank = true)
    (hstop : ∀ x ∈ d.rest.head?, isWhiteSpace x = false) : Takes c .skipWhiteSpace .moved d
  /-- What is looked for is next, and it is passed. -/
  | found {target : Target} {a : Text} {d : Cursor} (h : Passes a c d)
    (ha : target.Fits a d.rest) : Takes c (.find target) (.found a) d
  /-- What is looked for is not next. -/
  | missed {target : Target} (h : ∀ a d, Passes a c d → ¬ target.Fits a d.rest) :
    Takes c (.find target) .missed c

/-- No step changes a character. -/
theorem Takes.text_eq {s : Step} {answer : Answer} (h : Takes c s answer d) :
    d.text = c.text := by
  cases h with
  | next h => exact h.text_eq
  | stay => rfl
  | goTo htext => exact htext
  | skip h => exact h.text_eq
  | found h => exact h.text_eq
  | missed => rfl

end Cursor

namespace Text

theorem min_le_width_takeBytes (n : Nat) (t : Text) :
    min n t.width ≤ (takeBytes n t).width := by
  induction t generalizing n with
  | nil => simp [takeBytes]
  | cons c t ih =>
    by_cases hn : n = 0
    · simp [hn]
    · have := ih (n - c.utf8Size)
      rw [takeBytes, if_neg hn, width_cons, width_cons]
      omega

/-- No boundary from byte `n` on is in front of the one where the text is cut
at that byte. -/
theorem width_takeBytes_le {n place : Nat} {t : Text} (h : t.IsBoundary place)
    (hle : n ≤ place) : (takeBytes n t).width ≤ place := by
  obtain ⟨a, b, rfl, rfl⟩ := h
  induction a generalizing n with
  | nil => simp [Nat.le_zero.1 hle]
  | cons c a ih =>
    rw [List.cons_append, takeBytes]
    split
    · exact Nat.zero_le _
    · rw [width_cons, width_cons] at *
      exact Nat.add_le_add_left (ih (by omega)) _

end Text

namespace Cursor

theorem takes_step (c : Cursor) (s : Step) : Takes c s (c.step s).1 (c.step s).2 := by
  cases s with
  | advance =>
    obtain ⟨behind, rest⟩ := c
    cases rest with
    | nil => exact .stay rfl
    | cons x rest => exact .next (passes_next behind x rest)
  | seek n =>
    have hoffset : (c.seek n).offset = (Text.takeBytes n c.text).width := Text.width_reverse _
    refine .goTo (text_seek n c) ?_ fun place hplace hle => ?_
    · exact (Text.min_le_width_takeBytes n c.text).trans_eq hoffset.symm
    · exact hoffset.trans_le (Text.width_takeBytes_le hplace hle)
  | skipWhiteSpace =>
    refine .skip (passes_skipWhiteSpace c) (Text.isBlank_takeWhile _) fun x hx => ?_
    rw [step, rest_skipWhiteSpace] at hx
    exact Text.head?_trimStart hx
  | find target =>
    rw [step]
    cases hfound : c.find? target with
    | none =>
      refine .missed fun a d hpass ha => ?_
      rw [find?_eq_some_iff.2 ⟨hpass, ha⟩] at hfound
      cases hfound
    | some found =>
      obtain ⟨hpass, ha⟩ := find?_eq_some_iff.1 hfound
      exact .found hpass ha

/-- A row of steps changes no character. -/
theorem text_runSteps (c : Cursor) (steps : List Step) :
    (runSteps step c steps).2.text = c.text :=
  runSteps_keeps (fun c s => (takes_step c s).text_eq) c steps

theorem isBoundary_offset (c : Cursor) : c.text.IsBoundary c.offset :=
  ⟨c.behind.reverse, c.rest, rfl, Text.width_reverse _⟩

end Cursor

end CallSignature
