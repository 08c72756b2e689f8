/-
CallSignature.Proofs.Nesting.Passage — how a tracker gets through a text.

`Tracker.feed` decides four ways over one character in order, and `Sees` has
one constructor for each, so that no later proof walks its `if` chain again
(`sees_of_feed`, `feed_of_sees`).  A PASSAGE strings such steps together: it
relates the tracker before a text to the tracker behind it, and lists the
visits that the text gives.

Three facts carry the theory of nesting.

* A survey of a text begins with the passage of any part it begins with
  (`surveyFrom_append`), and a visit in a survey cuts the text where the
  visited character stands (`surveyFrom_split`).
* A passage can be LIFTED: the same text is passed at another position and
  inside more groups, with the visits moved accordingly (`Passage.lifted`).
* A passage can be LOWERED again if none of its closing brackets closes one
  of the groups around it (`Passage.lowered`).
-/
import CallSignature.Nesting.Survey

namespace CallSignature

/-! ## Characters -/

/-- Whether the character is neither a quote nor a bracket. -/
def isPlain (c : Char) : Bool :=
  !isQuote c && (closerOf? c).isNone && !isCloser c

theorem isPlain_iff {c : Char} :
    isPlain c = true ↔ isQuote c = false ∧ closerOf? c = none ∧ isCloser c = false := by
  simp [isPlain, and_assoc]

theorem eq_of_isQuote {c : Char} (h : isQuote c = true) : c = '\'' ∨ c = '"' ∨ c = '`' := by
  simpa [isQuote, or_assoc] using h

theorem utf8Size_of_isQuote {c : Char} (h : isQuote c = true) : c.utf8Size = 1 := by
  rcases eq_of_isQuote h with rfl | rfl | rfl <;> decide

theorem eq_of_closerOf? {c closer : Char} (h : closerOf? c = some closer) :
    c = '(' ∧ closer = ')' ∨ c = '[' ∧ closer = ']' ∨ c = '{' ∧ closer = '}' := by
  simp only [closerOf?] at h
  split at h
  · exact .inl ⟨‹_›, (Option.some.inj h).symm⟩
  · split at h
    · exact .inr (.inl ⟨‹_›, (Option.some.inj h).symm⟩)
    · split at h
      · exact .inr (.inr ⟨‹_›, (Option.some.inj h).symm⟩)
      · simp at h

theorem closerOf?_round : closerOf? '(' = some ')' := rfl

theorem closerOf?_square : closerOf? '[' = some ']' := rfl

theorem closerOf?_curly : closerOf? '{' = some '}' := rfl

theorem eq_of_isCloser {c : Char} (h : isCloser c = true) : c = ')' ∨ c = ']' ∨ c = '}' := by
  simpa [isCloser, or_assoc] using h

theorem isQuote_of_closerOf? {c closer : Char} (h : closerOf? c = some closer) :
    isQuote c = false := by
  rcases eq_of_closerOf? h with ⟨rfl, -⟩ | ⟨rfl, -⟩ | ⟨rfl, -⟩ <;> decide

theorem isCloser_of_closerOf? {c closer : Char} (h : closerOf? c = some closer) :
    isCloser closer = true := by
  rcases eq_of_closerOf? h with ⟨-, rfl⟩ | ⟨-, rfl⟩ | ⟨-, rfl⟩ <;> decide

theorem isCloser_opener {c closer : Char} (h : closerOf? c = some closer) :
    isCloser c = false := by
  rcases eq_of_closerOf? h with ⟨rfl, -⟩ | ⟨rfl, -⟩ | ⟨rfl, -⟩ <;> decide

theorem utf8Size_of_closerOf? {c closer : Char} (h : closerOf? c = some closer) :
    c.utf8Size = 1 := by
  rcases eq_of_closerOf? h with ⟨rfl, -⟩ | ⟨rfl, -⟩ | ⟨rfl, -⟩ <;> decide

theorem isQuote_of_isCloser {c : Char} (h : isCloser c = true) : isQuote c = false := by
  rcases eq_of_isCloser h with rfl | rfl | rfl <;> decide

theorem closerOf?_of_isCloser {c : Char} (h : isCloser c = true) : closerOf? c = none := by
  rcases eq_of_isCloser h with rfl | rfl | rfl <;> decide

theorem utf8Size_of_isCloser {c : Char} (h : isCloser c = true) : c.utf8Size = 1 := by
  rcases eq_of_isCloser h with rfl | rfl | rfl <;> decide

/-! ## One character -/

namespace QuoteState

/-- A reader that does not take the character for a part of a literal is
outside all of them. -/
theorem eq_outside_of_covers {q : QuoteState} {c : Char} (h : q.covers c = false) :
    q = outside ∧ isQuote c = false := by
  cases q with
  | outside => exact ⟨rfl, h⟩
  | inside => simp [covers] at h

/-- The literal that is open, if one is, began with a quote. -/
def Sound : QuoteState → Prop
  | outside => True
  | inside quote _ _ => isQuote quote = true

theorem Sound.step {q : QuoteState} (h : q.Sound) (offset : Nat) (c : Char) :
    (q.step offset c).Sound := by
  cases q with
  | outside => by_cases hc : isQuote c = true <;> simp [QuoteState.step, Sound, hc]
  | inside quote openedAt escaped =>
    simp only [QuoteState.step]
    split
    · exact h
    · split
      · exact h
      · split
        · trivial
        · exact h

/-- Only a quote leads out of a literal. -/
theorem Sound.eq_outside_of_step {q : QuoteState} (h : q.Sound) {offset : Nat} {c : Char}
    (hc : isQuote c = false) (hstep : q.step offset c = outside) : q = outside := by
  cases q with
  | outside => rfl
  | inside quote openedAt escaped =>
    simp only [QuoteState.step] at hstep
    split at hstep
    · cases hstep
    · split at hstep
      · cases hstep
      · split at hstep
        · rename_i heq
          rw [heq, show isQuote quote = true from h] at hc
          cases hc
        · cases hstep

end QuoteState

/-- The visits that a sighting of the character at byte `offset` gives. -/
def Sighting.visits (offset : Nat) (c : Char) : Sighting → List Visit
  | literal => []
  | code depth => [⟨offset, c, depth⟩]

namespace Tracker

/-- What a tracker makes of a character at byte `offset` that is in order:
the tracker before it, the tracker behind it, and what is said of it. -/
inductive Sees (offset : Nat) (c : Char) : Tracker → Tracker → Sighting → Prop
  | literal {groups : List OpenGroup} {quotes : QuoteState} (h : quotes.covers c = true) :
      Sees offset c ⟨groups, quotes⟩ ⟨groups, quotes.step offset c⟩ .literal
  | opener {groups : List OpenGroup} {closer : Char} (h : closerOf? c = some closer) :
      Sees offset c ⟨groups, .outside⟩ ⟨⟨closer, offset⟩ :: groups, .outside⟩
        (.code groups.length)
  | closer {outer : List OpenGroup} {openedAt : Nat} (h : isCloser c = true) :
      Sees offset c ⟨⟨c, openedAt⟩ :: outer, .outside⟩ ⟨outer, .outside⟩ (.code outer.length)
  | plain {groups : List OpenGroup} (h : isPlain c = true) :
      Sees offset c ⟨groups, .outside⟩ ⟨groups, .outside⟩ (.code groups.length)

theorem sees_of_feed {t next : Tracker} {offset : Nat} {c : Char} {s : Sighting}
    (h : t.feed offset c = (next, .ok s)) : Sees offset c t next s := by
  obtain ⟨groups, quotes⟩ := t
  simp only [feed] at h
  split at h
  · rename_i hcovers
    obtain ⟨rfl, hs⟩ := Prod.mk.inj h
    obtain rfl := Except.ok.inj hs
    exact .literal hcovers
  · rename_i hcovers
    obtain ⟨rfl, hquote⟩ := QuoteState.eq_outside_of_covers (Bool.eq_false_iff.2 hcovers)
    split at h
    · rename_i closer hcloser
      obtain ⟨rfl, hs⟩ := Prod.mk.inj h
      obtain rfl := Except.ok.inj hs
      exact .opener hcloser
    · rename_i hnone
      split at h
      · rename_i hcloser
        simp only [close] at h
        split at h
        · simp at h
        · rename_i group outer
          split at h
          · rename_i heq
            obtain ⟨rfl, hs⟩ := Prod.mk.inj h
            obtain rfl := Except.ok.inj hs
            obtain ⟨closer, openedAt⟩ := group
            obtain rfl : closer = c := heq
            exact .closer hcloser
          · simp at h
      · rename_i hcloser
        obtain ⟨rfl, hs⟩ := Prod.mk.inj h
        obtain rfl := Except.ok.inj hs
        exact .plain (isPlain_iff.2 ⟨hquote, hnone, Bool.eq_false_iff.2 hcloser⟩)

theorem feed_of_sees {t next : Tracker} {offset : Nat} {c : Char} {s : Sighting}
    (h : Sees offset c t next s) : t.feed offset c = (next, .ok s) := by
  cases h with
  | literal h => simp [feed, h]
  | opener h => simp [feed, QuoteState.covers, isQuote_of_closerOf? h, h]
  | closer h =>
    simp [feed, close, QuoteState.covers, isQuote_of_isCloser h, closerOf?_of_isCloser h, h]
  | plain h =>
    obtain ⟨hquote, hopener, hcloser⟩ := isPlain_iff.1 h
    simp [feed, QuoteState.covers, hquote, hopener, hcloser]

/-- Literals are kept track of as if there were no groups. -/
theorem Sees.quotes {t next : Tracker} {offset : Nat} {c : Char} {s : Sighting}
    (h : Sees offset c t next s) : next.quotes = t.quotes.step offset c := by
  cases h with
  | literal h => rfl
  | opener h => simp [QuoteState.step, isQuote_of_closerOf? h]
  | closer h => simp [QuoteState.step, isQuote_of_isCloser h]
  | plain h => simp [QuoteState.step, (isPlain_iff.1 h).1]

/-! ## Passages -/

/-- The tracker gets through the text that begins at byte `offset`, with these
visits, and is the other tracker behind it. -/
inductive Passage : Tracker → Nat → Text → List Visit → Tracker → Prop
  | nil (t : Tracker) (offset : Nat) : Passage t offset [] [] t
  | cons {t next last : Tracker} {offset : Nat} {c : Char} {s : Sighting} {rest : Text}
      {visits : List Visit} (head : Sees offset c t next s)
      (tail : Passage next (offset + c.utf8Size) rest visits last) :
      Passage t offset (c :: rest) (s.visits offset c ++ visits) last

namespace Passage

variable {t mid last : Tracker} {offset : Nat} {a b : Text} {visits more : List Visit}

theorem append (ha : Passage t offset a visits mid)
    (hb : Passage mid (offset + a.width) b more last) :
    Passage t offset (a ++ b) (visits ++ more) last := by
  induction ha with
  | nil => simpa using hb
  | cons head tail ih =>
    rw [List.cons_append, List.append_assoc]
    refine .cons head (ih ?_)
    rwa [Nat.add_assoc, ← Text.width_cons]

/-- A passage of a whole is a passage of its parts. -/
theorem of_append (h : Passage t offset (a ++ b) visits last) :
    ∃ before behind mid, visits = before ++ behind ∧ Passage t offset a before mid ∧
      Passage mid (offset + a.width) b behind last := by
  induction a generalizing t offset visits with
  | nil => exact ⟨[], visits, t, rfl, .nil _ _, by simpa using h⟩
  | cons c a ih =>
    cases h with
    | cons head tail =>
      obtain ⟨before, behind, mid, rfl, ha, hb⟩ := ih tail
      refine ⟨_, behind, mid, (List.append_assoc ..).symm, .cons head ha, ?_⟩
      rwa [Text.width_cons, ← Nat.add_assoc]

theorem sound (h : Passage t offset a visits last) (ht : t.quotes.Sound) :
    last.quotes.Sound := by
  induction h with
  | nil => exact ht
  | cons head tail ih => exact ih (head.quotes ▸ ht.step _ _)

theorem singleton {c : Char} {s : Sighting} (h : Sees offset c t last s) :
    Passage t offset [c] (s.visits offset c) last := by
  simpa using Passage.cons h (.nil last _)

end Passage

end Tracker

/-! ## Passages in surveys -/

open Tracker

/-- The survey behind a part that the tracker gets through. -/
theorem surveyFrom_append {t mid : Tracker} {offset : Nat} {a : Text} {visits : List Visit}
    (h : Passage t offset a visits mid) (b : Text) :
    surveyFrom t offset (a ++ b) =
      ⟨visits ++ (surveyFrom mid (offset + a.width) b).visits,
        (surveyFrom mid (offset + a.width) b).fault⟩ := by
  induction h with
  | nil => simp
  | @cons t next last offset c s rest visits head tail ih =>
    rw [List.cons_append, surveyFrom, feed_of_sees head]
    cases s with
    | literal => simpa [Sighting.visits, Nat.add_assoc] using ih
    | code depth => simp [Sighting.visits, ih, Nat.add_assoc]

/-- A passage is a survey, and the end of the text is judged by the tracker
behind it. -/
theorem surveyFrom_of_passage {t last : Tracker} {offset : Nat} {a : Text}
    {visits : List Visit} (h : Passage t offset a visits last) :
    surveyFrom t offset a = ⟨visits, last.unfinished?⟩ := by
  simpa [surveyFrom] using surveyFrom_append h []

/-- A survey without a fault is a passage to a tracker that has nothing left
open. -/
theorem passage_of_surveyFrom {t : Tracker} {offset : Nat} {a : Text} {visits : List Visit}
    (h : surveyFrom t offset a = ⟨visits, none⟩) :
    ∃ last, Passage t offset a visits last ∧ last.unfinished? = none := by
  induction a generalizing t offset visits with
  | nil =>
    obtain ⟨rfl, hfault⟩ := Survey.mk.inj h
    exact ⟨t, .nil _ _, hfault⟩
  | cons c rest ih =>
    unfold surveyFrom at h
    split at h
    · simp at h
    · rename_i next hfeed
      obtain ⟨last, hpass, hlast⟩ := ih h
      exact ⟨last, .cons (sees_of_feed hfeed) hpass, hlast⟩
    · rename_i next depth hfeed
      obtain ⟨rfl, hfault⟩ := Survey.mk.inj h
      obtain ⟨last, hpass, hlast⟩ := ih (congrArg (Survey.mk _) hfault)
      exact ⟨last, .cons (sees_of_feed hfeed) hpass, hlast⟩

/-- A visit cuts the text before the character that is visited.  Everything up
to there is passed; what lies behind may be broken. -/
theorem surveyFrom_split {t : Tracker} {offset : Nat} {text : Text}
    {before behind : List Visit} {v : Visit}
    (h : (surveyFrom t offset text).visits = before ++ v :: behind) :
    ∃ a b mid next, text = a ++ v.char :: b ∧ v.offset = offset + a.width ∧
      Passage t offset a before mid ∧ Sees v.offset v.char mid next (.code v.depth) ∧
      surveyFrom next (v.offset + v.char.utf8Size) b
        = ⟨behind, (surveyFrom t offset text).fault⟩ := by
  induction text generalizing t offset before with
  | nil => simp [surveyFrom] at h
  | cons c rest ih =>
    rw [surveyFrom] at h ⊢
    split at h
    · simp at h
    · rename_i next hfeed
      obtain ⟨a, b, mid, after, rfl, hoffset, hpass, hsees, hrest⟩ := ih h
      refine ⟨c :: a, b, mid, after, rfl, ?_, .cons (sees_of_feed hfeed) hpass, hsees, ?_⟩
      · rw [hoffset, Text.width_cons, Nat.add_assoc]
      · simpa [hfeed] using hrest
    · rename_i next depth hfeed
      cases before with
      | nil =>
        obtain ⟨rfl, hvisits⟩ := List.cons.inj h
        refine ⟨[], rest, t, next, rfl, rfl, .nil _ _, sees_of_feed hfeed, ?_⟩
        simp [← hvisits]
      | cons first before =>
        obtain ⟨rfl, hvisits⟩ := List.cons.inj h
        obtain ⟨a, b, mid, after, rfl, hoffset, hpass, hsees, hrest⟩ := ih hvisits
        refine ⟨c :: a, b, mid, after, rfl, ?_, .cons (sees_of_feed hfeed) hpass, hsees, ?_⟩
        · rw [hoffset, Text.width_cons, Nat.add_assoc]
        · simpa [hfeed] using hrest

/-! ## Lifting and lowering -/

/-- The visit to the same character, `base` bytes further on and inside
`depth` more groups. -/
def Visit.lifted (base depth : Nat) (v : Visit) : Visit :=
  ⟨v.offset + base, v.char, v.depth + depth⟩

@[simp] theorem Visit.offset_lifted (base depth : Nat) (v : Visit) :
    (v.lifted base depth).offset = v.offset + base := rfl

@[simp] theorem Visit.char_lifted (base depth : Nat) (v : Visit) :
    (v.lifted base depth).char = v.char := rfl

@[simp] theorem Visit.depth_lifted (base depth : Nat) (v : Visit) :
    (v.lifted base depth).depth = v.depth + depth := rfl

/-- The same sighting inside `depth` more groups. -/
def Sighting.lifted (depth : Nat) : Sighting → Sighting
  | literal => literal
  | code inner => code (inner + depth)

theorem Sighting.visits_lifted (base depth offset : Nat) (c : Char) (s : Sighting) :
    (s.lifted depth).visits (offset + base) c
      = (s.visits offset c).map (Visit.lifted base depth) := by
  cases s <;> rfl

/-- The same state of a reader that began `base` bytes further on. -/
def QuoteState.shifted (base : Nat) : QuoteState → QuoteState
  | outside => outside
  | inside quote openedAt escaped => inside quote (openedAt + base) escaped

@[simp] theorem QuoteState.covers_shifted (base : Nat) (c : Char) (q : QuoteState) :
    (q.shifted base).covers c = q.covers c := by
  cases q <;> rfl

theorem QuoteState.step_shifted (base offset : Nat) (c : Char) (q : QuoteState) :
    (q.shifted base).step (offset + base) c = (q.step offset c).shifted base := by
  cases q with
  | outside => by_cases h : isQuote c = true <;> simp [shifted, step, h]
  | inside quote openedAt escaped =>
    simp only [shifted, step]
    split
    · rfl
    · split
      · rfl
      · split <;> rfl

theorem QuoteState.shifted_eq_outside_iff {base : Nat} {q : QuoteState} :
    q.shifted base = outside ↔ q = outside := by
  cases q <;> simp [shifted]

namespace Tracker

/-- The same open groups in a text that begins at byte `base`, inside the
groups `around`. -/
def liftedGroups (base : Nat) (around groups : List OpenGroup) : List OpenGroup :=
  groups.map (fun g => ⟨g.closer, g.openedAt + base⟩) ++ around

theorem length_liftedGroups (base : Nat) (around groups : List OpenGroup) :
    (liftedGroups base around groups).length = groups.length + around.length := by
  simp [liftedGroups]

/-- The same tracker in a text that begins at byte `base`, inside the groups
`around`. -/
def lifted (base : Nat) (around : List OpenGroup) (t : Tracker) : Tracker :=
  ⟨liftedGroups base around t.groups, t.quotes.shifted base⟩

@[simp] theorem lifted_empty (base : Nat) (around : List OpenGroup) :
    lifted base around {} = ⟨around, .outside⟩ := rfl

theorem Sees.lifted {t next : Tracker} {offset : Nat} {c : Char} {s : Sighting}
    (h : Sees offset c t next s) (base : Nat) (around : List OpenGroup) :
    Sees (offset + base) c (t.lifted base around) (next.lifted base around)
      (s.lifted around.length) := by
  cases h with
  | @literal groups quotes h =>
    have := @Sees.literal (offset + base) c (liftedGroups base around groups) _
      ((QuoteState.covers_shifted base c quotes).trans h)
    rwa [QuoteState.step_shifted] at this
  | @opener groups closer h =>
    have := @Sees.opener (offset + base) c (liftedGroups base around groups) closer h
    rwa [length_liftedGroups] at this
  | @closer outer openedAt h =>
    have := @Sees.closer (offset + base) c (liftedGroups base around outer) (openedAt + base) h
    rwa [length_liftedGroups] at this
  | @plain groups h =>
    have := @Sees.plain (offset + base) c (liftedGroups base around groups) h
    rwa [length_liftedGroups] at this

/-- What is passed by itself is passed in the same way further on and inside
other groups. -/
theorem Passage.lifted {t last : Tracker} {offset : Nat} {a : Text} {visits : List Visit}
    (h : Passage t offset a visits last) (base : Nat) (around : List OpenGroup) :
    Passage (t.lifted base around) (offset + base) a
      (visits.map (Visit.lifted base around.length)) (last.lifted base around) := by
  induction h with
  | nil => exact .nil _ _
  | @cons t next last offset c s rest visits head tail ih =>
    rw [List.map_append, ← Sighting.visits_lifted]
    refine .cons (head.lifted base around) ?_
    rwa [show offset + base + c.utf8Size = offset + c.utf8Size + base by omega]

/-- A step inside other groups is a step by itself, unless it closes the
innermost of them. -/
theorem Sees.lowered {t next : Tracker} {offset base : Nat} {around : List OpenGroup}
    {c : Char} {s : Sighting} (h : Sees (offset + base) c (t.lifted base around) next s)
    (hstay : ∀ v ∈ s.visits (offset + base) c, isCloser v.char = true →
      around.length ≤ v.depth) :
    ∃ next' s', Sees offset c t next' s' ∧ next = next'.lifted base around ∧
      s = s'.lifted around.length := by
  obtain ⟨groups, quotes⟩ := t
  generalize ht : Tracker.lifted base around ⟨groups, quotes⟩ = lifted at h
  cases h with
  | literal h =>
    obtain ⟨rfl, rfl⟩ := Tracker.mk.inj ht
    rw [QuoteState.covers_shifted] at h
    refine ⟨_, _, .literal h, ?_, rfl⟩
    rw [QuoteState.step_shifted]; rfl
  | opener h =>
    obtain ⟨rfl, hq⟩ := Tracker.mk.inj ht
    obtain rfl := QuoteState.shifted_eq_outside_iff.1 hq
    exact ⟨_, _, .opener h, rfl, by rw [length_liftedGroups]; rfl⟩
  | @closer outer openedAt h =>
    obtain ⟨hgroups, hq⟩ := Tracker.mk.inj ht
    obtain rfl := QuoteState.shifted_eq_outside_iff.1 hq
    cases groups with
    | nil =>
      -- the innermost group around is the one that closes, and its visit says so
      have hdepth := hstay ⟨offset + base, c, outer.length⟩ (by simp [Sighting.visits]) h
      obtain rfl : around = ⟨c, openedAt⟩ :: outer := hgroups
      exact absurd hdepth (Nat.not_succ_le_self _)
    | cons g groups =>
      obtain ⟨hg, rfl⟩ := List.cons.inj hgroups
      obtain ⟨gcloser, gopened⟩ := g
      obtain ⟨rfl, -⟩ := OpenGroup.mk.inj hg
      exact ⟨_, _, .closer h, rfl, congrArg Sighting.code (length_liftedGroups _ _ groups)⟩
  | plain h =>
    obtain ⟨rfl, hq⟩ := Tracker.mk.inj ht
    obtain rfl := QuoteState.shifted_eq_outside_iff.1 hq
    exact ⟨_, _, .plain h, rfl, by rw [length_liftedGroups]; rfl⟩

/-- What is passed inside other groups, without closing any of them, is passed
by itself. -/
theorem Passage.lowered {t last : Tracker} {offset base : Nat} {around : List OpenGroup}
    {a : Text} {visits : List Visit}
    (h : Passage (t.lifted base around) (offset + base) a visits last)
    (hstay : ∀ v ∈ visits, isCloser v.char = true → around.length ≤ v.depth) :
    ∃ visits' last', Passage t offset a visits' last' ∧ last = last'.lifted base around ∧
      visits = visits'.map (Visit.lifted base around.length) := by
  induction a generalizing t offset visits with
  | nil =>
    cases h
    exact ⟨[], t, .nil _ _, rfl, rfl⟩
  | cons c rest ih =>
    cases h with
    | cons head tail =>
      obtain ⟨next', s', hsees, rfl, rfl⟩ :=
        head.lowered fun v hv => hstay v (List.mem_append_left _ hv)
      rw [show offset + base + c.utf8Size = offset + c.utf8Size + base by omega] at tail
      obtain ⟨visits', last', hpass, rfl, rfl⟩ :=
        ih tail fun v hv => hstay v (List.mem_append_right _ hv)
      refine ⟨_, last', .cons hsees hpass, rfl, ?_⟩
      rw [List.map_append, Sighting.visits_lifted]

end Tracker

end CallSignature
