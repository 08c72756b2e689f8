/-
CallSignature.Proofs.Segment.Signs — a default is divided as it was in place.

Whether an equals sign assigns depends on its neighbours, and cutting a
segment takes one of them away from the sign next to the cut.  No sign is
gained or lost by that: a sign that stood next to another one would have kept
that one from assigning (`assignsAt_behind`).  So the signs behind the first
one are the signs of the default by itself (`exists_of_signsIn_cons`), the
white space that trimming takes away divides nothing (`signsIn_append_left`),
and the pieces of the default are the further pieces of the segment, each at
its place (`piecesIn_of_signsIn_cons`).

An entry of an object pattern is divided at a colon too.  Its divider is the
first sign of either sort, and `exists_dividesAlike` says what that tells about
the pieces.
-/
import CallSignature.Proofs.Nesting.Whole
import CallSignature.Proofs.Segment.Divider
import CallSignature.Proofs.Segment.Padding
import CallSignature.Proofs.Shape.Token

namespace CallSignature

open Segment Unicode

/-! ## The signs of a text -/

/-- The positions of the equals signs that divide a text. -/
def signsIn (t : Text) : List Nat :=
  (t.visits.filter (assignsAt t)).map (·.offset)

theorem assignmentCuts_of_orderly {t : Text} (h : Orderly t) :
    assignmentCuts t = .ok (signsIn t) := by
  rw [assignmentCuts, scan_of_orderly h]
  rfl

/-- What stands in front of a text matters to its signs only if it begins with
an equals sign. -/
theorem assignsAt_behind {a b : Text} {v : Visit} (hv : v ∈ b.visits)
    (h : b.head? = some '=' → a.getLast?.any beginsOperator = false) :
    assignsAt (a ++ b) (v.lifted a.width 0) = assignsAt b v := by
  rw [assignsAt, assignsAt, isTopLevel_lifted_zero]
  cases heq : v.isTopLevel '=' with
  | false => rfl
  | true =>
    obtain ⟨front, back, rfl, hoffset, -⟩ := exists_of_mem_visits hv
    have hchar : v.char = '=' := (isTopLevel_iff.1 heq).2
    rw [hchar] at h ⊢
    rw [Visit.offset_lifted, hoffset, Nat.add_comm, ← Text.width_append, ← List.append_assoc,
      assigns_append, assigns_append, List.getLast?_append]
    cases hlast : front.getLast? with
    | some c => rfl
    | none =>
      obtain rfl := List.getLast?_eq_none_iff.1 hlast
      rw [Option.none_or, h rfl]
      rfl

/-- The visits to the signs of a text are those to its signs by itself. -/
theorem filter_assignsAt_lifted {a b : Text}
    (h : b.head? = some '=' → a.getLast?.any beginsOperator = false) :
    ((b.visits.map (Visit.lifted a.width 0)).filter (assignsAt (a ++ b))).map (·.offset)
      = (signsIn b).map (· + a.width) := by
  have hsame :
      ∀ v ∈ b.visits, (assignsAt (a ++ b) ∘ Visit.lifted a.width 0) v = assignsAt b v :=
    fun v hv => assignsAt_behind hv h
  rw [List.filter_map, List.filter_congr hsame, List.map_map, signsIn, List.map_map]
  rfl

/-- The first sign of an orderly text, and the signs behind it. -/
theorem exists_of_signsIn_cons {t : Text} (h : Orderly t) {first : Nat} {others : List Nat}
    (hsigns : signsIn t = first :: others) :
    ∃ a b, t = a ++ '=' :: b ∧ Orderly a ∧ Orderly b ∧ first = a.width ∧
      others = (signsIn b).map (· + (a.width + 1)) := by
  obtain ⟨v, rest, hfilter, rfl, rfl⟩ := List.map_eq_cons_iff.1 hsigns
  obtain ⟨before, behind, hvisits, hbefore, hv, rfl⟩ := List.filter_eq_cons_iff.1 hfilter
  obtain ⟨htop, hassigns⟩ := Bool.and_eq_true_iff.1 hv
  obtain ⟨hdepth, hchar⟩ := isTopLevel_iff.1 htop
  have hplain : isPlain '=' = true := by decide
  obtain ⟨a, b, ht, hoffset, ha, hb, rfl⟩ := h.cut hvisits hdepth (hchar ▸ hplain)
  rw [hchar] at ht
  refine ⟨a, b, ht, ha, hb, hoffset, ?_⟩
  have hsign : Text.width (a ++ ['=']) = a.width + 1 := Text.width_append a ['=']
  have htext : t = (a ++ ['=']) ++ b := by simp [ht]
  -- the visits behind the sign are those of the text behind it
  have hbehind : behind = (Text.visits b).map (Visit.lifted (a.width + 1) 0) := by
    rw [htext, visits_append (ha.append (orderly_singleton hplain).1) hb,
      visits_append ha (orderly_singleton hplain).1, (orderly_singleton hplain).2, hsign,
      List.append_assoc] at hvisits
    exact (List.cons.inj (List.append_cancel_left hvisits)).2.symm
  have hnext : b.head? = some '=' → (a ++ ['=']).getLast?.any beginsOperator = false := by
    intro hhead
    rw [ht, hoffset, assigns_append, hhead] at hassigns
    simp [continuesOperator] at hassigns
  rw [hbehind, htext, ← hsign]
  exact filter_assignsAt_lifted hnext

/-- White space in front of a text has no sign. -/
theorem signsIn_append_left {l d : Text} (hl : l.isBlank = true) (hd : Orderly d) :
    signsIn (l ++ d) = (signsIn d).map (· + l.width) := by
  have hspace : ∀ c ∈ l, isWhiteSpace c = true := Text.isBlank_iff.1 hl
  have hblank : l.visits.filter (assignsAt (l ++ d)) = [] := by
    refine List.filter_eq_nil_iff.2 fun v hv hassigns => ?_
    obtain ⟨a, b, heq, -, -⟩ := exists_of_mem_visits hv
    have hchar := (isTopLevel_iff.1 (Bool.and_eq_true_iff.1 hassigns).1).2
    exact absurd (hspace '=' (by simp [heq, hchar])) (by decide)
  have hlast : l.getLast?.any beginsOperator = false := by
    cases hc : l.getLast? with
    | none => rfl
    | some c =>
      have hc := hspace c (List.mem_of_getLast? hc)
      simp only [Option.any_some, beginsOperator, Bool.or_eq_false_iff, beq_eq_false_iff_ne]
      refine ⟨⟨⟨?_, ?_⟩, ?_⟩, ?_⟩ <;> rintro rfl <;> exact absurd hc (by decide)
  rw [signsIn, visits_append (orderly_of_isBlank hl) hd, List.filter_append, hblank,
    List.nil_append]
  exact filter_assignsAt_lifted fun _ => hlast

/-- What an orderly segment binds, and its default: the whole segment if it
has no sign, and otherwise what stands on both sides of the first one. -/
theorem bindingAndDefault_cases {s : Segment} (h : Orderly s.text) :
    (signsIn s.text = [] ∧ s.bindingAndDefault = .ok (s, none)) ∨
      ∃ a b, s.text = a ++ '=' :: b ∧ Orderly a ∧ Orderly b ∧
        signsIn s.text = a.width :: (signsIn b).map (· + (a.width + 1)) ∧
        s.bindingAndDefault
          = .ok (.trimmed a s.offset, some (.trimmed b (s.offset + a.width + 1))) := by
  obtain ⟨text, offset⟩ := s
  have hcuts := assignmentCuts_of_orderly h
  cases hsigns : signsIn text with
  | nil => exact .inl ⟨rfl, by rw [bindingAndDefault, hcuts, hsigns]; rfl⟩
  | cons cut cuts =>
    obtain ⟨a, b, rfl, ha, hb, rfl, rfl⟩ := exists_of_signsIn_cons h hsigns
    refine .inr ⟨a, b, rfl, ha, hb, rfl, ?_⟩
    have hbinding := Text.slice_append [] a ('=' :: b)
    have hdefault := sliceFrom_sign (show Char.utf8Size '=' = 1 by decide) a b offset
    rw [List.nil_append, Text.width_nil, Nat.zero_add] at hbinding
    rw [bindingAndDefault, hcuts, hsigns]
    show Except.ok (Segment.slice ⟨a ++ '=' :: b, offset⟩ 0 a.width,
      some (Segment.sliceFrom ⟨a ++ '=' :: b, offset⟩ (a.width + 1))) = _
    rw [hdefault, slice, hbinding]
    rfl

/-! ## The pieces between the signs -/

/-- Every orderly text is a row of pieces with its signs between them. -/
theorem exists_signs_joined {t : Text} (h : Orderly t) :
    ∃ p ps, t = joined '=' p ps ∧ signsIn t = cutsOf 0 p ps := by
  -- the induction is on the text behind the first sign
  induction hlen : t.length using Nat.strongRecOn generalizing t with
  | ind n ih =>
    cases hsigns : signsIn t with
    | nil => exact ⟨t, [], rfl, rfl⟩
    | cons first others =>
      obtain ⟨a, b, rfl, -, hb, rfl, rfl⟩ := exists_of_signsIn_cons h hsigns
      obtain ⟨q, ps, rfl, hcuts⟩ := ih b.length (by simp at hlen; omega) hb rfl
      have hshift := cutsOf_add (a.width + 1) 0 q ps
      refine ⟨a, q :: ps, rfl, ?_⟩
      rw [cutsOf, hcuts, Nat.zero_add, ← hshift, Nat.zero_add]

/-- The pieces of a text between its signs, if it stands at byte `offset`. -/
def piecesIn (t : Text) (offset : Nat) : List Segment :=
  Segment.pieces ⟨t, offset⟩ 0 (signsIn t)

theorem assignmentPieces_of_orderly {s : Segment} (h : Orderly s.text) :
    s.assignmentPieces = .ok (piecesIn s.text s.offset) := by
  rw [assignmentPieces, assignmentCuts_of_orderly h]
  rfl

theorem piecesIn_joined {p : Text} {ps : List Text}
    (hsigns : signsIn (joined '=' p ps) = cutsOf 0 p ps) (offset : Nat) :
    piecesIn (joined '=' p ps) offset = placed offset p ps := by
  rw [piecesIn, hsigns]
  exact pieces_joined (c := '=') (by decide) [] p ps offset

/-- The pieces behind the first sign are the pieces of the text behind it. -/
theorem piecesIn_of_signsIn_cons {a b : Text} (hb : Orderly b)
    (hsigns : signsIn (a ++ '=' :: b) = a.width :: (signsIn b).map (· + (a.width + 1)))
    (offset : Nat) : piecesIn (a ++ '=' :: b) offset
      = .trimmed a offset :: piecesIn b (offset + a.width + 1) := by
  obtain ⟨q, ps, rfl, hcuts⟩ := exists_signs_joined hb
  have hshift := cutsOf_add (a.width + 1) 0 q ps
  have hwhole : signsIn (joined '=' a (q :: ps)) = cutsOf 0 a (q :: ps) := by
    rw [joined, hsigns, hcuts, cutsOf, Nat.zero_add, ← hshift, Nat.zero_add]
  rw [piecesIn_joined hcuts]
  exact piecesIn_joined hwhole offset

/-- The pieces of a text are those of the text without the white space in
front of it. -/
theorem piecesIn_append_left {l d : Text} (hl : l.isBlank = true) (hd : Orderly d)
    (offset : Nat) : piecesIn (l ++ d) offset = piecesIn d (offset + l.width) := by
  obtain ⟨q, ps, rfl, hcuts⟩ := exists_signs_joined hd
  have hjoined : l ++ joined '=' q ps = joined '=' (l ++ q) ps := by
    cases ps <;> simp [joined]
  have hwhole : signsIn (joined '=' (l ++ q) ps) = cutsOf 0 (l ++ q) ps := by
    rw [← hjoined, signsIn_append_left hl hd, hcuts, ← cutsOf_add]
    cases ps <;> simp [cutsOf, Nat.add_assoc]
  rw [hjoined, piecesIn_joined hcuts, piecesIn_joined hwhole, placed_append_left hl]

/-- What stands behind the first sign of a trimmed segment, as a segment, has
the pieces behind the first one. -/
theorem assignmentPieces_trimmed {a b : Text} (hb : Orderly b)
    (htrimmed : (a ++ '=' :: b).Trimmed) (offset : Nat) :
    (Segment.trimmed b offset).assignmentPieces = .ok (piecesIn b offset) := by
  rw [← List.singleton_append, ← List.append_assoc] at htrimmed
  obtain ⟨l, hl, heq⟩ := htrimmed.exists_trim_right
  have hsegment := trimmed_append_left hl b.trim offset
  have hpieces := piecesIn_append_left hl hb.trim offset
  rw [← heq] at hsegment hpieces
  rw [hsegment, hpieces, trimmed_of_trimmed (Text.trimmed_trim b)]
  exact assignmentPieces_of_orderly hb.trim

/-- What a trimmed segment binds is its first piece, and the default has the
further pieces. -/
theorem exists_default {s : Segment} (htrimmed : s.text.Trimmed) (h : Orderly s.text) :
    ∃ first rest default?, piecesIn s.text s.offset = first :: rest ∧
      s.bindingAndDefault = .ok (first, default?) ∧ (default? = none ↔ rest = []) ∧
      (rest = [] ↔ signsIn s.text = []) ∧
      ∀ source ∈ default?, source.assignmentPieces = .ok rest := by
  rcases bindingAndDefault_cases h with
    ⟨hsigns, hbinding⟩ | ⟨a, b, ht, -, hb, hsigns, hbinding⟩
  · have hslice := sliceFrom_append [] s.text s.offset
    rw [List.nil_append, trimmed_of_trimmed htrimmed] at hslice
    refine ⟨s, [], none, ?_, hbinding, by simp, by simp [hsigns], by simp⟩
    rw [piecesIn, hsigns]
    exact congrArg (fun s => [s]) hslice
  · have hne : piecesIn b (s.offset + a.width + 1) ≠ [] := pieces_ne_nil _ _ _
    refine ⟨_, piecesIn b (s.offset + a.width + 1), _, ?_, hbinding, by simp [hne],
      by simp [hne, hsigns], by simpa using assignmentPieces_trimmed hb (ht ▸ htrimmed) _⟩
    rw [ht] at hsigns ⊢
    exact piecesIn_of_signsIn_cons hb hsigns s.offset

/-! ## Dividing an entry -/

theorem lacksDivider_iff {t : Text} : LacksDivider t ↔ signsIn t = [] ∧ LacksTop ':' t := by
  simp only [LacksDivider, LacksTop, signsIn, List.map_eq_nil_iff, List.filter_eq_nil_iff,
    separatesAt, Bool.or_eq_false_iff, Bool.not_eq_true]
  constructor
  · intro h
    exact ⟨fun v hv => (h v hv).2, fun v hv => (h v hv).1⟩
  · rintro ⟨hsigns, hcolons⟩ v hv
    exact ⟨hcolons v hv, hsigns v hv⟩

/-- The divider of an entry is the first of its signs and colons. -/
theorem signsIn_of_find? {t : Text} (h : Orderly t) {v : Visit}
    (hfind : t.visits.find? (separatesAt t) = some v) :
    (v.char = '=' → (signsIn t).head? = some v.offset) ∧
      (v.char = ':' → ∀ sign ∈ signsIn t, v.offset < sign) := by
  obtain ⟨hv, before, behind, hvisits, hbefore⟩ := List.find?_eq_some_iff_append.1 hfind
  have hnone : ∀ w ∈ before, ¬ assignsAt t w = true := fun w hw hassigns => by
    have := hbefore w hw
    simp [separatesAt, hassigns] at this
  constructor
  · intro hchar
    have hassigns : assignsAt t v = true := by
      obtain ⟨hdepth, hcolon | ⟨-, hassigns⟩⟩ := eq_of_separatesAt hv
      · exact absurd (hchar.symm.trans hcolon) (by decide)
      · rw [assignsAt, isTopLevel_iff.2 ⟨hdepth, hchar⟩, hassigns]
        rfl
    rw [signsIn, List.head?_map, List.head?_filter, hvisits, List.find?_append,
      List.find?_eq_none.2 hnone, List.find?_cons_of_pos hassigns]
    rfl
  · intro hchar sign hsign
    obtain ⟨w, hw, rfl⟩ := List.mem_map.1 hsign
    obtain ⟨hmem, hassigns⟩ := List.mem_filter.1 hw
    have hsorted := pairwise_visits h
    rw [hvisits] at hmem hsorted
    rcases List.mem_append.1 hmem with hmem | hmem
    · exact absurd hassigns (hnone w hmem)
    · rcases List.mem_cons.1 hmem with rfl | hmem
      · have hequals := (isTopLevel_iff.1 (Bool.and_eq_true_iff.1 hassigns).1).2
        exact absurd (hchar.symm.trans hequals) (by decide)
      · exact (List.pairwise_cons.1 (List.pairwise_append.1 hsorted).2.1).1 w hmem

/-! ## Three ways to divide -/

/-- The three ways to divide a segment tell the same: the pieces between the
`cuts` of its text, what it binds and its default, and the first sign that
divides it as an entry. -/
structure DividesAlike (s : Segment) (cuts : List Nat) (first : Segment) (rest : List Segment)
    (default? : Option Segment) (found : Option (Nat × Char)) : Prop where
  cuts_eq : assignmentCuts s.text = .ok cuts
  pieces_eq : s.pieces 0 cuts = first :: rest
  assignmentPieces_eq : s.assignmentPieces = .ok (first :: rest)
  /-- What is bound is the first piece. -/
  binding_eq : s.bindingAndDefault = .ok (first, default?)
  default_eq_none_iff : default? = none ↔ rest = []
  /-- The pieces of the default by itself are the further pieces. -/
  default_pieces : ∀ source ∈ default?, source.assignmentPieces = .ok rest
  divider_eq : s.divider = .ok found
  divider_sign : ∀ place, found = some (place, '=') → cuts.head? = some place
  divider_colon : ∀ place, found = some (place, ':') → ∀ cut ∈ cuts, place < cut
  divider_eq_none_iff : found = none ↔ rest = [] ∧ LacksTop ':' s.text

/-- The pieces of a trimmed and orderly segment, its default and its divider
agree. -/
theorem exists_dividesAlike {s : Segment} (htrimmed : s.text.Trimmed) (h : Orderly s.text) :
    ∃ cuts first rest default? found, DividesAlike s cuts first rest default? found := by
  obtain ⟨first, rest, default?, hpieces, hbinding, hdefault, hrest, hagain⟩ :=
    exists_default htrimmed h
  have hfind : ∀ place sign, ((s.text.visits.find? (separatesAt s.text)).map fun v =>
      (v.offset, v.char)) = some (place, sign) →
      (sign = '=' → (signsIn s.text).head? = some place) ∧
        (sign = ':' → ∀ cut ∈ signsIn s.text, place < cut) := by
    intro place sign hfound
    obtain ⟨v, hv, heq⟩ := Option.map_eq_some_iff.1 hfound
    obtain ⟨rfl, rfl⟩ := Prod.mk.inj heq
    exact signsIn_of_find? h hv
  exact ⟨signsIn s.text, first, rest, default?, _, {
    cuts_eq := assignmentCuts_of_orderly h
    pieces_eq := hpieces
    assignmentPieces_eq := by rw [assignmentPieces_of_orderly h, hpieces]
    binding_eq := hbinding
    default_eq_none_iff := hdefault
    default_pieces := hagain
    divider_eq := divider_of_orderly h
    divider_sign := fun place hfound => (hfind place _ hfound).1 rfl
    divider_colon := fun place hfound => (hfind place _ hfound).2 rfl
    divider_eq_none_iff := by
      rw [hrest, ← lacksDivider_iff, Option.map_eq_none_iff, List.find?_eq_none]
      simp only [Bool.not_eq_true]
      rfl }⟩

/-- A chain of defaults with an empty piece, an arrow and a wide space. -/
def chainedDefaults : Segment :=
  ⟨"a =\u3000= b => c == d=e".toList, 4⟩

theorem exists_dividesAlike_chainedDefaults :
    chainedDefaults.text.Trimmed ∧ Orderly chainedDefaults.text ∧
      chainedDefaults.assignmentPieces = .ok [⟨['a'], 4⟩, ⟨[], 10⟩,
        ⟨"b => c == d".toList, 12⟩, ⟨['e'], 24⟩] ∧
      ∃ cuts first rest default? found,
        DividesAlike chainedDefaults cuts first rest default? found :=
  have htrimmed : chainedDefaults.text.Trimmed := by decide
  have horderly : Orderly chainedDefaults.text := by decide +kernel
  ⟨htrimmed, horderly, by decide +kernel, exists_dividesAlike htrimmed horderly⟩

end CallSignature
