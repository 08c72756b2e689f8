/-
CallSignature.Proofs.Segment.Elements — lists, cut at their commas.

An orderly text is, in one way, a row of pieces with commas between them, none
of which has a comma outside its literals and groups (`exists_joined`).
Cutting the text at its commas gives these pieces back, trimmed and each at
its place (`elements_joined`).  The two directions together say what an
element of a list is without mention of a byte position.
-/
import CallSignature.Proofs.Nesting.Orderly
import CallSignature.Segment

namespace CallSignature

open Unicode

/-! ## Texts without a character outside their groups -/

/-- The character does not stand outside the literals and groups of the text. -/
def LacksTop (c : Char) (t : Text) : Prop :=
  ∀ v ∈ t.visits, v.isTopLevel c = false

instance (c : Char) (t : Text) : Decidable (LacksTop c t) :=
  inferInstanceAs (Decidable (∀ v ∈ t.visits, v.isTopLevel c = false))

theorem isTopLevel_lifted_zero (base : Nat) (v : Visit) (c : Char) :
    (v.lifted base 0).isTopLevel c = v.isTopLevel c := rfl

theorem lacksTop_append {c : Char} {a b : Text} (ha : Orderly a) (hb : Orderly b) :
    LacksTop c (a ++ b) ↔ LacksTop c a ∧ LacksTop c b := by
  simp only [LacksTop, visits_append ha hb, List.forall_mem_append, List.forall_mem_map,
    isTopLevel_lifted_zero]

theorem lacksTop_cons {c d : Char} {t : Text} (hd : isPlain d = true) (ht : Orderly t) :
    LacksTop c (d :: t) ↔ d ≠ c ∧ LacksTop c t := by
  simp only [LacksTop, visits_cons hd ht, List.forall_mem_cons, List.forall_mem_map,
    isTopLevel_lifted_zero]
  simp [Visit.isTopLevel]

theorem lacksTop_group {c opener closer : Char} (h : closerOf? opener = some closer)
    {inner : Text} (hinner : Orderly inner) (hc : isPlain c = true) :
    LacksTop c (opener :: inner ++ [closer]) := by
  obtain ⟨-, hopener, hcloser⟩ := isPlain_iff.1 hc
  intro v hv
  rw [visits_group h hinner] at hv
  simp only [List.cons_append, List.mem_cons, List.mem_append, List.mem_map, List.not_mem_nil,
    or_false] at hv
  rcases hv with rfl | ⟨w, -, rfl⟩ | rfl
  · have : opener ≠ c := by rintro rfl; rw [h] at hopener; cases hopener
    simpa [Visit.isTopLevel] using this
  · simp [Visit.isTopLevel]
  · have : closer ≠ c := by
      rintro rfl
      rw [isCloser_of_closerOf? h] at hcloser
      cases hcloser
    simpa [Visit.isTopLevel] using this

/-- The first opening bracket outside all groups is found, whatever stands
behind it. -/
theorem find?_opener {opener closer : Char} (h : closerOf? opener = some closer) {a : Text}
    (ha : Orderly a) (hlacks : LacksTop opener a) (b : Text) :
    (a ++ opener :: b).visits.find? (·.isTopLevel opener) = some ⟨a.width, opener, 0⟩ := by
  have hopen : Tracker.Passage {} (0 + a.width) [opener] [⟨a.width, opener, 0⟩]
      ⟨[⟨closer, a.width⟩], .outside⟩ := by
    rw [Nat.zero_add]
    exact Tracker.Passage.singleton (.opener h)
  have hsurvey := surveyFrom_append ((orderly_iff_passage.1 ⟨ha, rfl⟩).append hopen) b
  rw [List.append_assoc] at hsurvey
  have hnone : a.visits.find? (·.isTopLevel opener) = none :=
    List.find?_eq_none.2 fun v hv => by simp [hlacks v hv]
  rw [Text.visits, survey, show a ++ opener :: b = a ++ ([opener] ++ b) from rfl, hsurvey,
    List.append_assoc, List.find?_append, hnone]
  simp [Visit.isTopLevel]

theorem LacksTop.trim {c : Char} {t : Text} (h : LacksTop c t) (ht : Orderly t) :
    LacksTop c t.trim := by
  obtain ⟨l, r, hl, hr, heq⟩ := Text.exists_trim t
  rw [heq] at h
  have hlt := (orderly_of_isBlank hl).append ht.trim
  exact ((lacksTop_append (orderly_of_isBlank hl) ht.trim).1
    ((lacksTop_append hlt (orderly_of_isBlank hr)).1 h).1).2

/-! ## Segments -/

theorem trimmed_of_trimmed {t : Text} (h : t.Trimmed) (offset : Nat) :
    Segment.trimmed t offset = ⟨t, offset⟩ := by
  have hnone : t.takeWhile isWhiteSpace = [] := by
    cases t with
    | nil => rfl
    | cons c t => simp [(Text.trimmed_iff.1 h).1 c rfl]
  rw [Segment.trimmed, hnone, show t.trim = t from h]
  rfl

/-! ## Rows of pieces -/

/-- The pieces with the character between them. -/
def joined (c : Char) (p : Text) : List Text → Text
  | [] => p
  | q :: ps => p ++ c :: joined c q ps

/-- Where the characters between the pieces stand, if the first piece stands
at byte `first`. -/
def cutsOf (first : Nat) (p : Text) : List Text → List Nat
  | [] => []
  | q :: ps => (first + p.width) :: cutsOf (first + p.width + 1) q ps

/-- The pieces as segments, with one byte between any two. -/
def placed (offset : Nat) (p : Text) : List Text → List Segment
  | [] => [.trimmed p offset]
  | q :: ps => .trimmed p offset :: placed (offset + p.width + 1) q ps

theorem cutsOf_add (base first : Nat) (p : Text) (ps : List Text) :
    cutsOf (first + base) p ps = (cutsOf first p ps).map (· + base) := by
  induction ps generalizing first p with
  | nil => rfl
  | cons q ps ih =>
    rw [cutsOf, cutsOf, List.map_cons, ← ih, Nat.add_right_comm first base,
      Nat.add_right_comm (first + p.width) base]

theorem length_placed (offset : Nat) (p : Text) (ps : List Text) :
    (placed offset p ps).length = ps.length + 1 := by
  induction ps generalizing offset p with
  | nil => rfl
  | cons q ps ih => rw [placed, List.length_cons, ih, List.length_cons]

theorem map_text_placed (offset : Nat) (p : Text) (ps : List Text) :
    (placed offset p ps).map (·.text) = (p :: ps).map Text.trim := by
  induction ps generalizing offset p with
  | nil => rfl
  | cons q ps ih => rw [placed, List.map_cons, ih]; rfl

theorem placed_ne_nil (offset : Nat) (p : Text) (ps : List Text) : placed offset p ps ≠ [] :=
  List.ne_nil_of_length_pos (by simp [length_placed])

theorem joined_concat (c : Char) (p : Text) (ps : List Text) (q : Text) :
    joined c p ps ++ c :: q = joined c p (ps ++ [q]) := by
  induction ps generalizing p with
  | nil => rfl
  | cons r ps ih => simp only [joined, List.cons_append, List.append_assoc, ih]

/-- One more piece, whatever it is, stands at a place of its own. -/
theorem placed_concat (offset : Nat) (p : Text) (ps : List Text) :
    ∃ place, ∀ q, placed offset p (ps ++ [q]) = placed offset p ps ++ [.trimmed q place] := by
  induction ps generalizing offset p with
  | nil => exact ⟨_, fun q => rfl⟩
  | cons r ps ih =>
    obtain ⟨place, h⟩ := ih (offset + p.width + 1) r
    exact ⟨place, fun q => by rw [List.cons_append, placed, h, placed, List.cons_append]⟩

/-- Cutting a row at the characters between its pieces gives the pieces. -/
theorem pieces_joined {c : Char} (hc : c.utf8Size = 1) (before p : Text) (ps : List Text)
    (offset : Nat) :
    Segment.pieces ⟨before ++ joined c p ps, offset⟩ before.width (cutsOf before.width p ps)
      = placed (offset + before.width) p ps := by
  induction ps generalizing before p with
  | nil =>
    have hslice := Text.slice_append before p []
    rw [List.append_nil] at hslice
    simp only [cutsOf, Segment.pieces, Segment.sliceFrom, Segment.slice, joined, placed,
      Text.width_append, hslice]
  | cons q ps ih =>
    have hslice := Text.slice_append before p (c :: joined c q ps)
    have hnext := ih (before ++ p ++ [c]) q
    rw [show (before ++ p ++ [c]) ++ joined c q ps = before ++ joined c p (q :: ps) by
      simp [joined]] at hnext
    simp only [Text.width_append, Text.width_cons, Text.width_nil, hc, Nat.add_zero] at hnext
    rw [List.append_assoc] at hslice
    simp only [cutsOf, Segment.pieces, Segment.slice, joined, placed, hslice]
    rw [← Nat.add_assoc] at hnext
    exact congrArg _ (by simpa [joined, Nat.add_assoc] using hnext)

/-! ## Commas -/

theorem isPlain_comma : isPlain ',' = true := by decide

/-- An orderly text without commas outside its literals and groups. -/
def IsPiece (p : Text) : Prop :=
  Orderly p ∧ LacksTop ',' p

theorem isPiece_nil : IsPiece [] :=
  ⟨orderly_nil, by simp [LacksTop]⟩

theorem IsPiece.trim {p : Text} (h : IsPiece p) : IsPiece p.trim :=
  ⟨h.1.trim, h.2.trim h.1⟩

theorem orderly_joined {p : Text} {ps : List Text} (h : ∀ q ∈ p :: ps, IsPiece q) :
    Orderly (joined ',' p ps) := by
  induction ps generalizing p with
  | nil => exact (h p (by simp)).1
  | cons q ps ih =>
    exact (h p (by simp)).1.append
      ((ih fun r hr => h r (List.mem_cons_of_mem _ hr)).cons isPlain_comma)

/-- The positions of the commas outside the literals and groups of a text. -/
def commasIn (t : Text) : List Nat :=
  (t.visits.filter (·.isTopLevel ',')).map (·.offset)

theorem commasIn_append {a b : Text} (ha : Orderly a) (hb : Orderly b) :
    commasIn (a ++ b) = commasIn a ++ (commasIn b).map (· + a.width) := by
  rw [commasIn, visits_append ha hb, List.filter_append, List.map_append, List.filter_map,
    List.map_map, commasIn, commasIn, List.map_map]
  rfl

theorem commasIn_comma {t : Text} (ht : Orderly t) :
    commasIn (',' :: t) = 0 :: (commasIn t).map (· + 1) := by
  rw [commasIn, visits_cons isPlain_comma ht, List.filter_cons_of_pos (by rfl), List.map_cons,
    List.filter_map, List.map_map, commasIn, List.map_map]
  rfl

theorem commasIn_of_lacksTop {t : Text} (h : LacksTop ',' t) : commasIn t = [] := by
  rw [commasIn, List.map_eq_nil_iff, List.filter_eq_nil_iff]
  exact fun v hv => by simp [h v hv]

theorem commasIn_joined {p : Text} {ps : List Text} (h : ∀ q ∈ p :: ps, IsPiece q) :
    commasIn (joined ',' p ps) = cutsOf 0 p ps := by
  induction ps generalizing p with
  | nil => exact commasIn_of_lacksTop (h p (by simp)).2
  | cons q ps ih =>
    have hrest : ∀ r ∈ q :: ps, IsPiece r := fun r hr => h r (List.mem_cons_of_mem _ hr)
    have hjoined := orderly_joined hrest
    have hshift := cutsOf_add (p.width + 1) 0 q ps
    rw [joined, commasIn_append (h p (by simp)).1 (hjoined.cons isPlain_comma),
      commasIn_comma hjoined, commasIn_of_lacksTop (h p (by simp)).2, ih hrest, cutsOf,
      Nat.add_assoc, hshift]
    rw [List.nil_append, List.map_cons, List.map_map]
    refine congrArg _ (List.map_congr_left fun cut _ => ?_)
    simp only [Function.comp_apply]
    omega

/-- Every orderly text is a row of pieces with commas between them. -/
theorem exists_joined {t : Text} (h : Orderly t) :
    ∃ p ps, t = joined ',' p ps ∧ ∀ q ∈ p :: ps, IsPiece q := by
  -- the induction is on the text behind the first comma
  induction hlen : t.length using Nat.strongRecOn generalizing t with
  | ind n ih =>
    cases hfind : t.visits.find? (·.isTopLevel ',') with
    | none =>
      have hlacks : LacksTop ',' t :=
        fun v hv => by simpa using List.find?_eq_none.1 hfind v hv
      exact ⟨t, [], rfl, by simpa using ⟨h, hlacks⟩⟩
    | some v =>
      obtain ⟨hv, before, behind, hvisits, hbefore⟩ := List.find?_eq_some_iff_append.1 hfind
      obtain ⟨hdepth, hchar⟩ := isTopLevel_iff.1 hv
      obtain ⟨a, b, rfl, -, ha, hb, hvis⟩ := h.cut hvisits hdepth (hchar ▸ isPlain_comma)
      obtain ⟨q, ps, rfl, hps⟩ := ih b.length (by simp at hlen; omega) hb rfl
      have hpiece : IsPiece a := ⟨ha, fun w hw => by simpa using hbefore w (hvis ▸ hw)⟩
      exact ⟨a, q :: ps, by rw [hchar, joined],
        fun r hr => (List.mem_cons.1 hr).elim (fun hr => hr ▸ hpiece) (hps r)⟩

/-! ## Elements -/

theorem commas_of_orderly {t : Text} (h : Orderly t) :
    Segment.commas t = .ok (commasIn t) := by
  rw [Segment.commas, scan_of_orderly h]
  rfl

theorem withoutTrailing_append_nil {parts : List Segment} (h : parts ≠ []) (place : Nat) :
    Segment.withoutTrailing (parts ++ [⟨[], place⟩]) = parts := by
  have : 0 < parts.length := List.length_pos_iff.2 h
  rw [Segment.withoutTrailing, if_pos ⟨by simp; omega, by simp [Segment.isEmpty]⟩,
    List.dropLast_concat]

theorem withoutTrailing_eq_self {parts : List Segment}
    (h : (parts.map (·.text)).getLast? ≠ some []) : Segment.withoutTrailing parts = parts := by
  rw [Segment.withoutTrailing, if_neg]
  rintro ⟨-, hlast⟩
  rw [List.getLast?_map] at h
  cases hs : parts.getLast? with
  | none => rw [hs] at hlast; cases hlast
  | some s =>
    rw [hs] at h hlast
    have hempty : s.text = [] := by simpa [Segment.isEmpty] using hlast
    simp [hempty] at h

/-- The elements of a row of pieces are the pieces. -/
theorem elements_joined {p : Text} {ps : List Text} (h : ∀ q ∈ p :: ps, IsPiece q)
    (hblank : (joined ',' p ps).isBlank = false) (offset : Nat) :
    Segment.elements ⟨joined ',' p ps, offset⟩
      = .ok (Segment.withoutTrailing (placed offset p ps)) := by
  have hpieces := pieces_joined (c := ',') (by decide) [] p ps offset
  rw [List.nil_append, Text.width_nil, Nat.add_zero] at hpieces
  rw [Segment.elements, hblank, if_neg Bool.false_ne_true,
    commas_of_orderly (orderly_joined h), commasIn_joined h]
  simp only [Except.map, shiftFault, hpieces]

/-- An orderly list has elements. -/
theorem exists_elements {list : Segment} (h : Orderly list.text) :
    ∃ parts, list.elements = .ok parts := by
  unfold Segment.elements
  split
  · exact ⟨[], rfl⟩
  · rw [commas_of_orderly h]
    exact ⟨_, rfl⟩

theorem orderly_of_elements {list : Segment} {parts : List Segment}
    (h : list.elements = .ok parts) : Orderly list.text := by
  unfold Segment.elements at h
  split at h
  · exact orderly_of_isBlank ‹_›
  · unfold Segment.commas at h
    cases hscan : scan list.text with
    | error fault => rw [hscan] at h; cases h
    | ok visits => exact ⟨visits, hscan⟩

/-- The elements of any list that has some are those of its row of pieces. -/
theorem elements_eq_ok {list : Segment} {parts : List Segment}
    (h : list.elements = .ok parts) :
    parts = [] ∨ ∃ p ps, list.text = joined ',' p ps ∧ (∀ q ∈ p :: ps, IsPiece q) ∧
      parts = Segment.withoutTrailing (placed list.offset p ps) := by
  obtain ⟨text, offset⟩ := list
  cases hblank : text.isBlank with
  | true =>
    rw [Segment.elements, if_pos hblank] at h
    exact .inl (Except.ok.inj h).symm
  | false =>
    obtain ⟨p, ps, rfl, hps⟩ := exists_joined (orderly_of_elements h)
    rw [elements_joined hps hblank] at h
    exact .inr ⟨p, ps, rfl, hps, (Except.ok.inj h).symm⟩

theorem mem_of_mem_withoutTrailing {parts : List Segment} {s : Segment}
    (h : s ∈ Segment.withoutTrailing parts) : s ∈ parts := by
  unfold Segment.withoutTrailing at h
  split at h
  · exact (List.dropLast_sublist _).subset h
  · exact h

/-- An element is trimmed, orderly, and without a comma of its own. -/
theorem isPiece_of_mem_elements {list : Segment} {parts : List Segment}
    (h : list.elements = .ok parts) {s : Segment} (hs : s ∈ parts) :
    s.text.Trimmed ∧ IsPiece s.text := by
  rcases elements_eq_ok h with rfl | ⟨p, ps, -, hps, rfl⟩
  · cases hs
  · have hmem := List.mem_map_of_mem (f := Segment.text) (mem_of_mem_withoutTrailing hs)
    rw [map_text_placed] at hmem
    obtain ⟨q, hq, heq⟩ := List.mem_map.1 hmem
    rw [← heq]
    exact ⟨Text.trimmed_trim q, (hps q hq).trim⟩

end CallSignature
