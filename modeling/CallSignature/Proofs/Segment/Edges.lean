/-
CallSignature.Proofs.Segment.Edges — the edges of a segment in its source.

A part of a segment begins and ends where no white space is cut in two, and so
each of its edges is an edge of the segment (`IsPartOf`).  This holds of
everything that a segment is cut into: its elements, what it binds, its
default, its interior, what stands behind three dots.

The fault of a segment that cannot be cut lies at an edge too (`LiesIn`), for
it is reported at a bracket or a quote.
-/
import CallSignature.Proofs.Nesting.Breaks
import CallSignature.Proofs.Segment.Moved
import CallSignature.Proofs.Segment.Signs

namespace CallSignature

open Unicode

namespace Segment

/-- The place in the source is at an edge of the segment. -/
def HasEdge (s : Segment) (place : Nat) : Prop :=
  ∃ inner, place = s.offset + inner ∧ s.text.IsEdge inner

/-- Every edge of the one segment is an edge of the other. -/
def IsPartOf (p s : Segment) : Prop :=
  ∀ place, p.HasEdge place → s.HasEdge place

variable {p q s : Segment} {a m b : Text}

theorem hasEdge_offset (s : Segment) : s.HasEdge s.offset :=
  ⟨0, rfl, Text.isEdge_zero s.text⟩

theorem IsPartOf.refl (s : Segment) : s.IsPartOf s :=
  fun _ h => h

theorem IsPartOf.trans (h : p.IsPartOf q) (k : q.IsPartOf s) : p.IsPartOf s :=
  fun place hplace => k place (h place hplace)

/-- A part of a text, trimmed, ends where the part ends or before. -/
theorem trimmed_isPartOf (hs : s.text = a ++ m ++ b)
    (hend : s.text.IsEdge (Text.width (a ++ m))) :
    (trimmed m (s.offset + a.width)).IsPartOf s := by
  rintro place ⟨inner, rfl, hinner⟩
  cases hblank : m.isBlank with
  | true =>
    -- a blank part is an empty segment at its end
    have htrim := trimmed_append_left hblank [] (s.offset + a.width)
    rw [List.append_nil, trimmed_of_trimmed Text.trimmed_nil] at htrim
    rw [htrim] at hinner ⊢
    obtain rfl := Text.isEdge_nil.1 hinner
    exact ⟨Text.width (a ++ m), by simp [Nat.add_assoc], hend⟩
  | false =>
    obtain ⟨l, r, hl, hr, heq⟩ := Text.exists_trim m
    have hne : m.trim ≠ [] := fun hnil => by
      rw [Text.isBlank_of_trim_eq_nil hnil] at hblank
      cases hblank
    have hcore := trimmed_padded hl (Text.trimmed_trim m) hne hr (s.offset + a.width)
    rw [← heq] at hcore
    rw [hcore] at hinner ⊢
    refine ⟨Text.width (a ++ l) + inner, by simp [Nat.add_assoc], ?_⟩
    have hedge := (Text.trimmed_trim m).isEdge_append hne hinner (a ++ l) (r ++ b)
    have htext : s.text = a ++ l ++ m.trim ++ (r ++ b) := by
      calc s.text = a ++ (l ++ m.trim ++ r) ++ b := by rw [← heq, hs]
        _ = a ++ l ++ m.trim ++ (r ++ b) := by simp only [List.append_assoc]
    rwa [← htext] at hedge

/-- What stands in front of a visible character. -/
theorem trimmed_isPartOf_before {c : Char} (hs : s.text = a ++ m ++ c :: b)
    (hc : isWhiteSpace c = false) : (trimmed m (s.offset + a.width)).IsPartOf s :=
  trimmed_isPartOf hs (hs ▸ Text.isEdge_before (a ++ m) hc b)

/-- What stands at the end of the segment. -/
theorem trimmed_isPartOf_last (hs : s.text = a ++ m) :
    (trimmed m (s.offset + a.width)).IsPartOf s :=
  trimmed_isPartOf (b := []) (by rw [hs, List.append_nil]) (hs ▸ Text.isEdge_width (a ++ m))

end Segment

/-! ## Faults -/

/-- The fault is told in terms of the segment: it is reported at an edge, and
it is put down to a group only if it is a bracket that does not match. -/
structure Fault.LiesIn (s : Segment) (fault : Fault) : Prop where
  exists_edge : ∃ place, fault.offset = some place ∧ s.HasEdge place
  mismatch : ∀ openedAt, fault.hint = some (.groupNeverClosed openedAt) →
    ∃ expected found, fault.cause = .closerMismatch expected found

variable {p s : Segment} {fault : Fault}

theorem Fault.LiesIn.mono (h : fault.LiesIn p) (hp : p.IsPartOf s) : fault.LiesIn s := by
  obtain ⟨place, hfault, hplace⟩ := h.exists_edge
  exact ⟨⟨place, hfault, hp place hplace⟩, h.mismatch⟩

/-- A fault that is reported where a part begins. -/
theorem Fault.LiesIn.atOffset (h : fault.offset = some p.offset) (hp : p.IsPartOf s)
    (hhint : ∀ openedAt, fault.hint ≠ some (.groupNeverClosed openedAt)) : fault.LiesIn s :=
  ⟨⟨p.offset, h, hp _ p.hasEdge_offset⟩, fun openedAt h => absurd h (hhint openedAt)⟩

/-- A break of the text, seen from the source. -/
theorem Breaks.liesIn (h : Breaks s.text fault) : (fault.shifted s.offset).LiesIn s where
  exists_edge := by
    obtain ⟨a, c, b, ht, hc, hplace⟩ := h.exists_visible
    refine ⟨a.width + s.offset, by simp [Fault.shifted, hplace], a.width, Nat.add_comm _ _, ?_⟩
    rw [ht]
    exact Text.isEdge_before a hc b
  mismatch _ hhint := h.eq_closerMismatch hhint

/-! ## Cutting a segment -/

namespace Segment

theorem scan_liesIn {α : Type} (s : Segment) (f : List Visit → α) :
    FaultsSatisfy (Fault.LiesIn s) (shiftFault s.offset ((scan s.text).map f)) :=
  ((breaks_of_scan s.text).map f).shiftFault fun _ h => h.liesIn

theorem elements_liesIn (s : Segment) : FaultsSatisfy (Fault.LiesIn s) s.elements := by
  unfold elements commas
  split
  · exact .ok _
  · exact (((breaks_of_scan s.text).map _).map _).shiftFault fun _ h => h.liesIn

theorem bindingAndDefault_liesIn (s : Segment) :
    FaultsSatisfy (Fault.LiesIn s) s.bindingAndDefault :=
  (((breaks_of_scan s.text).map _).map _).shiftFault fun _ h => h.liesIn

theorem assignmentPieces_liesIn (s : Segment) :
    FaultsSatisfy (Fault.LiesIn s) s.assignmentPieces :=
  (((breaks_of_scan s.text).map _).map _).shiftFault fun _ h => h.liesIn

theorem divider_liesIn (s : Segment) : FaultsSatisfy (Fault.LiesIn s) s.divider :=
  ((breaks_of_firstVisit _ s.text).map _).shiftFault fun _ h => h.liesIn

/-- The pieces of a row are parts of whatever the row stands at the end of. -/
theorem isPartOf_of_mem_placed (before : Text) {q : Text} {ps : List Text}
    (hs : s.text = before ++ joined ',' q ps)
    (hp : p ∈ placed (s.offset + before.width) q ps) : p.IsPartOf s := by
  induction ps generalizing before q with
  | nil =>
    obtain rfl := List.mem_singleton.1 hp
    exact trimmed_isPartOf_last hs
  | cons r ps ih =>
    rw [joined, ← List.append_assoc] at hs
    rcases List.mem_cons.1 hp with rfl | hp
    · exact trimmed_isPartOf_before hs (by decide)
    · have hrest : s.text = (before ++ q ++ [',']) ++ joined ',' r ps := by
        rw [hs]
        simp
      refine ih _ hrest ?_
      rw [Text.width_append, Text.width_append, show Text.width [','] = 1 from rfl,
        ← Nat.add_assoc, ← Nat.add_assoc]
      exact hp

theorem isPartOf_of_mem_elements {parts : List Segment} (h : s.elements = .ok parts)
    (hp : p ∈ parts) : p.IsPartOf s := by
  rcases elements_eq_ok h with rfl | ⟨q, ps, htext, -, rfl⟩
  · cases hp
  · exact isPartOf_of_mem_placed [] htext (mem_of_mem_withoutTrailing hp)

/-- What stands on both sides of a sign. -/
theorem isPartOf_of_sign {sign : Char} (hsize : sign.utf8Size = 1)
    (hspace : isWhiteSpace sign = false) {a b : Text} (hs : s.text = a ++ sign :: b) :
    (trimmed a s.offset).IsPartOf s ∧ (trimmed b (s.offset + a.width + 1)).IsPartOf s := by
  constructor
  · exact trimmed_isPartOf_before (a := []) hs hspace
  · have hlast := @trimmed_isPartOf_last s (a ++ [sign]) b (by rw [hs]; simp)
    rwa [Text.width_append, Text.width_cons, Text.width_nil, hsize, ← Nat.add_assoc] at hlast

theorem isPartOf_of_bindingAndDefault {binding : Segment} {default? : Option Segment}
    (h : s.bindingAndDefault = .ok (binding, default?)) :
    binding.IsPartOf s ∧ ∀ source ∈ default?, source.IsPartOf s := by
  have horderly : Orderly s.text := by
    unfold bindingAndDefault assignmentCuts at h
    cases hscan : scan s.text with
    | error fault => rw [hscan] at h; cases h
    | ok visits => exact ⟨visits, hscan⟩
  rcases bindingAndDefault_cases horderly with ⟨-, heq⟩ | ⟨a, b, hs, -, -, -, heq⟩
  · obtain ⟨rfl, rfl⟩ := Prod.mk.inj (Except.ok.inj (heq.symm.trans h))
    exact ⟨.refl _, by simp⟩
  · obtain ⟨rfl, rfl⟩ := Prod.mk.inj (Except.ok.inj (heq.symm.trans h))
    obtain ⟨hbinding, hsource⟩ := isPartOf_of_sign (by decide) (by decide) hs
    exact ⟨hbinding, by simpa using hsource⟩

/-- Where an entry is divided, the sign is visible and what follows it is a
part of the entry. -/
theorem isPartOf_of_divider {offset : Nat} {sign : Char}
    (h : s.divider = .ok (some (offset, sign))) :
    s.HasEdge (s.offset + offset) ∧ (s.sliceFrom (offset + 1)).IsPartOf s := by
  obtain ⟨found, hfirst, hsome⟩ := find?_of_divider h
  cases found with
  | none => cases hsome
  | some v =>
    obtain ⟨rfl, rfl⟩ := Prod.mk.inj (Option.some.inj hsome)
    have hfind := firstVisit_eq_some_iff.1 hfirst
    obtain ⟨a, b, hs, hoffset, -⟩ := exists_of_mem_visits (List.mem_of_find?_eq_some hfind)
    have hsign : v.char.utf8Size = 1 ∧ isWhiteSpace v.char = false := by
      rcases sign_of_divider h with hchar | hchar <;> rw [hchar] <;> decide
    have hslice := sliceFrom_sign hsign.1 a b s.offset
    rw [← hs] at hslice
    rw [hoffset,
      show s.sliceFrom (a.width + 1) = trimmed b (s.offset + a.width + 1) from hslice]
    exact ⟨⟨a.width, rfl, hs ▸ Text.isEdge_before a hsign.2 b⟩,
      (isPartOf_of_sign hsign.1 hsign.2 hs).2⟩

theorem interior_isPartOf {opener : Char} (h : IsGroup opener s.text) :
    s.interior.IsPartOf s := by
  obtain ⟨closer, inner, hopener, -, hs⟩ := h
  have hinterior := interior_group hopener inner s.offset
  rw [← hs] at hinterior
  rw [show s.interior = trimmed inner (s.offset + 1) from hinterior]
  have hbefore := @trimmed_isPartOf_before s [opener] inner [] closer hs
    (isWhiteSpace_of_isCloser (isCloser_of_closerOf? hopener))
  rwa [Text.width_cons, Text.width_nil, utf8Size_of_closerOf? hopener] at hbefore

theorem operand_isPartOf (h : Shape.dots.isPrefixOf s.text = true) :
    (s.sliceFrom 3).IsPartOf s := by
  obtain ⟨operand, hs⟩ := List.isPrefixOf_iff_prefix.1 h
  have hslice := sliceFrom_append Shape.dots operand s.offset
  rw [hs] at hslice
  rw [show s.sliceFrom 3 = trimmed operand (s.offset + 3) from hslice]
  exact trimmed_isPartOf_last (a := Shape.dots) hs.symm

end Segment

end CallSignature
