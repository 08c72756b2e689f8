/-
CallSignature.Proofs.Checked.Segments — segments are cut at boundaries.

A segment is cut at its ends and at signs of one byte that its survey visits,
and each of these is a boundary of its text.  A sign is judged by the texts on
both sides of it as soon as it is visited, and so also in a text that turns
out to be broken further on.
-/
import CallSignature.Proofs.Checked.Cuts
import CallSignature.Proofs.Nesting.Whole
import CallSignature.Proofs.Segment.Divider
import CallSignature.Segment.Assignment

namespace CallSignature

open Segment

/-! ## Places of signs -/

/-- The place is that of a character of one byte, so that both its ends are
boundaries. -/
def Text.IsSignAt (t : Text) (place : Nat) : Prop :=
  t.IsBoundary place ∧ t.IsBoundary (place + 1)

theorem isSignAt_append {c : Char} (hc : c.utf8Size = 1) (a b : Text) :
    Text.IsSignAt (a ++ c :: b) a.width :=
  ⟨⟨a, c :: b, rfl, rfl⟩, ⟨a ++ [c], b, by simp, by simp [hc]⟩⟩

theorem isSignAt_of_mem_visits {t : Text} {v : Visit} (hv : v ∈ t.visits)
    (hsize : v.char.utf8Size = 1) : t.IsSignAt v.offset := by
  obtain ⟨a, b, ht, hoffset, -⟩ := exists_of_mem_visits hv
  rw [hoffset, ht]
  exact isSignAt_append hsize a b

namespace Checked

/-! ## Parts -/

/-- The part of the segment from byte `first` up to but excluding byte `last`
of its text. -/
def slice (s : Segment) (first last : Nat) : Checked Segment :=
  return trimmed (← cut s.text first last) (s.offset + first)

/-- The part of the segment from byte `first` of its text on. -/
def sliceFrom (s : Segment) (first : Nat) : Checked Segment :=
  slice s first s.text.width

/-- The part of the segment between its first and its last byte. -/
def interior (s : Segment) : Checked Segment :=
  slice s 1 (s.text.width - 1)

/-- The pieces of the segment from byte `first` of its text on, cut at signs
that stand at these places. -/
def pieces (s : Segment) (first : Nat) : List Nat → Checked (List Segment)
  | [] => return [← sliceFrom s first]
  | place :: places => return (← slice s first place) :: (← pieces s (place + 1) places)

section

variable {s : Segment} {first last : Nat}

theorem slice_eq (hle : first ≤ last) (hfirst : s.text.IsBoundary first)
    (hlast : s.text.IsBoundary last) : slice s first last = pure (s.slice first last) := by
  rw [slice, cut_of_isBoundary hle hfirst hlast]
  rfl

theorem sliceFrom_eq (h : s.text.IsBoundary first) :
    sliceFrom s first = pure (s.sliceFrom first) :=
  slice_eq h.le_width h (Text.isBoundary_width s.text)

theorem pieces_eq {places : List Nat} (hfirst : s.text.IsBoundary first)
    (hle : ∀ place ∈ places, first ≤ place) (hordered : places.Pairwise (· < ·))
    (hsigns : ∀ place ∈ places, s.text.IsSignAt place) :
    pieces s first places = pure (s.pieces first places) := by
  induction places generalizing first with
  | nil =>
    rw [pieces, sliceFrom_eq hfirst]
    rfl
  | cons place places ih =>
    obtain ⟨hsign, hsigns⟩ := List.forall_mem_cons.1 hsigns
    obtain ⟨hless, hordered⟩ := List.pairwise_cons.1 hordered
    rw [pieces, slice_eq (hle place (by simp)) hfirst hsign.1,
      ih hsign.2 hless hordered hsigns]
    rfl

end

/-! ## Elements -/

/-- The elements of a list, which commas separate. -/
def elements (list : Segment) : Checked (List Segment) :=
  if list.text.isBlank then return []
  else do
    let cuts ← of (shiftFault list.offset (commas list.text))
    return withoutTrailing (← pieces list 0 cuts)

theorem elements_eq (list : Segment) : elements list = of list.elements := by
  unfold elements Segment.elements
  split
  · rfl
  · cases hcommas : commas list.text with
    | error fault => rfl
    | ok cuts =>
      obtain ⟨visits, hscan, rfl⟩ := map_eq_ok hcommas
      have horderly : Orderly list.text := ⟨visits, hscan⟩
      obtain rfl := eq_visits_of_scan hscan
      have hpieces := @pieces_eq list 0 _ (Text.isBoundary_zero _) (fun _ _ => Nat.zero_le _)
        (pairwise_places horderly (·.isTopLevel ',')) fun place hplace => by
          obtain ⟨v, hv, rfl⟩ := List.mem_map.1 hplace
          obtain ⟨hmem, htop⟩ := List.mem_filter.1 hv
          exact isSignAt_of_mem_visits hmem (by rw [(isTopLevel_iff.1 htop).2]; rfl)
      show (pieces list 0 _ >>= _) = _
      rw [hpieces]
      rfl

/-! ## Signs -/

/-- Whether the equals sign at this byte assigns. -/
def assigns (t : Text) (offset : Nat) : Checked Bool := do
  let before ← cut t 0 offset
  let behind ← cut t (offset + 1) t.width
  return !before.getLast?.any beginsOperator && !behind.head?.any continuesOperator

/-- Whether the visit is to an equals sign outside groups that assigns. -/
def assignsAt (t : Text) (v : Visit) : Checked Bool :=
  if v.isTopLevel '=' then assigns t v.offset else return false

/-- Whether the visit is to a sign that divides an entry of an object pattern. -/
def separatesAt (t : Text) (v : Visit) : Checked Bool :=
  if v.isTopLevel ':' then return true else assignsAt t v

/-- The visits for which `judge` holds, all of which are judged. -/
def filterVisits (judge : Visit → Checked Bool) (visits : List Visit) :
    Checked (List Visit) := do
  let judged ← visits.mapM fun v => return (v, ← judge v)
  return (judged.filter (·.2)).map (·.1)

/-- The first visit for which `judge` holds.  No visit behind it is judged. -/
def findVisit (judge : Visit → Checked Bool) : List Visit → Checked (Option Visit)
  | [] => return none
  | v :: visits => do if ← judge v then return some v else findVisit judge visits

section

variable {t : Text} {judge : Visit → Checked Bool} {p : Visit → Bool} {visits : List Visit}

theorem assigns_append (a b : Text) :
    assigns (a ++ '=' :: b) a.width = pure (Segment.assigns (a ++ '=' :: b) a.width) := by
  have hbehind : cut (a ++ '=' :: b) (a.width + 1) (Text.width (a ++ '=' :: b)) = pure b :=
    cut_to_end (a := a ++ ['=']) (by simp) (by simp [show Char.utf8Size '=' = 1 from rfl])
  rw [assigns, cut_from_start rfl rfl, hbehind, CallSignature.assigns_append]
  rfl

theorem assignsAt_eq {v : Visit} (hv : v ∈ t.visits) :
    assignsAt t v = pure (Segment.assignsAt t v) := by
  unfold assignsAt Segment.assignsAt
  cases htop : v.isTopLevel '=' with
  | false => rfl
  | true =>
    obtain ⟨a, b, ht, hoffset, -⟩ := exists_of_mem_visits hv
    rw [(isTopLevel_iff.1 htop).2] at ht
    rw [if_pos rfl, hoffset, ht, assigns_append, Bool.true_and]

theorem separatesAt_eq {v : Visit} (hv : v ∈ t.visits) :
    separatesAt t v = pure (Segment.separatesAt t v) := by
  unfold separatesAt Segment.separatesAt
  cases v.isTopLevel ':' with
  | true => rfl
  | false => exact assignsAt_eq hv

theorem filterVisits_eq (h : ∀ v ∈ visits, judge v = pure (p v)) :
    filterVisits judge visits = pure (visits.filter p) := by
  have hjudged : visits.mapM (fun v => return (v, ← judge v))
      = (pure (visits.map fun v => (v, p v)) : Checked _) :=
    mapM_pure fun v hv => by
      rw [h v hv]
      rfl
  have hfilter :
      ((visits.map fun v => (v, p v)).filter (·.2)).map (·.1) = visits.filter p := by
    rw [List.filter_map, List.map_map]
    exact List.map_id _
  rw [filterVisits, hjudged, ← hfilter]
  rfl

theorem findVisit_eq (h : ∀ v ∈ visits, judge v = pure (p v)) :
    findVisit judge visits = pure (visits.find? p) := by
  induction visits with
  | nil => rfl
  | cons v visits ih =>
    obtain ⟨hv, hvisits⟩ := List.forall_mem_cons.1 h
    rw [findVisit, hv, ih hvisits, List.find?_cons]
    cases p v <;> rfl

end

/-! ## Assignments -/

/-- The positions of the equals signs that divide a text. -/
def assignmentCuts (t : Text) : Checked (List Nat) := do
  let signs ← filterVisits (assignsAt t) t.visits
  of ((scan t).map fun _ => signs.map (·.offset))

/-- All pieces of the segment between its equals signs. -/
def assignmentPieces (s : Segment) : Checked (List Segment) := do
  pieces s 0 (← shift s.offset (assignmentCuts s.text))

/-- What the segment binds, and the default for it, if there is one. -/
def bindingAndDefault (s : Segment) : Checked (Segment × Option Segment) := do
  match ← shift s.offset (assignmentCuts s.text) with
  | [] => return (s, none)
  | place :: _ => return (← slice s 0 place, some (← sliceFrom s (place + 1)))

/-- The first sign that divides an entry of an object pattern, and its
position in the text of the entry. -/
def divider (entry : Segment) : Checked (Option (Nat × Char)) :=
  shift entry.offset do
    match ← findVisit (separatesAt entry.text) entry.text.visits with
    | some v => return some (v.offset, v.char)
    | none => of ((scan entry.text).map fun _ => none)

section

variable {s : Segment}

theorem assignmentCuts_eq (t : Text) : assignmentCuts t = of (Segment.assignmentCuts t) := by
  rw [assignmentCuts, filterVisits_eq (p := Segment.assignsAt t) fun v hv => assignsAt_eq hv,
    Segment.assignmentCuts]
  show of _ = of _
  cases hscan : scan t with
  | error fault => rfl
  | ok visits =>
    rw [eq_visits_of_scan hscan]
    rfl

/-- The equals signs that divide a text are signs of it. -/
theorem isSignAt_of_assignmentCuts {t : Text} {places : List Nat}
    (h : Segment.assignmentCuts t = .ok places) :
    places.Pairwise (· < ·) ∧ ∀ place ∈ places, t.IsSignAt place := by
  obtain ⟨visits, hscan, rfl⟩ := map_eq_ok h
  rw [eq_visits_of_scan hscan]
  refine ⟨pairwise_places ⟨visits, hscan⟩ _, fun place hplace => ?_⟩
  obtain ⟨v, hv, rfl⟩ := List.mem_map.1 hplace
  obtain ⟨hmem, hassigns⟩ := List.mem_filter.1 hv
  have htop : v.isTopLevel '=' = true := (Bool.and_eq_true_iff.1 hassigns).1
  exact isSignAt_of_mem_visits hmem (by rw [(isTopLevel_iff.1 htop).2]; rfl)

/-- No description asks for all the pieces, but they too are cut at boundaries. -/
theorem assignmentPieces_eq (s : Segment) : assignmentPieces s = of s.assignmentPieces := by
  rw [assignmentPieces, assignmentCuts_eq, shift_of, Segment.assignmentPieces]
  cases hcuts : Segment.assignmentCuts s.text with
  | error fault => rfl
  | ok places =>
    obtain ⟨hordered, hsigns⟩ := isSignAt_of_assignmentCuts hcuts
    exact pieces_eq (Text.isBoundary_zero _) (fun _ _ => Nat.zero_le _) hordered hsigns

theorem bindingAndDefault_eq (s : Segment) : bindingAndDefault s = of s.bindingAndDefault := by
  rw [bindingAndDefault, assignmentCuts_eq, shift_of, Segment.bindingAndDefault]
  cases hcuts : Segment.assignmentCuts s.text with
  | error fault => rfl
  | ok places =>
    cases places with
    | nil => rfl
    | cons place places =>
      obtain ⟨-, hsigns⟩ := isSignAt_of_assignmentCuts hcuts
      have hsign := hsigns place (by simp)
      show (slice s 0 place >>= fun binding => sliceFrom s (place + 1) >>= _) = _
      rw [slice_eq (Nat.zero_le _) (Text.isBoundary_zero _) hsign.1, sliceFrom_eq hsign.2]
      rfl

theorem divider_eq (s : Segment) : divider s = of s.divider := by
  rw [divider, findVisit_eq (p := Segment.separatesAt s.text) fun v hv => separatesAt_eq hv,
    Segment.divider, ← shift_of]
  refine congrArg (shift s.offset) ?_
  rw [firstVisit, scan, Text.visits]
  rcases survey s.text with ⟨visits, fault⟩
  dsimp only
  cases visits.find? (Segment.separatesAt s.text) with
  | some v => rfl
  | none => cases fault <;> rfl

end

end Checked

end CallSignature
