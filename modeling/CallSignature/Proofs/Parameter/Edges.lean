/-
CallSignature.Proofs.Parameter.Edges — every fault of a parameter has a place.

A reader of segments reports its own faults at an edge of the segment, and
hands parts of the segment to the next level.  So, by induction on the room
that is left, a fault at any level lies at an edge of the token
(`shape_liesIn`), and a fault of a parameter at an edge of the parameter
(`parameter_liesIn`).

A list of parameters may hold comments, but one that holds none is read as it
stands, and then a fault lies at an edge of the list (`parameters_liesIn`).
-/
import CallSignature.Parameter
import CallSignature.Proofs.Segment.Edges

namespace CallSignature

open Segment

/-! ## Tokens -/

theorem tokenClass_liesIn (token : Segment) :
    FaultsSatisfy (Fault.LiesIn token) (tokenClass token) :=
  scan_liesIn token _

/-- The reader reports every fault at an edge of the segment it reads. -/
def FaultsLieIn {α : Type} (read : Segment → Except Fault α) : Prop :=
  ∀ s, FaultsSatisfy (Fault.LiesIn s) (read s)

section

variable {read : Segment → Except Fault Shape} {s : Segment}

theorem ofDivided_liesIn {offset : Nat} {sign : Char}
    (h : s.divider = .ok (some (offset, sign))) :
    FaultsSatisfy (Fault.LiesIn s) (EntryForm.ofDivided s offset sign) := by
  unfold EntryForm.ofDivided
  dsimp only
  split
  · exact .error ⟨⟨_, rfl, (isPartOf_of_divider h).1⟩, nofun⟩
  · exact .ok _

theorem ofSegment_liesIn : FaultsLieIn EntryForm.ofSegment := by
  intro s
  unfold EntryForm.ofSegment
  split
  · exact .error (.atOffset rfl (.refl s) nofun)
  · split
    · split
      · exact .ok _
      · exact .error (.atOffset rfl (.refl s) nofun)
    · split
      · rename_i fault hdivider
        exact .error (divider_liesIn s fault hdivider)
      · exact .ok _
      · rename_i offset sign hdivider
        exact ofDivided_liesIn hdivider

/-- The value of an entry is a part of the entry. -/
theorem isPartOf_of_ofSegment {key : Text} {value : Segment}
    (h : EntryForm.ofSegment s = .ok (.valued key value)) : value.IsPartOf s := by
  unfold EntryForm.ofSegment at h
  split at h
  · cases h
  · split at h
    · split at h <;> cases h
    · split at h
      · cases h
      · cases h
      · rename_i offset sign hdivider
        unfold EntryForm.ofDivided at h
        dsimp only at h
        split at h
        · cases h
        · obtain ⟨-, rfl⟩ := EntryForm.valued.inj (Except.ok.inj h)
          exact (isPartOf_of_divider hdivider).2

/-- What lies in a part of the segment lies in the segment. -/
theorem FaultsLieIn.of_isPartOf {α : Type} {read : Segment → Except Fault α}
    (hread : FaultsLieIn read) {p : Segment} (hp : p.IsPartOf s) :
    FaultsSatisfy (Fault.LiesIn s) (read p) :=
  (hread p).mono fun _ h => h.mono hp

theorem readItem_liesIn (hread : FaultsLieIn read) : FaultsLieIn (readItem read) := by
  intro s
  unfold readItem
  split
  · exact .ok _
  · exact hread s

theorem readEntry_liesIn (hread : FaultsLieIn read) : FaultsLieIn (readEntry read) := by
  intro s
  refine (ofSegment_liesIn s).bind fun form hform => ?_
  cases form with
  | rest key => exact (hread s).bind fun _ _ => .ok _
  | shorthand key => exact .ok _
  | valued key value =>
    refine (hread.of_isPartOf (isPartOf_of_ofSegment hform)).bind fun shape _ => ?_
    dsimp only
    split
    · exact .error (.atOffset rfl (.refl s) nofun)
    · exact .ok _

theorem readSpread_liesIn (hread : FaultsLieIn read)
    (hdots : Shape.dots.isPrefixOf s.text = true) :
    FaultsSatisfy (Fault.LiesIn s) (readSpread read s) := by
  unfold readSpread
  dsimp only
  split
  · exact .error (.atOffset rfl (.refl s) nofun)
  · exact (hread.of_isPartOf (operand_isPartOf hdots)).map _

/-- The members of a list inside a token. -/
theorem mapM_elements_liesIn {α : Type} {read : Segment → Except Fault α}
    (hread : FaultsLieIn read) {list : Segment} (hlist : list.IsPartOf s) :
    FaultsSatisfy (Fault.LiesIn s) (list.elements >>= fun parts => parts.mapM read) :=
  ((elements_liesIn list).mono fun _ h => h.mono hlist).bind fun _ hparts =>
    .mapM fun _ hpart =>
      hread.of_isPartOf ((isPartOf_of_mem_elements hparts hpart).trans hlist)

theorem readToken_liesIn (hread : FaultsLieIn read) : FaultsLieIn (readToken read) := by
  intro s
  refine (tokenClass_liesIn s).bind fun found hfound => ?_
  have hclass := describes_of_tokenClass hfound
  cases found with
  | object =>
    simp only [← bind_assoc]
    exact (mapM_elements_liesIn (readEntry_liesIn hread) (interior_isPartOf hclass)).bind
      fun _ _ => .ok _
  | array =>
    simp only [← bind_assoc]
    exact (mapM_elements_liesIn (readItem_liesIn hread) (interior_isPartOf hclass)).bind
      fun _ _ => .ok _
  | spread => exact readSpread_liesIn hread hclass
  | leaf => exact .ok _

end

theorem shapeWithin_liesIn (limit room : Nat) : FaultsLieIn (shapeWithin limit room) := by
  induction room with
  | zero => exact fun s => .error (.atOffset rfl (.refl s) nofun)
  | succ room ih => exact readToken_liesIn ih

theorem shape_liesIn (options : Options) : FaultsLieIn options.shape :=
  shapeWithin_liesIn _ _

/-! ## Parameters -/

theorem boundName_liesIn (binding : Segment) (shape : Shape) :
    FaultsSatisfy (Fault.LiesIn binding) (boundName binding shape) := by
  unfold boundName
  split
  · split
    · exact .ok _
    · exact .error (.atOffset rfl (.refl binding) nofun)
  · exact .error (.atOffset rfl (.refl binding) nofun)

theorem parameterName_liesIn (binding : Segment) (shape : Shape) :
    FaultsSatisfy (Fault.LiesIn binding) (parameterName binding shape) := by
  unfold parameterName
  split
  · exact .ok _
  · exact .ok _
  · exact .ok _
  · exact .ok _
  · exact boundName_liesIn binding _
  · exact boundName_liesIn binding _

theorem checkParts_liesIn {s binding : Segment} {default? : Option Segment}
    (hbinding : binding.IsPartOf s) (hdefault : ∀ source ∈ default?, source.IsPartOf s) :
    FaultsSatisfy (Fault.LiesIn s) (checkParts binding default?) := by
  unfold checkParts
  split
  · exact .error (.atOffset rfl hbinding nofun)
  · split
    · rename_i missing hmissing
      have hedge := hdefault missing (Option.eq_some_of_filter_eq_some hmissing)
      exact .error (.atOffset rfl hedge nofun)
    · exact .ok _

theorem checkRest_liesIn {s : Segment} {default? : Option Segment} (shape : Shape)
    (hdefault : ∀ source ∈ default?, source.IsPartOf s) :
    FaultsSatisfy (Fault.LiesIn s) (checkRest shape default?) := by
  unfold checkRest
  split
  · exact .error (.atOffset rfl (hdefault _ rfl) nofun)
  · exact .ok _

theorem parameter_liesIn (options : Options) : FaultsLieIn options.parameter := by
  intro s
  refine (bindingAndDefault_liesIn s).bind fun (binding, default?) hparts => ?_
  obtain ⟨hbinding, hdefault⟩ := isPartOf_of_bindingAndDefault hparts
  refine (checkParts_liesIn hbinding hdefault).bind fun _ _ => ?_
  refine ((shape_liesIn options).of_isPartOf hbinding).bind fun shape _ => ?_
  have hname := (parameterName_liesIn binding shape).mono fun _ h => h.mono hbinding
  refine hname.bind fun _ _ => ?_
  exact (checkRest_liesIn shape hdefault).bind fun _ _ => .ok _

/-- A fault of a list without comments lies in the list. -/
theorem parameters_liesIn (options : Options) {list : Text}
    (hclean : withoutComments list = .ok list) :
    FaultsSatisfy (Fault.LiesIn ⟨list, 0⟩) (options.parameters list) := by
  have hwhole : (Segment.ofText list).IsPartOf ⟨list, 0⟩ :=
    @trimmed_isPartOf_last ⟨list, 0⟩ [] list rfl
  rw [Options.parameters, hclean]
  exact mapM_elements_liesIn (parameter_liesIn options) hwhole

end CallSignature
