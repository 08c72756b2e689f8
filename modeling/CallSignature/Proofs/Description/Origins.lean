/-
CallSignature.Proofs.Description.Origins — where the fault of a description
comes from.

There are four origins (`Origin`): a comment that is cut off, the head, a
parameter of the callable's own list, and everything that has no place in the
source, among it all that is found in supertypes.  Each place is one of the
source that was given and not only of the cleaned one (`describe_isBoundary`).

The hint that names a group is not told in these terms: its place stays one in
the part of the source that was scanned (`describe_groupNeverClosed`).
-/
import CallSignature.Description
import CallSignature.Proofs.Comment.Lexing
import CallSignature.Proofs.Head.Faithful
import CallSignature.Proofs.Head.Misread
import CallSignature.Proofs.Parameter.Edges
import CallSignature.Proofs.Supertype.Ascent

namespace CallSignature

open Segment

/-! ## Origins -/

/-- Where a fault of the description of this source comes from. -/
inductive Origin (source : Text) : Fault → Prop
  /-- No place of the source is to blame. -/
  | nowhere {cause : Cause} {hint : Option Hint}
    (hhint : ∀ openedAt, hint ≠ some (.groupNeverClosed openedAt)) :
    Origin source ⟨cause, none, hint⟩
  | comment {place : Nat} (hplace : source.IsBoundary place) :
    Origin source ((Cause.commentUnterminated.located place).withHint .closeComment)
  | head {cleaned : Text} {fault : Fault} (hcleaned : withoutComments source = .ok cleaned)
    (hfault : Misread cleaned fault) : Origin source fault
  /-- A parameter in the list that is the range `raw` of the source. -/
  | parameter {before raw behind list : Text} {fault : Fault}
    (hsource : source = before ++ raw ++ behind) (hraw : withoutComments raw = .ok list)
    (hfault : fault.LiesIn ⟨list, 0⟩) (hstructural : fault.cause.isStructural = false) :
    Origin source (fault.shifted before.width)

/-- A fault is reported at a boundary of the source, if it is at all. -/
theorem Origin.isBoundary {source : Text} {fault : Fault} (h : Origin source fault)
    {place : Nat} (hplace : fault.offset = some place) : source.IsBoundary place := by
  cases h with
  | nowhere => cases hplace
  | comment hboundary =>
    obtain rfl := Option.some.inj hplace
    exact hboundary
  | head hcleaned hfault =>
    obtain ⟨edge, hoffset, hedge⟩ := hfault.exists_edge
    obtain rfl := Option.some.inj (hoffset.symm.trans hplace)
    exact isBoundary_of_isEdge hcleaned hedge
  | @parameter before raw behind list fault hsource hraw hfault =>
    obtain ⟨edge, hoffset, inner, rfl, hedge⟩ := hfault.exists_edge
    have hshifted : (fault.shifted before.width).offset = some (before.width + inner) := by
      simp [Fault.shifted, hoffset, Nat.add_comm]
    obtain rfl := Option.some.inj (hshifted.symm.trans hplace)
    rw [hsource]
    exact (isBoundary_of_isEdge hraw hedge).append before behind

/-! ## Supertypes -/

section

variable {options : Options} {registry : Registry} {source : Text} {start : ClassHead}

/-- Where the walk of a class ends. -/
theorem exists_ending_ascend (registry : Registry) (limit : Nat) (start : ClassHead) :
    ∃ references last, Climb registry (.ofClass start) references last ∧
      Ending registry start.name limit references last
        (ascend registry limit start).outcome := by
  have hstart : Passable start.name limit [] := ⟨Nat.zero_le _, List.nodup_nil, by simp⟩
  obtain ⟨references, last, hclimb, -, hending⟩ :=
    exists_ending registry (.ofClass start) (onTheWay_start start.name limit) hstart
  exact ⟨references, last, hclimb, hending⟩

/-- A fault on the walk has no place, for it would be one in another source. -/
theorem ascend_origin (registry : Registry) (limit : Nat) (start : ClassHead) :
    FaultsSatisfy (fun fault => fault.offset = none ∧ Origin source fault)
      (ascend registry limit start).outcome := by
  obtain ⟨references, last, -, hending⟩ := exists_ending_ascend registry limit start
  intro fault hfault
  rw [hfault] at hending
  cases hending with
  | cycle | tooLong | unregistered | broken => exact ⟨rfl, .nowhere nofun⟩

/-- A class without a constructor has its parameters from a supertype, or it
has none. -/
theorem inherited_of_ascend (hstart : start.constructor = none) {limit : Nat} {head : Head}
    (h : (ascend registry limit start).outcome = .ok head) :
    (∃ reference, head.inheritedFrom = some reference) ∨ head.parameters = {} := by
  obtain ⟨references, last, hclimb, hending⟩ := exists_ending_ascend registry limit start
  rw [h] at hending
  cases hending with
  | parameters =>
    cases hclimb with
    | here => exact .inr (by simp [Declaration.parameters, hstart])
    | up => exact .inl (Option.isSome_iff_exists.1 (by simp))

/-! ## Readings -/

theorem ofSource_origin (source : Text) :
    FaultsSatisfy (Origin source) (Declaration.ofSource source) := by
  unfold Declaration.ofSource
  split
  · exact .error (.nowhere nofun)
  · split
    · exact .error (.nowhere nofun)
    · split
      · rename_i fault hfault
        obtain ⟨place, hplace, rfl⟩ := withoutComments_isBoundary source fault hfault
        exact .error (.comment hplace)
      · rename_i cleaned hcleaned
        exact (misread_ofCode cleaned).mono fun _ => .head hcleaned

theorem head_origin (options : Options) (registry : Registry) (source : Text) :
    FaultsSatisfy (Origin source) (options.head registry source) := by
  unfold Options.head
  split
  · rename_i fault hfault
    exact .error (ofSource_origin source fault hfault)
  · exact .ok _
  · exact (ascend_origin registry _ _).mono fun _ h => h.2

/-- The parameters of a supertype have no place in the source. -/
theorem parametersOf_inherited {head : Head} {reference : Text}
    (h : head.inheritedFrom = some reference) :
    FaultsSatisfy (fun fault => fault.offset = none ∧ Origin source fault)
      (options.parametersOf head) := by
  intro fault hfault
  rw [Options.parametersOf, h] at hfault
  dsimp only at hfault
  unfold readInSupertype at hfault
  split at hfault
  · cases hfault
  · rw [← Except.error.inj hfault]
    exact ⟨rfl, .nowhere nofun⟩

theorem parametersOf_origin {head : Head} (h : options.head registry source = .ok head) :
    FaultsSatisfy (Origin source) (options.parametersOf head) := by
  have hfaithful := isFaithful_of_head h
  unfold Head.IsFaithful at hfaithful
  cases hinherited : head.inheritedFrom with
  | some reference => exact (parametersOf_inherited hinherited).mono fun _ h => h.2
  | none =>
    rw [hinherited] at hfaithful
    obtain ⟨hrange, -⟩ := hfaithful
    obtain ⟨before, raw, behind, hsource, hbefore, -, hraw⟩ := hrange.range
    have hlist : FaultsSatisfy (fun fault => fault.LiesIn ⟨head.parameters.text, 0⟩ ∧
        fault.cause.isStructural = false) (options.parameters head.parameters.text) :=
      fun fault hfault => ⟨parameters_liesIn options hrange.clean fault hfault,
        parameters_failsOnlyBy options hrange.orderly hrange.clean fault hfault⟩
    rw [Options.parametersOf, hinherited, ← hbefore]
    exact hlist.shiftFault fun _ h => .parameter hsource hraw h.1 h.2

theorem ofHead_origin (source : Text) (head : Head) (parameters : List Parameter) :
    FaultsSatisfy (fun fault => fault.offset = none ∧ Origin source fault)
      (Descriptor.ofHead head parameters) := by
  unfold Descriptor.ofHead
  split
  · rename_i fault hfault
    unfold checkRestLast at hfault
    split at hfault
    · cases hfault
    · rw [← Except.error.inj hfault]
      exact .error ⟨rfl, .nowhere nofun⟩
  · exact .ok _

end

/-! ## Descriptions -/

section

variable {options : Options} {registry : Registry} {callable : Callable} {source : Text}

theorem describe_origin (hsource : callable.source = some source) :
    FaultsSatisfy (Origin source) (options.describe registry callable) := by
  rw [Options.describe, Options.describeBySource, hsource]
  refine FaultsSatisfy.map ((head_origin options registry source).bind fun head hhead => ?_) _
  exact (parametersOf_origin hhead).bind fun parameters _ =>
    (ofHead_origin source _ parameters).mono fun _ h => h.2

/-- Whatever a class without a constructor fails by has no place. -/
theorem describe_of_lacksConstructor (hsource : callable.source = some source)
    (hlacks : LacksConstructor source) :
    FaultsSatisfy (·.offset = none) (options.describe registry callable) := by
  obtain ⟨start, hstart, hconstructor⟩ := hlacks
  have hhead : options.head registry source
      = (ascend registry options.maxSupertypeHops start).outcome := by
    rw [Options.head, hstart]
  rw [Options.describe, Options.describeBySource, hsource]
  refine FaultsSatisfy.map (FaultsSatisfy.bind ?_ fun head hascend => ?_) _
  · rw [hhead]
    exact (@ascend_origin source registry _ start).mono fun _ h => h.1
  · rw [hhead] at hascend
    refine FaultsSatisfy.bind ?_ fun parameters _ =>
      (ofHead_origin source _ parameters).mono fun _ h => h.1
    rcases inherited_of_ascend hconstructor hascend with ⟨reference, hinherited⟩ | hnone
    · have hread : FaultsSatisfy (fun fault => fault.offset = none ∧ Origin source fault)
          (options.parametersOf head) := parametersOf_inherited hinherited
      exact hread.mono fun _ h => h.1
    · have hread : options.parametersOf head = .ok [] := by
        rw [Options.parametersOf, hnone]
        cases head.inheritedFrom <;> rfl
      rw [hread]
      exact .ok _

end

/-- The place of a fault is a boundary of the source that was given.  If the
parameters have to be taken from a supertype, there is no place: neither the
source of a supertype nor a list that is taken from one is the source that was
given. -/
theorem describe_isBoundary {options : Options} {registry : Registry} {callable : Callable}
    {fault : Fault} (h : options.describe registry callable = .error fault) :
    (∀ place, fault.offset = some place → ∃ source, callable.source = some source ∧
        place ≤ source.width ∧ source.IsBoundary place) ∧
      ∀ source, callable.source = some source → LacksConstructor source →
        fault.offset = none := by
  constructor
  · intro place hplace
    cases hsource : callable.source with
    | none =>
      rw [Options.describe, Options.describeBySource, hsource] at h
      rw [← Except.error.inj h] at hplace
      cases hplace
    | some source =>
      have hboundary := (describe_origin hsource fault h).isBoundary hplace
      exact ⟨source, rfl, hboundary.le_width, hboundary⟩
  · intro source hsource hlacks
    exact describe_of_lacksConstructor hsource hlacks fault h

/-- A class whose supertype has a list that cannot be read. -/
def brokenRegistry : Registry := fun reference =>
  if reference = "Base".toList then some "class Base { constructor(a b) {} }".toList
  else none

theorem describe_isBoundary_comment_and_supertype :
    (Options.describe {} Registry.empty { source := some "/* é */ (a, é é) => a".toList }
        = .error { cause := .bindingNotBindable "é é".toList, offset := some 13 } ∧
      ∃ source, some "/* é */ (a, é é) => a".toList = some source ∧ 13 ≤ Text.width source ∧
        Text.IsBoundary source 13) ∧
      ∃ fault, Options.describe {} brokenRegistry
          { source := some "class Sub extends Base {}".toList } = .error fault ∧
        fault.offset = none := by
  have hparameter : Options.describe {} Registry.empty
        { source := some "/* é */ (a, é é) => a".toList }
      = .error { cause := .bindingNotBindable "é é".toList, offset := some 13 } := by
    decide +kernel
  have hsupertype : Options.describe {} brokenRegistry
        { source := some "class Sub extends Base {}".toList }
      = .error { cause := .bindingNotBindable "a b".toList,
                 hint := some (.raisedInSupertype "Base".toList (some 25)) } := by
    decide +kernel
  have hlacks : LacksConstructor "class Sub extends Base {}".toList :=
    ⟨⟨"Sub".toList, some "Base".toList, none⟩, by decide +kernel, rfl⟩
  exact ⟨⟨hparameter, (describe_isBoundary hparameter).1 13 rfl⟩, _, hsupertype,
    (describe_isBoundary hsupertype).2 _ rfl hlacks⟩

/-! ## Groups that are never closed -/

/-- The group that a hint names as never closed is the innermost one that is
open at the bracket where the fault lies, and the message names its closer.
Its opening bracket stands in the source at the place in the hint, counted from
`front`: from the beginning of the group, or of the expression behind
`extends`, that was being read.  So the hint is in the coordinates of the fault
exactly if nothing stands in front of what was being read. -/
theorem describe_groupNeverClosed {options : Options} {registry : Registry}
    {callable : Callable} {fault : Fault} {openedAt : Nat}
    (h : options.describe registry callable = .error fault)
    (hhint : fault.hint = some (.groupNeverClosed openedAt)) :
    ∃ (source cleaned front before between behind : Text) (opener expected found : Char),
      callable.source = some source ∧ withoutComments source = .ok cleaned ∧
      IsMismatch cleaned front before between behind opener expected found ∧
      openedAt = before.width ∧
      fault.offset = some (Text.width (front ++ (before ++ opener :: between))) ∧
      (fault.cause = .closerMismatch expected found ∨
        fault.cause = .boundaryMissing (.closerMismatch expected found)) ∧
      ∃ a b : Text, source = a ++ opener :: b ∧ a.width = front.width + openedAt := by
  cases hsource : callable.source with
  | none =>
    rw [Options.describe, Options.describeBySource, hsource] at h
    rw [← Except.error.inj h] at hhint
    cases hhint
  | some source =>
    cases describe_origin hsource fault h with
    | nowhere hother => exact absurd hhint (hother openedAt)
    | comment => cases hhint
    | parameter hrange hraw hfault hstructural =>
      obtain ⟨expected, found, hcause⟩ := hfault.mismatch openedAt hhint
      rw [hcause] at hstructural
      cases hstructural
    | @head cleaned _ hcleaned hfault =>
      obtain ⟨front, before, between, behind, opener, expected, found, hmismatch, rfl, hoffset,
        hcause⟩ := hfault.exists_mismatch hhint
      have hvisible :=
        isVisible_of_isWhiteSpace (isWhiteSpace_of_closerOf? hmismatch.closerOf?_opener)
      have htext : cleaned = (front ++ before) ++ opener :: (between ++ found :: behind) := by
        rw [hmismatch.source_eq]
        simp
      obtain ⟨a, b, hopener, hwidth⟩ := exists_at_of_visible hvisible (htext ▸ hcleaned)
      exact ⟨source, cleaned, front, before, between, behind, opener, expected, found, rfl,
        hcleaned, hmismatch, rfl, hoffset, hcause, a, b, hopener,
        hwidth.trans (Text.width_append front before)⟩

/-- The parameter list of a function begins at byte 10, and the bracket that is
never closed at byte 14. -/
theorem describe_groupNeverClosed_square :
    describeText "function f(a, [b) {}".toList
        = .error { cause := .boundaryMissing (.closerMismatch ']' ')'), offset := some 16,
                   hint := some (.groupNeverClosed 4) } ∧
      ∃ (source cleaned front before between behind : Text) (opener expected found : Char),
        some "function f(a, [b) {}".toList = some source ∧
        withoutComments source = .ok cleaned ∧
        IsMismatch cleaned front before between behind opener expected found ∧
        4 = before.width ∧
        some 16 = some (Text.width (front ++ (before ++ opener :: between))) ∧
        (Cause.boundaryMissing (.closerMismatch ']' ')') = .closerMismatch expected found ∨
          Cause.boundaryMissing (.closerMismatch ']' ')')
            = .boundaryMissing (.closerMismatch expected found)) ∧
        ∃ a b : Text, source = a ++ opener :: b ∧ a.width = front.width + 4 := by
  have h : Options.describe {} Registry.empty
        { source := some "function f(a, [b) {}".toList }
      = .error { cause := .boundaryMissing (.closerMismatch ']' ')'), offset := some 16,
                 hint := some (.groupNeverClosed 4) } := by
    decide +kernel
  exact ⟨h, describe_groupNeverClosed h rfl⟩

/-- The place in the hint is not always one of the source: byte 4 of that
function is a letter of its first word. -/
theorem not_forall_groupNeverClosed :
    ¬ ∀ (source : Text) (fault : Fault) (openedAt : Nat), describeText source = .error fault →
      fault.hint = some (.groupNeverClosed openedAt) →
      ∃ (a b : Text) (opener expected found : Char) (place : Nat), source = a ++ opener :: b ∧
        a.width = openedAt ∧ closerOf? opener = some expected ∧ fault.offset = some place ∧
        openedAt < place ∧ (fault.cause = .closerMismatch expected found ∨
          fault.cause = .boundaryMissing (.closerMismatch expected found)) := by
  intro h
  have hfault : describeText "function f(a, [b) {}".toList
      = .error { cause := .boundaryMissing (.closerMismatch ']' ')'), offset := some 16,
                 hint := some (.groupNeverClosed 4) } := by
    decide +kernel
  obtain ⟨a, b, opener, expected, found, place, hsource, hwidth, hopener, -⟩ :=
    h _ _ 4 hfault rfl
  have hdrop := Text.dropBytes_append a (opener :: b)
  rw [← hsource, hwidth] at hdrop
  obtain ⟨rfl, -⟩ :=
    List.cons.inj (show 't' :: "ion f(a, [b) {}".toList = opener :: b from hdrop)
  cases hopener

end CallSignature
