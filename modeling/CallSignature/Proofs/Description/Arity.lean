/-
CallSignature.Proofs.Description.Arity — numbers of arguments that make sense.

The lower bound of a description is counted from the parameters, and may then
give way to the length that the caller reports.  Whichever of the two holds,
the bounds belong together: some number of arguments lies between them, a
rest parameter is the last one and the only one, and it is what makes the
upper bound fall away (`Descriptor.IsCoherent`).

When the reported length holds is said by `TrustsLength`; it then is the
lower bound, and otherwise the counted number is (`settleLength_of_trusts`,
`settleLength_of_not_trusts`).
-/
import CallSignature.Description
import CallSignature.Proofs.Success

namespace CallSignature

/-! ## What the bounds are -/

/-- A parameter that collects the rest is followed by no other. -/
def RestIsLast (parameters : List Parameter) : Prop :=
  ∀ before p behind, parameters = before ++ p :: behind → p.isSpread = true → behind = []

/-- `n` is how many parameters the longest row of required parameters at the
front has. -/
def IsRequiredFront (parameters : List Parameter) (n : Nat) : Prop :=
  (∃ front, front <+: parameters ∧ (∀ p ∈ front, p.isRequired = true) ∧ front.length = n) ∧
    ∀ front, front <+: parameters → (∀ p ∈ front, p.isRequired = true) → front.length ≤ n

/-- The length that the callable is reported to have holds for these
parameters: the options trust it, no parameter collects the rest, and there
are enough parameters. -/
structure TrustsLength (options : Options) (callable : Callable) (parameters : List Parameter)
    (declared : Nat) : Prop where
  reported : callable.declaredLength = some declared
  trusted : options.trustDeclaredLength = true
  noRest : ∀ p ∈ parameters, p.isSpread = false
  le_length : declared ≤ parameters.length

/-- The bounds of the description belong together, and to its parameters. -/
structure Descriptor.IsCoherent (options : Options) (callable : Callable) (d : Descriptor) :
    Prop where
  restIsLast : RestIsLast d.parameters
  unbounded_iff : d.maxArity = .unbounded ↔ ∃ p ∈ d.parameters, p.isSpread = true
  bounded : (∀ p ∈ d.parameters, p.isSpread = false) →
    d.maxArity = .bounded d.parameters.length
  minArity_le : d.minArity ≤ d.parameters.length
  minArity_lt : (∃ p ∈ d.parameters, p.isSpread = true) → d.minArity < d.parameters.length
  accepts_iff : ∀ count, d.accepts count = true ↔
    d.minArity ≤ count ∧ (d.maxArity = .unbounded ∨ count ≤ d.parameters.length)
  exists_accepted : ∃ count, d.accepts count = true
  minArity_reported : ∀ declared, TrustsLength options callable d.parameters declared →
    d.minArity = declared
  minArity_counted : (∀ declared, ¬ TrustsLength options callable d.parameters declared) →
    IsRequiredFront d.parameters d.minArity

/-! ## Counting -/

section

variable {parameters : List Parameter}

theorem restIsLast_iff :
    RestIsLast parameters ↔ parameters.dropLast.find? Parameter.isSpread = none := by
  rw [List.find?_eq_none]
  constructor
  · intro h p hp hspread
    obtain ⟨before, mid, hdrop⟩ := List.append_of_mem hp
    have hne : parameters ≠ [] := by
      rintro rfl
      cases hp
    have hparts : parameters = before ++ p :: (mid ++ [parameters.getLast hne]) := by
      rw [← List.cons_append, ← List.append_assoc, ← hdrop, List.dropLast_concat_getLast hne]
    simpa using h _ _ _ hparts hspread
  · rintro h before p behind rfl hspread
    refine Classical.byContradiction fun hne => h p ?_ hspread
    rw [List.dropLast_append_of_ne_nil (by simp), List.dropLast_cons_of_ne_nil hne]
    simp

theorem isRequired_eq_false {p : Parameter} (h : p.isSpread = true) :
    p.isRequired = false := by
  simp [Parameter.isRequired, h]

theorem isRequiredFront_minArity (parameters : List Parameter) :
    IsRequiredFront parameters (minArity parameters) := by
  refine ⟨⟨_, List.takeWhile_prefix _, fun p hp => ?_, rfl⟩, fun front hfront hrequired => ?_⟩
  · exact List.all_eq_true.1 List.all_takeWhile p hp
  · obtain ⟨behind, rfl⟩ := hfront
    rw [minArity, List.takeWhile_append_of_pos hrequired, List.length_append]
    exact Nat.le_add_right _ _

theorem minArity_le_length (parameters : List Parameter) :
    minArity parameters ≤ parameters.length :=
  (List.takeWhile_prefix _).length_le

/-- A parameter that collects the rest is not required. -/
theorem minArity_lt_length (h : ∃ p ∈ parameters, p.isSpread = true) :
    minArity parameters < parameters.length := by
  obtain ⟨p, hp, hspread⟩ := h
  refine Nat.lt_of_le_of_ne (minArity_le_length parameters) fun hlength => ?_
  have hall := (List.takeWhile_prefix Parameter.isRequired).eq_of_length hlength
  have hrequired := List.all_eq_true.1 List.all_takeWhile p (hall.symm ▸ hp)
  rw [isRequired_eq_false hspread] at hrequired
  cases hrequired

theorem maxArity_eq_unbounded_iff :
    maxArity parameters = .unbounded ↔ ∃ p ∈ parameters, p.isSpread = true := by
  rw [maxArity, ← List.any_eq_true]
  cases parameters.any Parameter.isSpread <;> simp

theorem maxArity_eq_bounded (h : ∀ p ∈ parameters, p.isSpread = false) :
    maxArity parameters = .bounded parameters.length := by
  have hany : parameters.any Parameter.isSpread = false :=
    List.any_eq_false.2 fun p hp => by simp [h p hp]
  rw [maxArity, hany, if_neg Bool.false_ne_true]

end

/-! ## Reported lengths -/

section

variable {options : Options} {callable : Callable} {d : Descriptor} {declared : Nat}

theorem settleLength_of_trusts (h : TrustsLength options callable d.parameters declared) :
    options.settleLength callable d = { d with minArity := declared } := by
  have hspread : d.hasSpread = false :=
    List.any_eq_false.2 fun p hp => by simp [h.noRest p hp]
  rw [Options.settleLength, Callable.disagreement?, h.reported, hspread, Option.filter_some]
  by_cases heq : declared = d.minArity
  · -- the two agree, and nothing is to be settled
    subst heq
    simp
  · simp [heq, h.trusted, h.le_length]

theorem settleLength_of_not_trusts
    (h : ∀ declared, ¬ TrustsLength options callable d.parameters declared) :
    options.settleLength callable d = d := by
  unfold Options.settleLength
  split
  · rename_i declared hdisagrees
    obtain ⟨hreported, hdiffers⟩ := Option.filter_eq_some_iff.1 hdisagrees
    obtain ⟨hspread, -⟩ : d.hasSpread = false ∧ ¬ declared = d.minArity := by
      simpa using hdiffers
    refine if_neg fun hholds => h declared ⟨hreported, hholds.1, fun p hp => ?_, hholds.2⟩
    simpa using List.any_eq_false.1 hspread p hp
  · rfl

end

/-! ## Descriptions -/

section

variable {options : Options} {registry : Registry} {callable : Callable} {d : Descriptor}
  {head : Head} {parameters : List Parameter}

/-- The description that a head and parameters make, before the reported
length is looked at. -/
def countedDescriptor (head : Head) (parameters : List Parameter) : Descriptor :=
  { name := head.name, form := head.form, parameters
    minArity := minArity parameters
    maxArity := maxArity parameters }

theorem ofHead_eq_ok (h : Descriptor.ofHead head parameters = .ok d) :
    RestIsLast parameters ∧ d = countedDescriptor head parameters := by
  unfold Descriptor.ofHead at h
  split at h
  · cases h
  · rename_i hcheck
    refine ⟨restIsLast_iff.2 ?_, (Except.ok.inj h).symm⟩
    unfold checkRestLast at hcheck
    split at hcheck
    · assumption
    · cases hcheck

/-- Parameters one of which collects the rest before the last are refused. -/
theorem ofHead_eq_error (h : ¬ RestIsLast parameters) :
    ∃ fault, Descriptor.ofHead head parameters = .error fault ∧
      fault.kind = .decompositionFailure := by
  obtain ⟨early, hearly⟩ := Option.ne_none_iff_exists'.1 (mt restIsLast_iff.2 h)
  rw [Descriptor.ofHead, checkRestLast, hearly]
  exact ⟨_, rfl, rfl⟩

theorem describe_eq_ok (h : options.describe registry callable = .ok d) :
    ∃ head parameters, RestIsLast parameters ∧
      d = options.settleLength callable (countedDescriptor head parameters) := by
  obtain ⟨counted, hcounted, rfl⟩ := map_eq_ok h
  unfold Options.describeBySource at hcounted
  split at hcounted
  · cases hcounted
  · obtain ⟨head, -, hcounted⟩ := bind_eq_ok hcounted
    obtain ⟨parameters, -, hcounted⟩ := bind_eq_ok hcounted
    obtain ⟨hlast, rfl⟩ := ofHead_eq_ok hcounted
    exact ⟨_, parameters, hlast, rfl⟩

theorem accepts_iff (hmax : d.maxArity = maxArity d.parameters) (count : Nat) :
    d.accepts count = true ↔
      d.minArity ≤ count ∧ (d.maxArity = .unbounded ∨ count ≤ d.parameters.length) := by
  rw [Descriptor.accepts, Bool.and_eq_true, decide_eq_true_iff, hmax, maxArity]
  cases d.parameters.any Parameter.isSpread <;> simp [MaxArity.admits]

/-- What is coherent about a description whichever lower bound it has. -/
theorem isCoherent_of_minArity (hlast : RestIsLast d.parameters)
    (hmax : d.maxArity = maxArity d.parameters) (hle : d.minArity ≤ d.parameters.length)
    (hlt : (∃ p ∈ d.parameters, p.isSpread = true) → d.minArity < d.parameters.length)
    (hreported : ∀ declared, TrustsLength options callable d.parameters declared →
      d.minArity = declared)
    (hcounted : (∀ declared, ¬ TrustsLength options callable d.parameters declared) →
      IsRequiredFront d.parameters d.minArity) : d.IsCoherent options callable where
  restIsLast := hlast
  unbounded_iff := hmax ▸ maxArity_eq_unbounded_iff
  bounded h := hmax ▸ maxArity_eq_bounded h
  minArity_le := hle
  minArity_lt := hlt
  accepts_iff := accepts_iff hmax
  exists_accepted := ⟨d.parameters.length, (accepts_iff hmax _).2 ⟨hle, .inr (Nat.le_refl _)⟩⟩
  minArity_reported := hreported
  minArity_counted := hcounted

end

/-- Every description has bounds that belong together, and a list of
parameters one of which collects the rest before the last has no
description. -/
theorem describe_isCoherent (options : Options) (registry : Registry) (callable : Callable) :
    (∀ d, options.describe registry callable = .ok d → d.IsCoherent options callable) ∧
      ∀ source head parameters, callable.source = some source →
        options.head registry source = .ok head → options.parametersOf head = .ok parameters →
        ¬ RestIsLast parameters →
        ∃ fault, options.describe registry callable = .error fault ∧
          fault.kind = .decompositionFailure := by
  refine ⟨fun d h => ?_, fun source head parameters hsource hhead hparameters hearly => ?_⟩
  · obtain ⟨head, parameters, hlast, rfl⟩ := describe_eq_ok h
    by_cases htrusts : ∃ declared, TrustsLength options callable parameters declared
    · obtain ⟨declared, htrusts⟩ := htrusts
      rw [settleLength_of_trusts htrusts]
      refine isCoherent_of_minArity hlast rfl htrusts.le_length (fun hrest => ?_)
        (fun other hother => ?_) fun hnone => absurd htrusts (hnone declared)
      · obtain ⟨p, hp, hspread⟩ := hrest
        rw [htrusts.noRest p hp] at hspread
        cases hspread
      · exact Option.some.inj (htrusts.reported.symm.trans hother.reported)
    · have hnone : ∀ declared, ¬ TrustsLength options callable parameters declared :=
        fun declared htrusted => htrusts ⟨declared, htrusted⟩
      rw [settleLength_of_not_trusts hnone]
      exact isCoherent_of_minArity hlast rfl (minArity_le_length _) minArity_lt_length
        (fun declared htrusted => absurd htrusted (hnone declared))
        fun _ => isRequiredFront_minArity _
  · obtain ⟨fault, hfault, hkind⟩ := @ofHead_eq_error (callable.named head) _ hearly
    refine ⟨fault, ?_, hkind⟩
    rw [Options.describe, Options.describeBySource, hsource]
    show ((options.head registry source >>= _).map _) = _
    rw [hhead]
    show ((options.parametersOf head >>= _).map _) = _
    rw [hparameters]
    show (Descriptor.ofHead (callable.named head) parameters).map _ = _
    rw [hfault]
    rfl

/-- A function with one required parameter in front of a default, reported to
need two arguments. -/
def reportedTwo : Callable :=
  { source := some "function f(a, b = 1, c) {}".toList, declaredLength := some 2 }

/-- A function whose first parameter collects the rest. -/
def restFirst : Callable :=
  { source := some "function f(...a, b) {}".toList }

theorem describe_isCoherent_reportedTwo :
    (∃ d, Options.describe {} Registry.empty reportedTwo = .ok d ∧ d.minArity = 2 ∧
        d.IsCoherent {} reportedTwo) ∧
      ∃ fault, Options.describe {} Registry.empty restFirst = .error fault ∧
        fault.kind = .decompositionFailure := by
  constructor
  · have hmin : (Options.describe {} Registry.empty reportedTwo).map Descriptor.minArity
        = .ok 2 := by
      decide +kernel
    obtain ⟨d, hd, hmin⟩ := map_eq_ok hmin
    exact ⟨d, hd, hmin, (describe_isCoherent {} Registry.empty reportedTwo).1 d hd⟩
  · have hspreads : (Options.head {} Registry.empty "function f(...a, b) {}".toList
        >>= Options.parametersOf {}).map (List.map Parameter.isSpread)
          = .ok [true, false] := by
      decide +kernel
    obtain ⟨parameters, hread, hspreads⟩ := map_eq_ok hspreads
    obtain ⟨head, hhead, hparameters⟩ := bind_eq_ok hread
    refine (describe_isCoherent {} Registry.empty restFirst).2 _ head parameters rfl hhead
      hparameters fun hlast => ?_
    obtain ⟨p, behind, rfl, hspread, hbehind⟩ := List.map_eq_cons_iff.1 hspreads
    obtain rfl := hlast [] p behind rfl hspread
    cases hbehind

end CallSignature
