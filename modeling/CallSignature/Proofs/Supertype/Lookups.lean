/-
CallSignature.Proofs.Supertype.Lookups — what the walk up the supertypes asks
the registry.

Two brakes stop the walk.  The limit stops it after so many lookups, and the
references that it has passed stop it before it asks for one of them again.
The second brake alone is enough if the registry knows few types: everything
that is looked up is new, and everything but the last is known, so that the
lookups are at most one more than the references of the registry, whatever
the limit is (`length_le_card_succ`).

A step looks up nothing, or one reference that is new (`lookups_cases`), and
each bound is an induction over the steps from there, with the invariant of
the walk, `OnTheWay`.

That the walk lists all its lookups is a theorem too: a registry that says
the same of the listed references leads to the same walk (`ascendOn_congr`).
-/
import CallSignature.Proofs.Supertype.Ascent
import Mathlib.Data.Finset.Card

namespace CallSignature

/-- Every reference that the registry knows is among these. -/
def Registry.KnowsOnly (registry : Registry) (known : Finset Text) : Prop :=
  ∀ reference, (registry reference).isSome = true → reference ∈ known

/-! ## One step -/

section

variable {registry other : Registry} {name : Text} {limit left : Nat}
  {references visited : List Text} {via : Option Text}

/-- A step looks up nothing, or one reference that is new, and behind that
reference the walk ends or goes on with what a known type declares. -/
theorem lookups_cases (registry : Registry) (d : Declaration)
    (hway : OnTheWay name limit references left visited via) :
    (ascendOn registry name limit left visited via d).lookups = [] ∨
      ∃ less reference, left = less + 1 ∧ IsNew name references reference ∧
        references.length < limit ∧
        ((ascendOn registry name limit left visited via d).lookups = [reference] ∨
          ∃ next, (registry reference).isSome = true ∧
            (ascendOn registry name limit left visited via d).lookups
              = reference :: (ascendOn registry name limit less (reference :: visited)
                  (some reference) next).lookups) := by
  cases hsupertype : d.supertype? with
  | none =>
    rw [ascendOn_of_supertype?_none hsupertype]
    exact .inl rfl
  | some reference =>
    rw [ascendOn_of_supertype?_some hsupertype]
    cases hvisited : visited.contains reference with
    | true => exact .inl rfl
    | false =>
      have hnew := (hway.visited reference).1 hvisited
      have hleft := hway.left
      cases left with
      | zero => exact .inl rfl
      | succ less =>
        refine .inr ⟨less, reference, rfl, hnew, by omega, ?_⟩
        cases hsource : registry reference with
        | none => exact .inl rfl
        | some source =>
          cases hnext : Declaration.ofSource source with
          | error fault => exact .inl (by simp [hnext, Ascent.behind, Ascent.ended])
          | ok next => exact .inr ⟨next, rfl, by simp [hnext, Ascent.behind]⟩

/-! ## The whole walk -/

/-- The lookups that follow go on as the walk came: none is made twice, and
none too many.  The induction is on the lookups that are left. -/
theorem passable_lookups (registry : Registry) (d : Declaration)
    (hway : OnTheWay name limit references left visited via)
    (hpassable : Passable name limit references) :
    Passable name limit
      (references ++ (ascendOn registry name limit left visited via d).lookups) := by
  induction left using Nat.strongRecOn generalizing d references visited via with
  | ind left ih =>
    rcases lookups_cases registry d hway with hnone |
      ⟨less, reference, rfl, hnew, hlength, hlast | ⟨next, -, hmore⟩⟩
    · rw [hnone, List.append_nil]
      exact hpassable
    · rw [hlast]
      exact hpassable.snoc hnew hlength
    · rw [hmore, List.append_cons]
      exact ih less (Nat.lt_succ_self less) next (hway.up reference)
        (hpassable.snoc hnew hlength)

/-- Only the last lookup can fail: the walk does not get past a reference that
nobody registered. -/
theorem isSome_of_mem_dropLast_lookups (registry : Registry) (d : Declaration)
    (hway : OnTheWay name limit references left visited via) :
    ∀ reference ∈ (ascendOn registry name limit left visited via d).lookups.dropLast,
      (registry reference).isSome = true := by
  induction left using Nat.strongRecOn generalizing d references visited via with
  | ind left ih =>
    rcases lookups_cases registry d hway with hnone |
      ⟨less, reference, rfl, -, -, hlast | ⟨next, hknown, hmore⟩⟩
    · simp [hnone]
    · simp [hlast]
    · have hrest := ih less (Nat.lt_succ_self less) next (hway.up reference)
      rw [hmore]
      intro passed hpassed
      cases hlookups : (ascendOn registry name limit less (reference :: visited)
          (some reference) next).lookups with
      | nil => simp [hlookups] at hpassed
      | cons first more =>
        rw [hlookups] at hrest hpassed
        rw [List.dropLast_cons_cons] at hpassed
        rcases List.mem_cons.1 hpassed with rfl | hpassed
        · exact hknown
        · exact hrest passed hpassed

/-- Registries that say the same of what is looked up lead the same way. -/
theorem ascendOn_congr (d : Declaration)
    (h : ∀ reference ∈ (ascendOn registry name limit left visited via d).lookups,
      other reference = registry reference) :
    ascendOn other name limit left visited via d
      = ascendOn registry name limit left visited via d := by
  induction left generalizing d visited via with
  | zero =>
    cases hsupertype : d.supertype? with
    | none =>
      rw [ascendOn_of_supertype?_none hsupertype, ascendOn_of_supertype?_none hsupertype]
    | some reference =>
      rw [ascendOn_of_supertype?_some hsupertype, ascendOn_of_supertype?_some hsupertype]
  | succ less ih =>
    cases hsupertype : d.supertype? with
    | none =>
      rw [ascendOn_of_supertype?_none hsupertype, ascendOn_of_supertype?_none hsupertype]
    | some reference =>
      rw [ascendOn_of_supertype?_some hsupertype] at h ⊢
      rw [ascendOn_of_supertype?_some hsupertype]
      cases hvisited : visited.contains reference with
      | true => rfl
      | false =>
        simp only [hvisited, Bool.false_eq_true, if_false, Ascent.behind, List.mem_cons,
          forall_eq_or_imp] at h ⊢
        obtain ⟨hreference, hrest⟩ := h
        rw [hreference]
        cases hsource : registry reference with
        | none => rfl
        | some source =>
          cases hnext : Declaration.ofSource source with
          | error fault => simp only [hnext]
          | ok next =>
            simp only [hsource, hnext] at hrest ⊢
            rw [ih next hrest]

end

/-! ## The bounds -/

/-- What is looked up once each, and known but for the last, is at most one
more than what is known. -/
theorem length_le_card_succ {lookups : List Text} {known : Finset Text}
    (hnodup : lookups.Nodup) (hknown : ∀ reference ∈ lookups.dropLast, reference ∈ known) :
    lookups.length ≤ known.card + 1 := by
  have hfront : lookups.dropLast.Nodup := hnodup.sublist (List.dropLast_sublist lookups)
  have hcard : lookups.dropLast.toFinset.card ≤ known.card :=
    Finset.card_le_card fun reference hmem => hknown reference (List.mem_toFinset.1 hmem)
  rw [List.toFinset_card_of_nodup hfront, List.length_dropLast] at hcard
  omega

/-- The walk up from a class looks up no reference twice, never the name of
the class itself, no more references than the limit allows, and no more than
one that the registry does not know.  It depends on nothing else that the
registry could be asked. -/
theorem lookups_ascend (registry : Registry) (limit : Nat) (start : ClassHead) :
    Passable start.name limit (ascend registry limit start).lookups ∧
      (∀ known, registry.KnowsOnly known →
        (ascend registry limit start).lookups.length ≤ known.card + 1) ∧
      ∀ other : Registry,
        (∀ reference ∈ (ascend registry limit start).lookups,
          other reference = registry reference) →
        ascend other limit start = ascend registry limit start := by
  have hway := onTheWay_start start.name limit
  have hpassable := passable_lookups registry (.ofClass start) hway
    ⟨Nat.zero_le _, List.nodup_nil, by simp⟩
  refine ⟨hpassable, fun known hknown => ?_, fun other hother => ?_⟩
  · refine length_le_card_succ hpassable.nodup fun reference hmem => hknown reference ?_
    exact isSome_of_mem_dropLast_lookups registry (.ofClass start) hway reference hmem
  · exact ascendOn_congr (.ofClass start) hother

/-- Two classes that extend each other. -/
def mutualRegistry : Registry := fun reference =>
  if reference = "B".toList then some "class B extends C {}".toList
  else if reference = "C".toList then some "class C extends B {}".toList
  else none

theorem lookups_ascend_mutualRegistry :
    mutualRegistry.KnowsOnly {"B".toList, "C".toList} ∧
      (ascend mutualRegistry 1000 ⟨"A".toList, some "B".toList, none⟩).lookups
        = ["B".toList, "C".toList] ∧
      (ascend mutualRegistry 1000 ⟨"A".toList, some "B".toList, none⟩).lookups.length ≤ 3 ∧
      ascend (fun reference => if reference = "D".toList then some "class D {}".toList
          else mutualRegistry reference) 1000 ⟨"A".toList, some "B".toList, none⟩
        = ascend mutualRegistry 1000 ⟨"A".toList, some "B".toList, none⟩ := by
  have hknown : mutualRegistry.KnowsOnly {"B".toList, "C".toList} := by
    intro reference hsome
    unfold mutualRegistry at hsome
    split at hsome
    · simp_all
    · split at hsome <;> simp_all
  have hlookups : (ascend mutualRegistry 1000 ⟨"A".toList, some "B".toList, none⟩).lookups
      = ["B".toList, "C".toList] := by
    decide +kernel
  obtain ⟨-, hfew, hsame⟩ :=
    lookups_ascend mutualRegistry 1000 ⟨"A".toList, some "B".toList, none⟩
  refine ⟨hknown, hlookups, hfew _ hknown, hsame _ fun reference hmem => if_neg ?_⟩
  rw [hlookups] at hmem
  rintro rfl
  revert hmem
  decide

end CallSignature
