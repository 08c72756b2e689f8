/-
CallSignature.Proofs.Nesting.Ends — where a group ends.

A text that begins with an opening bracket begins with at most one group.
`closingBracket` finds the end of that group if there is one, and reads no
further: what stands behind the group may be anything
(`closingBracket_append`).

The class of a token asks another walk over the whole text.  It comes to the
same: a token is an object or an array pattern exactly if it begins with the
bracket for it and the group that begins there ends with the token
(`isGroup_iff_closingBracket`).  So a group with something behind it, such as
`{}.x`, is no pattern.
-/
import CallSignature.Proofs.Nesting.Whole

namespace CallSignature

variable {t group behind : Text} {opener closer : Char} {last : Nat}

/-! ## The group that a text begins with -/

/-- The text begins with a group, whose closing bracket stands at byte `last`. -/
def HasGroupEnd (t : Text) (last : Nat) : Prop :=
  ∃ opener group behind, t = group ++ behind ∧ IsGroup opener group ∧ group.width = last + 1

/-- Behind an opening bracket the end of a group is found exactly if there is
one. -/
theorem closingBracket_eq_ok_iff_hasGroupEnd (hhead : t.head? = some opener)
    (hopener : closerOf? opener = some closer) :
    closingBracket t = .ok last ↔ HasGroupEnd t last := by
  obtain ⟨rest, rfl⟩ := List.head?_eq_some_iff.1 hhead
  rw [closingBracket_eq_ok_iff hopener]
  constructor
  · rintro ⟨inner, behind, rfl, hinner, rfl⟩
    exact ⟨opener, opener :: inner ++ [closer], behind, by simp,
      ⟨closer, inner, hopener, hinner, rfl⟩, width_group hopener inner⟩
  · rintro ⟨opener', group, behind, ht, ⟨closer', inner, hopener', hinner, rfl⟩, hwidth⟩
    obtain ⟨rfl, rfl⟩ := List.cons.inj ht
    obtain rfl : closer = closer' := Option.some.inj (hopener.symm.trans hopener')
    rw [width_group hopener] at hwidth
    exact ⟨inner, behind, by simp, hinner, (Nat.succ.inj hwidth).symm⟩

/-- A group is closed where it is closed by itself, whatever stands behind it. -/
theorem closingBracket_append (hgroup : IsGroup opener group) (behind : Text) :
    ∃ last, closingBracket (group ++ behind) = .ok last ∧ group.width = last + 1 := by
  obtain ⟨closer, inner, hopener, -, rfl⟩ := id hgroup
  refine ⟨1 + inner.width, ?_, width_group hopener inner⟩
  exact (closingBracket_eq_ok_iff_hasGroupEnd rfl hopener).2
    ⟨opener, _, behind, rfl, hgroup, width_group hopener inner⟩

/-- The text is one group exactly if the group that it begins with ends where
it does. -/
theorem isGroup_iff_closingBracket (hopener : closerOf? opener = some closer) :
    IsGroup opener t ↔
      t.head? = some opener ∧ ∃ last, closingBracket t = .ok last ∧ last + 1 = t.width := by
  constructor
  · intro h
    obtain ⟨last, hlast, hwidth⟩ := closingBracket_append h []
    rw [List.append_nil] at hlast
    obtain ⟨_, _, -, -, rfl⟩ := id h
    exact ⟨rfl, last, hlast, hwidth.symm⟩
  · rintro ⟨hhead, last, hlast, hwidth⟩
    obtain ⟨opener', group, behind, rfl, hgroup, hend⟩ :=
      (closingBracket_eq_ok_iff_hasGroupEnd hhead hopener).1 hlast
    obtain rfl : behind = [] := by
      rw [Text.width_append] at hwidth
      exact Text.width_eq_zero_iff.1 (by omega)
    obtain ⟨_, _, -, -, rfl⟩ := id hgroup
    obtain rfl : opener' = opener := Option.some.inj hhead
    rwa [List.append_nil]

/-- A group with something behind it is no group. -/
theorem not_isGroup_append (hgroup : IsGroup opener group) (hbehind : behind ≠ [])
    (other : Char) : ¬ IsGroup other (group ++ behind) := by
  intro hwhole
  obtain ⟨_, _, hopener, -, -⟩ := id hwhole
  obtain ⟨-, last', hlast', hwidth'⟩ := (isGroup_iff_closingBracket hopener).1 hwhole
  obtain ⟨last, hlast, hwidth⟩ := closingBracket_append hgroup behind
  obtain rfl := Except.ok.inj (hlast.symm.trans hlast')
  rw [Text.width_append, hwidth] at hwidth'
  exact hbehind (Text.width_eq_zero_iff.1 (by omega))

/-! ## Classes of tokens -/

theorem ofVisits_eq_object_iff : TokenClass.ofVisits t t.visits = .object ↔ IsGroup '{' t := by
  refine ⟨fun h => ?_, ofVisits_object⟩
  have hdescribes := describes_ofVisits t
  rwa [h] at hdescribes

theorem ofVisits_eq_array_iff : TokenClass.ofVisits t t.visits = .array ↔ IsGroup '[' t := by
  refine ⟨fun h => ?_, ofVisits_array⟩
  have hdescribes := describes_ofVisits t
  rwa [h] at hdescribes

/-- The class of an orderly token, told by the end of the group that the token
begins with. -/
structure IsClassOf (t : Text) (found : TokenClass) : Prop where
  object_iff : found = .object ↔
    t.head? = some '{' ∧ ∃ last, closingBracket t = .ok last ∧ last + 1 = t.width
  array_iff : found = .array ↔
    t.head? = some '[' ∧ ∃ last, closingBracket t = .ok last ∧ last + 1 = t.width
  other : found ≠ .object → found ≠ .array →
    found = if Shape.dots.isPrefixOf t then .spread else .leaf
  /-- A group with something behind it is no container. -/
  not_container : ∀ opener group behind, IsGroup opener group → t = group ++ behind →
    behind ≠ [] → found ≠ .object ∧ found ≠ .array

theorem isClassOf_ofVisits (t : Text) : IsClassOf t (TokenClass.ofVisits t t.visits) where
  object_iff := ofVisits_eq_object_iff.trans (isGroup_iff_closingBracket closerOf?_curly)
  array_iff := ofVisits_eq_array_iff.trans (isGroup_iff_closingBracket closerOf?_square)
  other hobject harray :=
    ofVisits_of_not_isGroup (mt ofVisits_object hobject) (mt ofVisits_array harray)
  not_container := by
    rintro opener group behind hgroup rfl hbehind
    exact ⟨mt ofVisits_eq_object_iff.1 (not_isGroup_append hgroup hbehind '{'),
      mt ofVisits_eq_array_iff.1 (not_isGroup_append hgroup hbehind '[')⟩

/-- The end that is found is the end of the one group that the text begins
with, and is found in every text that begins like this up to there.  The class
of an orderly token is told by it. -/
theorem closingBracket_hasGroupEnd :
    (∀ t opener closer, t.head? = some opener → closerOf? opener = some closer →
      (∀ last, closingBracket t = .ok last ↔ HasGroupEnd t last) ∧
      (∀ last last', HasGroupEnd t last → HasGroupEnd t last' → last = last') ∧
      ∀ last other, closingBracket t = .ok last →
        other.takeBytes (last + 1) = t.takeBytes (last + 1) →
          closingBracket other = .ok last) ∧
    ∀ token : Segment, Orderly token.text →
      ∃ found, tokenClass token = .ok found ∧ IsClassOf token.text found := by
  refine ⟨fun t opener closer hhead hopener => ?_, fun token h =>
    ⟨_, tokenClass_of_orderly h, isClassOf_ofVisits token.text⟩⟩
  have hiff : ∀ last, closingBracket t = .ok last ↔ HasGroupEnd t last := fun _ =>
    closingBracket_eq_ok_iff_hasGroupEnd hhead hopener
  refine ⟨hiff, fun last last' hlast hlast' => ?_, fun last other hlast hsame => ?_⟩
  · exact Except.ok.inj (((hiff last).2 hlast).symm.trans ((hiff last').2 hlast'))
  · obtain ⟨opener', group, behind, rfl, hgroup, hwidth⟩ := (hiff last).1 hlast
    rw [← hwidth, Text.takeBytes_append] at hsame
    -- `other` begins with the same group: what follows it is found in `other` itself
    have hother : group ++ other.dropBytes group.width = other := by
      have h := Text.takeBytes_append_dropBytes group.width other
      rwa [hsame] at h
    obtain ⟨last', hlast', hwidth'⟩ :=
      closingBracket_append hgroup (other.dropBytes group.width)
    rw [hother] at hlast'
    obtain rfl : last' = last := by omega
    exact hlast'

/-- A group with a bracket in a literal, and broken code behind it. -/
def brokenTail : Text := r"{a: '}'}].x('".toList

theorem closingBracket_hasGroupEnd_brokenTail :
    closingBracket brokenTail = .ok 7 ∧ HasGroupEnd brokenTail 7 ∧
      closingBracket r"{a: '}'}".toList = .ok 7 ∧
      ∃ found, tokenClass ⟨r"{a: '}'}.x".toList, 4⟩ = .ok found ∧
        IsClassOf r"{a: '}'}.x".toList found := by
  have hclosed : closingBracket brokenTail = .ok 7 := rfl
  have horderly : Orderly r"{a: '}'}.x".toList := by decide
  obtain ⟨hiff, -, hothers⟩ := closingBracket_hasGroupEnd.1 brokenTail '{' '}' rfl rfl
  exact ⟨hclosed, (hiff 7).1 hclosed, hothers 7 r"{a: '}'}".toList hclosed (by decide),
    closingBracket_hasGroupEnd.2 ⟨r"{a: '}'}.x".toList, 4⟩ horderly⟩

example : ["{}.x", "[a][0]", "{a}{b}"].map (fun t => tokenClass ⟨t.toList, 0⟩)
    = [.ok .leaf, .ok .leaf, .ok .leaf] :=
  rfl

end CallSignature
