/-
CallSignature.Proofs.Head.Classes — where a class finds the list of its
constructor.

The constructor is looked for at the places of the class body where its word
may stand, and these are places of the code: the body is orderly, and what
stands in front of a character of its code ends outside all literals.  So the
list of a constructor is ahead of the word `class` in the same sense in which
that of a function is ahead of its head (`list_of_class`).
-/
import CallSignature.Declaration
import CallSignature.Proofs.Head.Lists

namespace CallSignature

open Cursor Unicode

/-! ## The constructor -/

theorem constructorOpener?_eq_some {t : Text} {distance : Nat}
    (h : constructorOpener? t = some distance) :
    ∃ space tail : Text, t = constructorWord ++ space ++ '(' :: tail ∧ space.isBlank = true ∧
      distance = Text.width (constructorWord ++ space) := by
  unfold constructorOpener? at h
  split at h
  · cases h
  · rename_i behind hbehind
    split at h
    · rename_i hopener
      obtain rfl := Text.afterPrefix?_eq_some_iff.1 hbehind
      obtain ⟨tail, htail⟩ := List.head?_eq_some_iff.1 hopener
      have hrest : behind = behind.takeWhile isWhiteSpace ++ '(' :: tail := by
        rw [← htail]
        exact List.takeWhile_append_dropWhile.symm
      refine ⟨behind.takeWhile isWhiteSpace, tail, ?_, Text.isBlank_takeWhile behind, ?_⟩
      · rw [List.append_assoc, ← hrest]
      · rw [Text.width_append]
        exact (Option.some.inj h).symm
    · cases h

theorem constructorList_eq_some {before tail : Text} {list : ParameterList}
    (h : constructorList (before ++ '(' :: tail) before.width = .ok (some list)) :
    ∃ behind, tail = list.text ++ ')' :: behind ∧ Orderly list.text ∧
      list.offset = before.width + 1 := by
  rw [constructorList, Text.dropBytes_append] at h
  split at h
  · cases h
  · rename_i last hlast
    obtain ⟨inner, behind, rfl, hinner, rfl⟩ :=
      (closerDistance_eq_ok_iff closerOf?_round).1 hlast
    split at h
    · obtain rfl := Option.some.inj (Except.ok.inj h)
      dsimp only
      rw [Text.slice_inner rfl]
      exact ⟨behind, rfl, hinner, rfl⟩
    · cases h

theorem firstFound_eq_some {find : Nat → Except Fault (Option ParameterList)}
    {places : List Nat} {list : ParameterList} (h : firstFound find places = .ok (some list)) :
    ∃ place ∈ places, find place = .ok (some list) := by
  induction places with
  | nil => cases h
  | cons place places ih =>
    unfold firstFound at h
    split at h
    · cases h
    · rename_i found hfound
      obtain rfl := Option.some.inj (Except.ok.inj h)
      exact ⟨place, by simp, hfound⟩
    · obtain ⟨other, hmem, hother⟩ := ih h
      exact ⟨other, List.mem_cons_of_mem _ hmem, hother⟩

/-- The list of a constructor stands in the class body, behind a text that
ends outside its literals. -/
theorem list_of_ownConstructor {before body behind : Text} {list : ParameterList}
    (h : ownConstructor (before ++ body ++ behind) before.width (before.width + body.width)
      = .ok (some list)) :
    ∃ a rest, body ++ behind = a ++ '(' :: list.text ++ ')' :: rest ∧ Quiet a ∧
      Orderly list.text ∧ list.offset = before.width + a.width + 1 := by
  rw [ownConstructor, Text.slice_append] at h
  split at h
  · cases h
  · rename_i visits hscan
    obtain ⟨place, hplace, h⟩ := firstFound_eq_some h
    obtain ⟨v, hv, rfl⟩ := List.mem_map.1 hplace
    have hmem : v ∈ body.visits := eq_visits_of_scan hscan ▸ (List.mem_filter.1 hv).1
    obtain ⟨a, b, rfl, hoffset, ha⟩ := exists_of_mem_visits hmem
    rw [hoffset, constructorAt, Text.dropBytes_append] at h
    split at h
    · cases h
    · rename_i distance hdistance
      split at h
      · obtain ⟨space, tail, hword, hspace, rfl⟩ := constructorOpener?_eq_some hdistance
        rw [hword] at h ⊢
        have hsource : before ++ (a ++ (constructorWord ++ space ++ '(' :: tail)) ++ behind
            = (before ++ (a ++ (constructorWord ++ space))) ++ '(' :: (tail ++ behind) := by
          simp
        rw [hsource, Nat.add_assoc, ← Text.width_append, ← Text.width_append] at h
        obtain ⟨rest, htail, horderly, hplace⟩ := constructorList_eq_some h
        refine ⟨a ++ (constructorWord ++ space), rest, ?_, ?_, horderly, ?_⟩
        · rw [show a ++ (constructorWord ++ space ++ '(' :: tail) ++ behind
            = (a ++ (constructorWord ++ space)) ++ '(' :: (tail ++ behind) by simp, htail]
          simp
        · exact ha.append ((quiet_of_lacksQuotes (by decide)).append (quiet_of_isBlank hspace))
        · rw [hplace, Text.width_append before]
      · cases h

/-! ## Heads of classes -/

section

variable {c d : Cursor} {list : ParameterList}

/-- The class body before which the cursor stands, where it stands in the
source. -/
theorem exists_classBody {last : Nat} (hpeek : c.peek = '{')
    (hlast : closerDistance c.offset c.rest = .ok last) :
    ∃ before body behind : Text, Orderly body ∧ c.rest = '{' :: (body ++ '}' :: behind) ∧
      c.text = before ++ body ++ '}' :: behind ∧ c.offset + 1 = before.width ∧
      c.offset + last = before.width + body.width := by
  obtain ⟨rest, hrest⟩ := rest_of_peek hpeek (by decide)
  rw [hrest] at hlast
  obtain ⟨body, behind, rfl, hbody, rfl⟩ := (closerDistance_eq_ok_iff closerOf?_curly).1 hlast
  have hstart : c.offset + 1 = Text.width (c.behind.reverse ++ ['{']) := by
    rw [Text.width_append, Text.width_reverse]
    rfl
  refine ⟨c.behind.reverse ++ ['{'], body, behind, hbody, hrest, ?_, hstart, ?_⟩
  · rw [text, hrest]
    simp
  · rw [← hstart, Nat.add_assoc]

theorem list_of_bodyConstructor (h : bodyConstructor c = .ok (some list)) :
    ListAhead c list := by
  unfold bodyConstructor at h
  split at h
  · rename_i hpeek
    split at h
    · cases h
    · rename_i last hlast
      obtain ⟨before, body, behind, hbody, hrest, htext, hstart, hstop⟩ :=
        exists_classBody hpeek hlast
      rw [htext, hstart, hstop] at h
      obtain ⟨a, after, hlist, ha, horderly, hoffset⟩ := list_of_ownConstructor h
      have hquiet : Quiet ('{' :: a) := Quiet.append (quiet_singleton (by decide)) ha
      refine ⟨'{' :: a, after, ?_, hquiet, horderly, ?_⟩
      · rw [hrest, hlist]
        simp
      · rw [hoffset, ← hstart, Text.width_cons, ← Nat.add_assoc]
        rfl
  · cases h

theorem reaches_className (c : Cursor) : c.Reaches (className c).2 := by
  unfold className
  split
  · exact Reaches.refl c
  · exact reaches_getD_identifier c

/-- The class body begins where a character of the code does. -/
theorem exists_of_bodyDistance {distance : Nat} (h : bodyDistance c = .ok distance) :
    ∃ a b : Text, c.rest = a ++ b ∧ Quiet a ∧ distance = a.width := by
  unfold bodyDistance at h
  split at h
  · cases h
  · cases h
  · rename_i visit hvisit
    obtain rfl := Except.ok.inj h
    have hmem := List.mem_of_find?_eq_some (firstVisit_eq_some_iff.1 hvisit)
    obtain ⟨a, b, hrest, hoffset, ha⟩ := exists_of_mem_visits hmem
    exact ⟨a, _, hrest, ha, hoffset⟩

theorem reaches_of_supertypeReference {reference : Text}
    (h : supertypeReference c = .ok (reference, d)) : c.Reaches d := by
  unfold supertypeReference at h
  split at h
  · cases h
  · rename_i distance hdistance
    split at h
    · cases h
    · obtain ⟨-, rfl⟩ := Prod.mk.inj (Except.ok.inj h)
      obtain ⟨a, b, hrest, ha, rfl⟩ := exists_of_bodyDistance hdistance
      exact reaches_seek hrest ha

theorem reaches_of_extendsClause {reference : Option Text}
    (h : extendsClause c = .ok (reference, d)) : c.Reaches d := by
  unfold extendsClause at h
  split at h
  · obtain ⟨-, rfl⟩ := Prod.mk.inj (Except.ok.inj h)
    exact Reaches.refl c
  · rename_i next hword
    obtain ⟨⟨found, behind⟩, hfound, heq⟩ := map_eq_ok h
    obtain ⟨-, rfl⟩ := Prod.mk.inj heq
    exact (reaches_of_matchWord (by decide) hword).trans (reaches_of_supertypeReference hfound)

theorem reaches_of_classStart? (h : classStart? c = some d) : c.Reaches d := by
  unfold classStart? at h
  split at h
  · rename_i behind hword
    split at h
    · cases h
    · obtain rfl := Option.some.inj h
      exact reaches_of_matchWord (by decide) hword
  · cases h

/-- The list of the constructor of a class is in parentheses. -/
theorem list_of_class {head : ClassHead} (h : ClassHead.ofCursor c = .ok head)
    (hlist : head.constructor = some list) : ListAhead c list := by
  obtain ⟨⟨superclass, d⟩, hextends, h⟩ := bind_eq_ok h
  obtain ⟨found, hfound, h⟩ := bind_eq_ok h
  obtain rfl := Except.ok.inj h
  obtain rfl : found = some list := hlist
  have hbody := (reaches_skipWhiteSpace d).listAhead (list_of_bodyConstructor hfound)
  exact (((reaches_skipWhiteSpace c).trans (reaches_className _)).trans
    ((reaches_skipWhiteSpace _).trans (reaches_of_extendsClause hextends))).listAhead hbody

/-- A class has a body. -/
theorem mem_text_of_class {head : ClassHead} (h : ClassHead.ofCursor c = .ok head) :
    '{' ∈ c.text := by
  obtain ⟨⟨superclass, d⟩, hextends, h⟩ := bind_eq_ok h
  obtain ⟨found, hfound, -⟩ := bind_eq_ok h
  have hreach := (((reaches_skipWhiteSpace c).trans (reaches_className _)).trans
    ((reaches_skipWhiteSpace _).trans (reaches_of_extendsClause hextends))).trans
      (reaches_skipWhiteSpace d)
  unfold bodyConstructor at hfound
  split at hfound
  · rename_i hpeek
    obtain ⟨rest, hrest⟩ := rest_of_peek hpeek (by decide)
    rw [← hreach.text_eq, text, hrest]
    exact List.mem_append_right _ List.mem_cons_self
  · cases hfound

end

end CallSignature
