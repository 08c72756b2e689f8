/-
CallSignature.Proofs.Head.Misread — where a head goes wrong.

The reader of a head looks around only from edges of the source: it stands
behind white space that it has skipped, or behind a word.  So what it misses
is missed at an edge.  What it scans begins at a bracket, or behind the word
`extends`, and if that is broken the fault is the break, seen from the source.

`Misread` says this of a fault and a source, and every reader of a head gives
such faults only (`misread_ofCode`).
-/
import CallSignature.Proofs.Head.Classes
import CallSignature.Proofs.Nesting.Breaks

namespace CallSignature

open Cursor Unicode

/-! ## Faults -/

/-- The fault of a head in this source, from which the comments have been
taken out. -/
inductive Misread (source : Text) : Fault → Prop
  /-- What should stand here does not. -/
  | missing {cause : Cause} {place : Nat} {hint : Option Hint} (hplace : source.IsEdge place)
    (hhint : ∀ openedAt, hint ≠ some (.groupNeverClosed openedAt)) :
    Misread source ⟨cause, some place, hint⟩
  /-- A group has no end. -/
  | group {front part : Text} {opener closer : Char} {fault : Fault}
    (hsource : source = front ++ opener :: part) (hopener : closerOf? opener = some closer)
    (hbreaks : Breaks (opener :: part) fault) :
    Misread source (closerFault front.width fault)
  /-- The expression behind the word `extends` is broken. -/
  | supertype {front part : Text} {fault : Fault}
    (hsource : source = front ++ "extends".toList ++ part) (hbreaks : Breaks part fault) :
    Misread source (fault.shifted (Text.width (front ++ "extends".toList)))

/-- A break of what the source goes on with. -/
theorem Breaks.isEdge_shifted {front part : Text} {fault : Fault} (h : Breaks part fault) :
    ∃ place, (fault.shifted front.width).offset = some place ∧
      (front ++ part).IsEdge place := by
  obtain ⟨a, c, b, rfl, hc, hplace⟩ := h.exists_visible
  refine ⟨Text.width (front ++ a), ?_, ?_⟩
  · simp [Fault.shifted, hplace, Nat.add_comm]
  · rw [← List.append_assoc]
    exact Text.isEdge_before (front ++ a) hc b

/-- A head goes wrong at an edge of the source. -/
theorem Misread.exists_edge {source : Text} {fault : Fault} (h : Misread source fault) :
    ∃ place, fault.offset = some place ∧ source.IsEdge place := by
  cases h with
  | missing hplace => exact ⟨_, rfl, hplace⟩
  | group hsource hopener hbreaks =>
    rw [hsource]
    exact hbreaks.isEdge_shifted
  | supertype hsource hbreaks =>
    rw [hsource]
    exact hbreaks.isEdge_shifted

/-- The bracket `found`, and what stands before it in the part of the source
that is read behind `front`: the opening bracket whose group it does not close,
and nothing open in between. -/
structure IsMismatch (source front before between behind : Text)
    (opener expected found : Char) :
    Prop where
  source_eq : source = front ++ (before ++ opener :: between) ++ found :: behind
  /-- The part begins at a bracket, or behind the word `extends`. -/
  start :
    (∃ c rest closer, before ++ opener :: between = c :: rest ∧ closerOf? c = some closer) ∨
      "extends".toList <:+ front
  closerOf?_opener : closerOf? opener = some expected
  orderly_between : Orderly between
  isCloser_found : isCloser found = true
  expected_ne : expected ≠ found

/-- A head that goes wrong by a bracket is put down to the group that the
bracket does not close.  The bracket is told by its place in the source, and
the group by its place in the part that was read. -/
theorem Misread.exists_mismatch {source : Text} {fault : Fault} {openedAt : Nat}
    (h : Misread source fault) (hhint : fault.hint = some (.groupNeverClosed openedAt)) :
    ∃ (front before between behind : Text) (opener expected found : Char),
      IsMismatch source front before between behind opener expected found ∧
      openedAt = before.width ∧
      fault.offset = some (Text.width (front ++ (before ++ opener :: between))) ∧
      (fault.cause = .closerMismatch expected found ∨
        fault.cause = .boundaryMissing (.closerMismatch expected found)) := by
  cases h with
  | missing hplace hother => exact absurd hhint (hother openedAt)
  | @group front part first closer fault hsource hfirst hbreaks =>
    cases hbreaks with
    | unmatched | literal | unclosed => cases hhint
    | @mismatch before between behind opener expected found ht hopener hm hfound hne =>
      have hstart : ∃ rest, before ++ opener :: between = first :: rest := by
        cases before with
        | nil =>
          obtain ⟨rfl, -⟩ := List.cons.inj ht
          exact ⟨between, rfl⟩
        | cons c before =>
          obtain ⟨rfl, -⟩ := List.cons.inj ht
          exact ⟨_, rfl⟩
      obtain ⟨rest, hrest⟩ := hstart
      refine ⟨front, before, between, behind, opener, expected, found,
        ⟨by rw [hsource, ht]; simp, .inl ⟨first, rest, closer, hrest, hfirst⟩, hopener, hm,
          hfound, hne⟩, (Hint.groupNeverClosed.inj (Option.some.inj hhint)).symm, ?_, .inr rfl⟩
      rw [Text.width_append front, Nat.add_comm]
      rfl
  | @supertype front part fault hsource hbreaks =>
    cases hbreaks with
    | unmatched | literal | unclosed => cases hhint
    | @mismatch before between behind opener expected found ht hopener hm hfound hne =>
      refine ⟨front ++ "extends".toList, before, between, behind, opener, expected, found,
        ⟨by rw [hsource, ht]; simp, .inr (List.suffix_append _ _), hopener, hm, hfound, hne⟩,
        (Hint.groupNeverClosed.inj (Option.some.inj hhint)).symm, ?_, .inl rfl⟩
      rw [Text.width_append (front ++ _), Nat.add_comm]
      rfl

/-! ## Cursors at edges -/

namespace Cursor

/-- The cursor does not stand inside white space. -/
def IsAtEdge (c : Cursor) : Prop :=
  Text.Meets c.behind.reverse c.rest

variable {c d : Cursor}

theorem IsAtEdge.isEdge (h : c.IsAtEdge) : c.text.IsEdge c.offset :=
  ⟨c.behind.reverse, c.rest, rfl, Text.width_reverse c.behind, h⟩

theorem isAtEdge_skipWhiteSpace (c : Cursor) : c.skipWhiteSpace.IsAtEdge := by
  intro a _ b hb _
  rw [rest_skipWhiteSpace] at hb
  exact Text.head?_trimStart hb

@[simp] theorem text_skipWhiteSpace (c : Cursor) : c.skipWhiteSpace.text = c.text :=
  (passes_skipWhiteSpace c).text_eq

/-- Behind a word that ends with a visible character. -/
theorem isAtEdge_of_passes {a : Text} {x : Char} (hx : isWhiteSpace x = false)
    (h : Passes (a ++ [x]) c d) : d.IsAtEdge := by
  rw [IsAtEdge, h.behind]
  have hbehind :
      ((a ++ [x]).reverse ++ c.behind).reverse = (c.behind.reverse ++ a) ++ [x] := by
    simp
  rw [hbehind]
  exact Text.meets_concat _ hx d.rest

end Cursor

/-! ## Groups -/

section

variable {c d : Cursor}

/-- What is missed where the cursor stands. -/
theorem misread_missing (hc : c.IsAtEdge) {cause : Cause} {hint : Option Hint}
    (hhint : ∀ openedAt, hint ≠ some (.groupNeverClosed openedAt)) :
    Misread c.text ⟨cause, some c.offset, hint⟩ :=
  .missing hc.isEdge hhint

theorem misread_closerDistance {source front part : Text} {opener closer : Char}
    (hsource : source = front ++ opener :: part) (hopener : closerOf? opener = some closer) :
    FaultsSatisfy (Misread source) (closerDistance front.width (opener :: part)) := by
  unfold closerDistance
  split
  · exact .ok _
  · rename_i fault hfault
    exact .error (.group hsource hopener (breaks_of_closingBracket hopener part fault hfault))

/-- The group before which the cursor stands. -/
theorem misread_group {opener closer : Char} (hopener : closerOf? opener = some closer)
    (hpeek : c.peek = opener) (hnull : opener ≠ '\x00') :
    FaultsSatisfy (Misread c.text) (closerDistance c.offset c.rest) := by
  obtain ⟨rest, hrest⟩ := rest_of_peek hpeek hnull
  have hgroup := @misread_closerDistance c.text c.behind.reverse rest opener closer
    (by rw [text, hrest]) hopener
  rwa [Text.width_reverse, ← hrest] at hgroup

theorem misread_ofCursor (hc : c.IsAtEdge) :
    FaultsSatisfy (Misread c.text) (ParameterList.ofCursor c) := by
  unfold ParameterList.ofCursor
  split
  · rename_i hpeek
    split
    · exact .ok _
    · rename_i fault hfault
      exact .error (misread_group closerOf?_round hpeek (by decide) fault hfault)
  · exact .error (misread_missing hc nofun)

/-! ## Heads of callables -/

theorem misread_headFault (hc : c.IsAtEdge) : Misread c.text (headFault c) :=
  misread_missing hc nofun

theorem misread_ofArrow (hc : c.IsAtEdge) :
    FaultsSatisfy (Misread c.text) (ParameterList.ofArrow c) := by
  unfold ParameterList.ofArrow
  split
  · exact (misread_ofCursor hc).map _
  · exact .ok _

theorem misread_arrow (isAsync : Bool) (hc : c.IsAtEdge) :
    FaultsSatisfy (Misread c.text) (Head.arrow isAsync c) := by
  unfold Head.arrow
  split
  · rename_i fault hfault
    exact .error (misread_ofArrow hc fault hfault)
  · exact .ok _
  · split
    · exact .ok _
    · exact .ok _

theorem misread_asyncArrow (c : Cursor) :
    FaultsSatisfy (Misread c.text) (Head.asyncArrow c) := by
  unfold Head.asyncArrow
  split
  · exact .ok _
  · rename_i next hword
    have harrow := (misread_arrow true (isAtEdge_skipWhiteSpace next)).map (·.1)
    rwa [text_skipWhiteSpace, (passes_of_matchWord hword).text_eq] at harrow

theorem isAtEdge_modifiers (isAsync : Bool) (hc : c.IsAtEdge) :
    (modifiers isAsync c).2.IsAtEdge := by
  fun_induction modifiers isAsync c with
  | case1 isAsync c h => exact hc
  | case2 isAsync c word next h hmore ih => exact ih (isAtEdge_skipWhiteSpace next)
  | case3 isAsync c word next h hmore => exact hc

theorem isAtEdge_generatorMark (hc : c.IsAtEdge) : (generatorMark c).2.IsAtEdge := by
  unfold generatorMark
  split
  · exact isAtEdge_skipWhiteSpace _
  · exact hc

theorem misread_memberName (hc : c.IsAtEdge) :
    FaultsSatisfy (Misread c.text) (memberName c) := by
  unfold memberName
  split
  · exact .ok _
  · split
    · rename_i hpeek
      split
      · exact .ok _
      · rename_i fault hfault
        exact .error (misread_group closerOf?_square hpeek (by decide) fault hfault)
    · split
      · split
        · exact .ok _
        · exact .error (misread_headFault hc)
      · exact .error (misread_headFault hc)

/-- What is missed further on is missed in the same source. -/
theorem Cursor.Reaches.misread {α : Type} {x : Except Fault α} (h : c.Reaches d)
    (hx : FaultsSatisfy (Misread d.text) x) : FaultsSatisfy (Misread c.text) x := by
  rwa [h.text_eq] at hx

theorem misread_function (isAsync : Bool) (c : Cursor) :
    FaultsSatisfy (Misread c.text) (Head.function isAsync c) := by
  have hlist : c.Reaches
      ((generatorMark c).2.identifier.getD ([], (generatorMark c).2)).2.skipWhiteSpace :=
    ((reaches_generatorMark c).trans (reaches_getD_identifier _)).trans
      (reaches_skipWhiteSpace _)
  exact (hlist.misread (misread_ofCursor (isAtEdge_skipWhiteSpace _))).bind fun _ _ => .ok _

theorem misread_method (isAsync : Bool) (hc : c.IsAtEdge) :
    FaultsSatisfy (Misread c.text) (Head.method isAsync c) := by
  have hname := reaches_generatorMark c
  refine (hname.misread (misread_memberName (isAtEdge_generatorMark hc))).bind
    fun (name, d) hd => ?_
  have hlist := (hname.trans (reaches_of_memberName hd)).trans (reaches_skipWhiteSpace d)
  have hread := hlist.misread (misread_ofCursor (isAtEdge_skipWhiteSpace d))
  refine hread.bind fun (list, e) he => ?_
  have hbody := (hlist.trans (listAhead_of_ofCursor he).2).trans (reaches_skipWhiteSpace e)
  dsimp only
  split
  · exact hbody.misread (.error (misread_headFault (isAtEdge_skipWhiteSpace e)))
  · exact .ok _

theorem misread_member (hc : c.IsAtEdge) :
    FaultsSatisfy (Misread c.text) (Head.member c) := by
  have hreach := reaches_modifiers false c
  rw [member_eq]
  split
  · rename_i next hword
    exact ((hreach.trans (reaches_of_matchWord (by decide) hword)).trans
      (reaches_skipWhiteSpace next)).misread (misread_function _ _)
  · exact hreach.misread (misread_method _ (isAtEdge_modifiers false hc))

theorem misread_head (hc : c.IsAtEdge) : FaultsSatisfy (Misread c.text) (Head.ofCursor c) := by
  refine (misread_arrow false hc).bind fun found _ => ?_
  split
  · exact .ok _
  · refine (misread_asyncArrow c).bind fun found _ => ?_
    split
    · exact .ok _
    · exact misread_member hc

/-! ## Heads of classes -/

theorem misread_constructorList {source before tail : Text}
    (hsource : source = before ++ '(' :: tail) :
    FaultsSatisfy (Misread source) (constructorList source before.width) := by
  have hlist := misread_closerDistance hsource closerOf?_round
  unfold constructorList
  rw [show source.dropBytes before.width = '(' :: tail by rw [hsource, Text.dropBytes_append]]
  split
  · rename_i fault hfault
    exact .error (hlist fault hfault)
  · split
    · exact .ok _
    · exact .ok _

theorem misread_firstFound {source : Text} {find : Nat → Except Fault (Option ParameterList)}
    {places : List Nat} (h : ∀ place ∈ places, FaultsSatisfy (Misread source) (find place)) :
    FaultsSatisfy (Misread source) (firstFound find places) := by
  induction places with
  | nil => exact .ok _
  | cons place places ih =>
    obtain ⟨hplace, hplaces⟩ := List.forall_mem_cons.1 h
    unfold firstFound
    split
    · rename_i fault hfault
      exact .error (hplace fault hfault)
    · exact .ok _
    · exact ih hplaces

/-- The body of a class is orderly, so that it can be searched. -/
theorem misread_ownConstructor {source before body behind : Text}
    (hsource : source = before ++ body ++ behind) (hbody : Orderly body) :
    FaultsSatisfy (Misread source)
      (ownConstructor source before.width (before.width + body.width)) := by
  have hslice : source.slice before.width (before.width + body.width) = body := by
    rw [hsource, Text.slice_append]
  rw [ownConstructor, hslice, scan_of_orderly hbody]
  refine misread_firstFound fun place hplace => ?_
  obtain ⟨v, hv, rfl⟩ := List.mem_map.1 hplace
  obtain ⟨a, b, ht, hoffset, -⟩ := exists_of_mem_visits (List.mem_filter.1 hv).1
  rw [hoffset, constructorAt,
    show body.dropBytes a.width = v.char :: b by rw [ht, Text.dropBytes_append]]
  split
  · exact .ok _
  · rename_i distance hdistance
    split
    · obtain ⟨space, tail, hword, -, rfl⟩ := constructorOpener?_eq_some hdistance
      have hopener : source
          = (before ++ a ++ (constructorWord ++ space)) ++ '(' :: (tail ++ behind) := by
        rw [hsource, ht, hword]
        simp
      rw [← Text.width_append, ← Text.width_append]
      exact misread_constructorList hopener
    · exact .ok _

theorem misread_bodyConstructor (hc : c.IsAtEdge) :
    FaultsSatisfy (Misread c.text) (bodyConstructor c) := by
  unfold bodyConstructor
  split
  · rename_i hpeek
    split
    · rename_i fault hfault
      exact .error (misread_group closerOf?_curly hpeek (by decide) fault hfault)
    · rename_i last hlast
      obtain ⟨before, body, behind, hbody, -, hsource, hstart, hstop⟩ :=
        exists_classBody hpeek hlast
      rw [hstart, hstop]
      exact misread_ownConstructor hsource hbody
  · exact .error (misread_missing hc nofun)

/-- What is missed behind the word `extends`. -/
theorem misread_behindExtends (hpass : Passes "extends".toList c d) (cause : Cause) :
    Misread c.text (cause.located d.offset) := by
  have hd : d.IsAtEdge :=
    isAtEdge_of_passes (a := "extend".toList) (x := 's') (by decide) hpass
  rw [← hpass.text_eq]
  exact misread_missing hd nofun

theorem misread_bodyDistance (hpass : Passes "extends".toList c d) :
    FaultsSatisfy (Misread c.text) (bodyDistance d) := by
  have hsource : c.text = c.behind.reverse ++ "extends".toList ++ d.rest := by
    rw [text, hpass.rest, List.append_assoc]
  have hoffset : d.offset = Text.width (c.behind.reverse ++ "extends".toList) := by
    rw [hpass.offset, Text.width_append, Text.width_reverse, offset]
  unfold bodyDistance
  split
  · rename_i found hfound
    rw [hoffset]
    exact .error (.supertype hsource (breaks_of_firstVisit _ _ _ hfound))
  · exact .error (misread_behindExtends hpass _)
  · exact .ok _

theorem misread_supertypeReference (hpass : Passes "extends".toList c d) :
    FaultsSatisfy (Misread c.text) (supertypeReference d) := by
  unfold supertypeReference
  split
  · rename_i fault hfault
    exact .error (misread_bodyDistance hpass fault hfault)
  · split
    · exact .error (misread_behindExtends hpass _)
    · exact .ok _

theorem misread_extendsClause (c : Cursor) :
    FaultsSatisfy (Misread c.text) (extendsClause c) := by
  unfold extendsClause
  split
  · exact .ok _
  · rename_i next hword
    exact (misread_supertypeReference (passes_of_matchWord hword)).map _

theorem misread_class (c : Cursor) :
    FaultsSatisfy (Misread c.text) (ClassHead.ofCursor c) := by
  have hclause := ((reaches_skipWhiteSpace c).trans (reaches_className _)).trans
    (reaches_skipWhiteSpace _)
  refine (hclause.misread (misread_extendsClause _)).bind fun (superclass, d) hd => ?_
  have hbody := (hclause.trans (reaches_of_extendsClause hd)).trans (reaches_skipWhiteSpace d)
  exact (hbody.misread (misread_bodyConstructor (isAtEdge_skipWhiteSpace d))).bind
    fun _ _ => .ok _

end

/-! ## Sources -/

theorem misread_ofCode (source : Text) :
    FaultsSatisfy (Misread source) (Declaration.ofCode source) := by
  have hstart := reaches_skipWhiteSpace (Cursor.ofText source)
  unfold Declaration.ofCode
  dsimp only
  split
  · rename_i behind hclass
    exact ((hstart.trans (reaches_of_classStart? hclass)).misread (misread_class behind)).map _
  · exact (hstart.misread (misread_head (isAtEdge_skipWhiteSpace _))).map _

end CallSignature
