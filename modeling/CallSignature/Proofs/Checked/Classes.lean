/-
CallSignature.Proofs.Checked.Classes — class bodies are searched at boundaries.

The search for a constructor goes through the MENTIONS of its word in the body
of a class, whether they stand in a literal, in a group or outside, and looks
up in a table which of them stand outside.  The table has an entry for every
byte of the body.  It is filled while the body is scanned, so that a body in
which something breaks has filled a part of it.

The library goes the other way: from the places outside groups to the mentions
among them.  Both come to the same places in the same order
(`outside_mentions`).
-/
import CallSignature.Proofs.Checked.Heads
import CallSignature.Proofs.Head.OwnConstructor
import Mathlib.Data.List.Sort

namespace CallSignature

open Cursor Unicode

/-! ## Places of a class body -/

/-- The places of the body outside literals and groups. -/
def Text.outside (body : Text) : List Nat :=
  (body.visits.filter (·.depth == 0)).map (·.offset)

/-- Whether the word of a constructor, with a parenthesis behind it, begins at
this place of the body. -/
def isMention (body : Text) (place : Nat) : Bool :=
  body.IsBoundary place && (constructorOpener? (body.dropBytes place)).isSome
    && endsWord (body.takeBytes place)

/-- The places of the body where the word of a constructor begins, with a
parenthesis behind it. -/
def mentions (body : Text) : List Nat :=
  (List.range body.width).filter (isMention body)

section

variable {body : Text} {place : Nat}

theorem lt_width_of_mem_visits {v : Visit} (hv : v ∈ body.visits) : v.offset < body.width := by
  obtain ⟨a, b, ht, hoffset, -⟩ := exists_of_mem_visits hv
  have hsize := v.char.utf8Size_pos
  rw [hoffset, ht, Text.width_append, Text.width_cons]
  omega

theorem mem_outside_iff :
    place ∈ body.outside ↔ ∃ v ∈ body.visits, v.depth = 0 ∧ v.offset = place := by
  simp [Text.outside, and_assoc]

/-- What a mention is, with the text on both sides of it. -/
theorem isMention_iff : isMention body place = true ↔
    ∃ before space tail : Text, body = before ++ (constructorWord ++ space ++ '(' :: tail) ∧
      space.isBlank = true ∧ endsWord before = true ∧ place = before.width := by
  constructor
  · intro h
    simp only [isMention, Bool.and_eq_true, decide_eq_true_eq, Option.isSome_iff_exists] at h
    obtain ⟨⟨⟨before, behind, rfl, rfl⟩, distance, hopener⟩, hword⟩ := h
    rw [Text.dropBytes_append] at hopener
    rw [Text.takeBytes_append] at hword
    obtain ⟨space, tail, rfl, hspace, -⟩ := constructorOpener?_eq_some hopener
    exact ⟨before, space, tail, rfl, hspace, hword, rfl⟩
  · rintro ⟨before, space, tail, rfl, hspace, hword, rfl⟩
    have hboundary : Text.IsBoundary (before ++ (constructorWord ++ space ++ '(' :: tail))
        before.width := ⟨before, _, rfl, rfl⟩
    rw [isMention, Text.dropBytes_append, Text.takeBytes_append,
      constructorOpener?_word hspace, hword, decide_eq_true hboundary]
    rfl

/-- Nothing is found where nothing is mentioned. -/
theorem constructorAt_of_not_isMention (source : Text) (start : Nat)
    (hplace : body.IsBoundary place) (h : isMention body place = false) :
    constructorAt source start body place = .ok none := by
  rw [isMention, decide_eq_true hplace, Bool.true_and, Bool.and_eq_false_iff] at h
  unfold constructorAt
  split
  · rfl
  · rename_i distance hopener
    rw [hopener] at h
    have hword : endsWord (body.takeBytes place) = false := h.resolve_left nofun
    rw [hword]
    rfl

/-- The mentions outside groups are the places outside groups where a mention
begins. -/
theorem outside_mentions (h : Orderly body) :
    (mentions body).filter body.outside.contains
      = ((body.visits.filter (·.isTopLevel 'c')).map (·.offset)).filter (isMention body) := by
  refine List.Pairwise.eq_of_mem_iff (r := (· < ·))
    ((List.pairwise_lt_range.filter _).filter _) ((pairwise_places h _).filter _)
    fun place => ?_
  simp only [mentions, List.mem_filter, List.mem_range, List.contains_iff_mem, mem_outside_iff,
    List.mem_map]
  constructor
  · rintro ⟨⟨-, hmention⟩, v, hv, hdepth, rfl⟩
    obtain ⟨a, b, ht, hoffset, -⟩ := exists_of_mem_visits hv
    obtain ⟨before, space, tail, hbody, -, -, hplace⟩ := isMention_iff.1 hmention
    -- the word begins with the character that is visited there
    have hchar : v.char = 'c' := by
      have hdrop := congrArg (Text.dropBytes v.offset) (ht.symm.trans hbody)
      rw [hoffset, Text.dropBytes_append, ← hoffset, hplace, Text.dropBytes_append] at hdrop
      exact (List.cons.inj hdrop).1
    exact ⟨⟨v, ⟨hv, isTopLevel_iff.2 ⟨hdepth, hchar⟩⟩, rfl⟩, hmention⟩
  · rintro ⟨⟨v, ⟨hv, htop⟩, rfl⟩, hmention⟩
    exact ⟨⟨lt_width_of_mem_visits hv, hmention⟩, v, hv, (isTopLevel_iff.1 htop).1, rfl⟩

end

/-! ## Searches -/

section

variable {find find' : Nat → Except Fault (Option ParameterList)} {places : List Nat}

/-- Places where nothing is found can be left out of a search. -/
theorem firstFound_filter {p : Nat → Bool}
    (h : ∀ place ∈ places, p place = false → find place = .ok none) :
    firstFound find (places.filter p) = firstFound find places := by
  induction places with
  | nil => rfl
  | cons place places ih =>
    obtain ⟨hplace, hplaces⟩ := List.forall_mem_cons.1 h
    cases hp : p place with
    | true => rw [List.filter_cons_of_pos hp, firstFound, firstFound, ih hplaces]
    | false =>
      rw [List.filter_cons_of_neg (by simp [hp]), ih hplaces, firstFound.eq_2, hplace hp]

theorem firstFound_congr (h : ∀ place ∈ places, find place = find' place) :
    firstFound find places = firstFound find' places := by
  induction places with
  | nil => rfl
  | cons place places ih =>
    obtain ⟨hplace, hplaces⟩ := List.forall_mem_cons.1 h
    rw [firstFound, firstFound, hplace, ih hplaces]

/-- The search at the places outside groups and the search at the mentions both
come to the mentions outside groups. -/
theorem firstFound_mentions {body : Text} (h : Orderly body) (source : Text) (start : Nat) :
    firstFound (constructorAt source start body)
        ((body.visits.filter (·.isTopLevel 'c')).map (·.offset))
      = firstFound
          (fun place =>
            if body.outside.contains place then constructorAt source start body place
            else .ok none)
          (mentions body) := by
  have hplaces : ∀ place ∈ (body.visits.filter (·.isTopLevel 'c')).map (·.offset),
      isMention body place = false → constructorAt source start body place = .ok none := by
    intro place hplace hmention
    obtain ⟨v, hv, rfl⟩ := List.mem_map.1 hplace
    obtain ⟨a, b, ht, hoffset, -⟩ := exists_of_mem_visits (List.mem_filter.1 hv).1
    exact constructorAt_of_not_isMention _ _ ⟨a, v.char :: b, ht, hoffset.symm⟩ hmention
  have hmentions : ∀ place ∈ mentions body, body.outside.contains place = false →
      (if body.outside.contains place then constructorAt source start body place
        else .ok none) = .ok none := by
    intro place _ houtside
    rw [houtside]
    rfl
  rw [← firstFound_filter hplaces, ← firstFound_filter hmentions, ← outside_mentions h]
  exact firstFound_congr fun place hplace => (if_pos (List.mem_filter.1 hplace).2).symm

end

namespace Checked

/-! ## The table -/

/-- The table with the entry at this place replaced. -/
def write {α : Type} (table : List α) (place : Nat) (a : α) : Checked (List α) :=
  ExceptT.lift (if place < table.length then some (table.set place a) else none)

/-- The table with the entries that the visits make. -/
def marked (table : List Bool) : List Visit → List Bool
  | [] => table
  | v :: visits => marked (table.set v.offset (v.depth == 0)) visits

/-- The same, with every entry made in its place or refused. -/
def mark (table : List Bool) : List Visit → Checked (List Bool)
  | [] => return table
  | v :: visits => do mark (← write table v.offset (v.depth == 0)) visits

/-- The table of the places outside groups, with an entry for every byte of
the body. -/
def outsideTable (body : Text) : Checked (List Bool) := do
  let table ← mark (List.replicate body.width false) body.visits
  of ((scan body).map fun _ => table)

section

variable {body : Text} {table : List Bool} {visits : List Visit} {place : Nat}

theorem mark_eq (h : ∀ v ∈ visits, v.offset < table.length) :
    mark table visits = pure (marked table visits) := by
  induction visits generalizing table with
  | nil => rfl
  | cons v visits ih =>
    obtain ⟨hv, hvisits⟩ := List.forall_mem_cons.1 h
    rw [mark, write, if_pos hv]
    exact ih (by rwa [List.length_set])

/-- No entry is made but at the places of visits. -/
theorem getElem?_marked_of_forall_ne (h : ∀ v ∈ visits, v.offset ≠ place) :
    (marked table visits)[place]? = table[place]? := by
  induction visits generalizing table with
  | nil => rfl
  | cons v visits ih =>
    obtain ⟨hv, hvisits⟩ := List.forall_mem_cons.1 h
    rw [marked, ih hvisits, List.getElem?_set_ne hv]

/-- The entry at the place of a visit, if no other visit is to that place. -/
theorem getElem?_marked_of_mem (hordered : visits.Pairwise (·.offset < ·.offset))
    (hbound : ∀ v ∈ visits, v.offset < table.length) {v : Visit} (hv : v ∈ visits) :
    (marked table visits)[v.offset]? = some (v.depth == 0) := by
  induction visits generalizing table with
  | nil => cases hv
  | cons w visits ih =>
    obtain ⟨hless, hordered⟩ := List.pairwise_cons.1 hordered
    obtain ⟨hw, hvisits⟩ := List.forall_mem_cons.1 hbound
    rw [marked]
    rcases List.mem_cons.1 hv with rfl | hv
    · rw [getElem?_marked_of_forall_ne fun u hu => Nat.ne_of_gt (hless u hu),
        List.getElem?_set_self hw]
    · exact ih hordered (by rwa [List.length_set]) hv

/-- An orderly body has a table in which every place outside groups is found,
and no other. -/
theorem entry_marked (h : Orderly body) (hplace : place < body.width) :
    entry (marked (List.replicate body.width false) body.visits) place
      = pure (body.outside.contains place) := by
  have hbound : ∀ v ∈ body.visits, v.offset < (List.replicate body.width false).length := by
    intro v hv
    rw [List.length_replicate]
    exact lt_width_of_mem_visits hv
  have hordered := pairwise_visits h
  have hentry : (marked (List.replicate body.width false) body.visits)[place]?
      = some (body.outside.contains place) := by
    -- an entry was made for the visit to this place, or none was made there
    by_cases hvisit : ∃ v ∈ body.visits, v.offset = place
    · obtain ⟨v, hv, rfl⟩ := hvisit
      rw [getElem?_marked_of_mem hordered hbound hv, Option.some.injEq, Bool.eq_iff_iff,
        List.contains_iff_mem, mem_outside_iff, beq_iff_eq]
      constructor
      · exact fun hdepth => ⟨v, hv, hdepth, rfl⟩
      · rintro ⟨w, hw, hdepth, hsame⟩
        have hentries := getElem?_marked_of_mem hordered hbound hw
        rw [hsame, getElem?_marked_of_mem hordered hbound hv] at hentries
        simpa [hdepth] using hentries
    · have hnone : ∀ v ∈ body.visits, v.offset ≠ place := fun v hv heq => hvisit ⟨v, hv, heq⟩
      have hmem : place ∉ body.outside := fun hmem =>
        let ⟨v, hv, _, heq⟩ := mem_outside_iff.1 hmem
        hnone v hv heq
      rw [getElem?_marked_of_forall_ne hnone, List.getElem?_replicate, if_pos hplace]
      simp [hmem]
  rw [entry, hentry]
  rfl

end

/-! ## The constructor -/

/-- The parameter list of the constructor whose opening parenthesis stands at
byte `opener`, if a body follows it. -/
def constructorList (source : Text) (opener : Nat) : Checked (Option ParameterList) := do
  let last ← closerDistance source opener
  let behind ← cut source (opener + last + 1) source.width
  if behind.trimStart.head? = some '{' then
    return some ⟨← cut source (opener + 1) (opener + last), opener + 1⟩
  else return none

/-- The parameter list of the constructor that is mentioned at byte `place` of
the class body, which begins at byte `start` of the source. -/
def constructorAt (source : Text) (start : Nat) (body : Text) (table : List Bool)
    (place : Nat) :
    Checked (Option ParameterList) := do
  if ← entry table place then
    let before ← cut body 0 place
    if endsMember before then
      match constructorOpener? (body.dropBytes place) with
      | some distance => constructorList source (start + place + distance)
      | none => return none
    else return none
  else return none

/-- The first parameter list that `find` finds at one of the places. -/
def firstFound (find : Nat → Checked (Option ParameterList)) :
    List Nat → Checked (Option ParameterList)
  | [] => return none
  | place :: places => do
    match ← find place with
    | some found => return some found
    | none => firstFound find places

/-- The parameter list of the constructor in the class body that goes from
byte `start` up to but excluding byte `stop` of the source. -/
def ownConstructor (source : Text) (start stop : Nat) : Checked (Option ParameterList) := do
  let body ← cut source start stop
  let table ← shift start (outsideTable body)
  firstFound (constructorAt source start body table) (mentions body)

section

variable {source before body behind : Text}

theorem constructorList_eq (before tail : Text) :
    constructorList (before ++ '(' :: tail) before.width
      = of (CallSignature.constructorList (before ++ '(' :: tail) before.width) := by
  rw [constructorList, closerDistance_append]
  cases hlast : CallSignature.closerDistance before.width ('(' :: tail) with
  | error fault =>
    rw [CallSignature.constructorList, Text.dropBytes_append, hlast]
    rfl
  | ok last =>
    obtain ⟨params, behind, rfl, hparams, rfl⟩ :=
      (closerDistance_eq_ok_iff closerOf?_round).1 hlast
    have hgroup : before ++ '(' :: (params ++ ')' :: behind)
        = (before ++ ('(' :: params ++ [')'])) ++ behind := by simp
    have hwidth : before.width + (1 + params.width) + 1
        = Text.width (before ++ ('(' :: params ++ [')'])) := by
      rw [Text.width_append, width_group closerOf?_round]
      rfl
    rw [of_ok, pure_bind, cut_to_end hgroup hwidth, pure_bind, cut_inner rfl,
      constructorList_group hparams]
    split <;> rfl

theorem firstFound_of {find : Nat → Except Fault (Option ParameterList)}
    {checked : Nat → Checked (Option ParameterList)} {places : List Nat}
    (h : ∀ place ∈ places, checked place = of (find place)) :
    firstFound checked places = of (CallSignature.firstFound find places) := by
  induction places with
  | nil => rfl
  | cons place places ih =>
    obtain ⟨hplace, hplaces⟩ := List.forall_mem_cons.1 h
    rw [firstFound, hplace, CallSignature.firstFound, ih hplaces]
    cases find place with
    | error fault => rfl
    | ok found => cases found <;> rfl

/-- What is found at a mention: nothing unless it stands outside groups. -/
theorem constructorAt_eq (hbody : Orderly body) {place : Nat}
    (hplace : place ∈ mentions body) :
    constructorAt (before ++ body ++ behind) before.width body
        (marked (List.replicate body.width false) body.visits) place
      = of (if body.outside.contains place then
          CallSignature.constructorAt (before ++ body ++ behind) before.width body place
        else .ok none) := by
  obtain ⟨hbound, hmention⟩ := List.mem_filter.1 hplace
  rw [constructorAt, entry_marked hbody (List.mem_range.1 hbound), pure_bind]
  cases body.outside.contains place with
  | false => rfl
  | true =>
    obtain ⟨front, space, tail, rfl, hspace, hword, rfl⟩ := isMention_iff.1 hmention
    rw [if_pos rfl, if_pos rfl, cut_from_start rfl rfl, pure_bind, CallSignature.constructorAt,
      Text.dropBytes_append, Text.takeBytes_append, constructorOpener?_word hspace, hword,
      Bool.true_and]
    dsimp only
    split
    · have hsource : before ++ (front ++ (constructorWord ++ space ++ '(' :: tail)) ++ behind
          = (before ++ front ++ (constructorWord ++ space)) ++ '(' :: (tail ++ behind) := by
        simp
      rw [hsource, ← Text.width_append, ← Text.width_append]
      exact constructorList_eq _ _
    · rfl

theorem ownConstructor_eq (before body behind : Text) :
    ownConstructor (before ++ body ++ behind) before.width (before.width + body.width)
      = of (CallSignature.ownConstructor (before ++ body ++ behind) before.width
          (before.width + body.width)) := by
  -- every visit has its entry, also in front of a break
  have hmark : mark (List.replicate body.width false) body.visits
      = pure (marked (List.replicate body.width false) body.visits) :=
    mark_eq fun v hv => by
      rw [List.length_replicate]
      exact lt_width_of_mem_visits hv
  rw [ownConstructor, cut_of_eq rfl rfl rfl, pure_bind, outsideTable, hmark, pure_bind,
    shift_of, CallSignature.ownConstructor, Text.slice_append]
  cases hscan : scan body with
  | error fault => rfl
  | ok visits =>
    have hbody : Orderly body := ⟨visits, hscan⟩
    obtain rfl := eq_visits_of_scan hscan
    show firstFound _ (mentions body) = of (CallSignature.firstFound _ _)
    rw [firstFound_of fun place hplace => constructorAt_eq hbody hplace]
    refine congrArg of ?_
    exact (firstFound_mentions hbody _ _).symm

end

/-! ## Heads of classes -/

/-- The name of the class, and the cursor behind it. -/
def className (c : Cursor) : Checked (Text × Cursor) := do
  if ← startsWithWord "extends".toList c then return ([], c)
  else return (← identifier c).getD ([], c)

/-- How far the class body is from the cursor. -/
def bodyDistance (c : Cursor) : Checked Nat := do
  match firstVisit (·.isTopLevel '{') (← rest c) with
  | .error fault => throw (fault.shifted c.offset)
  | .ok none => throw (Cause.classBodyMissing.located c.offset)
  | .ok (some visit) => return visit.offset

/-- The supertype behind the word `extends`, and the cursor behind it. -/
def supertypeReference (c : Cursor) : Checked (Text × Cursor) := do
  let distance ← bodyDistance c
  let reference ← cut c.text c.offset (c.offset + distance)
  if reference.trim.isEmpty then throw (Cause.supertypeMissing.located c.offset)
  else return (reference.trim, c.seek (c.offset + distance))

/-- The supertype of the class, if it has one, and the cursor behind it. -/
def extendsClause (c : Cursor) : Checked (Option Text × Cursor) := do
  match ← matchWord "extends".toList c with
  | none => return (none, c)
  | some next =>
    let (reference, behind) ← supertypeReference next
    return (some reference, behind)

/-- The parameters of the constructor in the class body before which the
cursor stands. -/
def bodyConstructor (c : Cursor) : Checked (Option ParameterList) := do
  if c.peek = '{' then
    let last ← closerDistance c.text c.offset
    ownConstructor c.text (c.offset + 1) (c.offset + last)
  else throw (Cause.classBodyExpected.located c.offset)

/-- The head of a class behind the word `class`. -/
def classHead (c : Cursor) : Checked ClassHead := do
  let (name, c) ← className c.skipWhiteSpace
  let (superclass, c) ← extendsClause c.skipWhiteSpace
  let constructor ← bodyConstructor c.skipWhiteSpace
  return { name, superclass, constructor }

section

variable {c : Cursor}

theorem className_eq (c : Cursor) : className c = pure (CallSignature.className c) := by
  rw [className, startsWithWord_eq, pure_bind, identifier_eq, pure_bind,
    CallSignature.className]
  split <;> rfl

theorem bodyDistance_eq (c : Cursor) : bodyDistance c = of (CallSignature.bodyDistance c) := by
  rw [bodyDistance, rest_eq, pure_bind, CallSignature.bodyDistance]
  rcases firstVisit (·.isTopLevel '{') c.rest with fault | _ | visit <;> rfl

theorem supertypeReference_eq (c : Cursor) :
    supertypeReference c = of (CallSignature.supertypeReference c) := by
  rw [supertypeReference, bodyDistance_eq, CallSignature.supertypeReference]
  cases hdistance : CallSignature.bodyDistance c with
  | error fault => rfl
  | ok distance =>
    obtain ⟨a, b, hrest, -, rfl⟩ := exists_of_bodyDistance hdistance
    show (cut c.text c.offset (c.offset + a.width) >>= _) = _
    rw [cut_ahead hrest, pure_bind, hrest]
    dsimp only
    rw [Text.takeBytes_append]
    split <;> rfl

theorem extendsClause_eq (c : Cursor) :
    extendsClause c = of (CallSignature.extendsClause c) := by
  rw [extendsClause, matchWord_eq, pure_bind, CallSignature.extendsClause]
  cases c.matchWord "extends".toList with
  | none => rfl
  | some next =>
    dsimp only
    rw [supertypeReference_eq]
    exact of_map _ _

theorem bodyConstructor_eq (c : Cursor) :
    bodyConstructor c = of (CallSignature.bodyConstructor c) := by
  unfold bodyConstructor CallSignature.bodyConstructor
  split
  · rename_i hpeek
    rw [closerDistance_eq]
    cases hlast : CallSignature.closerDistance c.offset c.rest with
    | error fault => rfl
    | ok last =>
      obtain ⟨before, body, behind, -, -, hsource, hstart, hstop⟩ :=
        exists_classBody hpeek hlast
      rw [of_ok, pure_bind, hsource, hstart, hstop]
      dsimp only
      rw [hstop]
      exact ownConstructor_eq _ _ _
  · rfl

theorem classHead_eq (c : Cursor) : classHead c = of (ClassHead.ofCursor c) := by
  rw [classHead, className_eq, pure_bind]
  dsimp only
  rw [extendsClause_eq]
  refine of_bind fun (superclass, d) _ => ?_
  dsimp only
  rw [bodyConstructor_eq]
  exact of_bind fun _ _ => rfl

end

end Checked

end CallSignature
