/-
CallSignature.Proofs.Shape.Room — how much room a pattern needs.

Two readers that differ only in their room look at the same tokens in the same
order.  So where one of them reads a shape, no token that the other meets is at
fault, and the other reads the same shape or runs out of room.  Which of the
two it does is told by the height of the shape alone
(`reread_of_shapeWithin`): holes and keys without a value are met without
room, and an entry that collects the rest takes two levels, one for the entry
and one for its three dots.
-/
import CallSignature.Proofs.Shape.RoundTrip
import CallSignature.Proofs.Success

namespace CallSignature

open Shape

/-! ## Steps -/

namespace Reread

variable {α β : Type} {limit : Nat} {fits bindable : Prop}

/-- A step that has succeeded. -/
theorem after {x : Except Fault α} {a : α} (hx : x = .ok a) {f : α → Except Fault β}
    {value : β} (h : Reread limit fits bindable value (f a)) :
    Reread limit fits bindable value (x >>= f) := by
  rw [hx]
  exact h

/-- What is made of a value without another look at the source. -/
theorem andThen {value : α} {result : Except Fault α}
    (h : Reread limit fits bindable value result) {f : α → Except Fault β} {g : α → β}
    (hf : ∀ a, f a = .ok (g a)) : Reread limit fits bindable (g value) (result >>= f) := by
  cases h with
  | read hfits hbindable =>
    refine after rfl ?_
    rw [hf]
    exact .read hfits hbindable
  | tooDeep place h => exact .tooDeep place h
  | refused key place h => exact .refused key place h

end Reread

/-! ## Leaves -/

theorem height_ofLeaf (t : Text) : (Shape.ofLeaf t).height = 0 := by
  unfold Shape.ofLeaf
  split
  · rfl
  · split
    · rfl
    · split <;> rfl

/-- Only an empty text is read as a hole. -/
theorem isHole_ofLeaf {t : Text} (h : t ≠ []) : (Shape.ofLeaf t).isHole = false := by
  unfold Shape.ofLeaf
  split
  · rfl
  · split
    · rfl
    · split
      · cases ‹Text› <;> rfl
      · obtain ⟨c, t, rfl⟩ := List.exists_cons_of_ne_nil h
        rfl

theorem isHole_of_shapeWithin {limit room : Nat} {token : Segment} {s : Shape}
    (h : shapeWithin limit room token = .ok s) (hempty : token.isEmpty = false) :
    s.isHole = false := by
  cases room with
  | zero => cases h
  | succ room =>
    obtain ⟨found, -, h⟩ := bind_eq_ok h
    cases found with
    | object =>
      obtain ⟨parts, -, h⟩ := bind_eq_ok h
      obtain ⟨entries, -, h⟩ := bind_eq_ok h
      obtain rfl := Except.ok.inj h
      rfl
    | array =>
      obtain ⟨parts, -, h⟩ := bind_eq_ok h
      obtain ⟨items, -, h⟩ := bind_eq_ok h
      obtain rfl := Except.ok.inj h
      rfl
    | spread =>
      replace h : readSpread (shapeWithin limit room) token = .ok s := h
      unfold readSpread at h
      dsimp only at h
      split at h
      · cases h
      · obtain ⟨operand, -, rfl⟩ := map_eq_ok h
        rfl
    | leaf =>
      obtain rfl := Except.ok.inj h
      exact isHole_ofLeaf (by simpa [Segment.isEmpty] using hempty)

/-! ## One level -/

theorem heightOfEntries_singleton_le {key : Text} {value : Shape} {room : Nat} :
    heightOfEntries [.valued key value] ≤ room ↔ value.height < room := by
  rw [heightOfEntries_cons_le]
  exact and_iff_left (Nat.zero_le _)

/-- What `other` reads, the reader with this room reads too, unless the shape
is too high for the room. -/
def Follows (limit room : Nat) (read other : Segment → Except Fault Shape) : Prop :=
  ∀ ⦃token : Segment⦄ ⦃s : Shape⦄, other token = .ok s →
    Reread limit (s.height < room) True s (read token)

section

variable {limit room : Nat} {read other : Segment → Except Fault Shape}
  (hread : Follows limit room read other)

include hread

theorem Follows.items (hhole : ∀ ⦃token s⦄, other token = .ok s → token.isEmpty = false →
      s.isHole = false) {parts : List Segment} {items : List Shape}
    (h : parts.mapM (readItem other) = .ok items) :
    Reread limit (heightOfItems items ≤ room) True items (parts.mapM (readItem read)) := by
  induction parts generalizing items with
  | nil =>
    obtain rfl := Except.ok.inj h
    exact .read (Nat.zero_le _) trivial
  | cons part parts ih =>
    obtain ⟨item, rest, rfl, hitem, hrest⟩ := mapM_cons_eq_ok h
    have hfirst : Reread limit (item.isHole = false → item.height < room) True item
        (readItem read part) := by
      unfold readItem at hitem ⊢
      cases hempty : part.isEmpty with
      | true =>
        rw [hempty, if_pos rfl] at hitem
        obtain rfl := Except.ok.inj hitem
        exact .read (by simp [hole, bare, isHole]) trivial
      | false =>
        rw [hempty, if_neg Bool.false_ne_true] at hitem
        exact (hread hitem).congr (by simp [hhole hitem hempty]) Iff.rfl
    exact (hfirst.cons (ih hrest)).congr heightOfItems_cons_le.symm (and_self_iff)

theorem Follows.entry {part : Segment} {entry : Entry} (h : readEntry other part = .ok entry) :
    Reread limit (heightOfEntries [entry] ≤ room) True entry (readEntry read part) := by
  obtain ⟨form, hform, h⟩ := bind_eq_ok h
  refine .after hform ?_
  cases form with
  | rest key =>
    obtain ⟨value, hvalue, h⟩ := bind_eq_ok h
    obtain rfl := Except.ok.inj h
    exact ((hread hvalue).andThen fun _ => rfl).congr heightOfEntries_singleton_le.symm Iff.rfl
  | shorthand key =>
    obtain rfl := Except.ok.inj h
    exact .read (Nat.zero_le _) trivial
  | valued key token =>
    obtain ⟨value, hvalue, h⟩ := bind_eq_ok h
    split at h
    · cases h
    · -- the key is there, whatever the value is
      rename_i hkey
      obtain rfl := Except.ok.inj h
      exact ((hread hvalue).andThen fun _ => if_neg hkey).congr
        heightOfEntries_singleton_le.symm Iff.rfl

theorem Follows.entries {parts : List Segment} {entries : List Entry}
    (h : parts.mapM (readEntry other) = .ok entries) :
    Reread limit (heightOfEntries entries ≤ room) True entries
      (parts.mapM (readEntry read)) := by
  induction parts generalizing entries with
  | nil =>
    obtain rfl := Except.ok.inj h
    exact .read (Nat.zero_le _) trivial
  | cons part parts ih =>
    obtain ⟨entry, rest, rfl, hentry, hrest⟩ := mapM_cons_eq_ok h
    refine ((hread.entry hentry).cons (ih hrest)).congr ?_ (and_self_iff)
    cases entry with
    | shorthand key => simp [heightOfEntries]
    | valued key value => rw [heightOfEntries_singleton_le, heightOfEntries_cons_le]

theorem Follows.spread {token : Segment} {s : Shape} (h : readSpread other token = .ok s) :
    Reread limit (s.height ≤ room) True s (readSpread read token) := by
  unfold readSpread at h ⊢
  dsimp only at h ⊢
  split at h
  · cases h
  · rename_i hempty
    obtain ⟨operand, hoperand, rfl⟩ := map_eq_ok h
    rw [if_neg hempty]
    exact ((hread hoperand).map _).congr (by rw [height]; omega) Iff.rfl

/-- A level is followed if the one below it is. -/
theorem Follows.token (hhole : ∀ ⦃token s⦄, other token = .ok s → token.isEmpty = false →
      s.isHole = false) : Follows limit (room + 1) (readToken read) (readToken other) := by
  intro token s h
  obtain ⟨found, hfound, h⟩ := bind_eq_ok h
  refine .after hfound ?_
  cases found with
  | object =>
    obtain ⟨parts, hparts, h⟩ := bind_eq_ok h
    obtain ⟨entries, hentries, h⟩ := bind_eq_ok h
    obtain rfl := Except.ok.inj h
    exact .after hparts (((hread.entries hentries).andThen fun _ => rfl).congr
      Nat.lt_succ_iff.symm Iff.rfl)
  | array =>
    obtain ⟨parts, hparts, h⟩ := bind_eq_ok h
    obtain ⟨items, hitems, h⟩ := bind_eq_ok h
    obtain rfl := Except.ok.inj h
    exact .after hparts (((hread.items hhole hitems).andThen fun _ => rfl).congr
      Nat.lt_succ_iff.symm Iff.rfl)
  | spread => exact (hread.spread h).congr Nat.lt_succ_iff.symm Iff.rfl
  | leaf =>
    obtain rfl := Except.ok.inj h
    exact .read (by simp [height_ofLeaf]) trivial

end

/-! ## All levels -/

/-- A shape that is read with any room is read with any other room, or is too
high for it: the induction is on the room it was read with. -/
theorem reread_of_shapeWithin {limit' room' : Nat} {token : Segment} {s : Shape}
    (h : shapeWithin limit' room' token = .ok s) (limit room : Nat) :
    Reread limit (s.height < room) True s (shapeWithin limit room token) := by
  induction room' generalizing room token s with
  | zero => cases h
  | succ room' ih =>
    cases room with
    | zero => exact .tooDeep token.offset (Nat.not_lt_zero _)
    | succ room =>
      have hread : Follows limit room (shapeWithin limit room) (shapeWithin limit' room') :=
        fun token s h => ih h room
      exact hread.token (fun token s => isHole_of_shapeWithin) h

/-- The height of a shape is the least limit under which it is read.  With any
limit, a token that is read under a greater one is read as the same shape if
that is no higher than the limit, and is refused as too deep if it is. -/
theorem shape_within_limit {options wider : Options} (h : options.maxDepth ≤ wider.maxDepth)
    (token : Segment) (s : Shape) :
    (options.shape token = .ok s → wider.shape token = .ok s) ∧
      (wider.shape token = .ok s →
        (s.height ≤ options.maxDepth → options.shape token = .ok s) ∧
        (options.maxDepth < s.height → ∃ place, options.shape token
          = .error (((Cause.nestingTooDeep options.maxDepth).located place).withHint
            .raiseMaxDepth))) := by
  constructor
  · intro hread
    -- what was read fitted, so it fits into more room
    have hfits : s.height < options.maxDepth + 1 :=
      ((reread_of_shapeWithin hread options.maxDepth _).ok_iff.1 hread).1
    exact (reread_of_shapeWithin hread wider.maxDepth _).ok_iff.2 ⟨by omega, trivial⟩
  · intro hread
    have hreread := reread_of_shapeWithin hread options.maxDepth (options.maxDepth + 1)
    constructor
    · intro hfits
      exact hreread.ok_iff.2 ⟨Nat.lt_succ_of_le hfits, trivial⟩
    · intro hdeep
      exact hreread.eq_depthFault trivial (by omega)

/-- An object pattern in which a hole and a key take no room, and the rest of
an array takes more than the rest of the object. -/
def unevenObject : Segment :=
  ⟨"{a: [, ...b], ...c, d}".toList, 5⟩

/-- The shape of `unevenObject`. -/
def unevenShape : Shape :=
  mapping [.valued ['a'] (sequence [hole, spread (bare ['b'])]),
    .valued ['c'] (spread (bare ['c'])), .shorthand ['d']]

theorem shape_within_limit_unevenObject :
    Options.shape { maxDepth := 3 } unevenObject = .ok unevenShape ∧
      Options.shape { maxDepth := 4 } unevenObject = .ok unevenShape ∧
      2 < unevenShape.height ∧
      ∃ place, Options.shape { maxDepth := 2 } unevenObject
        = .error (((Cause.nestingTooDeep 2).located place).withHint .raiseMaxDepth) :=
  have h : Options.shape { maxDepth := 3 } unevenObject = .ok unevenShape := by decide +kernel
  ⟨h, (@shape_within_limit { maxDepth := 3 } { maxDepth := 4 } (by decide) _ _).1 h, by decide,
    ((@shape_within_limit { maxDepth := 2 } { maxDepth := 3 } (by decide) _ _).2 h).2
      (by decide)⟩

end CallSignature
