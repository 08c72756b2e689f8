/-
CallSignature.Proofs.Shape.WellFormed — the shapes that a reader can produce.

A shape is CANONICAL if each of its texts and keys could have been cut out of
a pattern as it is: trimmed, in order, and nothing that would have been read
as a shape of another kind.  What a text may be depends on its PLACE.  Between
the commas of a list it has no comma of its own, and only an element of an
array pattern, or a pattern by itself, may be empty.

One more condition is about writing and not about reading.  An entry whose
value is the spread of its own key is written as three dots and the key, and
that is read back only if the key is a name (`RestsBindable`).
-/
import CallSignature.Proofs.Nesting.Whole
import CallSignature.Proofs.Segment.Divider

namespace CallSignature

/-! ## Places -/

/-- Where a shape stands in a pattern. -/
structure Place where
  mayBeEmpty : Bool
  /-- Whether a comma outside groups would end the shape. -/
  isListed : Bool

namespace Place

/-- The place of a pattern by itself. -/
def whole : Place := ⟨true, false⟩

/-- The place of an element of an array pattern. -/
def item : Place := ⟨true, true⟩

/-- The place of a value in an object pattern. -/
def value : Place := ⟨false, true⟩

/-- The place behind three dots. -/
def operand (place : Place) : Place := ⟨false, place.isListed⟩

end Place

/-! ## Texts and keys -/

/-- The text can stand at the place as a leaf without quotes. -/
structure IsLeafText (place : Place) (t : Text) : Prop where
  trimmed : t.Trimmed
  orderly : Orderly t
  ne_true : t ≠ "true".toList
  ne_false : t ≠ "false".toList
  lacksDots : Shape.dots.isPrefixOf t = false
  not_isLiteral : ¬ IsLiteral t
  not_object : ¬ IsGroup '{' t
  not_array : ¬ IsGroup '[' t
  ne_nil : place.mayBeEmpty = false → t ≠ []
  lacksComma : place.isListed = true → LacksTop ',' t

instance (place : Place) (t : Text) : Decidable (IsLeafText place t) :=
  decidable_of_iff
    (t.Trimmed ∧ Orderly t ∧ t ≠ "true".toList ∧ t ≠ "false".toList ∧
      Shape.dots.isPrefixOf t = false ∧ ¬ IsLiteral t ∧ ¬ IsGroup '{' t ∧ ¬ IsGroup '[' t ∧
      (place.mayBeEmpty = false → t ≠ []) ∧ (place.isListed = true → LacksTop ',' t))
    ⟨fun ⟨h₁, h₂, h₃, h₄, h₅, h₆, h₇, h₈, h₉, h₁₀⟩ =>
        ⟨h₁, h₂, h₃, h₄, h₅, h₆, h₇, h₈, h₉, h₁₀⟩,
      fun ⟨h₁, h₂, h₃, h₄, h₅, h₆, h₇, h₈, h₉, h₁₀⟩ =>
        ⟨h₁, h₂, h₃, h₄, h₅, h₆, h₇, h₈, h₉, h₁₀⟩⟩

/-- The text can be a key of an object pattern. -/
structure IsKey (key : Text) : Prop where
  ne_nil : key ≠ []
  trimmed : key.Trimmed
  orderly : Orderly key
  lacksComma : LacksTop ',' key
  lacksDivider : LacksDivider key
  lacksDots : Shape.dots.isPrefixOf key = false

instance (key : Text) : Decidable (IsKey key) :=
  decidable_of_iff
    (key ≠ [] ∧ key.Trimmed ∧ Orderly key ∧ LacksTop ',' key ∧ LacksDivider key ∧
      Shape.dots.isPrefixOf key = false)
    ⟨fun ⟨h₁, h₂, h₃, h₄, h₅, h₆⟩ => ⟨h₁, h₂, h₃, h₄, h₅, h₆⟩,
      fun ⟨h₁, h₂, h₃, h₄, h₅, h₆⟩ => ⟨h₁, h₂, h₃, h₄, h₅, h₆⟩⟩

/-! ## Shapes -/

namespace Shape

mutual

/-- Every text and key of the shape, which stands at the place, could have
been cut out of a pattern. -/
def Canonical (place : Place) : Shape → Prop
  | bool _ => True
  | text words .none => IsLeafText place words
  | text words (some quote) => IsLiteral (quote :: words ++ [quote])
  | sequence items => CanonicalItems items
  | mapping entries => CanonicalEntries entries
  | spread operand => operand.Canonical place.operand

def CanonicalItems : List Shape → Prop
  | [] => True
  | item :: rest => item.Canonical .item ∧ CanonicalItems rest

def CanonicalEntries : List Entry → Prop
  | [] => True
  | .shorthand key :: rest => IsKey key ∧ CanonicalEntries rest
  | .valued key value :: rest => IsKey key ∧ value.Canonical .value ∧ CanonicalEntries rest

end

mutual

/-- Every entry that collects the rest of an object does so under a name that
can be bound. -/
def RestsBindable : Shape → Prop
  | bool _ | text .. => True
  | sequence items => RestsBindableItems items
  | mapping entries => RestsBindableEntries entries
  | spread operand => operand.RestsBindable

def RestsBindableItems : List Shape → Prop
  | [] => True
  | item :: rest => item.RestsBindable ∧ RestsBindableItems rest

def RestsBindableEntries : List Entry → Prop
  | [] => True
  | .shorthand _ :: rest => RestsBindableEntries rest
  | .valued key value :: rest =>
    (value.collects key = true → isIdentifier key = true) ∧ value.RestsBindable ∧
      RestsBindableEntries rest

end

/-- The shape can be written as a pattern and read back. -/
def WellFormed (s : Shape) : Prop :=
  s.Canonical .whole ∧ s.RestsBindable

/-! ## Deciding -/

mutual

def decideCanonical (place : Place) : (s : Shape) → Decidable (s.Canonical place)
  | bool _ => .isTrue trivial
  | text words .none => inferInstanceAs (Decidable (IsLeafText place words))
  | text words (some quote) =>
    inferInstanceAs (Decidable (IsLiteral (quote :: words ++ [quote])))
  | sequence items => decideCanonicalItems items
  | mapping entries => decideCanonicalEntries entries
  | spread operand => decideCanonical place.operand operand

def decideCanonicalItems : (items : List Shape) → Decidable (CanonicalItems items)
  | [] => .isTrue trivial
  | item :: rest =>
    @instDecidableAnd _ _ (decideCanonical .item item) (decideCanonicalItems rest)

def decideCanonicalEntries : (entries : List Entry) → Decidable (CanonicalEntries entries)
  | [] => .isTrue trivial
  | .shorthand key :: rest =>
    @instDecidableAnd (IsKey key) _ inferInstance (decideCanonicalEntries rest)
  | .valued key value :: rest =>
    @instDecidableAnd (IsKey key) _ inferInstance
      (@instDecidableAnd _ _ (decideCanonical .value value) (decideCanonicalEntries rest))

end

mutual

def decideRestsBindable : (s : Shape) → Decidable s.RestsBindable
  | bool _ => .isTrue trivial
  | text .. => .isTrue trivial
  | sequence items => decideRestsBindableItems items
  | mapping entries => decideRestsBindableEntries entries
  | spread operand => decideRestsBindable operand

def decideRestsBindableItems : (items : List Shape) → Decidable (RestsBindableItems items)
  | [] => .isTrue trivial
  | item :: rest =>
    @instDecidableAnd _ _ (decideRestsBindable item) (decideRestsBindableItems rest)

def decideRestsBindableEntries :
    (entries : List Entry) → Decidable (RestsBindableEntries entries)
  | [] => .isTrue trivial
  | .shorthand _ :: rest => decideRestsBindableEntries rest
  | .valued key value :: rest =>
    @instDecidableAnd (value.collects key = true → isIdentifier key = true) _ inferInstance
      (@instDecidableAnd _ _ (decideRestsBindable value) (decideRestsBindableEntries rest))

end

instance (place : Place) (s : Shape) : Decidable (s.Canonical place) :=
  s.decideCanonical place

instance (s : Shape) : Decidable s.RestsBindable :=
  s.decideRestsBindable

instance (s : Shape) : Decidable s.WellFormed :=
  inferInstanceAs (Decidable (s.Canonical .whole ∧ s.RestsBindable))

end Shape

end CallSignature
