/-
CallSignature.Shape — what a pattern is made of.

A shape is a tree.  Its leaves are truth values and texts, and a text
remembers the quotes it was written in; its nodes are sequences, mappings and
spreads.  The entries of a mapping keep their order and may repeat a key.

Two measures tell how deep a shape is.  `depth` counts sequences and mappings
only.  `height` counts every level at which a reader of patterns has to go
one deeper: spreads count, and the holes of a sequence and the entries
without a value do not.
-/
import CallSignature.Text

namespace CallSignature

/-- How a parameter binds its argument. -/
inductive BindingKind
  /-- By a name. -/
  | none
  | array
  | object
  /-- By collecting the remaining arguments. -/
  | spread
  deriving DecidableEq, Repr

/-- The kind in a word. -/
def BindingKind.label : BindingKind → Text
  | none => "none".toList
  | array => "array".toList
  | object => "object".toList
  | spread => "spread".toList

/-! ## Shapes -/

mutual

/-- The structure of a pattern or of a value in one. -/
inductive Shape
  /-- The bare word `true` or `false`. -/
  | bool (value : Bool)
  /-- Any other text, and the quotes it stood in, if it did. -/
  | text (words : Text) (quote : Option Char)
  /-- The elements of an array pattern. -/
  | sequence (items : List Shape)
  /-- The entries of an object pattern. -/
  | mapping (entries : List Entry)
  /-- What three dots stand before. -/
  | spread (operand : Shape)

/-- An entry of an object pattern. -/
inductive Entry
  /-- A key that is bound under its own name. -/
  | shorthand (key : Text)
  /-- A key and what it is bound to. -/
  | valued (key : Text) (value : Shape)

end

/-- The key of the entry. -/
def Entry.key : Entry → Text
  | shorthand key => key
  | valued key _ => key

/-- What the key of the entry is bound to, if that is written. -/
def Entry.value? : Entry → Option Shape
  | shorthand _ => none
  | valued _ value => some value

namespace Shape

/-- A text without quotes. -/
def bare (words : Text) : Shape :=
  text words .none

/-- A place of an array pattern that is left empty. -/
def hole : Shape :=
  bare []

/-- How a parameter of this shape binds its argument. -/
def kind : Shape → BindingKind
  | bool _ | text .. => .none
  | sequence _ => .array
  | mapping _ => .object
  | spread _ => .spread

/-- The words of a text without quotes. -/
def bareWords? : Shape → Option Text
  | text words .none => some words
  | _ => .none

/-- Whether the shape is an empty text without quotes. -/
def isHole : Shape → Bool
  | text [] .none => true
  | _ => false

/-- Whether the shape, as the value of an entry with this key, collects the
rest of an object: it is the spread of the key itself. -/
def collects (key : Text) : Shape → Bool
  | spread operand => operand.bareWords? == some key
  | _ => false

/-! ## Measures -/

mutual

/-- How many sequences and mappings are nested in each other. -/
def depth : Shape → Nat
  | bool _ | text .. => 0
  | sequence items => 1 + depthOfItems items
  | mapping entries => 1 + depthOfEntries entries
  | spread operand => operand.depth

/-- The greatest depth among the items. -/
def depthOfItems : List Shape → Nat
  | [] => 0
  | item :: rest => max item.depth (depthOfItems rest)

/-- The greatest depth among the values of the entries. -/
def depthOfEntries : List Entry → Nat
  | [] => 0
  | .shorthand _ :: rest => depthOfEntries rest
  | .valued _ value :: rest => max value.depth (depthOfEntries rest)

end

mutual

/-- How many levels a reader of the pattern goes down.  A pattern that holds
nothing but holes and keys has no level below it. -/
def height : Shape → Nat
  | bool _ | text .. => 0
  | sequence items => heightOfItems items
  | mapping entries => heightOfEntries entries
  | spread operand => 1 + operand.height

/-- One more than the greatest height among the items that are not holes, or
nothing if there is no such item. -/
def heightOfItems : List Shape → Nat
  | [] => 0
  | item :: rest =>
    if item.isHole then heightOfItems rest else max (1 + item.height) (heightOfItems rest)

/-- One more than the greatest height among the values of the entries, or
nothing if there is no value. -/
def heightOfEntries : List Entry → Nat
  | [] => 0
  | .shorthand _ :: rest => heightOfEntries rest
  | .valued _ value :: rest => max (1 + value.height) (heightOfEntries rest)

end

/-! ## Equality -/

mutual

/-- Whether the two shapes are equal. -/
def same : Shape → Shape → Bool
  | bool a, bool b => a == b
  | text a p, text b q => a == b && p == q
  | sequence a, sequence b => sameItems a b
  | mapping a, mapping b => sameEntries a b
  | spread a, spread b => same a b
  | _, _ => false

/-- Whether the two lists of items are equal. -/
def sameItems : List Shape → List Shape → Bool
  | [], [] => true
  | a :: as, b :: bs => same a b && sameItems as bs
  | _, _ => false

/-- Whether the two lists of entries are equal. -/
def sameEntries : List Entry → List Entry → Bool
  | [], [] => true
  | .shorthand a :: as, .shorthand b :: bs => a == b && sameEntries as bs
  | .valued a s :: as, .valued b t :: bs => a == b && same s t && sameEntries as bs
  | _, _ => false

end

mutual

theorem same_iff : ∀ a b : Shape, same a b = true ↔ a = b
  | bool _, b => by cases b <;> simp [same]
  | text _ _, b => by cases b <;> simp [same]
  | sequence items, b => by cases b <;> simp [same, sameItems_iff items]
  | mapping entries, b => by cases b <;> simp [same, sameEntries_iff entries]
  | spread operand, b => by cases b <;> simp [same, same_iff operand]

theorem sameItems_iff : ∀ as bs : List Shape, sameItems as bs = true ↔ as = bs
  | [], bs => by cases bs <;> simp [sameItems]
  | a :: as, bs => by cases bs <;> simp [sameItems, same_iff a, sameItems_iff as]

theorem sameEntries_iff : ∀ as bs : List Entry, sameEntries as bs = true ↔ as = bs
  | [], bs => by cases bs <;> simp [sameEntries]
  | .shorthand _ :: as, bs => by
    rcases bs with _ | ⟨⟨⟩ | ⟨⟩, _⟩ <;> simp [sameEntries, sameEntries_iff as]
  | .valued _ s :: as, bs => by
    rcases bs with _ | ⟨⟨⟩ | ⟨⟩, _⟩ <;>
      simp [sameEntries, same_iff s, sameEntries_iff as, and_assoc]

end

instance : DecidableEq Shape := fun a b => decidable_of_iff (same a b = true) (same_iff a b)

end Shape

end CallSignature
