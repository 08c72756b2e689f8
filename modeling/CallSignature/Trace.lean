/-
CallSignature.Trace — what can be observed of a description while it is made.

Four things are reported: every list that is cut into its elements, every
supertype whose source is read, the descriptor, and a reported length that
disagrees with it.  `Options.events` gives the reports of one description, in
order; a description that fails has those up to its fault.

The events are computed beside the description and not by it: each part
below reads the parts that the description reads, in the same order, and
stops where the description stops.
-/
import CallSignature.Description

namespace CallSignature

/-! ## Events -/

/-- How much an event matters. -/
inductive Level
  | trace
  | debug
  | warn
  deriving DecidableEq, Repr

/-- The level in a word. -/
def Level.label : Level → Text
  | trace => "TRACE".toList
  | debug => "DEBUG".toList
  | warn => "WARN".toList

/-- Something that happened on the way to a description. -/
inductive Event
  /-- A list was cut into this many elements. -/
  | segmented (count : Nat)
  /-- The source of a supertype was found, after this many lookups. -/
  | walked (name reference : Text) (hops : Nat)
  /-- A descriptor was made. -/
  | described (name : Text) (form : Form) (parameters : Nat)
  /-- A reported length disagrees with the descriptor. -/
  | disagreed (name : Text) (declared computed : Nat)
  deriving DecidableEq, Repr

namespace Event

/-- How much the event matters. -/
def level : Event → Level
  | segmented .. => .trace
  | walked .. | described .. => .debug
  | disagreed .. => .warn

/-- The event in words. -/
def message : Event → Text
  | segmented .. => "segmented list".toList
  | walked .. => "walking to supertype".toList
  | described .. => "described callable".toList
  | disagreed .. => "declared length disagrees with computed minimum arity".toList

/-- What the event is about, by name. -/
def fields : Event → List (Text × Json)
  | segmented count => [("segments".toList, .number count)]
  | walked name reference hops =>
    [("class".toList, .string name), ("supertype".toList, .string reference),
     ("hops".toList, .number hops)]
  | described name form parameters =>
    [("name".toList, .string name), ("form".toList, .string form.label),
     ("parameters".toList, .number parameters)]
  | disagreed name declared computed =>
    [("name".toList, .string name), ("declared".toList, .number declared),
     ("computed".toList, .number computed)]

end Event

/-! ## Lists -/

/-- The events of going through a list: those of its elements up to and
including the first that cannot be read. -/
def eventsUntilFault {α β : Type} (read : α → Except Fault β) (events : α → List Event) :
    List α → List Event
  | [] => []
  | part :: rest =>
    match read part with
    | .error _ => events part
    | .ok _ => events part ++ eventsUntilFault read events rest

/-- The events of cutting a list and going through its elements. -/
def elementEvents {β : Type} (read : Segment → Except Fault β) (events : Segment → List Event)
    (list : Segment) : List Event :=
  if list.text.isBlank then []
  else
    match list.elements with
    | .error _ => []
    | .ok parts => .segmented parts.length :: eventsUntilFault read events parts

/-! ## Patterns -/

/-- The events of reading an element of an array pattern. -/
def itemEvents (events : Segment → List Event) (element : Segment) : List Event :=
  if element.isEmpty then [] else events element

/-- The events of reading an entry of an object pattern. -/
def entryEvents (events : Segment → List Event) (entry : Segment) : List Event :=
  match EntryForm.ofSegment entry with
  | .ok (.rest _) => events entry
  | .ok (.valued _ value) => events value
  | .ok (.shorthand _) | .error _ => []

/-- The events of reading a token, with room for this many levels of the
`limit` and the one above it. -/
def shapeEvents (limit : Nat) : Nat → Segment → List Event
  | 0, _ => []
  | room + 1, token =>
    match tokenClass token with
    | .error _ | .ok .leaf => []
    | .ok .object =>
      elementEvents (readEntry (shapeWithin limit room))
        (entryEvents (shapeEvents limit room)) token.interior
    | .ok .array =>
      elementEvents (readItem (shapeWithin limit room))
        (itemEvents (shapeEvents limit room)) token.interior
    | .ok .spread => itemEvents (shapeEvents limit room) (token.sliceFrom 3)

/-! ## Descriptions -/

/-- The events of reading a parameter. -/
def Options.parameterEvents (options : Options) (segment : Segment) : List Event :=
  match segment.bindingAndDefault with
  | .error _ => []
  | .ok (binding, default?) =>
    match checkParts binding default? with
    | .error _ => []
    | .ok () => shapeEvents options.maxDepth (options.maxDepth + 1) binding

/-- The events of reading a parameter list. -/
def Options.listEvents (options : Options) (list : Text) : List Event :=
  match withoutComments list with
  | .error _ => []
  | .ok clean =>
    elementEvents options.parameter options.parameterEvents (Segment.ofText clean)

/-- The events of a walk from the class called `name`, with `hops` lookups
behind it. -/
def walkEvents (registry : Registry) (name : Text) (hops : Nat) : List Text → List Event
  | [] => []
  | reference :: rest =>
    match registry reference with
    | none => []
    | some _ => .walked name reference (hops + 1) :: walkEvents registry name (hops + 1) rest

/-- The events of finding the head of a source. -/
def Options.headEvents (options : Options) (registry : Registry) (source : Text) :
    List Event :=
  match Declaration.ofSource source with
  | .error _ | .ok (.callable _) => []
  | .ok (.ofClass start) =>
    walkEvents registry start.name 0 (ascend registry options.maxSupertypeHops start).lookups

/-- The events of a descriptor. -/
def Callable.descriptorEvents (callable : Callable) (d : Descriptor) : List Event :=
  .described d.name d.form d.parameters.length ::
    match callable.disagreement? d with
    | some declared => [.disagreed d.name declared d.minArity]
    | none => []

/-- The events of describing a callable. -/
def Options.events (options : Options) (registry : Registry) (callable : Callable) :
    List Event :=
  (match callable.source with
    | none => []
    | some source =>
      options.headEvents registry source ++
        match options.head registry source with
        | .error _ => []
        | .ok head => options.listEvents head.parameters.text)
  ++ match options.describeBySource registry callable with
    | .error _ => []
    | .ok d => callable.descriptorEvents d

end CallSignature
