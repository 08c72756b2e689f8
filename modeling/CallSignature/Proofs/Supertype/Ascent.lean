/-
CallSignature.Proofs.Supertype.Ascent — the walk up the supertypes, as a path.

`ascend` is a loop with a set of passed references, a number of lookups left
and the last supertype in hand.  Here the same walk is a path: a list of
references, each of which is the supertype of what the one before it leads to
(`Climb`).  A path may be taken if it is short enough and passes nothing twice
(`Passable`), and where it ends there are five things that can be found
(`Ending`).

`ascend_outcome_iff` says that the loop gives exactly what stands at the end
of a path that may be taken.  One induction follows the loop and finds the
path (`exists_ending`); the other follows a path and finds the loop on it
(`outcome_of_ending`).  Both carry the same invariant, `OnTheWay`.
-/
import CallSignature.Supertype

namespace CallSignature

/-! ## Paths -/

namespace Declaration

/-- The type that the parameters have to be taken from: a class that has no
constructor takes them from its superclass, and nothing else takes any. -/
def supertype? : Declaration → Option Text
  | callable _ => none
  | ofClass head => if head.constructor.isNone then head.superclass else none

/-- The parameters that the declaration has of its own.  A class that has no
constructor has none. -/
def parameters : Declaration → ParameterList
  | callable head => head.parameters
  | ofClass head => head.constructor.getD {}

end Declaration

/-- Going up along the references leads from the one declaration to the
other. -/
inductive Climb (registry : Registry) : Declaration → List Text → Declaration → Prop
  | here (d : Declaration) : Climb registry d [] d
  | up {d next last : Declaration} {reference source : Text} {references : List Text}
    (hsupertype : d.supertype? = some reference) (hsource : registry reference = some source)
    (hnext : Declaration.ofSource source = .ok next)
    (hrest : Climb registry next references last) :
    Climb registry d (reference :: references) last

/-- A class called `name` that has gone up along the references has not been
at this one: it is none of them and not the name of the class itself. -/
def IsNew (name : Text) (references : List Text) (reference : Text) : Prop :=
  reference ∉ references ∧ (name ≠ [] → reference ≠ name)

/-- A class called `name` may go up along the references. -/
structure Passable (name : Text) (limit : Nat) (references : List Text) : Prop where
  length_le : references.length ≤ limit
  nodup : references.Nodup
  not_own : name ≠ [] → name ∉ references

/-- What a class called `name` gets if it goes up along the references and
comes to the declaration `last`. -/
inductive Ending (registry : Registry) (name : Text) (limit : Nat) (references : List Text)
    (last : Declaration) : Except Fault Head → Prop
  /-- The declaration has parameters, or is a class that can take none. -/
  | parameters (h : last.supertype? = none) :
    Ending registry name limit references last
      (.ok
        { name, form := { isClass := true }, parameters := last.parameters
          inheritedFrom := references.getLast? })
  | cycle {reference : Text} (h : last.supertype? = some reference)
    (hpassed : ¬ IsNew name references reference) :
    Ending registry name limit references last
      (.error { cause := .supertypeCycle name reference })
  | tooLong {reference : Text} (h : last.supertype? = some reference)
    (hnew : IsNew name references reference) (hlength : references.length = limit) :
    Ending registry name limit references last
      (.error { cause := .supertypeChainTooLong name limit, hint := some .raiseMaxHops })
  | unregistered {reference : Text} (h : last.supertype? = some reference)
    (hnew : IsNew name references reference) (hlength : references.length < limit)
    (hsource : registry reference = none) :
    Ending registry name limit references last
      (.error { cause := .supertypeUnregistered reference, hint := some .registerSupertype })
  /-- The source of the supertype cannot be read. -/
  | broken {reference source : Text} {fault : Fault} (h : last.supertype? = some reference)
    (hnew : IsNew name references reference) (hlength : references.length < limit)
    (hsource : registry reference = some source)
    (hfault : Declaration.ofSource source = .error fault) :
    Ending registry name limit references last
      (.error
        { cause := fault.cause, hint := some (.raisedInSupertype reference fault.offset) })

/-! ## One step of the walk -/

/-- The rest of the walk that has come to a declaration. -/
def ascendOn (registry : Registry) (name : Text) (limit left : Nat) (visited : List Text)
    (via : Option Text) : Declaration → Ascent
  | .callable head => .ended (.ok (headOfClass name head.parameters via))
  | .ofClass here => ascendFrom registry name limit left visited via here

section

variable {registry : Registry} {name : Text} {limit left : Nat} {visited : List Text}
  {via : Option Text} {d : Declaration} {reference : Text}

/-- A walk that does not have to go on looks up nothing. -/
theorem ascendOn_of_supertype?_none (h : d.supertype? = none) :
    ascendOn registry name limit left visited via d
      = .ended (.ok (headOfClass name d.parameters via)) := by
  cases d with
  | callable head => rfl
  | ofClass head =>
    obtain ⟨_, superclass, constructor⟩ := head
    cases constructor with
    | some list => rw [ascendOn, ascendFrom.eq_def]; rfl
    | none =>
      obtain rfl : superclass = none := h
      rw [ascendOn, ascendFrom.eq_def]
      rfl

/-- A walk that has to go on looks at the reference first, at the lookups that
are left next, and then looks up. -/
theorem ascendOn_of_supertype?_some (h : d.supertype? = some reference) :
    ascendOn registry name limit left visited via d
      = if visited.contains reference then
          .ended (.error { cause := .supertypeCycle name reference })
        else
          match left with
          | 0 =>
            .ended (.error
              { cause := .supertypeChainTooLong name limit, hint := some .raiseMaxHops })
          | left + 1 =>
            .behind reference <|
              match registry reference with
              | none =>
                .ended (.error
                  { cause := .supertypeUnregistered reference
                    hint := some .registerSupertype })
              | some source =>
                match Declaration.ofSource source with
                | .error fault => .ended (.error (faultInSupertype reference fault))
                | .ok next =>
                  ascendOn registry name limit left (reference :: visited) (some reference)
                    next := by
  cases d with
  | callable head => cases h
  | ofClass head =>
    obtain ⟨_, superclass, constructor⟩ := head
    cases constructor with
    | some list => cases h
    | none =>
      obtain rfl : superclass = some reference := h
      rw [ascendOn, ascendFrom.eq_def]
      dsimp only
      cases hvisited : visited.contains reference with
      | true => rfl
      | false =>
        cases left with
        | zero => rfl
        | succ left =>
          cases hsource : registry reference with
          | none => rfl
          | some source =>
            cases hnext : Declaration.ofSource source with
            | error fault => simp [hnext]
            | ok next => cases next <;> simp [hnext, ascendOn]

theorem outcome_of_supertype?_none (h : d.supertype? = none) :
    (ascendOn registry name limit left visited via d).outcome
      = .ok (headOfClass name d.parameters via) := by
  rw [ascendOn_of_supertype?_none h, Ascent.ended]

theorem outcome_of_supertype?_some (h : d.supertype? = some reference) :
    (ascendOn registry name limit left visited via d).outcome
      = if visited.contains reference then .error { cause := .supertypeCycle name reference }
        else
          match left, registry reference with
          | 0, _ =>
            .error { cause := .supertypeChainTooLong name limit, hint := some .raiseMaxHops }
          | _ + 1, none =>
            .error
              { cause := .supertypeUnregistered reference, hint := some .registerSupertype }
          | left + 1, some source =>
            match Declaration.ofSource source with
            | .error fault => .error (faultInSupertype reference fault)
            | .ok next =>
              (ascendOn registry name limit left (reference :: visited) (some reference)
                next).outcome := by
  rw [ascendOn_of_supertype?_some h]
  cases hvisited : visited.contains reference with
  | true => rfl
  | false =>
    cases left with
    | zero => rfl
    | succ left =>
      cases hsource : registry reference with
      | none => rfl
      | some source =>
        cases hnext : Declaration.ofSource source <;> simp [hnext, Ascent.behind, Ascent.ended]

end

/-! ## The invariant -/

/-- The walk of a class called `name` has gone up along the references. -/
structure OnTheWay (name : Text) (limit : Nat) (references : List Text) (left : Nat)
    (visited : List Text) (via : Option Text) : Prop where
  visited : ∀ reference, visited.contains reference = false ↔ IsNew name references reference
  left : references.length + left = limit
  via : via = references.getLast?

section

variable {registry : Registry} {name : Text} {limit left : Nat}
  {references visited : List Text} {via : Option Text} {reference : Text}

theorem onTheWay_start (name : Text) (limit : Nat) :
    OnTheWay name limit [] limit (ownName name) none where
  visited reference := by
    by_cases h : name = []
    · simp [ownName, IsNew, h]
    · simp [ownName, IsNew, h]
  left := by simp
  via := rfl

theorem OnTheWay.up (h : OnTheWay name limit references (left + 1) visited via)
    (reference : Text) :
    OnTheWay name limit (references ++ [reference]) left (reference :: visited)
      (some reference) where
  visited other := by
    have hvisited := h.visited other
    simp only [IsNew] at hvisited ⊢
    simp only [List.contains_cons, Bool.or_eq_false_iff, hvisited, List.mem_append,
      List.mem_singleton, not_or, beq_eq_false_iff_ne]
    exact ⟨fun ⟨hne, hnew, hown⟩ => ⟨⟨hnew, hne⟩, hown⟩,
      fun ⟨⟨hnew, hne⟩, hown⟩ => ⟨hne, hnew, hown⟩⟩
  left := by
    have := h.left
    simp
    omega
  via := by simp

theorem Passable.snoc (h : Passable name limit references)
    (hnew : IsNew name references reference) (hlength : references.length < limit) :
    Passable name limit (references ++ [reference]) where
  length_le := by
    simp
    omega
  nodup := by
    refine List.nodup_append.2 ⟨h.nodup, by simp, ?_⟩
    rintro r hr s hs rfl
    exact hnew.1 (List.mem_singleton.1 hs ▸ hr)
  not_own := by
    intro hname hmem
    rcases List.mem_append.1 hmem with hmem | hmem
    · exact h.not_own hname hmem
    · exact hnew.2 hname (List.mem_singleton.1 hmem).symm

/-- What stands on a path that may be taken is new where it is reached. -/
theorem Passable.isNew {rest : List Text}
    (h : Passable name limit (references ++ reference :: rest)) :
    IsNew name references reference ∧ references.length < limit := by
  refine ⟨⟨fun hmem => ?_, ?_⟩, ?_⟩
  · exact (List.nodup_append.1 h.nodup).2.2 _ hmem _ (by simp) rfl
  · rintro hname rfl
    exact h.not_own hname (by simp)
  · have := h.length_le
    simp at this
    omega

/-! ## The walk and the path -/

/-- One step: the walk ends where it is, or goes up to the next declaration. -/
theorem ending_or_up (registry : Registry) (d : Declaration)
    (hway : OnTheWay name limit references left visited via) :
    Ending registry name limit references d
        (ascendOn registry name limit left visited via d).outcome ∨
      ∃ less reference source next, left = less + 1 ∧ d.supertype? = some reference ∧
        IsNew name references reference ∧ references.length < limit ∧
        registry reference = some source ∧ Declaration.ofSource source = .ok next ∧
        (ascendOn registry name limit left visited via d).outcome
          = (ascendOn registry name limit less (reference :: visited) (some reference)
              next).outcome := by
  cases hsupertype : d.supertype? with
  | none =>
    rw [outcome_of_supertype?_none hsupertype, hway.via]
    exact .inl (.parameters hsupertype)
  | some reference =>
    rw [outcome_of_supertype?_some hsupertype]
    cases hvisited : visited.contains reference with
    | true =>
      refine .inl (.cycle hsupertype fun hnew => ?_)
      rw [(hway.visited reference).2 hnew] at hvisited
      cases hvisited
    | false =>
      have hnew := (hway.visited reference).1 hvisited
      have hleft := hway.left
      cases left with
      | zero => exact .inl (.tooLong hsupertype hnew hleft)
      | succ less =>
        have hlength : references.length < limit := by omega
        cases hsource : registry reference with
        | none => exact .inl (.unregistered hsupertype hnew hlength hsource)
        | some source =>
          cases hnext : Declaration.ofSource source with
          | error fault =>
            simp only [hnext]
            exact .inl (.broken hsupertype hnew hlength hsource hnext)
          | ok next =>
            refine .inr ⟨less, reference, source, next, rfl, rfl, hnew, hlength, hsource,
              hnext, ?_⟩
            simp only [hnext, Bool.false_eq_true, if_false]

/-- The walk takes a path that may be taken and gives what stands at its end.
The induction is on the lookups that are left. -/
theorem exists_ending (registry : Registry) (d : Declaration)
    (hway : OnTheWay name limit references left visited via)
    (hpassable : Passable name limit references) :
    ∃ more last, Climb registry d more last ∧ Passable name limit (references ++ more) ∧
      Ending registry name limit (references ++ more) last
        (ascendOn registry name limit left visited via d).outcome := by
  induction left using Nat.strongRecOn generalizing d references visited via with
  | ind left ih =>
    rcases ending_or_up registry d hway with hending |
      ⟨less, reference, source, next, rfl, hsupertype, hnew, hlength, hsource, hnext, houtcome⟩
    · exact ⟨[], d, .here d, by simpa using hpassable, by simpa using hending⟩
    · obtain ⟨more, last, hclimb, hmore, hending⟩ := ih less (Nat.lt_succ_self less) next
        (hway.up reference) (hpassable.snoc hnew hlength)
      rw [← List.append_cons] at hmore hending
      rw [houtcome]
      exact ⟨reference :: more, last, .up hsupertype hsource hnext hclimb, hmore, hending⟩

/-- What stands at the end of a path that may be taken is what the walk gives.
The induction is on the path. -/
theorem outcome_of_ending {d last : Declaration} {more : List Text}
    {result : Except Fault Head} (hclimb : Climb registry d more last)
    (hway : OnTheWay name limit references left visited via)
    (hpassable : Passable name limit (references ++ more))
    (hending : Ending registry name limit (references ++ more) last result) :
    (ascendOn registry name limit left visited via d).outcome = result := by
  induction hclimb generalizing references left visited via with
  | here d =>
    rw [List.append_nil] at hpassable hending
    have hleft := hway.left
    cases hending with
    | parameters h => rw [outcome_of_supertype?_none h, hway.via]; rfl
    | @cycle reference h hpassed =>
      rw [outcome_of_supertype?_some h]
      cases hvisited : visited.contains reference with
      | true => rfl
      | false => exact absurd ((hway.visited reference).1 hvisited) hpassed
    | @tooLong reference h hnew hlength =>
      obtain rfl : left = 0 := by omega
      rw [outcome_of_supertype?_some h, (hway.visited reference).2 hnew]
      rfl
    | @unregistered reference h hnew hlength hsource =>
      obtain ⟨less, rfl⟩ : ∃ less, left = less + 1 := ⟨left - 1, by omega⟩
      rw [outcome_of_supertype?_some h, (hway.visited reference).2 hnew, hsource]
      rfl
    | @broken reference source fault h hnew hlength hsource hfault =>
      obtain ⟨less, rfl⟩ : ∃ less, left = less + 1 := ⟨left - 1, by omega⟩
      rw [outcome_of_supertype?_some h, (hway.visited reference).2 hnew, hsource]
      simp only [Bool.false_eq_true, if_false, hfault]
      rfl
  | @up d next last reference source more hsupertype hsource hnext hrest ih =>
    obtain ⟨hnew, hlength⟩ := hpassable.isNew
    have hleft := hway.left
    obtain ⟨less, rfl⟩ : ∃ less, left = less + 1 := ⟨left - 1, by omega⟩
    rw [List.append_cons] at hpassable hending
    rw [outcome_of_supertype?_some hsupertype, (hway.visited reference).2 hnew, hsource]
    simp only [Bool.false_eq_true, if_false, hnext]
    exact ih (hway.up reference) hpassable hending

end

/-- A class takes its parameters from where a path along its supertypes ends
that passes no reference twice, not even its own name, and has no more
references than the limit allows.  If such a path ends at a declaration that
has to go on but cannot, the class gets the fault of that step: a reference
that was passed is noticed first, then the limit, then a reference that
nobody registered, then a source that cannot be read. -/
theorem ascend_outcome_iff (registry : Registry) (options : Options) (start : ClassHead)
    (result : Except Fault Head) :
    (ascend registry options.maxSupertypeHops start).outcome = result ↔
      ∃ references last, Climb registry (.ofClass start) references last ∧
        Passable start.name options.maxSupertypeHops references ∧
        Ending registry start.name options.maxSupertypeHops references last result := by
  have hway := onTheWay_start start.name options.maxSupertypeHops
  constructor
  · rintro rfl
    have hstart : Passable start.name options.maxSupertypeHops [] :=
      ⟨Nat.zero_le _, List.nodup_nil, by simp⟩
    obtain ⟨references, last, hclimb, hpassable, hending⟩ :=
      exists_ending registry (.ofClass start) hway hstart
    exact ⟨references, last, hclimb, hpassable, hending⟩
  · rintro ⟨references, last, hclimb, hpassable, hending⟩
    exact outcome_of_ending hclimb hway hpassable hending

end CallSignature
