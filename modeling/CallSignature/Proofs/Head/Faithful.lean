/-
CallSignature.Proofs.Head.Faithful — parameter lists are ranges of the source.

A head is read from the cleaned source, and its list is reported with an
offset.  These theorems say that the offset is right for the source as it was
given: the range that begins there is cut at whole characters, cleans to the
list, and stands between the two parentheses of one group
(`head_isFaithful`).  Lists without parentheses are the name before an arrow
and the empty list of a class that has no constructor.

A list that comes from a supertype is a range of the source that is
registered for that supertype.
-/
import CallSignature.Proofs.Comment.Range
import CallSignature.Proofs.Head.Classes
import CallSignature.Proofs.Parameter.Breakage
import CallSignature.Supertype

namespace CallSignature

open Cursor Unicode

/-! ## Ranges of a source -/

/-- The parameter list is a range of the source, without its comments. -/
structure IsRangeOf (source : Text) (list : ParameterList) : Prop where
  range : ∃ before raw behind : Text, source = before ++ raw ++ behind ∧
    before.width = list.offset ∧ raw.width = list.text.width ∧
    withoutComments raw = .ok list.text
  slice_cleaned : ∃ cleaned, withoutComments source = .ok cleaned ∧
    cleaned.slice list.offset (list.offset + list.text.width) = list.text
  clean : withoutComments list.text = .ok list.text
  orderly : Orderly list.text

/-- The range stands between parentheses, in the source and in the cleaned
source, and these are the two parentheses of one group. -/
structure IsEnclosed (source : Text) (list : ParameterList) : Prop where
  in_source : ∃ before raw behind : Text, source = before ++ '(' :: raw ++ ')' :: behind ∧
    before.width + 1 = list.offset ∧ raw.width = list.text.width
  in_cleaned : ∃ cleaned before behind : Text, withoutComments source = .ok cleaned ∧
    cleaned = before ++ '(' :: list.text ++ ')' :: behind ∧ before.width + 1 = list.offset
  isGroup : IsGroup '(' ('(' :: list.text ++ [')'])

/-- The range is the name before an arrow, and before the name stands nothing
but the word `async`, if that does. -/
def IsBareArrow (source : Text) (list : ParameterList) : Prop :=
  ∃ cleaned before between behind : Text, withoutComments source = .ok cleaned ∧
    cleaned = before ++ list.text ++ between ++ '=' :: '>' :: behind ∧
    before.width = list.offset ∧ name? list.text = some list.text ∧ between.isBlank = true ∧
    (before.isBlank = true ∨ ∃ l r, before = l ++ "async".toList ++ r ∧ l.isBlank = true ∧
      r.isBlank = true)

/-- The source declares a class that has no constructor. -/
def LacksConstructor (source : Text) : Prop :=
  ∃ head, Declaration.ofSource source = .ok (.ofClass head) ∧ head.constructor = none

/-- The parameter list is a faithful range of the source. -/
def IsFaithful (source : Text) (list : ParameterList) : Prop :=
  IsRangeOf source list ∧
    (IsEnclosed source list ∨ IsBareArrow source list ∨ LacksConstructor source ∧ list = {})

/-! ## Lists in the cleaned source -/

section

variable {source cleaned : Text} {list : ParameterList}

theorem isFaithful_of_listAhead (hcleaned : withoutComments source = .ok cleaned)
    (h : ListAhead (Cursor.ofText cleaned) list) : IsFaithful source list := by
  obtain ⟨a, behind, hrest, ha, horderly, hoffset⟩ := h
  have htext : cleaned = a ++ '(' :: list.text ++ ')' :: behind := hrest
  have hoffset : a.width + 1 = list.offset := by simpa [offset, ofText] using hoffset.symm
  have hparen : ∀ t : Text, Text.width (t ++ ['(']) = t.width + 1 := fun t => by
    simp [show Char.utf8Size '(' = 1 from rfl]
  obtain ⟨before, raw, after, hsource, hbefore, hraw, hclean⟩ :=
    exists_enclosed ha horderly.quiet (htext ▸ hcleaned)
  refine ⟨⟨⟨before ++ ['('], raw, ')' :: after, ?_, ?_, hraw, hclean⟩, ⟨cleaned, hcleaned, ?_⟩,
    withoutComments_idempotent hclean, horderly⟩,
    .inl ⟨⟨before, raw, after, hsource, ?_, hraw⟩,
      ⟨cleaned, a, behind, hcleaned, htext, hoffset⟩, ⟨')', list.text, rfl, horderly, rfl⟩⟩⟩
  · rw [hsource]
    simp
  · rw [hparen, hbefore, hoffset]
  · have hslice := Text.slice_append (a ++ ['(']) list.text (')' :: behind)
    rw [hparen, hoffset] at hslice
    rw [htext]
    simpa using hslice
  · rw [hbefore, hoffset]

theorem isFaithful_of_bareAhead (hcleaned : withoutComments source = .ok cleaned)
    {start : Cursor} {space : Text} (hspace : space.isBlank = true)
    (hstart : Passes space (Cursor.ofText cleaned) start) (h : BareAhead start list) :
    IsFaithful source list := by
  obtain ⟨a, d, hpass, ⟨between, behind, hrest, hname, hbetween, hoffset⟩, ha⟩ := h
  have htext : cleaned = (space ++ a) ++ list.text ++ (between ++ '=' :: '>' :: behind) := by
    have := (hstart.trans hpass).rest
    rw [hrest] at this
    simpa [ofText] using this
  have hbefore : Text.width (space ++ a) = list.offset := by
    rw [hoffset, (hstart.trans hpass).offset]
    simp [offset, ofText]
  have hquiet : Quiet (space ++ a) := by
    refine (quiet_of_isBlank hspace).append ?_
    rcases ha with rfl | ⟨r, rfl, hr⟩
    · exact quiet_nil
    · exact (quiet_of_lacksQuotes (by decide)).append (quiet_of_isBlank hr)
  have hclean : withoutComments list.text = .ok list.text :=
    withoutComments_eq_self_iff.2
      (Zone.cleaned_of_lacksSlash (not_mem_name hname (by decide) (by decide)))
  have hne : list.text ≠ [] := by
    intro hnil
    rw [hnil] at hname
    cases hname
  obtain ⟨before, after, hsource, hwidth⟩ :=
    exists_word hquiet hne (isVisible_of_mem_name hname) (htext ▸ hcleaned)
  refine ⟨⟨⟨before, list.text, after, hsource, hwidth.trans hbefore, rfl, hclean⟩,
    ⟨cleaned, hcleaned, ?_⟩, hclean, orderly_name hname⟩,
    .inr (.inl ⟨cleaned, space ++ a, between, behind, hcleaned, ?_, hbefore, hname, hbetween,
      ?_⟩)⟩
  · have hslice := Text.slice_append (space ++ a) list.text (between ++ '=' :: '>' :: behind)
    rw [hbefore] at hslice
    rw [htext, hslice]
  · rw [htext]
    simp
  · rcases ha with rfl | ⟨r, rfl, hr⟩
    · exact .inl (by rwa [List.append_nil])
    · exact .inr ⟨space, r, (List.append_assoc ..).symm, hspace, hr⟩

theorem isRangeOf_empty (hcleaned : withoutComments source = .ok cleaned) :
    IsRangeOf source {} :=
  ⟨⟨[], [], source, rfl, rfl, rfl, rfl⟩, ⟨cleaned, hcleaned, by simp [Text.slice]⟩, rfl,
    orderly_nil⟩

end

/-! ## Declarations -/

theorem ofSource_eq_ok {source : Text} {declaration : Declaration}
    (h : Declaration.ofSource source = .ok declaration) :
    ∃ cleaned, withoutComments source = .ok cleaned ∧
      Declaration.ofCode cleaned = .ok declaration := by
  unfold Declaration.ofSource at h
  split at h
  · cases h
  · split at h
    · cases h
    · split at h
      · cases h
      · exact ⟨_, ‹_›, h⟩

theorem isFaithful_of_callable {source : Text} {head : Head}
    (h : Declaration.ofSource source = .ok (.callable head)) :
    IsFaithful source head.parameters ∧ head.inheritedFrom = none := by
  obtain ⟨cleaned, hcleaned, h⟩ := ofSource_eq_ok h
  rw [Declaration.ofCode] at h
  split at h
  · obtain ⟨_, -, heq⟩ := map_eq_ok h
    cases heq
  · obtain ⟨found, hhead, heq⟩ := map_eq_ok h
    obtain rfl := Declaration.callable.inj heq
    refine ⟨?_, inheritedFrom_of_head hhead⟩
    rcases list_of_head hhead with hlist | hbare
    · exact isFaithful_of_listAhead hcleaned ((reaches_skipWhiteSpace _).listAhead hlist)
    · exact isFaithful_of_bareAhead hcleaned (Text.isBlank_takeWhile _)
        (passes_skipWhiteSpace _) hbare

theorem isFaithful_of_class {source : Text} {head : ClassHead}
    (h : Declaration.ofSource source = .ok (.ofClass head)) :
    IsFaithful source (head.constructor.getD {}) := by
  obtain ⟨cleaned, hcleaned, hcode⟩ := ofSource_eq_ok h
  cases hlist : head.constructor with
  | none => exact ⟨isRangeOf_empty hcleaned, .inr (.inr ⟨⟨head, h, hlist⟩, rfl⟩)⟩
  | some list =>
    rw [Declaration.ofCode] at hcode
    split at hcode
    · rename_i behind hstart
      obtain ⟨found, hclass, heq⟩ := map_eq_ok hcode
      obtain rfl := Declaration.ofClass.inj heq
      have hword := (reaches_skipWhiteSpace _).trans (reaches_of_classStart? hstart)
      exact isFaithful_of_listAhead hcleaned (hword.listAhead (list_of_class hclass hlist))
    · obtain ⟨_, -, heq⟩ := map_eq_ok hcode
      cases heq

/-! ## Supertypes -/

/-- The parameters of the head are a faithful range of the source, or of the
source of the supertype they come from. -/
def Head.IsFaithful (registry : Registry) (source : Text) (head : Head) : Prop :=
  match head.inheritedFrom with
  | none => CallSignature.IsFaithful source head.parameters
  | some reference => ∃ supertype, registry reference = some supertype ∧
      CallSignature.IsFaithful supertype head.parameters

/-- One step of a walk that ends well: it ends at this class, or looks up its
supertype, which is a callable or a class to go on from. -/
theorem ascendFrom_eq_ok {registry : Registry} {name : Text} {limit left : Nat}
    {visited : List Text} {via : Option Text} {here : ClassHead} {head : Head}
    (h : (ascendFrom registry name limit left visited via here).outcome = .ok head) :
    head = headOfClass name (here.constructor.getD {}) via ∨
      ∃ less reference supertype, left = less + 1 ∧ registry reference = some supertype ∧
        ((∃ callable, Declaration.ofSource supertype = .ok (.callable callable) ∧
            head = headOfClass name callable.parameters (some reference)) ∨
          ∃ next, Declaration.ofSource supertype = .ok (.ofClass next) ∧
            (ascendFrom registry name limit less (reference :: visited) (some reference)
              next).outcome = .ok head) := by
  rw [ascendFrom.eq_def] at h
  split at h
  · rename_i list hlist
    rw [hlist]
    exact .inl (Except.ok.inj h).symm
  · rename_i hlist _
    rw [hlist]
    exact .inl (Except.ok.inj h).symm
  · rename_i reference _ _
    split at h
    · cases h
    · cases left with
      | zero => cases h
      | succ less =>
        dsimp only [Ascent.behind] at h
        split at h
        · cases h
        · rename_i supertype hsupertype
          refine .inr ⟨less, reference, supertype, rfl, hsupertype, ?_⟩
          split at h
          · cases h
          · rename_i callable hdeclared
            exact .inl ⟨callable, hdeclared, (Except.ok.inj h).symm⟩
          · rename_i next hdeclared
            exact .inr ⟨next, hdeclared, h⟩

/-- A walk keeps the source of the class it has come to: that of the class it
began at, or that of the supertype it came by.  The induction is on the
lookups that are left. -/
theorem ascendFrom_isFaithful {registry : Registry} {name : Text} {limit left : Nat}
    {visited : List Text} {via : Option Text} {here : ClassHead} {source origin : Text}
    {head : Head} (hhere : Declaration.ofSource source = .ok (.ofClass here))
    (hvia : (via = none ∧ source = origin) ∨
      ∃ reference, via = some reference ∧ registry reference = some source)
    (h : (ascendFrom registry name limit left visited via here).outcome = .ok head) :
    head.IsFaithful registry origin := by
  induction left using Nat.strongRecOn generalizing visited via here source with
  | ind left ih =>
    rcases ascendFrom_eq_ok h with
      rfl | ⟨less, reference, supertype, rfl, hsupertype, ⟨callable, hdeclared, rfl⟩ | hnext⟩
    · have hclass := isFaithful_of_class hhere
      rcases hvia with ⟨rfl, rfl⟩ | ⟨reference, rfl, hsource⟩
      · exact hclass
      · exact ⟨source, hsource, hclass⟩
    · exact ⟨supertype, hsupertype, (isFaithful_of_callable hdeclared).1⟩
    · obtain ⟨next, hdeclared, h⟩ := hnext
      exact ih less (Nat.lt_succ_self less) hdeclared (.inr ⟨reference, rfl, hsupertype⟩) h

/-! ## Heads -/

theorem isFaithful_of_head {options : Options} {registry : Registry} {source : Text}
    {head : Head} (h : options.head registry source = .ok head) :
    head.IsFaithful registry source := by
  unfold Options.head at h
  split at h
  · cases h
  · rename_i callable hdeclared
    obtain rfl := Except.ok.inj h
    obtain ⟨hfaithful, hown⟩ := isFaithful_of_callable hdeclared
    rw [Head.IsFaithful, hown]
    exact hfaithful
  · rename_i start hdeclared
    exact ascendFrom_isFaithful hdeclared (.inl ⟨rfl, rfl⟩) h

theorem Head.IsFaithful.clean {registry : Registry} {source : Text} {head : Head}
    (h : head.IsFaithful registry source) :
    withoutComments head.parameters.text = .ok head.parameters.text ∧
      Orderly head.parameters.text := by
  unfold Head.IsFaithful at h
  split at h
  · exact ⟨h.1.clean, h.1.orderly⟩
  · obtain ⟨supertype, -, hrange, -⟩ := h
    exact ⟨hrange.clean, hrange.orderly⟩

/-- The parameters that are extracted from a source are a faithful range of
it, or of the source of the supertype that they come from; and whatever the
options, reading them never fails by brackets, quotes or comments. -/
theorem head_isFaithful {options : Options} {registry : Registry} {source : Text} {head : Head}
    (h : options.head registry source = .ok head) :
    head.IsFaithful registry source ∧ ∀ (reading : Options) (fault : Fault),
      reading.parameters head.parameters.text = .error fault →
        fault.cause.isStructural = false := by
  have hfaithful := isFaithful_of_head h
  obtain ⟨hclean, horderly⟩ := hfaithful.clean
  exact ⟨hfaithful, fun reading => parameters_failsOnlyBy reading horderly hclean⟩

/-- A registry that knows one class, with a comment in its parameter list. -/
def baseRegistry : Registry := fun reference =>
  if reference = "Base".toList then
    some r"class Base { constructor(a /* ) */, b = '(') {} }".toList
  else none

theorem head_isFaithful_baseRegistry :
    Options.head {} baseRegistry "class Sub extends Base {}".toList
        = .ok (headOfClass "Sub".toList ⟨"a        , b = '('".toList, 25⟩
          (some "Base".toList)) ∧
      (headOfClass "Sub".toList ⟨"a        , b = '('".toList, 25⟩
        (some "Base".toList)).IsFaithful
        baseRegistry "class Sub extends Base {}".toList :=
  have h : Options.head {} baseRegistry "class Sub extends Base {}".toList
      = .ok (headOfClass "Sub".toList ⟨"a        , b = '('".toList, 25⟩
        (some "Base".toList)) := by
    decide +kernel
  ⟨h, (head_isFaithful h).1⟩

end CallSignature
