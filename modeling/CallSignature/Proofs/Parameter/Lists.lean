/-
CallSignature.Proofs.Parameter.Lists — a list is read parameter by parameter.

What stands around the parameters of a list, white space and comments, is of
no account, and neither is a comma behind the last one.  So a list is read as
its parameters are read one by one, and the first one that cannot be read
gives its fault, which is moved to where the parameter stands in the list
(`parameters_listSource`).

The proof goes through the three readings of a list.  Cleaning leaves the
parameters where they are, with white space around them (`cleans_joined`); the
elements of what is left are the parameters at their places
(`exists_elements_listSource`); and a parameter is read alike wherever it
stands (`translates_parameter`).
-/
import CallSignature.Parameter
import CallSignature.Proofs.Comment.Gap
import CallSignature.Proofs.Segment.Rows
import CallSignature.Proofs.Shape.Moved

namespace CallSignature

open Segment Unicode

/-! ## Parameters further on -/

theorem checkParts_moved (binding : Segment) (default? : Option Segment) (base : Nat) :
    checkParts (binding.moved base) (default?.map (.moved base))
      = shiftFault base (checkParts binding default?) := by
  unfold checkParts
  rw [isEmpty_moved]
  split
  · rfl
  · cases default? with
    | none => rfl
    | some source =>
      cases hempty : source.isEmpty with
      | true =>
        simp [Option.filter, hempty]
        rfl
      | false => simp [Option.filter, hempty]

theorem boundName_moved (binding : Segment) (shape : Shape) (base : Nat) :
    boundName (binding.moved base) shape = shiftFault base (boundName binding shape) := by
  unfold boundName
  split
  · split <;> rfl
  · rfl

theorem parameterName_moved (binding : Segment) (shape : Shape) (base : Nat) :
    parameterName (binding.moved base) shape
      = shiftFault base (parameterName binding shape) := by
  unfold parameterName
  split
  · rfl
  · rfl
  · rfl
  · rfl
  · exact boundName_moved ..
  · exact boundName_moved ..

theorem checkRest_moved (shape : Shape) (default? : Option Segment) (base : Nat) :
    checkRest shape (default?.map (.moved base))
      = shiftFault base (checkRest shape default?) := by
  cases shape <;> cases default? <;> rfl

/-- A parameter is read alike wherever it stands. -/
theorem translates_parameter (options : Options) : Translates options.parameter := by
  intro segment base
  rw [Options.parameter, Options.parameter, bindingAndDefault_moved, shiftFault_bind]
  cases segment.bindingAndDefault with
  | error fault => rfl
  | ok parts =>
    obtain ⟨binding, default?⟩ := parts
    show (checkParts (binding.moved base) (default?.map (.moved base)) >>= _)
      = shiftFault base (checkParts binding default? >>= _)
    rw [checkParts_moved, shiftFault_bind]
    refine congrArg _ (funext fun _ => ?_)
    rw [translates_shape options, shiftFault_bind]
    refine congrArg _ (funext fun shape => ?_)
    rw [parameterName_moved, shiftFault_bind]
    refine congrArg _ (funext fun name => ?_)
    rw [checkRest_moved, shiftFault_bind]
    refine congrArg _ (funext fun _ => ?_)
    cases default? <;> rfl

/-! ## Lists -/

namespace Padded

/-- The text is one parameter without comments, and the gaps around it are
white space and comments.  A comment that followed the text at once could be
read as the rest of it, and so the gap behind it begins with white space. -/
structure IsParameter (p : Padded) : Prop where
  before : IsGap p.before
  behind : IsGap p.behind
  space : ∀ c, p.behind.head? = some c → isWhiteSpace c = true
  clean : withoutComments p.text = .ok p.text
  single : elementTexts p.text = .ok [p.text]

theorem IsParameter.isElement {p : Padded} (h : p.IsParameter) :
    p.text ≠ [] ∧ p.text.Trimmed ∧ IsPiece p.text := by
  obtain ⟨parts, hparts, htexts⟩ := map_eq_ok h.single
  obtain ⟨part, rfl, htext⟩ := List.map_eq_singleton_iff.1 htexts
  have hpiece := isPiece_of_mem_elements hparts (List.mem_singleton_self part)
  rw [htext] at hpiece
  refine ⟨fun hnil => ?_, hpiece⟩
  rw [hnil] at hparts
  cases hparts

/-- The parameter with white space in place of its gaps. -/
def cleaned (p : Padded) : Padded :=
  { p with before := blanked p.before, behind := blanked p.behind }

/-- The parameters as segments of a list that begins at byte `offset`. -/
def places (offset : Nat) : List Padded → List Segment
  | [] => []
  | p :: rest => ⟨p.text, offset + p.before.width⟩ :: places (offset + p.source.width + 1) rest

end Padded

theorem isInert_comma : Zone.IsInert (some ',') :=
  ⟨by decide, by decide⟩

theorem isInert_end : Zone.IsInert none :=
  ⟨by decide, by decide⟩

namespace Padded

/-! ## Cleaning -/

/-- Cleaning a parameter changes nothing but its gaps. -/
theorem IsParameter.cleans {p : Padded} (h : p.IsParameter) {next : Option Char}
    (hnext : Zone.IsInert next) : Cleans next p.source p.cleaned.source := by
  obtain ⟨-, -, hpiece⟩ := h.isElement
  have hinert : Zone.IsInert (p.behind.head?.or next) := by
    cases hhead : p.behind.head? with
    | none => exact hnext
    | some c =>
      have hc := h.space c hhead
      constructor <;> intro heq <;> obtain rfl := Option.some.inj heq <;> revert hc <;> decide
  have htext := Cleans.of_clean hpiece.1.quiet h.clean hinert
  exact ((h.before.cleans.2 _).append htext).append (h.behind.cleans.2 next)

theorem IsParameter.width_cleaned {p : Padded} (h : p.IsParameter) :
    p.cleaned.source.width = p.source.width ∧ p.cleaned.before.width = p.before.width :=
  ⟨(h.cleans isInert_end).width_eq, (h.before.cleans.2 none).width_eq⟩

theorem IsParameter.isSpaced_cleaned {p : Padded} (h : p.IsParameter) : p.cleaned.IsSpaced :=
  ⟨h.before.cleans.1, h.behind.cleans.1, h.isElement.2⟩

theorem IsParameter.trimmed_cleaned {p : Padded} (h : p.IsParameter) (offset : Nat) :
    Segment.trimmed p.cleaned.source offset = ⟨p.text, offset + p.before.width⟩ := by
  rw [← h.width_cleaned.2]
  exact (h.isSpaced_cleaned.trimmed_source offset).1 h.isElement.1

end Padded

theorem cleans_comma {next : Option Char} {a p : Text} (h : Cleans next a p) :
    Cleans next (',' :: a) (',' :: p) :=
  (Cleans.of_lacksSlash (quiet_singleton (by decide)) (by decide)).append h

/-- Cleaning a row of parameters cleans each of them. -/
theorem cleans_joined {first : Padded} {rest : List Padded}
    (h : ∀ p ∈ first :: rest, p.IsParameter) {next : Option Char} (hnext : Zone.IsInert next) :
    Cleans next (joined ',' first.source (rest.map Padded.source))
      (joined ',' first.cleaned.source (rest.map (·.cleaned.source))) := by
  induction rest generalizing first with
  | nil => exact (h first (by simp)).cleans hnext
  | cons second rest ih =>
    obtain ⟨hfirst, hrest⟩ := List.forall_mem_cons.1 h
    have htail := cleans_comma (ih hrest)
    exact Cleans.append (b := ',' :: _) (hfirst.cleans isInert_comma) htail

/-! ## Elements -/

/-- The parameters of a clean row are its elements, each at its place. -/
theorem placed_cleaned {first : Padded} {rest : List Padded}
    (h : ∀ p ∈ first :: rest, p.IsParameter) (offset : Nat) :
    placed offset first.cleaned.source (rest.map (·.cleaned.source))
      = Padded.places offset (first :: rest) := by
  induction rest generalizing first offset with
  | nil => exact congrArg (fun s => [s]) ((h first (by simp)).trimmed_cleaned offset)
  | cons second rest ih =>
    obtain ⟨hfirst, hrest⟩ := List.forall_mem_cons.1 h
    rw [List.map_cons, placed, ih hrest, hfirst.width_cleaned.1, hfirst.trimmed_cleaned]
    rfl

/-- The elements of a list without its comments are its parameters, each where
it stands in the list. -/
theorem exists_elements_listSource {first : Padded} {rest : List Padded} {final : Option Text}
    (h : ∀ p ∈ first :: rest, p.IsParameter) (hfinal : ∀ gap ∈ final, IsGap gap) :
    ∃ clean, withoutComments (listSource first rest final) = .ok clean ∧
      (Segment.ofText clean).elements = .ok (Padded.places 0 (first :: rest)) := by
  refine ⟨listSource first.cleaned (rest.map Padded.cleaned) (final.map blanked), ?_, ?_⟩
  · unfold listSource
    rw [List.map_map]
    cases final with
    | none =>
      rw [Option.map_none, List.append_nil, List.append_nil]
      exact (cleans_joined h isInert_end).withoutComments_eq
    | some gap =>
      exact (Cleans.append (b := ',' :: gap) (cleans_joined h isInert_comma)
        (cleans_comma ((hfinal gap rfl).cleans.2 none))).withoutComments_eq
  · have hspaced : ∀ p ∈ first.cleaned :: rest.map Padded.cleaned, p.IsSpaced := by
      rw [← List.map_cons, List.forall_mem_map]
      exact fun p hp => (h p hp).isSpaced_cleaned
    have hgap : ∀ gap ∈ final.map blanked, gap.isBlank = true := by
      rintro gap hgap
      obtain ⟨gap, hmem, rfl⟩ := Option.map_eq_some_iff.1 hgap
      exact (hfinal gap hmem).cleans.1
    have hlast :
        ((first.cleaned :: rest.map Padded.cleaned).map (·.text)).getLast? ≠ some [] := by
      intro hlast
      rw [← List.map_cons, List.map_map] at hlast
      obtain ⟨p, hp, hempty⟩ := List.mem_map.1 (List.mem_of_getLast? hlast)
      exact (h p hp).isElement.1 hempty
    rw [Segment.ofText, elements_trimmed (orderly_listSource hspaced hgap),
      elements_listSource hspaced hgap (fun _ => hlast), List.map_map]
    exact congrArg Except.ok (placed_cleaned h 0)

/-! ## Reading -/

/-- A parameter is read in its place as it is read by itself. -/
theorem parameter_of_isParameter {p : Padded} (h : p.IsParameter) (offset : Nat) :
    Options.parameter {} ⟨p.text, offset⟩ = shiftFault offset (readParameter p.text) := by
  obtain ⟨-, htrimmed, -⟩ := h.isElement
  have hread : readParameter p.text = Options.parameter {} ⟨p.text, 0⟩ := by
    rw [readParameter, h.clean]
    exact congrArg (Options.parameter {}) (trimmed_of_trimmed htrimmed 0)
  have hmoved := translates_parameter {} ⟨p.text, 0⟩ offset
  rw [← hread, moved, Nat.zero_add] at hmoved
  exact hmoved

/-- If all parameters are read by themselves, so they are in a list. -/
theorem mapM_places_ok {ps : List Padded} (h : ∀ p ∈ ps, p.IsParameter)
    {parameters : List Parameter}
    (hread : ps.mapM (fun p => readParameter p.text) = .ok parameters) (offset : Nat) :
    (Padded.places offset ps).mapM (Options.parameter {}) = .ok parameters := by
  induction ps generalizing offset parameters with
  | nil => exact hread
  | cons p ps ih =>
    obtain ⟨hp, hps⟩ := List.forall_mem_cons.1 h
    obtain ⟨parameter, rest, rfl, hfirst, hrest⟩ := mapM_cons_eq_ok hread
    rw [Padded.places, List.mapM_cons, parameter_of_isParameter hp, hfirst, ih hps hrest]
    rfl

/-- The first parameter that is not read by itself is the fault of a list. -/
theorem mapM_places_error {front behind : List Padded} {p : Padded}
    (h : ∀ q ∈ front ++ p :: behind, q.IsParameter)
    (hfront : ∀ q ∈ front, ∃ parameter, readParameter q.text = .ok parameter) {fault : Fault}
    (hfault : readParameter p.text = .error fault) (offset : Nat) :
    (Padded.places offset (front ++ p :: behind)).mapM (Options.parameter {})
      = .error (fault.shifted (offset + (textBefore front p).width)) := by
  induction front generalizing offset with
  | nil =>
    rw [List.nil_append, Padded.places, List.mapM_cons,
      parameter_of_isParameter (h p (by simp)), hfault]
    rfl
  | cons q front ih =>
    obtain ⟨hq, hrest⟩ := List.forall_mem_cons.1 h
    obtain ⟨⟨parameter, hparameter⟩, hfront⟩ := List.forall_mem_cons.1 hfront
    rw [List.cons_append, Padded.places, List.mapM_cons, parameter_of_isParameter hq,
      hparameter, ih hrest hfront]
    have hwidth : (textBefore (q :: front) p).width
        = q.source.width + 1 + (textBefore front p).width := by
      simp [textBefore, show Char.utf8Size ',' = 1 from rfl, Nat.add_assoc]
    rw [hwidth, ← Nat.add_assoc, ← Nat.add_assoc]
    rfl

/-- A list of parameters is read as the parameters are read by themselves, and
if that fails the first fault is the fault of the list, moved to where the
parameter stands in it.  Gaps around the parameters do not matter, nor does a
comma behind the last one. -/
theorem parameters_listSource {first : Padded} {rest : List Padded} {final : Option Text}
    (h : ∀ p ∈ first :: rest, p.IsParameter) (hfinal : ∀ gap ∈ final, IsGap gap) :
    (∀ parameters, (first :: rest).mapM (fun p => readParameter p.text) = .ok parameters →
        Options.parameters {} (listSource first rest final) = .ok parameters) ∧
      ∀ front p behind fault, first :: rest = front ++ p :: behind →
        (∀ q ∈ front, ∃ parameter, readParameter q.text = .ok parameter) →
        readParameter p.text = .error fault →
        ∃ before after : Text, listSource first rest final = before ++ p.text ++ after ∧
          before = textBefore front p ∧
          Options.parameters {} (listSource first rest final)
            = .error (fault.shifted before.width) := by
  obtain ⟨clean, hclean, helements⟩ := exists_elements_listSource h hfinal
  have hlist : Options.parameters {} (listSource first rest final)
      = (Padded.places 0 (first :: rest)).mapM (Options.parameter {}) := by
    rw [Options.parameters, hclean]
    show (Segment.ofText clean).elements >>= _ = _
    rw [helements]
    rfl
  rw [hlist]
  constructor
  · intro parameters hread
    exact mapM_places_ok h hread 0
  · intro front p behind fault hparts hfront hfault
    obtain ⟨after, hafter⟩ := exists_listSource_eq hparts final
    refine ⟨_, after, hafter, rfl, ?_⟩
    rw [hparts] at h ⊢
    rw [mapM_places_error h hfront hfault 0, Nat.zero_add]

/-- A name between comments that hold a comma and a quote. -/
def commentedName : Padded where
  before := '/' :: '*' :: [','] ++ ['*', '/'] ++ []
  text := ['a']
  behind := ' ' :: ('/' :: '/' :: ['\''] ++ ['\n'] ++ [])

/-- A rest parameter. -/
def restParameter : Padded where
  text := "...b".toList

/-- Two words, which are no parameter. -/
def twoWords : Padded where
  before := [' ']
  text := "b c".toList

theorem isParameter_commentedName : commentedName.IsParameter where
  before := .block (by decide) .nil
  behind := .space rfl (.line (by decide) .nil)
  space c hc := by obtain rfl := Option.some.inj hc; rfl
  clean := by decide
  single := by decide

theorem isParameter_restParameter : restParameter.IsParameter where
  before := .nil
  behind := .nil
  space := nofun
  clean := by decide
  single := by decide

theorem isParameter_twoWords : twoWords.IsParameter where
  before := .space rfl .nil
  behind := .nil
  space := nofun
  clean := by decide
  single := by decide

theorem parameters_listSource_commentedName :
    Options.parameters {} (listSource commentedName [restParameter] (some [' ']))
        = .ok [⟨['a'], .bare ['a'], none⟩, ⟨['b'], .spread (.bare ['b']), none⟩] ∧
      ∃ before after : Text, listSource commentedName [twoWords] none
          = before ++ twoWords.text ++ after ∧ before = textBefore [commentedName] twoWords ∧
        Options.parameters {} (listSource commentedName [twoWords] none)
          = .error
            ((Cause.bindingNotBindable twoWords.text).located 0 |>.shifted before.width) := by
  constructor
  · exact (parameters_listSource
      (by simp [isParameter_commentedName, isParameter_restParameter])
      (by simpa using IsGap.space rfl .nil)).1 _ (by decide +kernel)
  · exact (parameters_listSource (by simp [isParameter_commentedName, isParameter_twoWords])
      (by simp)).2 [commentedName] twoWords [] _ rfl
        (by simpa using ⟨⟨['a'], .bare ['a'], none⟩, by decide +kernel⟩) (by decide +kernel)

end CallSignature
