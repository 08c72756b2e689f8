/-
CallSignature.Proofs.Parameter.Identifiers — identifiers as parameters.

An identifier is made of characters that mean nothing else to a reader of
sources: no bracket, no quote, no comma, no sign and no white space is among
them.  Nothing divides it, then, nothing is trimmed off it, and it is no
pattern.  A list that is an identifier declares the one parameter that it
names (`parameters_identifier`).
-/
import CallSignature.Proofs.Cursor.Names
import CallSignature.Proofs.Parameter.Breakage
import CallSignature.Proofs.Shape.Atoms

namespace CallSignature

open Unicode

/-! ## The characters of an identifier -/

section

variable {w : Text} (h : isIdentifier w = true)

include h

theorem isPlain_of_mem_identifier : ∀ c ∈ w, isPlain c = true := by
  have hall : nonNameChars ⊆ nonIdentifierChars := by decide
  exact isPlain_of_lacksNonName fun c hc _ => not_mem_identifier h (hall hc)

theorem orderly_identifier : Orderly w :=
  orderly_of_plain (isPlain_of_mem_identifier h)

/-- White space is no part of an identifier. -/
theorem isWhiteSpace_of_mem_identifier : ∀ c ∈ w, isWhiteSpace c = false := by
  intro c hmem
  refine isWhiteSpace_eq_false (p := fun code => xidContinueRanges.holds code ||
    xidStartRanges.holds code || ['_', '$', '\u200c', '\u200d'].any (·.toNat == code))
    (by decide +kernel) (eq_true_of_ne_false fun hno => ?_)
  simp only [Bool.or_eq_false_iff, List.any_cons, List.any_nil, beq_eq_false_iff_ne] at hno
  obtain ⟨⟨hcontinue, hstart⟩, hlow, hdollar, hnonJoiner, hjoiner, -⟩ := hno
  have hne : ∀ d : Char, d.toNat ≠ c.toNat → c ≠ d := by
    rintro d hd rfl
    exact hd rfl
  refine not_mem_of_isIdentifier h ?_ ?_ hmem
  · simp [isIdentifierContinue, isXidContinue, hcontinue, hne _ hdollar, hne _ hnonJoiner,
      hne _ hjoiner]
  · simp [isIdentifierStart, isXidStart, hstart, hne _ hlow, hne _ hdollar]

/-- An identifier begins with a character that means nothing else. -/
theorem exists_cons_of_isIdentifier :
    ∃ c rest, w = c :: rest ∧ isWhiteSpace c = false ∧ ∀ d ∈ nonIdentifierChars, c ≠ d := by
  obtain ⟨c, rest, rfl⟩ := List.exists_cons_of_ne_nil (ne_nil_of_isIdentifier h)
  refine ⟨c, rest, rfl, isWhiteSpace_of_mem_identifier h c (by simp), ?_⟩
  rintro d hd rfl
  exact not_mem_identifier h hd (by simp)

theorem trimmed_identifier : w.Trimmed := by
  refine Text.trimmed_iff.2 ⟨fun c hc => ?_, fun c hc => ?_⟩
  · exact isWhiteSpace_of_mem_identifier h c (List.mem_of_mem_head? hc)
  · exact isWhiteSpace_of_mem_identifier h c (List.mem_of_mem_getLast? hc)

/-! ## A list of one identifier -/

theorem shape_identifier (options : Options) (offset : Nat) :
    options.shape ⟨w, offset⟩ = .ok (.bare w) := by
  have hleaf :=
    Shape.isLeafText_of_isIdentifier h (trimmed_identifier h) (orderly_identifier h)
  rw [Options.shape, shapeWithin,
    readToken_leaf _ hleaf.orderly hleaf.not_object hleaf.not_array hleaf.lacksDots,
    ofLeaf_bare hleaf.ne_true hleaf.ne_false hleaf.not_isLiteral]
  rfl

/-- Nothing divides an identifier. -/
theorem bindingAndDefault_identifier (offset : Nat) :
    Segment.bindingAndDefault ⟨w, offset⟩ = .ok (⟨w, offset⟩, none) := by
  have hcuts : w.visits.filter (Segment.assignsAt w) = [] := by
    refine List.filter_eq_nil_iff.2 fun v hv hassigns => ?_
    obtain ⟨-, hchar⟩ := isTopLevel_iff.1 (Bool.and_eq_true_iff.1 hassigns).1
    obtain ⟨a, b, rfl, -, -⟩ := exists_of_mem_visits hv
    exact not_mem_identifier h (show '=' ∈ _ by decide) (by simp [hchar])
  simp only [Segment.bindingAndDefault, Segment.assignmentCuts,
    scan_of_orderly (orderly_identifier h), Except.map, hcuts, List.map_nil, shiftFault]

/-- The parameter that an identifier declares. -/
theorem parameter_identifier (options : Options) (offset : Nat) :
    options.parameter ⟨w, offset⟩ = .ok ⟨w, .bare w, none⟩ := by
  have hparts : checkParts ⟨w, offset⟩ none = .ok () := by
    rw [checkParts, if_neg (by simpa [Segment.isEmpty] using ne_nil_of_isIdentifier h)]
    rfl
  have hname : parameterName ⟨w, offset⟩ (.bare w) = .ok w := by
    show boundName ⟨w, offset⟩ (.bare w) = _
    rw [boundName, show (Shape.bare w).bareWords? = some w from rfl]
    simp only [h, if_true]
  rw [Options.parameter, bindingAndDefault_identifier h]
  show (checkParts ⟨w, offset⟩ none >>= _) = _
  rw [hparts]
  show (options.shape ⟨w, offset⟩ >>= _) = _
  rw [shape_identifier h]
  show (parameterName ⟨w, offset⟩ (.bare w) >>= _) = _
  rw [hname]
  rfl

theorem isPiece_identifier : IsPiece w := by
  refine ⟨orderly_identifier h, fun v hv => Bool.eq_false_iff.2 fun htop => ?_⟩
  obtain ⟨a, b, rfl, -, -⟩ := exists_of_mem_visits hv
  exact not_mem_identifier h (show ',' ∈ _ by decide) (by simp [(isTopLevel_iff.1 htop).2])

theorem withoutComments_identifier : withoutComments w = .ok w :=
  withoutComments_eq_self_iff.2 (Zone.cleaned_of_lacksSlash (not_mem_identifier h (by decide)))

theorem parameters_identifier (options : Options) :
    options.parameters w = .ok [⟨w, .bare w, none⟩] := by
  have hblank : w.isBlank = false :=
    (trimmed_identifier h).isBlank_eq_false (ne_nil_of_isIdentifier h)
  have helements : (Segment.ofText w).elements = .ok [⟨w, 0⟩] := by
    have hjoined := @elements_joined w [] (by simpa using isPiece_identifier h) hblank 0
    rw [Segment.ofText, trimmed_of_trimmed (trimmed_identifier h)]
    refine hjoined.trans (congrArg Except.ok ?_)
    show Segment.withoutTrailing [Segment.trimmed w 0] = _
    rw [trimmed_of_trimmed (trimmed_identifier h)]
    rfl
  rw [Options.parameters, withoutComments_identifier h]
  show ((Segment.ofText w).elements >>= _) = _
  rw [helements]
  show ([⟨w, 0⟩] : List Segment).mapM options.parameter = _
  rw [List.mapM_cons, parameter_identifier h]
  rfl

end

end CallSignature
