/-
CallSignature.Proofs.Description.Comments — comments do not show in a description.

A description is made from what the source declares (`describe_congr`), and
that is read from the source without its comments.  Two questions come before
the cleaning, though, and are put to the source as it was given: whether it is
blank, and whether it says that it is native.  If cleaning changes the answer
to neither, it changes no description (`describeText_withoutComments`).

The first answer changes for a source that is nothing but comments.  It is not
blank, and then no callable is found in it; without its comments it is blank.
-/
import CallSignature.Description
import CallSignature.Proofs.Comment.Cleaning
import CallSignature.Proofs.Head.Words

namespace CallSignature

open Cursor Unicode

/-! ## Descriptions and declarations -/

section

variable {s t : Text}

/-- A description depends on the source by what that declares. -/
theorem describe_congr (h : Declaration.ofSource s = Declaration.ofSource t)
    (options : Options) (registry : Registry) (callable : Callable) :
    options.describe registry { callable with source := some s }
      = options.describe registry { callable with source := some t } := by
  have hhead : options.head registry s = options.head registry t := by
    rw [Options.head, Options.head, h]
  show (((options.head registry s) >>= _).map _) = (((options.head registry t) >>= _).map _)
  rw [hhead]
  rfl

/-- Why a source declares nothing is why it has no description. -/
theorem describe_eq_error {fault : Fault} (h : Declaration.ofSource s = .error fault)
    (options : Options) (registry : Registry) (callable : Callable) :
    options.describe registry { callable with source := some s } = .error fault := by
  have hhead : options.head registry s = .error fault := by
    rw [Options.head, h]
  show (((options.head registry s) >>= _).map _) = _
  rw [hhead]
  rfl

end

/-! ## Answers -/

/-- The faults differ in their messages at most. -/
structure Fault.Agrees (f g : Fault) : Prop where
  kind : f.kind = g.kind
  code : f.code = g.code
  offset : f.offset = g.offset
  help : f.help = g.help

/-- The same description, or faults that differ in their messages at most. -/
inductive SameAnswer : Except Fault Descriptor → Except Fault Descriptor → Prop
  | described (d : Descriptor) : SameAnswer (.ok d) (.ok d)
  | refused {f g : Fault} (h : f.Agrees g) : SameAnswer (.error f) (.error g)

theorem SameAnswer.refl (answer : Except Fault Descriptor) : SameAnswer answer answer := by
  cases answer with
  | error fault => exact .refused ⟨rfl, rfl, rfl, rfl⟩
  | ok d => exact .described d

/-! ## Sources and their comments -/

section

variable {s t : Text}

/-- There is nothing to take out of a blank source. -/
theorem withoutComments_of_isBlank (h : s.isBlank = true) : withoutComments s = .ok s := by
  refine withoutComments_eq_self_iff.2 (Zone.cleaned_of_lacksSlash fun hslash => ?_)
  exact absurd (Text.isBlank_iff.1 h '/' hslash) (by decide)

theorem isNative_of_isBlank (h : s.isBlank = true) : isNative s = false := by
  have htrim : s.trimEnd = [] := Text.trimEnd_append_of_isBlank [] h
  rw [isNative, beforeMark?, htrim]
  rfl

theorem ofSource_of_isBlank (h : s.isBlank = true) :
    Declaration.ofSource s = .error { cause := .sourceBlank } := by
  rw [Declaration.ofSource, if_pos h]

theorem ofSource_of_isNative (hblank : s.isBlank = false) (h : isNative s = true) :
    Declaration.ofSource s = .error { cause := .sourceNative s.trim } := by
  rw [Declaration.ofSource, hblank, if_neg Bool.false_ne_true, if_pos h]

theorem ofSource_of_withoutComments (hblank : s.isBlank = false) (hnative : isNative s = false)
    (hclean : withoutComments s = .ok t) : Declaration.ofSource s = Declaration.ofCode t := by
  rw [Declaration.ofSource, hblank, if_neg Bool.false_ne_true, hnative,
    if_neg Bool.false_ne_true, hclean]

/-- At the end of a source stands no callable. -/
theorem ofCursor_of_rest_eq_nil {c : Cursor} (h : c.rest = []) :
    Head.ofCursor c = .error (headFault c) := by
  obtain ⟨behind, rest⟩ := c
  obtain rfl : rest = [] := h
  have hmodifiers : modifiers false ⟨behind, []⟩ = (false, ⟨behind, []⟩) :=
    modifiers_of_none rfl
  show Head.member ⟨behind, []⟩ = _
  rw [Head.member, hmodifiers]
  rfl

/-- A source that is blank only without its comments declares nothing. -/
theorem ofSource_of_isBlank_cleaned (hblank : s.isBlank = false) (hnative : isNative s = false)
    (hclean : withoutComments s = .ok t) (ht : t.isBlank = true) :
    Declaration.ofSource s
      = .error
        { cause := .headUnrecognised [], offset := some s.width
          hint := some .expectCallable } := by
  have hstart : (Cursor.ofText t).skipWhiteSpace = ⟨t.reverse, []⟩ := by
    have hskip := @skipWhiteSpace_append [] t [] ht rfl
    rwa [List.append_nil, List.append_nil] at hskip
  have htrim : t.trim = [] := by
    rw [Text.trim, ← List.append_nil t, Text.trimStart_append_of_isBlank ht]
    rfl
  have hwidth : t.width = s.width := by
    rw [← (withoutCommentsFrom_eq_ok_iff.1 hclean).2, Zone.width_cleaned]
  have hfault : headFault ⟨t.reverse, []⟩
      = { cause := .headUnrecognised [], offset := some s.width
          hint := some .expectCallable } := by
    rw [headFault, text, List.reverse_reverse, List.append_nil, htrim, offset,
      Text.width_reverse, hwidth]
    rfl
  rw [ofSource_of_withoutComments hblank hnative hclean, Declaration.ofCode, hstart, ← hfault]
  show (Head.ofCursor ⟨t.reverse, []⟩).map Declaration.callable = _
  rw [ofCursor_of_rest_eq_nil rfl]
  rfl

end

/-- Comments do not show in a description, as long as cleaning does not change
whether the source is native: if it does not change whether the source is
blank either, the source is described as it is without its comments.  A source
that is nothing but comments is refused in either case, but for reasons of
different kinds. -/
theorem describeText_withoutComments {s t : Text} (hclean : withoutComments s = .ok t)
    (hnative : isNative s = isNative t) :
    (s.isBlank = t.isBlank → SameAnswer (describeText s) (describeText t)) ∧
      (s.isBlank ≠ t.isBlank →
        describeText s = .error
          { cause := .headUnrecognised [], offset := some s.width
            hint := some .expectCallable } ∧
        describeText t = .error { cause := .sourceBlank }) := by
  have hanswer : ∀ {u fault}, Declaration.ofSource u = .error fault →
      describeText u = .error fault := fun h => describe_eq_error h {} Registry.empty {}
  cases hs : s.isBlank with
  | true =>
    obtain rfl := Except.ok.inj ((withoutComments_of_isBlank hs).symm.trans hclean)
    exact ⟨fun _ => .refl _, fun h => absurd hs.symm h⟩
  | false =>
    cases ht : t.isBlank with
    | true =>
      refine ⟨nofun, fun _ => ⟨hanswer ?_, hanswer (ofSource_of_isBlank ht)⟩⟩
      exact ofSource_of_isBlank_cleaned hs (hnative.trans (isNative_of_isBlank ht)) hclean ht
    | false =>
      refine ⟨fun _ => ?_, fun h => absurd rfl h⟩
      cases hcode : isNative t with
      | true =>
        rw [hanswer (ofSource_of_isNative hs (hnative.trans hcode)),
          hanswer (ofSource_of_isNative ht hcode)]
        exact .refused ⟨rfl, rfl, rfl, rfl⟩
      | false =>
        have hsame : Declaration.ofSource s = Declaration.ofSource t := by
          rw [ofSource_of_withoutComments hs (hnative.trans hcode) hclean,
            ofSource_of_withoutComments ht hcode (withoutComments_idempotent hclean)]
        have hdescribe : describeText s = describeText t :=
          describe_congr hsame {} Registry.empty {}
        rw [hdescribe]
        exact .refl _

theorem describeText_withoutComments_remarks :
    SameAnswer (describeText "/* adds */ (a, b /* (c) */) => a + b // sum".toList)
        (describeText "           (a, b          ) => a + b       ".toList) ∧
      describeText "// adds".toList = .error
        { cause := .headUnrecognised [], offset := some 7, hint := some .expectCallable } ∧
      describeText "       ".toList = .error { cause := .sourceBlank } :=
  ⟨(describeText_withoutComments (by decide +kernel) (by decide +kernel)).1
      (by decide +kernel),
    (describeText_withoutComments (by decide +kernel) (by decide +kernel)).2
      (by decide +kernel)⟩

/-- Cleaning can change a description: a comment by itself is no callable,
and the white space in its place is no source. -/
theorem not_forall_sameAnswer :
    ¬ ∀ s t, withoutComments s = .ok t → SameAnswer (describeText s) (describeText t) := by
  intro h
  have hsame := h "// x".toList "    ".toList (by decide +kernel)
  have hcomment : describeText "// x".toList = .error
      { cause := .headUnrecognised [], offset := some 4, hint := some .expectCallable } := by
    decide +kernel
  have hblank : describeText "    ".toList = .error { cause := .sourceBlank } := by
    decide +kernel
  rw [hcomment, hblank] at hsame
  cases hsame with
  | refused hagrees => exact absurd hagrees.kind (by decide)

end CallSignature
