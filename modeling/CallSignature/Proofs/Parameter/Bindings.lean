/-
CallSignature.Proofs.Parameter.Bindings — what is known of a parameter.

`NamesBinding` says which names and shapes go together: a parameter is called
by the identifier that it binds, or it binds a pattern and has no name.  A
default is what stands behind the first sign of the segment, and the sign is
described by what stands around it (`IsSignBetween`).

A segment is read as a parameter exactly if the parameter is related to it in
these ways (`parameter_read_iff`), and a list is read parameter by parameter.
So nothing that the library makes of a parameter has to be checked again by
those who use it.
-/
import CallSignature.Proofs.Nesting.Acceptance
import CallSignature.Proofs.Parameter.Breakage

namespace CallSignature

open Segment Unicode

/-! ## Names and shapes -/

/-- A parameter of this kind has this name and this shape.  It binds an
identifier or a pattern, and a rest parameter collects into one of these. -/
inductive NamesBinding : BindingKind → Text → Shape → Prop
  | name {name : Text} (h : isIdentifier name = true) : NamesBinding .none name (.bare name)
  | array (items : List Shape) : NamesBinding .array [] (.sequence items)
  | object (entries : List Entry) : NamesBinding .object [] (.mapping entries)
  | restName {name : Text} (h : isIdentifier name = true) :
    NamesBinding .spread name (.spread (.bare name))
  | restArray (items : List Shape) : NamesBinding .spread [] (.spread (.sequence items))
  | restObject (entries : List Entry) : NamesBinding .spread [] (.spread (.mapping entries))

theorem bareWords?_eq_some_iff {shape : Shape} {words : Text} :
    shape.bareWords? = some words ↔ shape = .bare words := by
  constructor
  · intro h
    cases shape with
    | text words' quote =>
      cases quote with
      | none =>
        obtain rfl := Option.some.inj h
        rfl
      | some quote => cases h
    | _ => cases h
  · rintro rfl
    rfl

theorem boundName_eq_ok_iff {binding : Segment} {shape : Shape} {name : Text} :
    boundName binding shape = .ok name ↔ shape = .bare name ∧ isIdentifier name = true := by
  rw [← bareWords?_eq_some_iff, boundName]
  cases shape.bareWords? with
  | none => simp
  | some words =>
    dsimp only
    split
    · rename_i hwords
      constructor
      · intro h
        obtain rfl := Except.ok.inj h
        exact ⟨rfl, hwords⟩
      · rintro ⟨h, -⟩
        rw [Option.some.inj h]
    · rename_i hwords
      refine ⟨nofun, ?_⟩
      rintro ⟨h, hname⟩
      obtain rfl := Option.some.inj h
      exact absurd hname hwords

/-- The name of a parameter is the one that goes with its shape. -/
theorem parameterName_eq_ok_iff {binding : Segment} {shape : Shape} {name : Text} :
    parameterName binding shape = .ok name ↔ NamesBinding shape.kind name shape := by
  constructor
  · intro h
    rw [parameterName.eq_def] at h
    split at h
    · obtain rfl := Except.ok.inj h
      exact .array _
    · obtain rfl := Except.ok.inj h
      exact .object _
    · obtain rfl := Except.ok.inj h
      exact .restArray _
    · obtain rfl := Except.ok.inj h
      exact .restObject _
    · obtain ⟨rfl, hname⟩ := boundName_eq_ok_iff.1 h
      exact .restName hname
    · obtain ⟨rfl, hname⟩ := boundName_eq_ok_iff.1 h
      exact .name hname
  · intro h
    generalize hkind : shape.kind = kind at h
    cases h with
    | name h => exact boundName_eq_ok_iff.2 ⟨rfl, h⟩
    | restName h => exact boundName_eq_ok_iff.2 ⟨rfl, h⟩
    | _ => rfl

/-- An empty text is read as a hole, which is the binding of no name. -/
theorem text_ne_nil_of_namesBinding {options : Options} {binding : Segment}
    {kind : BindingKind} {name : Text} {shape : Shape}
    (hshape : options.shape binding = .ok shape) (h : NamesBinding kind name shape) :
    binding.text ≠ [] := by
  rintro hempty
  obtain ⟨text, offset⟩ := binding
  obtain rfl : text = [] := hempty
  obtain rfl : Shape.bare [] = shape := Except.ok.inj hshape
  cases h with
  | name h => cases h

/-! ## The first sign of a segment -/

/-- The equals sign between the two texts divides a parameter: it stands
outside literals and groups, and it is part of no comparison and no arrow. -/
structure IsSignBetween (a b : Text) : Prop where
  outside : Balanced a
  begins : ∀ c, a.getLast? = some c → c ∉ ['=', '!', '<', '>']
  ends : ∀ c, b.head? = some c → c ∉ ['=', '>']

/-- The first sign of the text stands between `a` and `b`. -/
structure IsFirstSign (t a b : Text) : Prop where
  text_eq : t = a ++ '=' :: b
  sign : IsSignBetween a b
  first : ∀ a' b', t = a' ++ '=' :: b' → IsSignBetween a' b' → a.width ≤ a'.width

variable {t a b a' b' : Text}

theorem IsFirstSign.unique (h : IsFirstSign t a b) (h' : IsFirstSign t a' b') :
    a = a' ∧ b = b' := by
  have hwidth :=
    Nat.le_antisymm (h.first _ _ h'.text_eq h'.sign) (h'.first _ _ h.text_eq h.sign)
  obtain ⟨rfl, hbehind⟩ := Text.append_inj_of_width (h.text_eq.symm.trans h'.text_eq) hwidth
  exact ⟨rfl, (List.cons.inj hbehind).2⟩

/-- The neighbours of an equals sign decide whether it assigns. -/
theorem assigns_iff : assigns (a ++ '=' :: b) a.width = true ↔
    (∀ c, a.getLast? = some c → c ∉ ['=', '!', '<', '>']) ∧
      ∀ c, b.head? = some c → c ∉ ['=', '>'] := by
  rw [assigns_append]
  cases a.getLast? <;> cases b.head? <;>
    simp [beginsOperator, continuesOperator, and_assoc]

theorem isPlain_equals : isPlain '=' = true := by decide

/-- The signs that a scan of an orderly text finds are those that divide it. -/
theorem mem_signsIn_iff (h : Orderly t) {place : Nat} : place ∈ signsIn t ↔
    ∃ a b, t = a ++ '=' :: b ∧ place = a.width ∧ IsSignBetween a b := by
  constructor
  · intro hplace
    obtain ⟨v, hv, rfl⟩ := List.mem_map.1 hplace
    obtain ⟨hmem, hsign⟩ := List.mem_filter.1 hv
    obtain ⟨htop, hassigns⟩ := Bool.and_eq_true_iff.1 hsign
    obtain ⟨hdepth, hchar⟩ := isTopLevel_iff.1 htop
    obtain ⟨before, behind, hvisits⟩ := List.append_of_mem hmem
    obtain ⟨a, b, rfl, hoffset, ha, -, -⟩ := h.cut hvisits hdepth (hchar ▸ isPlain_equals)
    rw [hchar, hoffset] at hassigns
    obtain ⟨hbegins, hends⟩ := assigns_iff.1 hassigns
    exact ⟨a, b, by rw [hchar], hoffset, orderly_iff_balanced.1 ha, hbegins, hends⟩
  · rintro ⟨a, b, rfl, rfl, hsign⟩
    have ha : Orderly a := hsign.outside.orderly
    have hb : Orderly b := (h.of_append_left ha).of_append_left (a := ['=']) (by decide)
    have hmem : (⟨a.width, '=', 0⟩ : Visit) ∈ (a ++ '=' :: b).visits := by
      rw [visits_append ha (hb.cons isPlain_equals), visits_cons isPlain_equals hb]
      simp [Visit.lifted]
    refine List.mem_map.2 ⟨_, List.mem_filter.2 ⟨hmem, ?_⟩, rfl⟩
    rw [assignsAt, assigns_iff.2 ⟨hsign.begins, hsign.ends⟩]
    rfl

/-- An orderly segment is divided at its first sign, if it has one. -/
theorem bindingAndDefault_sign {s : Segment} (h : Orderly s.text) :
    ((∀ a b, s.text = a ++ '=' :: b → ¬ IsSignBetween a b) ∧
        s.bindingAndDefault = .ok (s, none)) ∨
      ∃ a b, IsFirstSign s.text a b ∧ Orderly b ∧ s.bindingAndDefault
        = .ok (.trimmed a s.offset, some (.trimmed b (s.offset + a.width + 1))) := by
  rcases bindingAndDefault_cases h with ⟨hsigns, hparts⟩ | ⟨a, b, ht, -, hb, hsigns, hparts⟩
  · refine .inl ⟨fun a b ht hsign => ?_, hparts⟩
    have hmem := (mem_signsIn_iff h).2 ⟨a, b, ht, rfl, hsign⟩
    rw [hsigns] at hmem
    cases hmem
  · have hfirst : a.width ∈ signsIn s.text := hsigns ▸ List.mem_cons_self
    refine .inr ⟨a, b, ⟨ht, ?_, fun a' b' ht' hsign => ?_⟩, hb, hparts⟩
    · obtain ⟨a', b', ht', hwidth, hsign⟩ := (mem_signsIn_iff h).1 hfirst
      obtain ⟨rfl, hbehind⟩ := Text.append_inj_of_width (ht.symm.trans ht') hwidth
      rwa [(List.cons.inj hbehind).2]
    · have hmem := (mem_signsIn_iff h).2 ⟨a', b', ht', rfl, hsign⟩
      have hsorted : (signsIn s.text).Pairwise (· < ·) := pairwise_places h _
      rw [hsigns] at hmem hsorted
      rcases List.mem_cons.1 hmem with heq | hbehind
      · exact Nat.le_of_eq heq.symm
      · exact Nat.le_of_lt ((List.pairwise_cons.1 hsorted).1 _ hbehind)

/-! ## Parameters -/

theorem checkParts_eq_ok_iff {binding : Segment} {default? : Option Segment} :
    checkParts binding default? = .ok () ↔
      binding.text ≠ [] ∧ ∀ source ∈ default?, source.text ≠ [] := by
  unfold checkParts
  split
  · rename_i hbinding
    simp [List.isEmpty_iff.1 hbinding]
  · rename_i hbinding
    have hne : binding.text ≠ [] := mt List.isEmpty_iff.2 hbinding
    cases default? with
    | none => simp [hne]
    | some source =>
      cases hsource : source.text <;> simp [hne, Option.filter, isEmpty, hsource]

/-- A rest parameter has no default. -/
theorem checkRest_eq_ok_iff {shape : Shape} {default? : Option Segment} :
    checkRest shape default? = .ok () ↔ (shape.kind = .spread → default? = none) := by
  cases shape <;> cases default? <;> simp [checkRest, Shape.kind]

/-- A segment is read as a parameter in five steps. -/
theorem parameter_eq_ok {options : Options} {s : Segment} {p : Parameter} :
    options.parameter s = .ok p ↔ ∃ binding default?,
      s.bindingAndDefault = .ok (binding, default?) ∧ checkParts binding default? = .ok () ∧
        options.shape binding = .ok p.shape ∧ parameterName binding p.shape = .ok p.name ∧
        checkRest p.shape default? = .ok () ∧ p.defaultSource = default?.map (·.text) := by
  constructor
  · intro h
    obtain ⟨⟨binding, default?⟩, hparts, h⟩ := bind_eq_ok h
    obtain ⟨⟨⟩, hchecked, h⟩ := bind_eq_ok h
    obtain ⟨shape, hshape, h⟩ := bind_eq_ok h
    obtain ⟨name, hname, h⟩ := bind_eq_ok h
    obtain ⟨⟨⟩, hrest, h⟩ := bind_eq_ok h
    obtain rfl := Except.ok.inj h
    exact ⟨binding, default?, hparts, hchecked, hshape, hname, hrest, rfl⟩
  · rintro ⟨binding, default?, hparts, hchecked, hshape, hname, hrest, hdefault⟩
    rw [Options.parameter, hparts]
    show (checkParts binding default? >>= _) = _
    rw [hchecked]
    show (options.shape binding >>= _) = _
    rw [hshape]
    show (parameterName binding p.shape >>= _) = _
    rw [hname]
    show (checkRest p.shape default? >>= _) = _
    rw [hrest, ← hdefault]
    rfl

/-- The parameter is what the segment declares. -/
structure Parameter.IsReadFrom (options : Options) (s : Segment) (p : Parameter) : Prop where
  names : NamesBinding p.kind p.name p.shape
  hasDefault_iff : p.hasDefault = true ↔ ∃ source, p.defaultSource = some source
  rest_lacksDefault : p.kind = .spread → p.hasDefault = false
  /-- Without a default the whole segment is bound, and no sign divides it. -/
  undivided : p.defaultSource = none →
    (∀ a b, s.text = a ++ '=' :: b → ¬ IsSignBetween a b) ∧ options.shape s = .ok p.shape
  /-- A default is what stands behind the first sign, and what stands in front
  of that sign is bound. -/
  divided : ∀ source, p.defaultSource = some source →
    ∃ a b, IsFirstSign s.text a b ∧ options.shape (.trimmed a s.offset) = .ok p.shape ∧
      source = b.trim ∧ source ≠ [] ∧ source.Trimmed ∧ Orderly source

theorem orderly_of_bindingAndDefault {s binding : Segment} {default? : Option Segment}
    (h : s.bindingAndDefault = .ok (binding, default?)) : Orderly s.text := by
  unfold bindingAndDefault assignmentCuts at h
  cases hscan : scan s.text with
  | error fault => rw [hscan] at h; cases h
  | ok visits => exact ⟨visits, hscan⟩

theorem orderly_of_shape {options : Options} {token : Segment} {shape : Shape}
    (h : options.shape token = .ok shape) : Orderly token.text := by
  obtain ⟨found, hfound, -⟩ := bind_eq_ok h
  exact orderly_of_tokenClass hfound

theorem isReadFrom_of_parameter {options : Options} {s : Segment} {p : Parameter}
    (h : options.parameter s = .ok p) : p.IsReadFrom options s := by
  obtain ⟨binding, default?, hparts, hchecked, hshape, hname, hrest, hdefault⟩ :=
    parameter_eq_ok.1 h
  have hnames := parameterName_eq_ok_iff.1 hname
  have hlacks : p.kind = .spread → p.hasDefault = false := fun hkind => by
    rw [Parameter.hasDefault, hdefault, checkRest_eq_ok_iff.1 hrest hkind]
    rfl
  rcases bindingAndDefault_sign (orderly_of_bindingAndDefault hparts) with
    ⟨hundivided, hdivided⟩ | ⟨a, b, hfirst, hb, hdivided⟩
  · obtain ⟨rfl, rfl⟩ := Prod.mk.inj (Except.ok.inj (hparts.symm.trans hdivided))
    refine ⟨hnames, Option.isSome_iff_exists, hlacks, fun _ => ⟨hundivided, hshape⟩, ?_⟩
    rw [hdefault]
    nofun
  · obtain ⟨rfl, rfl⟩ := Prod.mk.inj (Except.ok.inj (hparts.symm.trans hdivided))
    refine ⟨hnames, Option.isSome_iff_exists, hlacks, ?_, fun source hsource => ?_⟩
    · rw [hdefault]
      nofun
    · obtain rfl : b.trim = source := Option.some.inj (hdefault.symm.trans hsource)
      have hne := (checkParts_eq_ok_iff.1 hchecked).2 _ rfl
      exact ⟨a, b, hfirst, hshape, rfl, hne, Text.trimmed_trim b, hb.trim⟩

theorem parameter_of_isReadFrom {options : Options} {s : Segment} {p : Parameter}
    (h : p.IsReadFrom options s) : options.parameter s = .ok p := by
  have hname : ∀ binding, parameterName binding p.shape = .ok p.name := fun _ =>
    parameterName_eq_ok_iff.2 h.names
  rw [parameter_eq_ok]
  cases hdefault : p.defaultSource with
  | none =>
    obtain ⟨hlacks, hshape⟩ := h.undivided hdefault
    rcases bindingAndDefault_sign (orderly_of_shape hshape) with
      ⟨-, hparts⟩ | ⟨a, b, hfirst, -, -⟩
    · have hne := text_ne_nil_of_namesBinding hshape h.names
      exact ⟨s, none, hparts, checkParts_eq_ok_iff.2 ⟨hne, nofun⟩, hshape, hname s,
        checkRest_eq_ok_iff.2 fun _ => rfl, rfl⟩
    · exact absurd hfirst.sign (hlacks a b hfirst.text_eq)
  | some source =>
    obtain ⟨a, b, hfirst, hshape, rfl, hsource, -, hb⟩ := h.divided source hdefault
    have horderly : Orderly s.text := by
      rw [hfirst.text_eq]
      exact hfirst.sign.outside.orderly.append (hb.of_trim.cons isPlain_equals)
    rcases bindingAndDefault_sign horderly with ⟨hlacks, -⟩ | ⟨a', b', hfirst', -, hparts⟩
    · exact absurd hfirst.sign (hlacks a b hfirst.text_eq)
    · obtain ⟨rfl, rfl⟩ := hfirst.unique hfirst'
      have hne := text_ne_nil_of_namesBinding hshape h.names
      refine ⟨_, _, hparts, checkParts_eq_ok_iff.2 ⟨hne, ?_⟩, hshape, hname _,
        checkRest_eq_ok_iff.2 fun hkind => ?_, rfl⟩
      · rintro _ ⟨⟩
        exact hsource
      · have hlacks := h.rest_lacksDefault hkind
        rw [Parameter.hasDefault, hdefault] at hlacks
        cases hlacks

/-! ## Lists of parameters -/

/-- A list is read if its members are, one by one. -/
theorem mapM_eq_ok_iff {α β ε : Type} {f : α → Except ε β} {as : List α} {bs : List β} :
    as.mapM f = .ok bs ↔ List.Forall₂ (fun a b => f a = .ok b) as bs := by
  constructor
  · intro h
    induction as generalizing bs with
    | nil =>
      obtain rfl := Except.ok.inj h
      exact .nil
    | cons a as ih =>
      obtain ⟨b, bs, rfl, ha, has⟩ := mapM_cons_eq_ok h
      exact .cons ha (ih has)
  · intro h
    induction h with
    | nil => rfl
    | cons ha _ ih =>
      rw [List.mapM_cons, ha]
      show (List.mapM f _ >>= _) = _
      rw [ih]
      rfl

/-- Exactly the parameter that a segment declares is read from it, and from a
list there is read one such parameter for each of its elements. -/
theorem parameter_read_iff (options : Options) :
    (∀ s p, options.parameter s = .ok p ↔ p.IsReadFrom options s) ∧
      ∀ list ps, options.parameters list = .ok ps ↔ ∃ clean parts,
        withoutComments list = .ok clean ∧ (Segment.ofText clean).elements = .ok parts ∧
          List.Forall₂ (fun s p => p.IsReadFrom options s) parts ps := by
  have hread : ∀ s p, options.parameter s = .ok p ↔ p.IsReadFrom options s := fun s p =>
    ⟨isReadFrom_of_parameter, parameter_of_isReadFrom⟩
  refine ⟨hread, fun list ps => ?_⟩
  simp only [← hread, ← mapM_eq_ok_iff]
  constructor
  · intro h
    obtain ⟨clean, hclean, h⟩ := bind_eq_ok h
    obtain ⟨parts, hparts, h⟩ := bind_eq_ok h
    exact ⟨clean, parts, hclean, hparts, h⟩
  · rintro ⟨clean, parts, hclean, hparts, h⟩
    rw [Options.parameters, hclean]
    show ((Segment.ofText clean).elements >>= _) = _
    rw [hparts]
    exact h

/-- The equals signs behind the first one belong to the default. -/
example : Options.parameter {} (.ofText "{x} = a => b = 1".toList)
    = .ok ⟨[], .mapping [.shorthand ['x']], some "a => b = 1".toList⟩ := by
  decide

end CallSignature
