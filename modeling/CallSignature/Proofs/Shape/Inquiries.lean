/-
CallSignature.Proofs.Shape.Inquiries — what the reader of shapes asks.

Only three questions about a text can fail by its brackets and quotes: to what
class a token belongs, what the elements of a list are, and where an entry is
divided.  `Inquired` is a reading that remembers the questions it has asked,
and `Options.inquire` is the reader of shapes in that form: it gives the same
shape or the same fault (`outcome_inquireWithin`), and a fault that is neither
what an unknown shape is refused for nor the limit of the depth is the fault
of one of its questions (`accounted_inquireWithin`).

The parts of an orderly token are orderly, however deep the reader goes and
wherever it cuts.  So every question is answered if the first one is
(`answered_inquireWithin`), and broken structure is told once, for the whole
token.
-/
import CallSignature.Proofs.Shape.Produced

namespace CallSignature

open Shape Unicode

/-! ## Questions -/

/-- A question about the structure of a text. -/
inductive Inquiry
  /-- What the token looks like from outside. -/
  | tokenClass (token : Segment)
  /-- What the elements of the list are. -/
  | elements (list : Segment)
  /-- Where the entry is divided. -/
  | divider (entry : Segment)

/-- The question has no answer, for this fault. -/
def Inquiry.FailsWith (fault : Fault) : Inquiry → Prop
  | tokenClass token => CallSignature.tokenClass token = .error fault
  | elements list => list.elements = .error fault
  | divider entry => entry.divider = .error fault

/-- A reading, and the questions that it has asked. -/
@[ext] structure Inquired (α : Type) where
  inquiries : List Inquiry
  outcome : Except Fault α

namespace Inquired

variable {α β : Type}

/-- A step that asks nothing. -/
def quiet (outcome : Except Fault α) : Inquired α :=
  ⟨[], outcome⟩

/-- A reading before which something was asked. -/
def behind (asked : List Inquiry) (x : Inquired α) : Inquired α :=
  ⟨asked ++ x.inquiries, x.outcome⟩

/-- One step after the other.  Nothing is asked behind a fault. -/
def andThen (x : Inquired α) (f : α → Inquired β) : Inquired β :=
  match x.outcome with
  | .error fault => ⟨x.inquiries, .error fault⟩
  | .ok a => (f a).behind x.inquiries

instance : Monad Inquired where
  pure a := quiet (.ok a)
  bind := andThen

theorem behind_bind (asked : List Inquiry) (x : Inquired α) (f : α → Inquired β) :
    x.behind asked >>= f = (x >>= f).behind asked := by
  rcases x with ⟨inquiries, fault | a⟩
  · rfl
  · exact Inquired.ext (List.append_assoc ..) rfl

instance : LawfulMonad Inquired := LawfulMonad.mk' _
  (fun x => by
    rcases x with ⟨inquiries, fault | a⟩
    · rfl
    · exact Inquired.ext (List.append_nil inquiries) rfl)
  (fun _ _ => Inquired.ext (List.nil_append _) rfl)
  (fun x f g => by
    rcases x with ⟨inquiries, fault | a⟩
    · rfl
    · exact behind_bind inquiries (f a) g)

theorem outcome_bind (x : Inquired α) (f : α → Inquired β) :
    (x >>= f).outcome = x.outcome >>= fun a => (f a).outcome := by
  rcases x with ⟨inquiries, _ | a⟩ <;> rfl

/-- What is asked in a sequence of steps is asked in one of them. -/
theorem mem_inquiries_bind {x : Inquired α} {f : α → Inquired β} {inquiry : Inquiry} :
    inquiry ∈ (x >>= f).inquiries ↔
      inquiry ∈ x.inquiries ∨ ∃ a, x.outcome = .ok a ∧ inquiry ∈ (f a).inquiries := by
  rcases x with ⟨inquiries, fault | a⟩
  · show inquiry ∈ inquiries ↔ _
    simp
  · show inquiry ∈ inquiries ++ (f a).inquiries ↔ _
    simp

theorem outcome_mapM (f : α → Inquired β) (as : List α) :
    (as.mapM f).outcome = as.mapM fun a => (f a).outcome := by
  induction as with
  | nil => rfl
  | cons a as ih =>
    rw [List.mapM_cons, List.mapM_cons, outcome_bind]
    refine congrArg _ (funext fun b => ?_)
    rw [outcome_bind, ih]
    rfl

end Inquired

/-! ## The reader of shapes, with its questions -/

open Inquired

/-- The class of a token, asked for. -/
def askTokenClass (token : Segment) : Inquired TokenClass :=
  ⟨[.tokenClass token], tokenClass token⟩

/-- The elements of a list, asked for. -/
def askElements (list : Segment) : Inquired (List Segment) :=
  ⟨[.elements list], list.elements⟩

/-- The divider of an entry, asked for. -/
def askDivider (entry : Segment) : Inquired (Option (Nat × Char)) :=
  ⟨[.divider entry], entry.divider⟩

/-- The form of an entry.  Where the entry is divided is asked only if it is
neither empty nor begins with three dots. -/
def inquireForm (entry : Segment) : Inquired EntryForm :=
  if entry.isEmpty ∨ dots.isPrefixOf entry.text then quiet (EntryForm.ofSegment entry)
  else do
    match ← askDivider entry with
    | none => return .shorthand entry.text
    | some (offset, separator) => quiet (EntryForm.ofDivided entry offset separator)

/-- An element of an array pattern. -/
def inquireItem (read : Segment → Inquired Shape) (element : Segment) : Inquired Shape :=
  if element.isEmpty then return .hole else read element

/-- An entry of an object pattern. -/
def inquireEntry (read : Segment → Inquired Shape) (entry : Segment) : Inquired Entry := do
  match ← inquireForm entry with
  | .rest key => return .valued key (← read entry)
  | .shorthand key => return .shorthand key
  | .valued key value =>
    let shape ← read value
    if key.isEmpty then quiet (.error (Cause.entryWithoutKey.located entry.offset))
    else return .valued key shape

/-- What three dots stand before. -/
def inquireSpread (read : Segment → Inquired Shape) (token : Segment) : Inquired Shape :=
  let operand := token.sliceFrom 3
  if operand.isEmpty then quiet (.error (Cause.spreadWithoutOperand.located token.offset))
  else do return .spread (← read operand)

/-- A token as a shape. -/
def inquireToken (read : Segment → Inquired Shape) (token : Segment) : Inquired Shape := do
  match ← askTokenClass token with
  | .object => return .mapping (← (← askElements token.interior).mapM (inquireEntry read))
  | .array => return .sequence (← (← askElements token.interior).mapM (inquireItem read))
  | .spread => inquireSpread read token
  | .leaf => return Shape.ofLeaf token.text

/-- A token as a shape, with room for this many levels of the `limit`. -/
def inquireWithin (limit : Nat) : Nat → Segment → Inquired Shape
  | 0, token => quiet (.error (depthFault limit token.offset))
  | room + 1, token => inquireToken (inquireWithin limit room) token

/-- The reader of shapes, with its questions. -/
def Options.inquire (options : Options) (token : Segment) : Inquired Shape :=
  inquireWithin options.maxDepth (options.maxDepth + 1) token

/-! ## The outcome -/

section

variable (read : Segment → Inquired Shape)

theorem outcome_inquireForm (entry : Segment) :
    (inquireForm entry).outcome = EntryForm.ofSegment entry := by
  unfold inquireForm
  split
  · rfl
  · rename_i h
    obtain ⟨hempty, hdots⟩ := not_or.1 h
    rw [Bool.not_eq_true] at hdots
    rw [outcome_bind, EntryForm.ofSegment, if_neg hempty,
      Text.afterPrefix?_eq_none_iff.2 hdots]
    show entry.divider >>= _ = _
    rcases entry.divider with fault | _ | ⟨offset, separator⟩ <;> rfl

theorem outcome_inquireItem (element : Segment) : (inquireItem read element).outcome
    = readItem (fun token => (read token).outcome) element := by
  unfold inquireItem readItem
  split <;> rfl

theorem outcome_inquireEntry (entry : Segment) : (inquireEntry read entry).outcome
    = readEntry (fun token => (read token).outcome) entry := by
  unfold inquireEntry readEntry
  rw [outcome_bind, outcome_inquireForm]
  refine congrArg _ (funext fun form => ?_)
  cases form with
  | rest key => exact outcome_bind ..
  | shorthand key => rfl
  | valued key value =>
    dsimp only
    rw [outcome_bind]
    refine congrArg _ (funext fun shape => ?_)
    split <;> rfl

theorem outcome_inquireSpread (token : Segment) : (inquireSpread read token).outcome
    = readSpread (fun token => (read token).outcome) token := by
  unfold inquireSpread readSpread
  dsimp only
  split
  · rfl
  · rw [outcome_bind]
    cases (read (token.sliceFrom 3)).outcome <;> rfl

theorem outcome_inquireToken (token : Segment) : (inquireToken read token).outcome
    = readToken (fun token => (read token).outcome) token := by
  unfold inquireToken readToken
  rw [outcome_bind]
  refine congrArg _ (funext fun found => ?_)
  cases found with
  | object =>
    dsimp only
    rw [outcome_bind]
    refine congrArg _ (funext fun parts => ?_)
    rw [outcome_bind, outcome_mapM, funext (outcome_inquireEntry read)]
    rfl
  | array =>
    dsimp only
    rw [outcome_bind]
    refine congrArg _ (funext fun parts => ?_)
    rw [outcome_bind, outcome_mapM, funext (outcome_inquireItem read)]
    rfl
  | spread => exact outcome_inquireSpread read token
  | leaf => rfl

end

/-- Asking changes nothing in what is read. -/
theorem outcome_inquireWithin (limit room : Nat) (token : Segment) :
    (inquireWithin limit room token).outcome = shapeWithin limit room token := by
  induction room generalizing token with
  | zero => rfl
  | succ room ih =>
    rw [inquireWithin, outcome_inquireToken, shapeWithin]
    exact congrArg (readToken · token) (funext ih)

/-! ## Where faults come from -/

namespace Inquired

variable {α β : Type} {P : Fault → Prop}

/-- A fault of the reading that is none of these is the fault of a question. -/
def Accounted (P : Fault → Prop) (x : Inquired α) : Prop :=
  ∀ fault, x.outcome = .error fault →
    P fault ∨ ∃ inquiry ∈ x.inquiries, inquiry.FailsWith fault

/-- No question of the reading has failed. -/
def Answered (x : Inquired α) : Prop :=
  ∀ inquiry ∈ x.inquiries, ∀ fault, ¬ inquiry.FailsWith fault

theorem Accounted.quiet {outcome : Except Fault α} (h : FaultsSatisfy P outcome) :
    Accounted P (.quiet outcome) :=
  fun fault heq => .inl (h fault heq)

theorem Accounted.ask {inquiry : Inquiry} {outcome : Except Fault α}
    (h : ∀ fault, outcome = .error fault → inquiry.FailsWith fault) :
    Accounted P ⟨[inquiry], outcome⟩ :=
  fun fault heq => .inr ⟨inquiry, List.mem_singleton_self _, h fault heq⟩

theorem Accounted.bind {x : Inquired α} {f : α → Inquired β} (hx : Accounted P x)
    (hf : ∀ a, Accounted P (f a)) : Accounted P (x >>= f) := by
  intro fault heq
  rw [outcome_bind] at heq
  cases houtcome : x.outcome with
  | error found =>
    rw [houtcome] at heq
    obtain rfl : found = fault := Except.error.inj heq
    refine (hx found houtcome).imp_right fun ⟨inquiry, hmem, hfails⟩ => ⟨inquiry, ?_, hfails⟩
    exact mem_inquiries_bind.2 (.inl hmem)
  | ok a =>
    rw [houtcome] at heq
    refine (hf a fault heq).imp_right fun ⟨inquiry, hmem, hfails⟩ => ⟨inquiry, ?_, hfails⟩
    exact mem_inquiries_bind.2 (.inr ⟨a, houtcome, hmem⟩)

theorem Accounted.pure (a : α) : Accounted P (Pure.pure a : Inquired α) :=
  .quiet (.ok a)

theorem Accounted.mapM {f : α → Inquired β} (hf : ∀ a, Accounted P (f a)) (as : List α) :
    Accounted P (as.mapM f) := by
  induction as with
  | nil => exact .pure _
  | cons a as ih =>
    rw [List.mapM_cons]
    exact (hf a).bind fun b => ih.bind fun bs => .pure _

theorem Answered.quiet (outcome : Except Fault α) : Answered (.quiet outcome) :=
  nofun

theorem Answered.pure (a : α) : Answered (Pure.pure a : Inquired α) :=
  .quiet _

theorem Answered.bind {x : Inquired α} {f : α → Inquired β} (hx : Answered x)
    (hf : ∀ a, x.outcome = .ok a → Answered (f a)) : Answered (x >>= f) := by
  intro inquiry hmem
  rcases mem_inquiries_bind.1 hmem with hmem | ⟨a, houtcome, hmem⟩
  · exact hx inquiry hmem
  · exact hf a houtcome inquiry hmem

theorem Answered.mapM {f : α → Inquired β} {as : List α} (hf : ∀ a ∈ as, Answered (f a)) :
    Answered (as.mapM f) := by
  induction as with
  | nil => exact .pure _
  | cons a as ih =>
    obtain ⟨ha, has⟩ := List.forall_mem_cons.1 hf
    rw [List.mapM_cons]
    exact .bind ha fun b _ => .bind (ih has) fun bs _ => .pure _

theorem Answered.ask {inquiry : Inquiry} {outcome : Except Fault α}
    (h : ∀ fault, ¬ inquiry.FailsWith fault) : Answered ⟨[inquiry], outcome⟩ := by
  intro found hmem
  rw [List.mem_singleton.1 hmem]
  exact h

end Inquired

/-- The fault says that a shape is unknown, or that the limit is reached. -/
def IsShapeFault (limit : Nat) (fault : Fault) : Prop :=
  fault.kind = .unknownShape ∨ ∃ place, fault = depthFault limit place

theorem isShapeFault_ofDivided (limit : Nat) (entry : Segment) (offset : Nat)
    (separator : Char) :
    FaultsSatisfy (IsShapeFault limit) (EntryForm.ofDivided entry offset separator) := by
  unfold EntryForm.ofDivided
  dsimp only
  split
  · exact .error (.inl rfl)
  · exact .ok _

section

variable {limit : Nat} {read : Segment → Inquired Shape}

theorem accounted_inquireForm (entry : Segment) :
    Accounted (IsShapeFault limit) (inquireForm entry) := by
  unfold inquireForm
  split
  · rename_i h
    refine .quiet ?_
    unfold EntryForm.ofSegment
    split
    · exact .error (.inl rfl)
    · rename_i hempty
      obtain ⟨operand, hoperand⟩ := List.isPrefixOf_iff_prefix.1 (h.resolve_left hempty)
      rw [Text.afterPrefix?_eq_some_iff.2 hoperand.symm]
      dsimp only
      split
      · exact .ok _
      · exact .error (.inl rfl)
  · refine Accounted.bind (.ask fun fault heq => heq) fun found => ?_
    rcases found with _ | ⟨offset, separator⟩
    · exact .pure _
    · exact .quiet (isShapeFault_ofDivided limit entry offset separator)

theorem accounted_inquireToken (hread : ∀ token, Accounted (IsShapeFault limit) (read token))
    (token : Segment) : Accounted (IsShapeFault limit) (inquireToken read token) := by
  have hitem : ∀ element, Accounted (IsShapeFault limit) (inquireItem read element) := by
    intro element
    unfold inquireItem
    split
    · exact .pure _
    · exact hread element
  have hentry : ∀ entry, Accounted (IsShapeFault limit) (inquireEntry read entry) := by
    intro entry
    refine (accounted_inquireForm entry).bind fun form => ?_
    cases form with
    | rest key => exact (hread entry).bind fun shape => .pure _
    | shorthand key => exact .pure _
    | valued key value =>
      refine (hread value).bind fun shape => ?_
      split
      · exact .quiet (.error (.inl rfl))
      · exact .pure _
  have hspread : Accounted (IsShapeFault limit) (inquireSpread read token) := by
    unfold inquireSpread
    dsimp only
    split
    · exact .quiet (.error (.inl rfl))
    · exact (hread _).bind fun shape => .pure _
  refine Accounted.bind (.ask fun fault heq => heq) fun found => ?_
  have helements : Accounted (IsShapeFault limit) (askElements token.interior) :=
    .ask fun fault heq => heq
  cases found with
  | object =>
    exact helements.bind fun parts => (Accounted.mapM hentry parts).bind fun _ => .pure _
  | array =>
    exact helements.bind fun parts => (Accounted.mapM hitem parts).bind fun _ => .pure _
  | spread => exact hspread
  | leaf => exact .pure _

end

theorem accounted_inquireWithin (limit room : Nat) (token : Segment) :
    Accounted (IsShapeFault limit) (inquireWithin limit room token) := by
  induction room generalizing token with
  | zero => exact .quiet (.error (.inr ⟨token.offset, rfl⟩))
  | succ room ih => exact accounted_inquireToken ih token

/-! ## Orderly tokens -/

section

variable {read : Segment → Inquired Shape}
  (hread : ∀ ⦃token : Segment⦄, Orderly token.text → Answered (read token))

theorem answered_inquireForm {entry : Segment} (h : Orderly entry.text) :
    Answered (inquireForm entry) := by
  unfold inquireForm
  split
  · exact .quiet _
  · refine Answered.bind (.ask fun fault hfails => ?_) fun found _ => ?_
    · cases (divider_of_orderly h).symm.trans hfails
    · rcases found with _ | ⟨offset, separator⟩
      · exact .pure _
      · exact .quiet _

theorem answered_askElements {list : Segment} (h : Orderly list.text) :
    Answered (askElements list) := by
  obtain ⟨parts, hparts⟩ := exists_elements h
  exact .ask fun fault hfails => by cases hparts.symm.trans hfails

include hread

theorem answered_inquireItem {element : Segment} (h : Orderly element.text) :
    Answered (inquireItem read element) := by
  unfold inquireItem
  split
  · exact .pure _
  · exact hread h

theorem answered_inquireEntry {entry : Segment} (h : IsElement entry.text) :
    Answered (inquireEntry read entry) := by
  refine (answered_inquireForm h.2.1).bind fun form hform => ?_
  rw [outcome_inquireForm] at hform
  have hkey := isKey_of_ofSegment (h.isWritten hform) hform
  cases form with
  | rest key => exact (hread h.2.1).bind fun _ _ => .pure _
  | shorthand key => exact .pure _
  | valued key value =>
    refine (hread hkey.2.orderly).bind fun shape _ => ?_
    split
    · exact .quiet _
    · exact .pure _

theorem answered_inquireSpread {token : Segment} (h : Orderly token.text)
    (hdots : dots.isPrefixOf token.text = true) : Answered (inquireSpread read token) := by
  unfold inquireSpread
  dsimp only
  split
  · exact .quiet _
  · exact (hread (orderly_operand h hdots)).bind fun _ _ => .pure _

/-- No level of an orderly token asks a question that fails, if the level
below does not. -/
theorem answered_inquireToken {token : Segment} (h : Orderly token.text) :
    Answered (inquireToken read token) := by
  refine Answered.bind (.ask fun fault hfails => ?_) fun found hfound => ?_
  · cases (tokenClass_of_orderly h).symm.trans hfails
  · have hclass := describes_of_tokenClass hfound
    cases found with
    | object =>
      refine (answered_askElements (orderly_interior hclass)).bind fun parts hparts => ?_
      refine Answered.bind (.mapM fun entry hentry => ?_) fun _ _ => .pure _
      exact answered_inquireEntry hread (isPiece_of_mem_elements hparts hentry)
    | array =>
      refine (answered_askElements (orderly_interior hclass)).bind fun parts hparts => ?_
      refine Answered.bind (.mapM fun item hitem => ?_) fun _ _ => .pure _
      exact answered_inquireItem hread (isPiece_of_mem_elements hparts hitem).2.1
    | spread => exact answered_inquireSpread hread h hclass
    | leaf => exact .pure _

end

theorem answered_inquireWithin (limit room : Nat) {token : Segment} (h : Orderly token.text) :
    Answered (inquireWithin limit room token) := by
  induction room generalizing token with
  | zero => exact .quiet _
  | succ room ih => exact answered_inquireToken (fun _ => ih) h

/-- An orderly token can only be unknown or too deep. -/
theorem isShapeFault_of_orderly (limit room : Nat) {token : Segment} (h : Orderly token.text) :
    FaultsSatisfy (IsShapeFault limit) (shapeWithin limit room token) := by
  intro fault hfault
  rw [← outcome_inquireWithin] at hfault
  rcases accounted_inquireWithin limit room token fault hfault with
    h' | ⟨inquiry, hmem, hfails⟩
  · exact h'
  · exact absurd hfails (answered_inquireWithin limit room h inquiry hmem fault)

/-! ## Broken tokens -/

theorem inquireToken_of_scan {read : Segment → Inquired Shape} {token : Segment}
    {fault : Fault} (h : scan token.text = .error fault) : inquireToken read token
      = ⟨[.tokenClass token], .error (fault.shifted token.offset)⟩ := by
  have hclass : tokenClass token = .error (fault.shifted token.offset) := by
    rw [tokenClass, h]
    rfl
  show askTokenClass token >>= _ = _
  rw [askTokenClass, hclass]
  rfl

/-- Broken structure is told once, for the whole token.  The reader of shapes
is a reader that asks about tokens, lists and entries.  If the token itself is
broken, that is what its first question finds, and the reader stops with that
fault, at its place in the source.  If it is not, no question fails at any
level, and the reader can only fail for an unknown shape or the depth. -/
theorem shape_asks_once (options : Options) (token : Segment) :
    (options.inquire token).outcome = options.shape token ∧
      match scan token.text with
      | .error fault =>
        options.shape token = .error (fault.shifted token.offset) ∧
          (options.inquire token).inquiries = [.tokenClass token]
      | .ok _ =>
        (∀ inquiry ∈ (options.inquire token).inquiries, ∀ fault, ¬ inquiry.FailsWith fault) ∧
          ∀ fault, options.shape token = .error fault →
            fault.kind = .unknownShape ∨ ∃ place, fault = ((Cause.nestingTooDeep
              options.maxDepth).located place).withHint .raiseMaxDepth := by
  have houtcome : (options.inquire token).outcome = options.shape token :=
    outcome_inquireWithin ..
  refine ⟨houtcome, ?_⟩
  cases hscan : scan token.text with
  | error fault =>
    have hinquired : options.inquire token
        = ⟨[.tokenClass token], .error (fault.shifted token.offset)⟩ :=
      inquireToken_of_scan hscan
    exact ⟨by rw [← houtcome, hinquired], by rw [hinquired]⟩
  | ok visits =>
    exact ⟨answered_inquireWithin _ _ ⟨visits, hscan⟩,
      isShapeFault_of_orderly _ _ ⟨visits, hscan⟩⟩

end CallSignature
