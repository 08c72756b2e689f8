/-
CallSignature.Proofs.Success — readings that succeed, and how others fail.

Readers are sequences of steps that can fail.  From the success of the whole
the lemmas of the first half give the success of each step, so that a proof
about a reader takes it apart step by step.  Those of the second half go the
other way: if the faults of every step have some property, so have those of
the whole (`FaultsSatisfy`), and likewise for the causes of the faults
(`FailsOnlyBy`).
-/
import CallSignature.Fault

namespace CallSignature

variable {α β ε : Type}

instance decidableEqResult [DecidableEq ε] [DecidableEq α] : DecidableEq (Except ε α)
  | .ok a, .ok b => decidable_of_iff (a = b) ⟨congrArg _, Except.ok.inj⟩
  | .error a, .error b => decidable_of_iff (a = b) ⟨congrArg _, Except.error.inj⟩
  | .ok _, .error _ => .isFalse nofun
  | .error _, .ok _ => .isFalse nofun

theorem bind_eq_ok {x : Except ε α} {f : α → Except ε β} {b : β} (h : x >>= f = .ok b) :
    ∃ a, x = .ok a ∧ f a = .ok b := by
  cases x with
  | error e => cases h
  | ok a => exact ⟨a, rfl, h⟩

theorem map_eq_ok {x : Except ε α} {f : α → β} {b : β} (h : x.map f = .ok b) :
    ∃ a, x = .ok a ∧ f a = b := by
  cases x with
  | error e => cases h
  | ok a => exact ⟨a, rfl, Except.ok.inj h⟩

theorem mapM_cons_eq_ok {f : α → Except ε β} {a : α} {as : List α} {bs : List β}
    (h : (a :: as).mapM f = .ok bs) :
    ∃ b bs', bs = b :: bs' ∧ f a = .ok b ∧ as.mapM f = .ok bs' := by
  rw [List.mapM_cons] at h
  obtain ⟨b, hb, h⟩ := bind_eq_ok h
  obtain ⟨bs', hbs', h⟩ := bind_eq_ok h
  exact ⟨b, bs', (Except.ok.inj h).symm, hb, hbs'⟩

/-! ## Faults of a reading -/

/-- If the reading fails, its fault has the property. -/
def FaultsSatisfy (P : Fault → Prop) (x : Except Fault α) : Prop :=
  ∀ fault, x = .error fault → P fault

namespace FaultsSatisfy

variable {P Q : Fault → Prop} {x : Except Fault α}

theorem ok (a : α) : FaultsSatisfy P (.ok a : Except Fault α) :=
  nofun

theorem error {fault : Fault} (h : P fault) :
    FaultsSatisfy P (.error fault : Except Fault α) := by
  intro found heq
  rw [← Except.error.inj heq]
  exact h

theorem mono (h : FaultsSatisfy P x) (hPQ : ∀ fault, P fault → Q fault) : FaultsSatisfy Q x :=
  fun fault heq => hPQ fault (h fault heq)

theorem bind {f : α → Except Fault β} (hx : FaultsSatisfy P x)
    (hf : ∀ a, x = .ok a → FaultsSatisfy P (f a)) : FaultsSatisfy P (x >>= f) := by
  cases x with
  | error fault =>
    intro found heq
    exact hx found (congrArg Except.error (Except.error.inj heq))
  | ok a => exact hf a rfl

theorem map (h : FaultsSatisfy P x) (f : α → β) : FaultsSatisfy P (x.map f) := by
  cases x with
  | error fault =>
    intro found heq
    exact h found (congrArg Except.error (Except.error.inj heq))
  | ok a => exact ok _

theorem mapM {f : α → Except Fault β} {as : List α} (h : ∀ a ∈ as, FaultsSatisfy P (f a)) :
    FaultsSatisfy P (as.mapM f) := by
  induction as with
  | nil => exact ok _
  | cons a as ih =>
    obtain ⟨ha, has⟩ := List.forall_mem_cons.1 h
    rw [List.mapM_cons]
    exact bind ha fun b _ => bind (ih has) fun bs _ => ok _

/-- The faults of a part, seen from the whole. -/
theorem shiftFault {base : Nat} (h : FaultsSatisfy P x)
    (hPQ : ∀ fault, P fault → Q (fault.shifted base)) :
    FaultsSatisfy Q (CallSignature.shiftFault base x) := by
  cases x with
  | error fault => exact error (hPQ fault (h fault rfl))
  | ok a => exact ok a

end FaultsSatisfy

/-! ## Causes of failure -/

/-- If the reading fails, it fails by a cause of this sort. -/
def FailsOnlyBy (P : Cause → Prop) (x : Except Fault α) : Prop :=
  ∀ fault, x = .error fault → P fault.cause

namespace FailsOnlyBy

variable {P Q : Cause → Prop} {x : Except Fault α}

theorem ok (a : α) : FailsOnlyBy P (.ok a : Except Fault α) :=
  FaultsSatisfy.ok a

theorem error {fault : Fault} (h : P fault.cause) :
    FailsOnlyBy P (.error fault : Except Fault α) :=
  FaultsSatisfy.error (P := fun fault => P fault.cause) h

theorem mono (h : FailsOnlyBy P x) (hPQ : ∀ cause, P cause → Q cause) : FailsOnlyBy Q x :=
  FaultsSatisfy.mono h fun fault => hPQ fault.cause

theorem bind {f : α → Except Fault β} (hx : FailsOnlyBy P x)
    (hf : ∀ a, x = .ok a → FailsOnlyBy P (f a)) : FailsOnlyBy P (x >>= f) :=
  FaultsSatisfy.bind hx hf

theorem mapM {f : α → Except Fault β} {as : List α} (h : ∀ a ∈ as, FailsOnlyBy P (f a)) :
    FailsOnlyBy P (as.mapM f) :=
  FaultsSatisfy.mapM h

end FailsOnlyBy

end CallSignature
