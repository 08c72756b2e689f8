/-
CallSignature.Unicode.RangeTable — a property of characters, written as the
ranges of code points that have it.

The Unicode Character Database gives each property as a list of closed
ranges.  The tables of this library keep that form, in ascending order, so
that a table can be read beside the database and a look-up may stop at the
first range that begins after the character.
-/

namespace CallSignature.Unicode

/-- The closed ranges of code points that have a property, in ascending
order and apart from each other. -/
abbrev RangeTable := List (Nat × Nat)

namespace RangeTable

/-- Whether the code point lies in one of the ranges.  The search ends at the
first range that begins after it, which is right because the ranges ascend. -/
def holds : RangeTable → Nat → Bool
  | [], _ => false
  | (first, last) :: rest, code =>
    if code < first then false
    else if code ≤ last then true
    else holds rest code

/-- The ranges ascend, each begins no later than it ends, and no two touch. -/
def ascending : RangeTable → Bool
  | [] => true
  | [(first, last)] => first ≤ last
  | (first, last) :: (first', last') :: rest =>
    first ≤ last && last + 1 < first' && ascending ((first', last') :: rest)

/-- In an ascending table the early stop loses nothing: a code point is found
exactly if some range contains it. -/
theorem holds_iff_of_ascending {table : RangeTable} (h : table.ascending = true) (code : Nat) :
    table.holds code = true ↔ ∃ range ∈ table, range.1 ≤ code ∧ code ≤ range.2 := by
  induction table with
  | nil => simp [holds]
  | cons head rest ih =>
    obtain ⟨first, last⟩ := head
    have hrest : ascending rest = true := by
      cases rest with
      | nil => rfl
      | cons next rest => simp only [ascending, Bool.and_eq_true] at h; exact h.2
    have hbeyond : code < first → ∀ range ∈ rest, code < range.1 := by
      intro hlt
      clear ih
      induction rest generalizing first last with
      | nil => simp
      | cons next rest ih =>
        obtain ⟨first', last'⟩ := next
        simp only [ascending, Bool.and_eq_true, decide_eq_true_eq] at h
        obtain ⟨⟨h₁, h₂⟩, h₃⟩ := h
        have hlt' : code < first' := by omega
        intro range hmem
        rcases List.mem_cons.1 hmem with rfl | hmem
        · exact hlt'
        · refine ih first' last' h₃ ?_ hlt' range hmem
          cases rest with
          | nil => rfl
          | cons n r => simp only [ascending, Bool.and_eq_true] at h₃; exact h₃.2
    simp only [holds, List.mem_cons]
    by_cases hlt : code < first
    · simp only [hlt, if_true, Bool.false_eq_true, false_iff, not_exists, not_and]
      rintro range (rfl | hmem) hle
      · omega
      · have := hbeyond hlt range hmem; omega
    · by_cases hle : code ≤ last
      · simp only [hlt, hle, if_true, if_false, true_iff]
        exact ⟨(first, last), .inl rfl, by omega, hle⟩
      · simp only [hlt, hle, if_false, ih hrest]
        constructor
        · rintro ⟨range, hmem, hr⟩; exact ⟨range, .inr hmem, hr⟩
        · rintro ⟨range, rfl | hmem, hr⟩
          · exact absurd hr.2 hle
          · exact ⟨range, hmem, hr⟩

end RangeTable

end CallSignature.Unicode
