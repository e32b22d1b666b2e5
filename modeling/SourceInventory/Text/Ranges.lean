/-!
# Ranges: sets of code points as closed intervals in ascending order

A character class of the Unicode standard is a table of closed intervals. The intervals of a table ascend, so that the search
for a code point ends at the first interval that begins beyond it.
-/

namespace SourceInventory

/-- Closed intervals of code points, in ascending order. -/
abbrev Ranges : Type := List (Nat × Nat)

/-- Whether a code point lies in one of the intervals. -/
def Ranges.holds : Ranges → Nat → Bool
  | [], _ => false
  | (lo, hi) :: rs, n => decide (lo ≤ n) && (decide (n ≤ hi) || holds rs n)

/-- Each interval is nonempty and ends before the next one begins. -/
def Ranges.ascending : Ranges → Bool
  | [] => true
  | [(lo, hi)] => decide (lo ≤ hi)
  | (lo, hi) :: (lo', hi') :: rs => decide (lo ≤ hi) && decide (hi < lo') && ascending ((lo', hi') :: rs)

/-- In an ascending table the search finds exactly the code points of its intervals. -/
theorem Ranges.holds_iff {rs : Ranges} (h : rs.ascending = true) {n : Nat} :
    rs.holds n = true ↔ ∃ r ∈ rs, r.1 ≤ n ∧ n ≤ r.2 := by
  induction rs with
  | nil => simp [holds]
  | cons r rs ih =>
    obtain ⟨lo, hi⟩ := r
    have tail : Ranges.ascending rs = true ∧ ∀ x ∈ rs, lo ≤ x.1 := by
      clear ih
      induction rs generalizing lo hi with
      | nil => simp [ascending]
      | cons s rs ih' =>
        obtain ⟨lo', hi'⟩ := s
        simp only [ascending, Bool.and_eq_true, decide_eq_true_eq] at h
        obtain ⟨⟨h₁, h₂⟩, h₃⟩ := h
        obtain ⟨-, h₅⟩ := ih' lo' hi' h₃
        refine ⟨h₃, fun x hx => ?_⟩
        rcases List.mem_cons.1 hx with rfl | hx
        · simp only; omega
        · have := h₅ x hx; omega
    simp only [holds, Bool.and_eq_true, decide_eq_true_eq, Bool.or_eq_true, ih tail.1, List.mem_cons, exists_eq_or_imp]
    constructor
    · rintro ⟨h₁, h₂ | h₂⟩
      · exact .inl ⟨h₁, h₂⟩
      · exact .inr h₂
    · rintro (h₁ | ⟨x, hx, h₁, h₂⟩)
      · exact ⟨h₁.1, .inl h₁.2⟩
      · exact ⟨Nat.le_trans (tail.2 x hx) h₁, .inr ⟨x, hx, h₁, h₂⟩⟩

end SourceInventory
