import Mathlib.Data.List.Infix
import SourceInventory.Extract.ClassBody

/-!
# Class bodies: where the closing brace stands

The body of a class ends at the brace that closes the one it begins with. In a balanced text no brace closes one before it, so
the search for the closing brace passes over it (`beforeClosing_append`). So the body of a class is a balanced text between
its first opening brace and the closing one after it, whatever stands behind (`classBody?_append`).
-/

namespace SourceInventory

/-- The braces of a text match: none closes before it is opened, and all that are opened are closed. -/
structure BracesBalanced (w : Text) : Prop where
  /-- No beginning closes more braces than it opens. -/
  closed_le : ∀ u, u <+: w → u.count '}' ≤ u.count '{'
  /-- As many braces are opened as are closed. -/
  count_eq : w.count '{' = w.count '}'

theorem Text.prefix_append_iff {p u v : Text} : p <+: u ++ v ↔ p <+: u ∨ ∃ q, q <+: v ∧ p = u ++ q := by
  constructor
  · intro h
    rcases List.prefix_or_prefix_of_prefix h (List.prefix_append u v) with h' | ⟨q, rfl⟩
    · exact Or.inl h'
    · exact Or.inr ⟨q, (List.prefix_append_right_inj u).1 h, rfl⟩
  · rintro (h | ⟨q, hq, rfl⟩)
    · exact h.trans (List.prefix_append u v)
    · exact (List.prefix_append_right_inj u).2 hq

/-- A beginning of two texts put together that has no character in common with the beginning of the second is one of the first. -/
theorem Text.prefix_of_prefix_append_of_head {w u v : Text} (h : w <+: u ++ v) (hv : ∀ c ∈ v.head?, c ∉ w) : w <+: u := by
  rcases Text.prefix_append_iff.1 h with h | ⟨q, hq, rfl⟩
  · exact h
  · cases q with
    | nil => rw [List.append_nil]
    | cons c q =>
      obtain ⟨x, rfl⟩ := hq
      exact absurd (by simp) (hv c rfl)

namespace BracesBalanced

/-- Whether the braces of a text match is found by going through its beginnings. -/
instance decidable (w : Text) : Decidable (BracesBalanced w) :=
  decidable_of_iff ((∀ u ∈ w.inits, u.count '}' ≤ u.count '{') ∧ w.count '{' = w.count '}')
    ⟨fun h => ⟨fun u hu => h.1 u ((List.mem_inits u w).2 hu), h.2⟩,
      fun h => ⟨fun u hu => h.closed_le u ((List.mem_inits u w).1 hu), h.count_eq⟩⟩

/-- A text without braces is balanced. -/
theorem of_not_mem {w : Text} (hopen : '{' ∉ w) (hclose : '}' ∉ w) : BracesBalanced w where
  closed_le := by
    intro u hu
    rw [List.count_eq_zero.2 fun h => hclose (hu.subset h)]
    exact Nat.zero_le _
  count_eq := by rw [List.count_eq_zero.2 hopen, List.count_eq_zero.2 hclose]

/-- Balanced texts are balanced one after another. -/
theorem append {u v : Text} (hu : BracesBalanced u) (hv : BracesBalanced v) : BracesBalanced (u ++ v) where
  closed_le := by
    intro p hp
    rcases Text.prefix_append_iff.1 hp with hp | ⟨q, hq, rfl⟩
    · exact hu.closed_le p hp
    · rw [List.count_append, List.count_append, hu.count_eq]
      exact Nat.add_le_add_left (hv.closed_le q hq) _
  count_eq := by rw [List.count_append, List.count_append, hu.count_eq, hv.count_eq]

/-- A balanced text between braces is balanced. -/
theorem enclose {w : Text} (hw : BracesBalanced w) : BracesBalanced ('{' :: (w ++ ['}'])) where
  closed_le := by
    intro p hp
    rcases List.prefix_cons_iff.1 hp with rfl | ⟨q, rfl, hq⟩
    · exact Nat.le_refl _
    · rcases Text.prefix_append_iff.1 hq with hq | ⟨r, hr, rfl⟩
      · have h := hw.closed_le q hq
        simp only [List.count_cons_self, List.count_cons_of_ne (show '{' ≠ '}' by decide)]
        omega
      · have hclosed : r.count '}' ≤ 1 := hr.sublist.count_le '}'
        have h := hw.count_eq
        simp only [List.count_cons_self, List.count_cons_of_ne (show '{' ≠ '}' by decide), List.count_append]
        omega
  count_eq := by
    have h := hw.count_eq
    simp [h]

theorem flatten {ts : List Text} (h : ∀ t ∈ ts, BracesBalanced t) : BracesBalanced ts.flatten := by
  induction ts with
  | nil => exact of_not_mem List.not_mem_nil List.not_mem_nil
  | cons t ts ih =>
    rw [List.flatten_cons]
    exact (h t List.mem_cons_self).append (ih fun u hu => h u (List.mem_cons_of_mem t hu))

end BracesBalanced

/-- A brace that opens makes one more that has to close. -/
theorem beforeClosing_open (n : Nat) (s : Text) : beforeClosing n ('{' :: s) = '{' :: beforeClosing (n + 1) s := by
  cases n <;> rfl

theorem beforeClosing_close (n : Nat) (s : Text) : beforeClosing (n + 1) ('}' :: s) = '}' :: beforeClosing n s := rfl

/-- Any other character changes nothing. -/
theorem beforeClosing_other {c : Char} (hopen : c ≠ '{') (hclose : c ≠ '}') (n : Nat) (s : Text) :
    beforeClosing n (c :: s) = c :: beforeClosing n s := by
  cases n <;> simp [beforeClosing, hopen, hclose]

/-- The body of a class is the beginning of what stands behind its opening brace. -/
theorem prefix_beforeClosing (n : Nat) (s : Text) : beforeClosing n s <+: s := by
  induction s generalizing n with
  | nil => exact List.nil_prefix
  | cons c s ih =>
    by_cases hopen : c = '{'
    · subst hopen
      rw [beforeClosing_open]
      exact (List.prefix_cons_inj _).2 (ih _)
    · by_cases hclose : c = '}'
      · subst hclose
        cases n with
        | zero => exact List.nil_prefix
        | succ n =>
          rw [beforeClosing_close]
          exact (List.prefix_cons_inj _).2 (ih _)
      · rw [beforeClosing_other hopen hclose]
        exact (List.prefix_cons_inj _).2 (ih _)

/-- Over a text that, at none of its places, has closed more than `n` braces beyond those it opened, the search for the
closing brace goes on, with as many braces open behind it as the text leaves open. -/
theorem beforeClosing_append {n : Nat} {w : Text} (h : ∀ u, u <+: w → u.count '}' ≤ u.count '{' + n) (t : Text) :
    beforeClosing n (w ++ t) = w ++ beforeClosing (n + w.count '{' - w.count '}') t := by
  induction w generalizing n with
  | nil => rfl
  | cons c w ih =>
    have step : ∀ u, u <+: w → (c :: u).count '}' ≤ (c :: u).count '{' + n :=
      fun u hu => h _ ((List.prefix_cons_inj c).2 hu)
    rw [List.cons_append]
    by_cases hopen : c = '{'
    · subst hopen
      simp only [List.count_cons_self, List.count_cons_of_ne (show '{' ≠ '}' by decide)] at step ⊢
      rw [beforeClosing_open, ih fun u hu => by have := step u hu; omega, List.cons_append, Nat.add_right_comm, Nat.add_assoc]
    · by_cases hclose : c = '}'
      · subst hclose
        simp only [List.count_cons_self, List.count_cons_of_ne (show '}' ≠ '{' by decide)] at step ⊢
        have hpos : 1 ≤ n := by simpa using step [] List.nil_prefix
        obtain ⟨n, rfl⟩ := Nat.exists_eq_add_of_le' hpos
        rw [beforeClosing_close, ih fun u hu => by have := step u hu; omega, List.cons_append, Nat.add_right_comm,
          Nat.add_sub_add_right]
      · simp only [List.count_cons_of_ne hopen, List.count_cons_of_ne hclose] at step ⊢
        rw [beforeClosing_other hopen hclose, ih step, List.cons_append]

/-- A balanced text before the closing brace is what stands before it. -/
theorem beforeClosing_of_balanced {w : Text} (hw : BracesBalanced w) (t : Text) : beforeClosing 0 (w ++ '}' :: t) = w := by
  rw [beforeClosing_append (fun u hu => hw.closed_le u hu), hw.count_eq, Nat.zero_add, Nat.sub_self]
  exact List.append_nil w

/-- The body of a class begins after its first opening brace. -/
theorem classBody?_eq_beforeClosing {p : Text} (hp : '{' ∉ p) (s : Text) :
    classBody? (p ++ '{' :: s) = some (beforeClosing 0 s) := by
  have hdrop : (p ++ '{' :: s).dropWhile (· ≠ '{') = '{' :: s := by
    rw [List.dropWhile_append_of_pos]
    · exact List.dropWhile_cons_of_neg (by simp)
    · intro c hc
      have hne : c ≠ '{' := fun h => hp (h ▸ hc)
      simpa using hne
  rw [classBody?, hdrop]

/-- The body of a class is the balanced text between its first opening brace and the closing one after it. -/
theorem classBody?_append {p w : Text} (hp : '{' ∉ p) (hw : BracesBalanced w) (t : Text) :
    classBody? (p ++ '{' :: (w ++ '}' :: t)) = some w := by
  rw [classBody?_eq_beforeClosing hp, beforeClosing_of_balanced hw]

/-- The brace that closes the body of the class at the start of a text stands in this text. -/
def BodyCloses (declaration : Text) : Prop :=
  ∃ p w r, declaration = p ++ '{' :: (w ++ '}' :: r) ∧ '{' ∉ p ∧ BracesBalanced w

/-- What stands behind the closing brace makes no difference for the methods of a class. -/
theorem Method.ofDeclaration_append {declaration : Text} (h : BodyCloses declaration) (t : Text) :
    Method.ofDeclaration (declaration ++ t) = Method.ofDeclaration declaration := by
  obtain ⟨p, w, r, rfl, hp, hw⟩ := h
  have happend : p ++ '{' :: (w ++ '}' :: r) ++ t = p ++ '{' :: (w ++ '}' :: (r ++ t)) := by simp
  rw [happend, ofDeclaration, ofDeclaration, classBody?_append hp hw, classBody?_append hp hw]

end SourceInventory
