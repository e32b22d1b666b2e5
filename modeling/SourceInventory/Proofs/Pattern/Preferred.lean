import SourceInventory.Pattern.Basic

/-!
# Preferred readings

The reading that a scan takes is the first in the order of preference. Here is what that order comes to for each way to build a
pattern: a run is read as far as it goes, an optional part is read where it can be, and of two patterns one after the other the
first decides, among its readings that the second can follow.
-/

namespace SourceInventory.Pattern

variable {a b c : Pattern} {s : Text} {d : Derivation}

theorem searchRun_some (k : Char → Bool) (s : Text) (n : Nat) :
    searchRun k some s n = some (.plain (n + (s.takeWhile k).length) (s.dropWhile k)) := by
  induction s generalizing n with
  | nil => rfl
  | cons x s ih =>
    rw [searchRun]
    split
    · rename_i hx
      rw [ih, List.takeWhile_cons_of_pos hx, List.dropWhile_cons_of_pos hx, List.length_cons]
      simp only [Nat.add_comm, Nat.add_left_comm]
    · rename_i hx
      rw [List.takeWhile_cons_of_neg hx, List.dropWhile_cons_of_neg hx]
      rfl

/-- A run is read as far as it goes. -/
theorem first?_run (k : Char → Bool) (s : Text) :
    (run k).first? s = some (.plain (s.takeWhile k).length (s.dropWhile k)) := by
  have h := searchRun_some k s 0
  rwa [Nat.zero_add] at h

theorem first?_field (f : Field) (a : Pattern) (s : Text) : (field f a).first? s = (a.first? s).map (·.record f s) := by
  simp only [first?_eq_head?, results, List.head?_map]

/-- An optional pattern is read where it can be. -/
theorem first?_optional (a : Pattern) (s : Text) : (optional a).first? s = some ((a.first? s).getD (.plain 0 s)) := by
  simp only [first?_eq_head?, results, List.head?_append]
  cases (a.results s).head? <;> rfl

/-- Of two patterns the second is read where the first cannot be. -/
theorem first?_either (a b : Pattern) (s : Text) : (either a b).first? s = (a.first? s).or (b.first? s) := by
  simp only [first?_eq_head?, results, List.head?_append]

/-- Of two patterns the first decides, among its readings that the second can follow. -/
theorem first?_append_eq_some (h : (a ++ b).first? s = some d) :
    ∃ before x after y, a.results s = before ++ x :: after ∧ (∀ z ∈ before, b.first? z.rest = none) ∧
      b.first? x.rest = some y ∧ d = x.andThen y := by
  change (seq a b).first? s = some d at h
  rw [first?_eq_head?, results, List.head?_flatMap, List.findSome?_eq_some_iff] at h
  obtain ⟨before, x, after, hs, hx, hbefore⟩ := h
  rw [List.head?_map, Option.map_eq_some_iff] at hx
  obtain ⟨y, hy, rfl⟩ := hx
  refine ⟨before, x, after, y, hs, ?_, by rw [first?_eq_head?, hy], rfl⟩
  intro z hz
  have hz' := hbefore z hz
  rw [List.head?_map, Option.map_eq_none_iff] at hz'
  rw [first?_eq_head?, hz']

/-- The first of two patterns is read so that the second can follow. -/
theorem derives_of_first?_append (h : (a ++ b).first? s = some d) :
    ∃ x y, Derives a s x ∧ b.first? x.rest = some y ∧ d = x.andThen y := by
  obtain ⟨before, x, after, y, hs, -, hy, hd⟩ := first?_append_eq_some h
  exact ⟨x, y, mem_results_iff.1 (by simp [hs]), hy, hd⟩

/-- Before a pattern that every text has a reading by, the first of two patterns is read as if it stood alone. -/
theorem first?_of_first?_append (hb : ∀ t, ∃ e, Derives b t e) (h : (a ++ b).first? s = some d) :
    ∃ x y, a.first? s = some x ∧ b.first? x.rest = some y ∧ d = x.andThen y := by
  obtain ⟨before, x, after, y, hs, hbefore, hy, hd⟩ := first?_append_eq_some h
  have hnil : before = [] := by
    refine List.eq_nil_iff_forall_not_mem.2 fun z hz => ?_
    obtain ⟨e, he⟩ := hb z.rest
    exact first?_eq_none_iff.1 (hbefore z hz) e he
  refine ⟨x, y, ?_, hy, hd⟩
  rw [first?_eq_head?, hs, hnil]
  rfl

/-- The order of preference reassociates. -/
theorem first?_append_assoc (a b c : Pattern) (s : Text) : (a ++ b ++ c).first? s = (a ++ (b ++ c)).first? s := by
  have h : (a ++ b ++ c).results s = (a ++ (b ++ c)).results s := by
    change ((a.results s).flatMap fun d => (b.results d.rest).map d.andThen).flatMap _ =
      (a.results s).flatMap fun d => ((b.results d.rest).flatMap _).map d.andThen
    simp only [List.flatMap_assoc, List.map_flatMap, List.flatMap_map, List.map_map, Function.comp_def,
      ← Derivation.andThen_assoc]
    rfl
  rw [first?_eq_head?, first?_eq_head?, h]

/-- A nonempty run is read as far as it goes. -/
theorem eq_of_first?_nonemptyRun {k : Char → Bool} (h : (nonemptyRun k).first? s = some d) :
    d = .plain (s.takeWhile k).length (s.dropWhile k) := by
  obtain ⟨x, y, hx, hy, rfl⟩ := derives_of_first?_append h
  obtain ⟨z, r, rfl, hz, rfl⟩ := derives_char_iff.1 hx
  change (run k).first? r = some y at hy
  rw [first?_run, Option.some.injEq] at hy
  subst hy
  rw [List.takeWhile_cons_of_pos hz, List.dropWhile_cons_of_pos hz, List.length_cons, Nat.add_comm]
  rfl

end SourceInventory.Pattern
