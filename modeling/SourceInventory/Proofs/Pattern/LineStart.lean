import SourceInventory.Pattern.Scan

/-!
# Line starts: a scan that goes line by line

A pattern that is anchored begins at the start of a line only. So if what it reads at the start of a line is in the line, then the
line has this one occurrence, and the scan goes on with the next line (`occurrences_eq_cons_of_line`). If no reading begins there,
it goes on with the next line as well (`occurrences_of_line`).
-/

namespace SourceInventory.Pattern

variable {p : Pattern} {t u s : Text}

/-- After a line feed a scan goes on as at the start of a text. -/
theorem scanFrom_lineFeed (p : Pattern) (anchor : Anchor) (s : Text) :
    p.scanFrom anchor (some '\n') 0 s = p.scanFrom anchor none 0 s := by
  cases s with
  | nil => rfl
  | cons c s => cases anchor <;> rfl

/-- Within a line the scan goes on to the next line, if there is one. -/
theorem scanFrom_line {c : Char} (hc : c ≠ '\n') (hu : '\n' ∉ u) (hs : ∀ x ∈ s.head?, x = '\n') :
    p.scanFrom .lineStart (some c) 0 (u ++ s) = p.occurrences .lineStart s.tail := by
  have hnot : ∀ {x : Char}, x ≠ '\n' → ¬Anchor.lineStart.admits (some x) = true := fun hx => by simpa [Anchor.admits] using hx
  induction u generalizing c with
  | nil =>
    cases s with
    | nil => rfl
    | cons x s =>
      obtain rfl := hs x rfl
      rw [List.nil_append, scanFrom_none (if_neg (hnot hc)), scanFrom_lineFeed]
      rfl
  | cons x u ih =>
    rw [List.mem_cons, not_or] at hu
    rw [List.cons_append, scanFrom_none (if_neg (hnot hc))]
    exact ih (Ne.symm hu.1) hu.2

/-- Where no reading begins with a line the scan goes on with the next line. -/
theorem occurrences_of_line (h : p.first? (u ++ s) = none) (hu : '\n' ∉ u) (hs : ∀ x ∈ s.head?, x = '\n') :
    p.occurrences .lineStart (u ++ s) = p.occurrences .lineStart s.tail := by
  rw [occurrences]
  cases u with
  | nil =>
    cases s with
    | nil => rfl
    | cons x s =>
      obtain rfl := hs x rfl
      rw [List.nil_append] at h ⊢
      rw [scanFrom_none (by rw [h, ite_self]), scanFrom_lineFeed]
      rfl
  | cons x u =>
    rw [List.mem_cons, not_or] at hu
    rw [List.cons_append] at h ⊢
    rw [scanFrom_none (by rw [h, ite_self])]
    exact scanFrom_line (Ne.symm hu.1) hu.2 hs

/-- Where a reading begins with a line and ends in it the scan takes it and goes on with the next line. -/
theorem occurrences_eq_cons_of_line {d : Derivation} (h : p.first? (t ++ (u ++ s)) = some d) (hr : d.rest = u ++ s)
    (ht : t ≠ []) (htu : '\n' ∉ t ++ u) (hs : ∀ x ∈ s.head?, x = '\n') :
    p.occurrences .lineStart (t ++ (u ++ s)) = ⟨d, t ++ (u ++ s)⟩ :: p.occurrences .lineStart s.tail := by
  rw [List.mem_append, not_or] at htu
  obtain ⟨v, hv, hlen⟩ := (derives_of_first? h).eq_append
  rw [hr, List.append_cancel_right_eq] at hv
  subst hv
  obtain ⟨c, t, rfl⟩ := List.exists_cons_of_ne_nil ht
  have hlast : (c :: t).getLast ht ≠ '\n' := fun hx => htu.1 (hx ▸ List.getLast_mem ht)
  have hscan := @scanFrom_some p .lineStart none c t (u ++ s) d h hr (by rw [← hlen, List.length_cons])
  rw [occurrences, hscan, hr, List.getLast?_eq_some_getLast ht, scanFrom_line hlast htu.2 hs]

end SourceInventory.Pattern
