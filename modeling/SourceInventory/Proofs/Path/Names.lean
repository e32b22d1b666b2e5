import SourceInventory.Path

/-!
# Names: a path and the text of it

The names of a path that was read from a text are normal: not empty, not a single dot, and without a slash. Parents keep
them so. The text of such a path is read as the same path again (`Path.ofText_toText`), so what is opened under the text
of a directory is found by the names of that directory.
-/

namespace SourceInventory

/-! ## Stretches between separators -/

namespace Text

/-- There is one part at least. -/
theorem splitOn_ne_nil (sep : Char) (s : Text) : splitOn sep s ≠ [] := by
  intro h
  have hlen := length_splitOn sep s
  rw [h] at hlen
  exact absurd hlen (Nat.succ_ne_zero _).symm

/-- What a separator stands between is split apart at it. -/
theorem splitOn_append_cons (sep : Char) (u s : Text) : splitOn sep (u ++ sep :: s) = splitOn sep u ++ splitOn sep s := by
  induction u with
  | nil => simp [splitOn]
  | cons c u ih =>
    rw [List.cons_append, splitOn, splitOn, ih]
    split
    · rfl
    · obtain ⟨p, ps, hps⟩ := List.exists_cons_of_ne_nil (splitOn_ne_nil sep u)
      rw [hps]
      rfl

/-- A text without the separator is one part. -/
theorem splitOn_of_not_mem {sep : Char} {s : Text} (h : sep ∉ s) : splitOn sep s = [s] := by
  induction s with
  | nil => rfl
  | cons c s ih =>
    rw [List.mem_cons, not_or] at h
    rw [splitOn, if_neg (Ne.symm h.1), ih h.2]
    rfl

/-- A stretch has no separator and only characters of the text. -/
theorem mem_splitOn {sep : Char} {s p : Text} (h : p ∈ splitOn sep s) : sep ∉ p ∧ p ⊆ s := by
  induction s generalizing p with
  | nil =>
    rw [splitOn, List.mem_singleton] at h
    subst h
    exact ⟨List.not_mem_nil, List.nil_subset _⟩
  | cons c s ih =>
    rw [splitOn] at h
    split at h
    · rcases List.mem_cons.1 h with rfl | h
      · exact ⟨List.not_mem_nil, List.nil_subset _⟩
      · exact ⟨(ih h).1, List.subset_cons_of_subset c (ih h).2⟩
    · rename_i hc
      obtain ⟨q, qs, hqs⟩ := List.exists_cons_of_ne_nil (splitOn_ne_nil sep s)
      rw [hqs, List.modifyHead_cons, List.mem_cons] at h
      rw [hqs] at ih
      rcases h with rfl | h
      · obtain ⟨hsep, hsub⟩ := ih List.mem_cons_self
        exact ⟨List.not_mem_cons_of_ne_of_not_mem (Ne.symm hc) hsep, List.cons_subset_cons c hsub⟩
      · exact ⟨(ih (List.mem_cons_of_mem q h)).1, List.subset_cons_of_subset c (ih (List.mem_cons_of_mem q h)).2⟩

/-- The first stretch of a text is all of it, or it stands before a separator behind which the other stretches are. -/
theorem splitOn_eq_cons {sep : Char} {s p : Text} {ps : List Text} (h : splitOn sep s = p :: ps) :
    sep ∉ p ∧ (s = p ∧ ps = [] ∨ ∃ r, s = p ++ sep :: r ∧ splitOn sep r = ps) := by
  refine ⟨(mem_splitOn (h ▸ List.mem_cons_self)).1, ?_⟩
  by_cases hsep : sep ∈ s
  · obtain ⟨u, r, rfl, hu⟩ := List.eq_append_cons_of_mem hsep
    rw [splitOn_append_cons, splitOn_of_not_mem hu] at h
    obtain ⟨rfl, hr⟩ := List.cons.inj h
    exact Or.inr ⟨r, rfl, hr⟩
  · rw [splitOn_of_not_mem hsep] at h
    obtain ⟨rfl, rfl⟩ := List.cons.inj h
    exact Or.inl ⟨rfl, rfl⟩

/-- The first of joined texts is followed by a separator and the others. -/
theorem join_cons_cons (sep p q : Text) (ps : List Text) : join sep (p :: q :: ps) = p ++ sep ++ join sep (q :: ps) := by
  simp [join, List.intersperse]

/-- Texts without the separator are found again between the separators of the text they are joined to. -/
theorem splitOn_join {sep : Char} {p : Text} {ps : List Text} (h : ∀ q ∈ p :: ps, sep ∉ q) :
    splitOn sep (join [sep] (p :: ps)) = p :: ps := by
  induction ps generalizing p with
  | nil => simpa [join] using splitOn_of_not_mem (h p (by simp))
  | cons q ps ih =>
    rw [join_cons_cons, List.append_assoc, List.singleton_append, splitOn_append_cons, splitOn_of_not_mem (h p (by simp)),
      ih fun x hx => h x (List.mem_cons_of_mem p hx)]
    rfl

end Text

/-! ## Normal names -/

namespace Path

/-- A name as it stands in a path: not empty, not a single dot, and without a slash. -/
structure NormalName (n : Text) : Prop where
  ne_nil : n ≠ []
  ne_dot : n ≠ ['.']
  no_slash : '/' ∉ n

/-- A path whose names are normal. -/
def Normal (p : Path) : Prop := ∀ n ∈ p.names, NormalName n

/-- What is read as a path is normal. -/
theorem normal_ofText (s : Text) : (ofText s).Normal := by
  intro n hn
  obtain ⟨hmem, hkeep⟩ := List.mem_filter.1 hn
  simp only [ne_eq, decide_not, Bool.and_eq_true, Bool.not_eq_true', decide_eq_false_iff_not] at hkeep
  exact ⟨hkeep.1, hkeep.2, (Text.mem_splitOn hmem).1⟩

/-- A name of a path has only characters of its text. -/
theorem subset_of_mem_names {s n : Text} (h : n ∈ (ofText s).names) : n ⊆ s :=
  (Text.mem_splitOn (List.mem_filter.1 h).1).2

/-- The parent of a normal path is normal. -/
theorem Normal.parent {p : Path} (h : p.Normal) : p.parent.Normal := fun n hn => h n (List.dropLast_subset _ hn)

theorem Normal.child {p : Path} (h : p.Normal) {n : Text} (hn : NormalName n) : (p.child n).Normal := by
  intro m hm
  rcases List.mem_append.1 hm with hm | hm
  · exact h m hm
  · rw [List.mem_singleton.1 hm]
    exact hn

/-! ## The text of a path -/

/-- The root is no part of the names. -/
theorem names_ofText_root (r : Root) (s : Text) : (ofText (r.text ++ s)).names = (ofText s).names := by
  cases r <;> simp [ofText, Root.text, Text.splitOn]

/-- A path that is written with a root has it. -/
theorem root_ofText_root (r : Root) {c : Char} (hc : c ≠ '/') (s : Text) : (ofText (r.text ++ c :: s)).root = r := by
  cases r <;> simp [ofText, Root.text, Root.ofSlashes, hc]

/-- Names that are put together with slashes begin with the first character of the first name. -/
theorem join_eq_cons {n : Text} (hn : NormalName n) (ns : List Text) :
    ∃ c u, Text.join ['/'] (n :: ns) = c :: u ∧ c ≠ '/' := by
  obtain ⟨c, t, hct⟩ := List.exists_cons_of_ne_nil hn.ne_nil
  have hc : c ≠ '/' := fun hc => hn.no_slash (by rw [hct, hc]; exact List.mem_cons_self)
  cases ns with
  | nil => exact ⟨c, t, by simp [Text.join, hct], hc⟩
  | cons m ns => exact ⟨c, t ++ ['/'] ++ Text.join ['/'] (m :: ns), by rw [Text.join_cons_cons, hct]; rfl, hc⟩

/-- A path of normal names is read from its text. -/
theorem ofText_toText {p : Path} (h : p.Normal) : ofText p.toText = p := by
  obtain ⟨root, names⟩ := p
  cases names with
  | nil => cases root <;> rfl
  | cons n ns =>
    obtain ⟨c, u, hu, hc⟩ := join_eq_cons (h n List.mem_cons_self) ns
    have htext : toText ⟨root, n :: ns⟩ = root.text ++ Text.join ['/'] (n :: ns) := by cases root <;> rfl
    have hroot : (ofText (toText ⟨root, n :: ns⟩)).root = root := by
      rw [htext, hu]
      exact root_ofText_root root hc u
    have hnames : (ofText (toText ⟨root, n :: ns⟩)).names = n :: ns := by
      rw [htext, names_ofText_root]
      change (Text.splitOn '/' (Text.join ['/'] (n :: ns))).filter (fun m => m ≠ [] && m ≠ ['.']) = n :: ns
      rw [Text.splitOn_join fun q hq => (h q hq).no_slash, List.filter_eq_self]
      intro m hm
      simp [(h m hm).ne_nil, (h m hm).ne_dot]
    exact congr (congrArg Path.mk hroot) hnames

end Path

end SourceInventory
