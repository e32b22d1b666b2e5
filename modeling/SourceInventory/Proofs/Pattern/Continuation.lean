import SourceInventory.Proofs.Pattern.Consumed
import SourceInventory.Proofs.Pattern.Extension
import SourceInventory.Proofs.Pattern.Tiling

/-!
# Continuations: the text after an occurrence

A declaration with a list of parameters is read up to the first closing parenthesis of the text and, past it, in one way only
(`ReadsPast`). So what is read before the end of such a declaration is read the same whatever follows it
(`endsWithin_of_readsPast`), and the occurrences up to this one stay when the text after it is replaced
(`exists_occurrence_of_append`, `occurrence_append`).
-/

namespace SourceInventory.Pattern

variable {p a b tail : Pattern} {c : Char}

/-- A reading of a text is one of the text that goes on. -/
theorem derives_extend {s : Text} {d : Derivation} (h : Derives p s d) (t : Text) : Derives p (s ++ t) (d.extend t) := by
  have hmem : d.extend t ∈ (p.results (s ++ t)).filter (leaves t) := by
    rw [results_append]
    exact List.mem_map_of_mem (mem_results_iff.2 h)
  exact mem_results_iff.1 (List.mem_filter.1 hmem).1

/-- A reading that leaves just what a text goes on with is one of the text itself. -/
theorem exists_extend_eq {s t : Text} {d : Derivation} (h : Derives p (s ++ t) d) (hrest : d.rest = t) :
    ∃ e, Derives p s e ∧ e.rest = [] ∧ e.extend t = d := by
  have hmem : d ∈ (p.results (s ++ t)).filter (leaves t) :=
    List.mem_filter.2 ⟨mem_results_iff.2 h, leaves_eq_true.2 (hrest ▸ Nat.le_refl _)⟩
  rw [results_append] at hmem
  obtain ⟨e, he, rfl⟩ := List.mem_map.1 hmem
  exact ⟨e, mem_results_iff.1 he, List.append_left_eq_self.1 hrest, rfl⟩

/-! ## Readings past a closing character -/

/-- A text that is cut at its first `c` is cut at a given one or before it. -/
theorem cut_first {w r x y : Text} (h : x ++ c :: y = w ++ c :: r) (hw : c ∉ w) :
    w = x ∧ r = y ∨ ∃ z, x = w ++ c :: z ∧ r = z ++ c :: y := by
  rcases List.append_eq_append_iff.1 h with ⟨_ | ⟨k, z⟩, rfl, hz⟩ | ⟨_ | ⟨k, z⟩, rfl, hz⟩
  · exact Or.inl ⟨List.append_nil x, (List.cons.inj hz).2.symm⟩
  · obtain rfl : c = k := (List.cons.inj hz).1
    exact absurd (by simp) hw
  · exact Or.inl ⟨(List.append_nil w).symm, (List.cons.inj hz).2⟩
  · obtain rfl : c = k := (List.cons.inj hz).1
    exact Or.inr ⟨z, rfl, (List.cons.inj hz).2⟩

/-- A reading that takes no `c` stops before it. -/
theorem OnlyReads.length_lt_rest {z y : Text} {d : Derivation} (hp : p.OnlyReads (· ≠ c)) (h : Derives p (z ++ c :: y) d) :
    y.length < d.rest.length := by
  obtain ⟨k, hk, -, hreads⟩ := hp.eq_append h
  by_contra hlt
  have hlen := congrArg List.length hk
  simp only [List.length_append, List.length_cons] at hlen
  -- what was taken would begin with the character
  have hbefore : z ++ [c] <+: z ++ c :: y := ⟨y, by simp⟩
  have htaken : z ++ [c] <+: k := by
    refine List.prefix_of_prefix_length_le hbefore (hk ▸ List.prefix_append k d.rest) ?_
    rw [List.length_append, List.length_singleton]
    omega
  exact hreads c (htaken.subset (by simp)) rfl

/-- Every reading of the pattern goes past the first `c` of the text, and from there on it is one of the pattern `tail`. -/
def ReadsPast (p : Pattern) (c : Char) (tail : Pattern) : Prop :=
  ∀ ⦃s : Text⦄ ⦃d : Derivation⦄, Derives p s d →
    ∃ w r e, s = w ++ c :: r ∧ c ∉ w ∧ Derives tail r e ∧ d.rest = e.rest

theorem ReadsPast.append (h : ReadsPast p c tail) (b : Pattern) : ReadsPast (p ++ b) c (tail ++ b) := by
  intro s d hd
  obtain ⟨x, y, hx, hy, rfl⟩ := derives_append_iff.1 hd
  obtain ⟨w, r, e, rfl, hw, he, hrest⟩ := h hx
  exact ⟨w, r, e.andThen y, rfl, hw, derives_append_iff.2 ⟨e, y, he, hrest ▸ hy, rfl⟩, rfl⟩

/-- What stands before the end of a reading is read the same whatever follows: no reading that begins there goes beyond the
end. -/
theorem endsWithin_of_readsPast {q : Char → Prop} (hp : ReadsPast p c tail) (htail : Unambiguous tail)
    (hc : tail.OnlyReads (· ≠ c)) (hbegin : BeginsWith p q) (hq : tail.OnlyReads (¬ q ·)) {m : Text} {d : Derivation}
    (hm : Derives p m d) (hd : d.rest = []) (u t : Text) : EndsWithin p (u ++ m) t := by
  obtain ⟨w, r, e, rfl, hw, he, hrest⟩ := hp hm
  rw [hd] at hrest
  intro v hv hne f hf
  have hsuffix : v <:+ r ∨ c :: r <:+ v := by
    rcases List.suffix_or_suffix_of_suffix hv ((List.suffix_append w (c :: r)).trans (List.suffix_append u _)) with h | h
    · rcases List.suffix_cons_iff.1 h with rfl | h
      · exact Or.inr (List.suffix_refl _)
      · exact Or.inl h
    · exact Or.inr h
  rcases hsuffix with hv | ⟨x, rfl⟩
  · -- past the closing character no reading begins
    obtain ⟨z, v, rfl⟩ := List.exists_cons_of_ne_nil hne
    obtain ⟨y, s, hs, hy⟩ := hbegin hf
    obtain rfl : z = y := (List.cons.inj hs).1
    obtain ⟨r', hr, -, hreads⟩ := hq.eq_append he
    rw [← hrest, List.append_nil] at hr
    exact absurd hy (hreads z (hr ▸ hv.subset List.mem_cons_self))
  · obtain ⟨w', r', g, hcut, hw', hg, hgrest⟩ := hp hf
    rw [List.append_assoc, List.cons_append] at hcut
    rw [hgrest]
    rcases cut_first hcut hw' with ⟨-, rfl⟩ | ⟨z, -, rfl⟩
    · -- the reading goes past the same closing character, where there is only one way
      have hleft : g.rest = e.rest ++ t := congrArg Derivation.rest (htail hg (derives_extend he t))
      rw [← hrest, List.nil_append] at hleft
      exact Nat.le_of_eq (congrArg List.length hleft.symm)
    · -- the reading goes past an earlier one, and then it cannot pass this one
      have hlt := hc.length_lt_rest hg
      rw [List.length_append] at hlt
      omega

/-! ## Occurrences whose continuation is replaced -/

variable {anchor : Anchor}

/-- What is left at an occurrence is an end of the text. -/
theorem start_suffix_of_mem_scanFrom {before : Option Char} {skip : Nat} {s : Text} {o : Occurrence}
    (h : o ∈ p.scanFrom anchor before skip s) : o.start <:+ s := by
  induction s generalizing before skip with
  | nil => exact absurd h (by simp [scanFrom])
  | cons x s ih =>
    cases skip with
    | succ k => exact (ih h).trans (List.suffix_cons x s)
    | zero =>
      rw [scanFrom] at h
      split at h
      · rcases List.mem_cons.1 h with rfl | h
        · exact List.suffix_refl _
        · exact (ih h).trans (List.suffix_cons x s)
      · exact (ih h).trans (List.suffix_cons x s)

/-- A pattern that reads something reads nothing at the end of a text. -/
theorem first?_nil_eq_none (hp : 0 < p.least) : p.first? [] = none := by
  refine first?_eq_none_iff.2 fun d hd => ?_
  have hread := least_le hd
  have hlength := length_rest_add hd
  rw [List.length_nil] at hlength
  omega

/-- So something is left at each of its occurrences. -/
theorem start_ne_nil_of_mem_scanFrom (hp : 0 < p.least) {before : Option Char} {skip : Nat} {s : Text} {o : Occurrence}
    (h : o ∈ p.scanFrom anchor before skip s) : o.start ≠ [] := by
  intro hnil
  have hfirst := first?_of_mem_scanFrom h
  rw [hnil, first?_nil_eq_none hp] at hfirst
  exact absurd hfirst (by simp)

/-- An occurrence that begins in a text beyond whose end no reading goes is one of the text alone, at the same place among
them. -/
theorem exists_occurrence_of_append {s t : Text} (h : EndsWithin p s t) {i : Nat} {o : Occurrence}
    (ho : (p.occurrences anchor (s ++ t))[i]? = some o) (hstart : t.length < o.start.length) :
    ∃ o₀, (p.occurrences anchor s)[i]? = some o₀ ∧ o₀.extend t = o := by
  rw [occurrences, scanFrom_append h (Nat.zero_le _), List.getElem?_append] at ho
  split at ho
  · rw [List.getElem?_map] at ho
    exact Option.map_eq_some_iff.1 ho
  · -- the occurrences after these begin behind the text
    have hle := (start_suffix_of_mem_scanFrom (List.mem_of_getElem? ho)).length_le
    omega

theorem occurrence_append {s t : Text} (h : EndsWithin p s t) {i : Nat} {o : Occurrence}
    (ho : (p.occurrences anchor s)[i]? = some o) : (p.occurrences anchor (s ++ t))[i]? = some (o.extend t) := by
  obtain ⟨hlt, -⟩ := List.getElem?_eq_some_iff.1 ho
  rw [occurrences, scanFrom_append h (Nat.zero_le _), List.getElem?_append_left (by rwa [List.length_map]),
    List.getElem?_map]
  exact congrArg (Option.map _) ho

end SourceInventory.Pattern
