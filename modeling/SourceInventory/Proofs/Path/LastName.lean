import SourceInventory.Proofs.Path.Names

/-!
# Last name: how the text of a path ends

The last name of a path is what the text ends in, up to slashes and single dots (`name_ofText_eq_iff`). A name has a suffix
if its last dot is neither the first nor the last of its characters, and then the suffix begins at that dot (`suffix_eq_iff`).
-/

namespace SourceInventory

namespace Path

/-- What may follow the last name in the text of a path: slashes, and single dots after them. -/
inductive Trail : Text → Prop where
  | nil : Trail []
  | slash {t : Text} (h : Trail t) : Trail ('/' :: t)
  | dot {t : Text} (h : Trail t) : Trail ('/' :: '.' :: t)

/-- The text of a path ends in a name. -/
inductive EndsInName : (s n : Text) → Prop where
  /-- The name stands alone. -/
  | alone {n trail : Text} (hn : NormalName n) (h : Trail trail) : EndsInName (n ++ trail) n
  /-- The name stands in a directory, whatever that is called. -/
  | inside (dirs : Text) {n trail : Text} (hn : NormalName n) (h : Trail trail) : EndsInName (dirs ++ '/' :: (n ++ trail)) n

variable {s t u n : Text}

/-! ## Names of a text -/

/-- A slash parts the names of a text. -/
theorem names_ofText_append_slash (u s : Text) : (ofText (u ++ '/' :: s)).names = (ofText u).names ++ (ofText s).names := by
  unfold ofText
  rw [Text.splitOn_append_cons, List.filter_append]

/-- A text without slashes is one name, or none. -/
theorem names_ofText_of_not_mem (h : '/' ∉ u) : (ofText u).names = if u = [] ∨ u = ['.'] then [] else [u] := by
  unfold ofText
  rw [Text.splitOn_of_not_mem h]
  by_cases hnil : u = []
  · simp [hnil]
  · by_cases hdot : u = ['.'] <;> simp [hnil, hdot]

/-- A component is no name exactly if it is empty or a single dot. -/
theorem names_ofText_eq_nil_iff (h : '/' ∉ u) : (ofText u).names = [] ↔ u = [] ∨ u = ['.'] := by
  rw [names_ofText_of_not_mem h]
  split <;> simp [*]

/-- Any other component is a name. -/
theorem names_ofText_of_normalName (h : NormalName n) : (ofText n).names = [n] := by
  rw [names_ofText_of_not_mem h.no_slash, if_neg (not_or.2 ⟨h.ne_nil, h.ne_dot⟩)]

/-- What is true of texts without slashes, and of a text if it is true of what follows its first slash, is true of all texts. -/
theorem slash_induction {P : Text → Prop} (plain : ∀ u, '/' ∉ u → P u) (slash : ∀ u s, '/' ∉ u → P s → P (u ++ '/' :: s))
    (s : Text) : P s := by
  induction h : s.length using Nat.strongRecOn generalizing s with
  | _ n ih =>
    by_cases hmem : '/' ∈ s
    · obtain ⟨u, r, rfl, hu⟩ := List.eq_append_cons_of_mem hmem
      refine slash u r hu (ih r.length ?_ r rfl)
      rw [← h, List.length_append, List.length_cons]
      omega
    · exact plain s hmem

/-! ## The last name -/

/-- Slashes and single dots at the end change no name. -/
theorem Trail.names_append (h : Trail t) (u : Text) : (ofText (u ++ t)).names = (ofText u).names := by
  induction h generalizing u with
  | nil => rw [List.append_nil]
  | slash _ ih =>
    have hrest := ih []
    rw [List.nil_append] at hrest
    rw [names_ofText_append_slash, hrest]
    exact List.append_nil _
  | dot _ ih =>
    have hrest := ih ['.']
    rw [List.singleton_append] at hrest
    rw [names_ofText_append_slash, hrest]
    exact List.append_nil _

/-- What has no names may follow a name. -/
theorem trail_of_names_eq_nil (h : (ofText s).names = []) : Trail ('/' :: s) := by
  induction s using slash_induction with
  | plain u hu =>
    rcases (names_ofText_eq_nil_iff hu).1 h with rfl | rfl
    · exact .slash .nil
    · exact .dot .nil
  | slash u s hu ih =>
    rw [names_ofText_append_slash, List.append_eq_nil_iff] at h
    rcases (names_ofText_eq_nil_iff hu).1 h.1 with rfl | rfl
    · exact .slash (ih h.2)
    · exact .dot (ih h.2)

/-- A text that ends in a name has it as its last name. -/
theorem EndsInName.getLast? (h : EndsInName s n) : (ofText s).names.getLast? = some n := by
  cases h with
  | alone hn htrail => rw [htrail.names_append, names_ofText_of_normalName hn, List.getLast?_singleton]
  | inside dirs hn htrail =>
    rw [names_ofText_append_slash, htrail.names_append, names_ofText_of_normalName hn, List.getLast?_concat]

/-- A text ends in its last name. -/
theorem endsInName_of_getLast? (h : (ofText s).names.getLast? = some n) : EndsInName s n := by
  have hn : NormalName n := normal_ofText s n (List.mem_of_getLast? h)
  induction s using slash_induction with
  | plain u hu =>
    rw [names_ofText_of_not_mem hu] at h
    split at h
    · exact absurd h (by simp)
    · obtain rfl : u = n := by simpa using h
      simpa using EndsInName.alone hn .nil
  | slash u s hu ih =>
    rw [names_ofText_append_slash, List.getLast?_append] at h
    by_cases hnames : (ofText s).names = []
    · -- the name is what stands before the slash
      rw [hnames, List.getLast?_nil, Option.none_or, names_ofText_of_not_mem hu] at h
      split at h
      · exact absurd h (by simp)
      · obtain rfl : u = n := by simpa using h
        exact .alone hn (trail_of_names_eq_nil hnames)
    · rw [List.getLast?_eq_some_getLast hnames, Option.some_or] at h
      cases ih (by rwa [List.getLast?_eq_some_getLast hnames]) with
      | alone _ htrail => exact .inside u hn htrail
      | inside dirs _ htrail => simpa using EndsInName.inside (u ++ '/' :: dirs) hn htrail

/-- The last name of a path is what its text ends in. -/
theorem name_ofText_eq_iff (hn : n ≠ []) : (ofText s).name = n ↔ EndsInName s n := by
  unfold name
  constructor
  · intro h
    cases hlast : (ofText s).names.getLast? with
    | none =>
      rw [hlast] at h
      exact absurd h.symm hn
    | some m =>
      rw [hlast] at h
      exact endsInName_of_getLast? (hlast.trans (congrArg some h))
  · intro h
    rw [h.getLast?]
    rfl

/-! ## The suffix -/

variable {p : Path} {stem ext : Text}

/-- What stands behind the last dot of the last name, or all of it, decides the suffix. -/
theorem suffix_of_behind (h : (p.name.reverse.takeWhile (· ≠ '.')).reverse = ext) :
    p.suffix = if ext = [] ∨ p.name.take (p.name.length - ext.length - 1) = [] then [] else '.' :: ext := by
  subst h
  unfold suffix
  simp only [Bool.or_eq_true, List.isEmpty_iff]

/-- A stretch without dots is read back to the dot before it. -/
theorem takeWhile_reverse_append (h : '.' ∉ u) (r : Text) :
    (u.reverse ++ r).takeWhile (· ≠ '.') = u.reverse ++ r.takeWhile (· ≠ '.') := by
  refine List.takeWhile_append_of_pos fun c hc => ?_
  have hne : c ≠ '.' := fun hdot => h (hdot ▸ List.mem_reverse.1 hc)
  simpa using hne

/-- The suffix begins at the last dot, unless this dot is the first or the last character. -/
theorem suffix_of_name (h : p.name = stem ++ '.' :: ext) (hext : '.' ∉ ext) :
    p.suffix = if ext = [] ∨ stem = [] then [] else '.' :: ext := by
  have hreverse : p.name.reverse = ext.reverse ++ '.' :: stem.reverse := by simp [h]
  have hbehind : (p.name.reverse.takeWhile (· ≠ '.')).reverse = ext := by
    rw [hreverse, takeWhile_reverse_append hext, List.takeWhile_cons_of_neg (by decide), List.append_nil, List.reverse_reverse]
  have hbefore : p.name.take (p.name.length - ext.length - 1) = stem := by
    rw [h]
    refine List.take_left' ?_
    rw [List.length_append, List.length_cons]
    omega
  rw [suffix_of_behind hbehind, hbefore]

/-- A name without a dot has no suffix. -/
theorem suffix_of_not_mem (h : '.' ∉ p.name) : p.suffix = [] := by
  have hbehind : (p.name.reverse.takeWhile (· ≠ '.')).reverse = p.name := by
    simpa using congrArg List.reverse (takeWhile_reverse_append h [])
  simp [suffix_of_behind hbehind]

/-- The suffix begins at the last dot of the last name, unless that dot is its first or its last character. -/
theorem suffix_eq_iff : p.suffix = '.' :: ext ↔
    ∃ stem, p.name = stem ++ '.' :: ext ∧ stem ≠ [] ∧ ext ≠ [] ∧ '.' ∉ ext := by
  constructor
  · intro h
    by_cases hdot : '.' ∈ p.name
    · -- the last dot of the name is the first one from its end
      obtain ⟨behind, before, hname, hbehind⟩ := List.eq_append_cons_of_mem (List.mem_reverse.2 hdot)
      rw [List.reverse_eq_iff, List.reverse_append, List.reverse_cons, List.append_assoc, List.singleton_append] at hname
      rw [suffix_of_name hname (mt List.mem_reverse.1 hbehind)] at h
      split at h
      · exact absurd h (by simp)
      · rename_i hempty
        obtain rfl := (List.cons.inj h).2
        rw [not_or] at hempty
        exact ⟨_, hname, hempty.2, hempty.1, mt List.mem_reverse.1 hbehind⟩
    · rw [suffix_of_not_mem hdot] at h
      exact absurd h (by simp)
  · rintro ⟨stem, hname, hstem, hext, hdot⟩
    rw [suffix_of_name hname hdot, if_neg (not_or.2 ⟨hext, hstem⟩)]

/-- A suffix is empty or begins with a dot. -/
theorem suffix_cases (p : Path) : p.suffix = [] ∨ ∃ ext, p.suffix = '.' :: ext := by
  unfold suffix
  dsimp only
  split
  · exact Or.inl rfl
  · exact Or.inr ⟨_, rfl⟩

end Path

end SourceInventory
