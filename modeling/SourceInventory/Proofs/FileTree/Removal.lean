import SourceInventory.Proofs.FileTree.Update

/-!
# Removal: a tree without one of its files

No way goes on through a file. So from a location that is neither the file nor below it, the tree without the file is followed as
the tree with it, except that nothing leads to the file any more (`FileTree.follow_remove?_eq_ok_iff`). A path from there that
does not lead to the file reads as before (`FileTree.read_remove?_eq_ok_iff`), and as much is found under it
(`FileTree.has_remove?_iff`). The tree itself may be any: nothing is asked of what stands above or below the file.
-/

namespace SourceInventory.FileTree

variable {t t' : FileTree} {cwd base next k l : Location} {n : Text} {ns : List Text} {bs : List UInt8}

/-! ## One name -/

/-- From outside of a location a name leads below it only if it leads to the location itself. -/
theorem Leads.not_isPrefix (h : t.Leads base n next) (hbase : ¬l <+: base) (hne : next ≠ l) : ¬l <+: next := by
  cases h with
  | stay => exact hbase
  | up => exact fun hl => hbase (hl.trans (List.dropLast_prefix base))
  | down =>
    intro hl
    rcases List.prefix_concat_iff.1 hl with heq | hl
    · exact hne heq.symm
    · exact hbase hl

/-- From strictly below a location a name does not lead above it. -/
theorem Leads.isPrefix (h : t.Leads base n next) (hl : l <+: base) (hne : base ≠ l) : l <+: next := by
  cases h with
  | stay => exact hl
  | up =>
    rcases List.eq_nil_or_concat base with rfl | ⟨b, m, rfl⟩
    · exact hl
    · rw [List.concat_eq_append] at hl hne ⊢
      rw [List.dropLast_concat]
      exact (List.prefix_concat_iff.1 hl).resolve_left (Ne.symm hne)
  | down => exact hl.trans (List.prefix_append base [n])

/-- A file is not reached from itself or from below it by names of which the last leads down. -/
theorem not_isPrefix_of_follow_eq_ok (hfile : t.node? l = some (.file bs)) (hn : Path.NormalName n) (hup : n ≠ ['.', '.'])
    (h : t.follow base (ns ++ [n]) = .ok l) : ¬l <+: base := by
  induction ns generalizing base with
  | nil =>
    obtain ⟨next, hleads, hnext⟩ := follow_cons_eq_ok_iff.1 h
    obtain rfl := Except.ok.inj hnext
    intro hle
    cases hleads with
    | stay _ hskip => exact hskip.elim hn.ne_nil hn.ne_dot
    | up _ heq => exact hup heq
    | down => exact absurd hle.length_le (by simp)
  | cons m ns ih =>
    obtain ⟨next, hleads, hnext⟩ := follow_cons_eq_ok_iff.1 h
    intro hle
    -- the start is not the file, since a name leads on from it
    refine ih hnext (hleads.isPrefix hle ?_)
    rintro rfl
    cases hleads with
    | stay hbase | up hbase | down hbase => exact hbase bs hfile

/-! ## The tree without a file -/

/-- Outside of what is removed everything stands as before. -/
theorem node?_remove?_of_not_isPrefix (h : t.remove? l = some t') (hk : ¬l <+: k) : t'.node? k = t.node? k := by
  cases k with
  | nil => rfl
  | cons m k => rw [node?_remove? h (List.cons_ne_nil m k), if_neg hk]

/-- A file can be removed: it is not the root. -/
theorem exists_remove?_of_file (hfile : t.node? l = some (.file bs)) : ∃ t', t.remove? l = some t' := by
  have hne : ¬(l = [] ∨ t.node? l = none) := by
    rintro (rfl | hnone)
    · exact absurd (Option.some.inj hfile) (by simp)
    · exact absurd (hfile.symm.trans hnone) (by simp)
  exact ⟨_, if_neg hne⟩

/-- From outside of what is removed a name leads where it led, but not to the location itself. -/
theorem leads_remove?_iff (h : t.remove? l = some t') (hbase : ¬l <+: base) :
    t'.Leads base n next ↔ t.Leads base n next ∧ next ≠ l := by
  have hnode := node?_remove?_of_not_isPrefix h hbase
  constructor
  · intro hleads
    cases hleads with
    | stay hdir hn =>
      rw [hnode] at hdir
      exact ⟨.stay hdir hn, fun heq => hbase (heq ▸ List.prefix_refl _)⟩
    | up hdir hn =>
      rw [hnode] at hdir
      exact ⟨.up hdir hn, fun heq => hbase (heq ▸ List.dropLast_prefix base)⟩
    | down hdir hn hup hshort hsome =>
      have hne : base ++ [n] ≠ [] := by simp
      rw [hnode] at hdir
      rw [node?_remove? h hne] at hsome
      split at hsome
      · exact absurd rfl hsome
      · rename_i hout
        exact ⟨.down hdir hn hup hshort hsome, fun heq => hout (heq ▸ List.prefix_refl _)⟩
  · rintro ⟨hleads, hne⟩
    have hnext := hleads.not_isPrefix hbase hne
    cases hleads with
    | stay hdir hn => exact .stay (hnode ▸ hdir) hn
    | up hdir hn => exact .up (hnode ▸ hdir) hn
    | down hdir hn hup hshort hsome =>
      exact .down (hnode ▸ hdir) hn hup hshort (node?_remove?_of_not_isPrefix h hnext ▸ hsome)

/-- Names are followed to where they led, but not to the file that is removed. -/
theorem follow_remove?_eq_ok_iff (h : t.remove? l = some t') (hfile : t.node? l = some (.file bs)) (hbase : ¬l <+: base) :
    t'.follow base ns = .ok k ↔ t.follow base ns = .ok k ∧ k ≠ l := by
  induction ns generalizing base with
  | nil =>
    simp only [follow, Except.ok.injEq]
    exact ⟨fun heq => ⟨heq, fun hk => hbase (heq.trans hk ▸ List.prefix_refl _)⟩, And.left⟩
  | cons n ns ih =>
    rw [follow_cons_eq_ok_iff, follow_cons_eq_ok_iff]
    constructor
    · rintro ⟨next, hleads, hfollow⟩
      obtain ⟨hleads, hne⟩ := (leads_remove?_iff h hbase).1 hleads
      obtain ⟨hfollow, hk⟩ := (ih (hleads.not_isPrefix hbase hne)).1 hfollow
      exact ⟨⟨next, hleads, hfollow⟩, hk⟩
    · rintro ⟨⟨next, hleads, hfollow⟩, hk⟩
      -- if the name led to the file, the way would end there
      have hne : next ≠ l := by
        rintro rfl
        cases ns with
        | nil => exact hk (Except.ok.inj hfollow).symm
        | cons m ns =>
          rw [follow, hfile] at hfollow
          exact absurd hfollow (by simp)
      exact ⟨next, (leads_remove?_iff h hbase).2 ⟨hleads, hne⟩, (ih (hleads.not_isPrefix hbase hne)).2 ⟨hfollow, hk⟩⟩

/-- Nothing that is removed is reached. -/
theorem not_isPrefix_of_follow_remove? (h : t.remove? l = some t') (hbase : ¬l <+: base) (hk : t'.follow base ns = .ok k) :
    ¬l <+: k := by
  induction ns generalizing base with
  | nil => exact Except.ok.inj hk ▸ hbase
  | cons n ns ih =>
    obtain ⟨next, hleads, hk⟩ := follow_cons_eq_ok_iff.1 hk
    obtain ⟨hleads, hne⟩ := (leads_remove?_iff h hbase).1 hleads
    exact ih (hleads.not_isPrefix hbase hne) hk

/-! ## Paths -/

variable {path : Text}

/-- A path leads where it led, but not to the file that is removed; and what stands there is what stood there. -/
theorem resolve_remove?_eq_ok_iff (h : t.remove? l = some t') (hfile : t.node? l = some (.file bs))
    (hstart : ¬l <+: (Path.ofText path).start cwd) {node : Option Node} :
    (t'.resolve cwd path = .ok k ∧ t'.node? k = node) ↔
      (t.resolve cwd path = .ok k ∧ t.node? k = node) ∧ t.resolve cwd path ≠ .ok l := by
  have hsame : t'.resolve cwd path = .ok k ↔ t.resolve cwd path = .ok k ∧ k ≠ l := by
    rw [resolve, resolve, start_ofText]
    split
    · simp
    · split
      · simp
      · exact follow_remove?_eq_ok_iff h hfile hstart
  have hnode : t'.resolve cwd path = .ok k → t'.node? k = t.node? k := by
    intro hk
    rw [resolve, start_ofText] at hk
    split at hk
    · exact absurd hk (by simp)
    · split at hk
      · exact absurd hk (by simp)
      · exact node?_remove?_of_not_isPrefix h (not_isPrefix_of_follow_remove? h hstart hk)
  constructor
  · rintro ⟨hk, heq⟩
    obtain ⟨hk', hne⟩ := hsame.1 hk
    exact ⟨⟨hk', hnode hk ▸ heq⟩, fun hl => hne (Except.ok.inj (hk'.symm.trans hl))⟩
  · rintro ⟨⟨hk, heq⟩, hne⟩
    have hk' := hsame.2 ⟨hk, fun hkl => hne (hkl ▸ hk)⟩
    exact ⟨hk', (hnode hk').trans heq⟩

/-- A path reads as before unless it led to the file that is removed. -/
theorem read_remove?_eq_ok_iff (h : t.remove? l = some t') (hfile : t.node? l = some (.file bs))
    (hstart : ¬l <+: (Path.ofText path).start cwd) {s : Text} :
    t'.read cwd path = .ok s ↔ t.read cwd path = .ok s ∧ t.resolve cwd path ≠ .ok l := by
  rw [read_eq_ok_iff, read_eq_ok_iff, Holds, Holds, and_assoc, ← exists_and_right]
  exact and_congr_right fun _ => exists_congr fun _ => resolve_remove?_eq_ok_iff h hfile hstart

theorem has_iff : t.has cwd path = true ↔ '\x00' ∉ path ∧ ∃ k node, t.resolve cwd path = .ok k ∧ t.node? k = some node := by
  rw [has]
  cases t.resolve cwd path <;> simp [Option.isSome_iff_exists]

/-- As much is found under a path as before unless it led to the file that is removed. -/
theorem has_remove?_iff (h : t.remove? l = some t') (hfile : t.node? l = some (.file bs))
    (hstart : ¬l <+: (Path.ofText path).start cwd) :
    t'.has cwd path = true ↔ t.has cwd path = true ∧ t.resolve cwd path ≠ .ok l := by
  rw [has_iff, has_iff, and_assoc]
  simp only [← exists_and_right]
  exact and_congr_right fun _ => exists_congr fun _ => exists_congr fun _ => resolve_remove?_eq_ok_iff h hfile hstart

/-- The start of a path that leads to a file by a last name which leads down is neither the file nor below it. -/
theorem not_isPrefix_start (hfile : t.node? l = some (.file bs)) {dir : Path} (hdir : dir.Normal) (hn : Path.NormalName n)
    (hup : n ≠ ['.', '.']) (h : t.resolve cwd (dir.child n).toText = .ok l) : ¬l <+: dir.start cwd := by
  rw [resolve_toText (hdir.child hn) (by simp [Path.child])] at h
  split at h
  · exact absurd h (by simp)
  · exact not_isPrefix_of_follow_eq_ok hfile hn hup h

end SourceInventory.FileTree
