import SourceInventory.Proofs.FileTree.Read

/-!
# Update: trees that are written and removed from

In a tree that was built by updates a directory stands above everything (`FileTree.WellFormed`), and an update changes nothing at
a location that is neither its own, nor above it, nor below it. So what a path leads to that only goes down is decided by the one
node at its location, and a history of updates beside this location leaves it as it is.
-/

namespace SourceInventory

/-- A change of a tree. -/
inductive Update where
  /-- A node is put at a location, and directories above it. -/
  | write (l : Location) (node : Node)
  /-- A location and everything below it is taken away. -/
  | remove (l : Location)
deriving DecidableEq, Repr

namespace Update

/-- Where an update takes place. -/
def location : Update → Location
  | .write l _ => l
  | .remove l => l

/-- The tree after an update; one that is refused leaves the tree as it is. -/
def apply (t : FileTree) : Update → FileTree
  | .write l node => (t.write? l node).getD t
  | .remove l => (t.remove? l).getD t

/-- An update is refused, or it writes a node at its location, or it removes what stands there. -/
theorem apply_cases (u : Update) (t : FileTree) :
    u.apply t = t ∨ (∃ node, t.write? u.location node = some (u.apply t)) ∨ t.remove? u.location = some (u.apply t) := by
  cases u with
  | write l node =>
    rw [apply, location]
    cases h : t.write? l node with
    | none => exact Or.inl rfl
    | some t' => exact Or.inr (Or.inl ⟨node, h⟩)
  | remove l =>
    rw [apply, location]
    cases h : t.remove? l with
    | none => exact Or.inl rfl
    | some t' => exact Or.inr (Or.inr rfl)

/-- The update takes place neither at a location, nor above it, nor below it. -/
def Beside (u : Update) (k : Location) : Prop := ¬u.location <+: k ∧ ¬k <+: u.location

instance (u : Update) (k : Location) : Decidable (u.Beside k) := inferInstanceAs (Decidable (_ ∧ _))

end Update

namespace FileTree

variable {t t' : FileTree} {k l : Location}

/-- The tree after a history of updates. -/
def after (t : FileTree) (us : List Update) : FileTree := us.foldl Update.apply t

/-- A directory stands above everything. -/
def WellFormed (t : FileTree) : Prop := ∀ k l, k ∈ above l → t.node? l ≠ none → t.node? k = some .directory

/-! ## Well-formed trees -/

/-- Below the root only nodes other than the root have to be looked at. -/
theorem wellFormed_of (h : ∀ k l, k ≠ [] → l ≠ [] → k ∈ above l → t.node? l ≠ none → t.node? k = some .directory) :
    t.WellFormed := by
  intro k l hkl hl
  by_cases hk : k = []
  · rw [hk]
    rfl
  · refine h k l hk (fun hnil => ?_) hkl hl
    rw [hnil] at hkl
    exact List.not_mem_nil hkl

/-- The empty tree is well-formed. -/
theorem wellFormed_empty : empty.WellFormed := by
  refine wellFormed_of fun k l _ hne _ hl => absurd ?_ hl
  obtain ⟨n, l, rfl⟩ := List.exists_cons_of_ne_nil hne
  rfl

/-- The tree with one file has directories above it and nothing else. -/
theorem wellFormed_ofFile (m : Location) (s : Text) : (ofFile m s).WellFormed := by
  refine wellFormed_of fun k l hk hl hkl hnode => ?_
  obtain ⟨n, k, rfl⟩ := List.exists_cons_of_ne_nil hk
  obtain ⟨n', l, rfl⟩ := List.exists_cons_of_ne_nil hl
  obtain ⟨hbegin, hlt⟩ := mem_above_iff.1 hkl
  have hlm : n' :: l <+: m := by
    by_cases hlm : n' :: l = m
    · exact hlm ▸ List.prefix_refl _
    · rw [← List.isPrefixOf_iff_prefix]
      simpa [node?, ofFile, hlm] using hnode
  have hkm : n :: k ≠ m := by
    rintro rfl
    exact absurd hlm.length_le (Nat.not_le_of_lt hlt)
  have hle : (n :: k).isPrefixOf m = true := List.isPrefixOf_iff_prefix.2 (hbegin.trans hlm)
  simp only [node?, ofFile, if_neg hkm, if_pos hle]

theorem above_trans {m : Location} (hkl : k ∈ above l) (hlm : l ∈ above m) : k ∈ above m := by
  rw [mem_above_iff] at hkl hlm ⊢
  exact ⟨hkl.1.trans hlm.1, Nat.lt_trans hkl.2 hlm.2⟩

/-- What is written over a directory is a directory. -/
theorem eq_directory_of_write? {node : Node} (h : t.write? l node = some t') (hl : t.node? l = some .directory) :
    node = .directory := by
  unfold write? at h
  split at h
  · exact absurd h (by simp)
  · rename_i hrefuses
    rw [refuses, hl, Bool.or_eq_true, not_or] at hrefuses
    cases node with
    | directory => rfl
    | file bs => exact absurd rfl hrefuses.2

/-- Writing keeps a tree well-formed. -/
theorem WellFormed.write? (ht : t.WellFormed) {node : Node} (h : t.write? l node = some t') : t'.WellFormed := by
  refine wellFormed_of fun k m hk hm hkm hnode => ?_
  rw [node?_write? h hm] at hnode
  rw [node?_write? h hk]
  by_cases hkl : k = l
  · -- the new node has the old node `m` below it, so a directory was there
    subst hkl
    have hlt := (mem_above_iff.1 hkm).2
    have hmk : m ≠ k := fun heq => absurd hlt (heq ▸ Nat.lt_irrefl _)
    have hmabove : m ∉ above k := fun hmem => absurd (mem_above_iff.1 hmem).2 (Nat.not_lt_of_lt hlt)
    rw [if_neg hmk, if_neg hmabove] at hnode
    rw [if_pos rfl, eq_directory_of_write? h (ht k m hkm hnode)]
  · rw [if_neg hkl]
    by_cases hkabove : k ∈ above l
    · rw [if_pos hkabove]
    · rw [if_neg hkabove]
      have hml : m ≠ l := fun heq => hkabove (heq ▸ hkm)
      have hmabove : m ∉ above l := fun hmem => hkabove (above_trans hkm hmem)
      rw [if_neg hml, if_neg hmabove] at hnode
      exact ht k m hkm hnode

/-- So does removing. -/
theorem WellFormed.remove? (ht : t.WellFormed) (h : t.remove? l = some t') : t'.WellFormed := by
  refine wellFormed_of fun k m hk hm hkm hnode => ?_
  rw [node?_remove? h hm] at hnode
  rw [node?_remove? h hk]
  by_cases hlm : l <+: m
  · exact absurd (if_pos hlm) hnode
  · rw [if_neg hlm] at hnode
    rw [if_neg fun hlk => hlm (hlk.trans (mem_above_iff.1 hkm).1)]
    exact ht k m hkm hnode

/-- An update keeps a directory above everything. -/
theorem WellFormed.apply (ht : t.WellFormed) (u : Update) : (u.apply t).WellFormed := by
  obtain h | ⟨node, h⟩ | h := u.apply_cases t
  · rwa [h]
  · exact ht.write? h
  · exact ht.remove? h

/-- A history of updates keeps a directory above everything. -/
theorem WellFormed.after (ht : t.WellFormed) (us : List Update) : (t.after us).WellFormed := by
  induction us generalizing t with
  | nil => exact ht
  | cons u us ih => exact ih (ht.apply u)

/-- Every tree that updates build from the empty one has a directory above everything. -/
theorem wellFormed_after_empty (us : List Update) : (empty.after us).WellFormed := wellFormed_empty.after us

/-! ## Locations beside an update -/

/-- An update leaves what stands beside its location. -/
theorem node?_apply_of_beside {u : Update} (h : u.Beside k) : (u.apply t).node? k = t.node? k := by
  obtain ⟨hbelow, habove⟩ := h
  have hk : k ≠ [] := fun hnil => habove (hnil ▸ List.nil_prefix)
  obtain hrefused | ⟨node, hwrite⟩ | hremove := u.apply_cases t
  · rw [hrefused]
  · have hkl : k ≠ u.location := fun heq => hbelow (heq ▸ List.prefix_refl _)
    have hkabove : k ∉ above u.location := fun hmem => habove (mem_above_iff.1 hmem).1
    rw [node?_write? hwrite hk, if_neg hkl, if_neg hkabove]
  · rw [node?_remove? hremove hk, if_neg hbelow]

/-- A history of updates leaves what stands beside all of them. -/
theorem node?_after_of_beside {us : List Update} (h : ∀ u ∈ us, u.Beside k) : (t.after us).node? k = t.node? k := by
  induction us generalizing t with
  | nil => rfl
  | cons u us ih =>
    obtain ⟨hu, hus⟩ := List.forall_mem_cons.1 h
    exact (ih hus).trans (node?_apply_of_beside hu)

end FileTree

/-! ## Paths that go down -/

namespace Path

/-- A path with names, all of which lead down. -/
structure Downward (p : Path) : Prop where
  normal : p.Normal
  ne_nil : p.names ≠ []
  no_up : ['.', '.'] ∉ p.names

/-- Neither a name nor the whole path is too long to be opened. -/
def Fits (p : Path) : Prop := Utf8.size p.toText ≤ FileTree.pathBytes ∧ ∀ n ∈ p.names, Utf8.size n ≤ FileTree.nameBytes

/-- Names without two dots lead down from the start of a path. -/
theorem resolved_of_not_mem {p : Path} (h : ['.', '.'] ∉ p.names) (cwd : Location) :
    p.resolved cwd = p.start cwd ++ p.names := by
  obtain ⟨root, names⟩ := p
  have run : ∀ base, names.foldl Location.descend base = base ++ names := by
    induction names with
    | nil => intro base; exact (List.append_nil base).symm
    | cons n ns ih =>
      rw [List.mem_cons, not_or] at h
      intro base
      rw [List.foldl_cons, ih h.2, Location.descend, if_neg (Ne.symm h.1), List.append_assoc]
      rfl
  exact run _

end Path

namespace FileTree

variable {t : FileTree} {cwd l : Location} {p : Path}

/-- Names that lead down are followed to their end exactly if something stands there. -/
theorem follow_eq_ok_iff (ht : t.WellFormed) {ns : List Text} (hnormal : ∀ n ∈ ns, Path.NormalName n)
    (hup : ['.', '.'] ∉ ns) {base : Location} :
    t.follow base ns = .ok l ↔
      l = base ++ ns ∧ (∀ n ∈ ns, Utf8.size n ≤ nameBytes) ∧ (ns = [] ∨ t.node? (base ++ ns) ≠ none) := by
  induction ns generalizing base with
  | nil => simp [follow, eq_comm]
  | cons n ns ih =>
    obtain ⟨hn, hns⟩ := List.forall_mem_cons.1 hnormal
    rw [List.mem_cons, not_or] at hup
    have hstep : base ++ n :: ns = base ++ [n] ++ ns := by rw [List.append_assoc]; rfl
    have habove : base ∈ above (base ++ n :: ns) := mem_above_iff.2 ⟨List.prefix_append _ _, by simp⟩
    have hnext : t.node? (base ++ n :: ns) ≠ none → t.node? (base ++ [n]) ≠ none := by
      intro hend
      by_cases hlast : ns = []
      · rwa [hlast] at hend
      · have hbetween : base ++ [n] ∈ above (base ++ n :: ns) :=
          mem_above_iff.2 ⟨hstep ▸ List.prefix_append _ _, by simpa using List.length_pos_iff.2 hlast⟩
        rw [ht _ _ hbetween hend]
        simp
    rw [follow_cons_eq_ok_iff, List.forall_mem_cons]
    constructor
    · rintro ⟨next, hleads, h⟩
      cases hleads with
      | stay _ hskip => exact absurd hskip (not_or.2 ⟨hn.ne_nil, hn.ne_dot⟩)
      | up _ heq => exact absurd heq.symm hup.1
      | down _ _ _ hshort hnode =>
        obtain ⟨hl, hfits, hend⟩ := (ih hns hup.2).1 h
        rw [hstep]
        refine ⟨hl, ⟨hshort, hfits⟩, Or.inr ?_⟩
        rcases hend with hnil | hend
        · rwa [hnil, List.append_nil]
        · exact hend
    · rintro ⟨hl, ⟨hshort, hfits⟩, hend⟩
      have hend := hend.resolve_left (by simp)
      have hbase : ∀ bs, t.node? base ≠ some (.file bs) := fun bs hfile =>
        absurd ((ht _ _ habove hend).symm.trans hfile) (by simp)
      have hdown := Leads.down hbase (not_or.2 ⟨hn.ne_nil, hn.ne_dot⟩) (Ne.symm hup.1) hshort (hnext hend)
      rw [hstep] at hl hend
      exact ⟨_, hdown, (ih hns hup.2).2 ⟨hl, hfits, Or.inr hend⟩⟩

/-- Where a path of normal names is followed from, and by which names. -/
theorem resolve_toText (hp : p.Normal) (hne : p.names ≠ []) :
    t.resolve cwd p.toText =
      if pathBytes < Utf8.size p.toText then .error .nameTooLong else t.follow (p.start cwd) p.names := by
  have htext : p.toText = p.root.text ++ Text.join ['/'] p.names := by
    unfold Path.toText
    split
    · contradiction
    · rfl
  have hnil : p.toText ≠ [] := by
    intro hnil
    have hof := Path.ofText_toText hp
    rw [hnil] at hof
    exact hne (hof ▸ rfl)
  have hsplit : Text.splitOn '/' (Text.join ['/'] p.names) = p.names := by
    obtain ⟨n, ns, hns⟩ := List.exists_cons_of_ne_nil hne
    rw [hns]
    exact Text.splitOn_join fun q hq => (hp q (hns ▸ hq)).no_slash
  rw [resolve, if_neg hnil, start_ofText, Path.ofText_toText hp]
  congr 1
  rw [htext]
  -- the empty names of the root stay at the root, which is a directory
  cases hroot : p.root with
  | here => rw [Root.text, List.nil_append, hsplit]
  | slash => simp [Root.text, Path.start, hroot, Text.splitOn, hsplit, follow, node?]
  | doubleSlash => simp [Root.text, Path.start, hroot, Text.splitOn, hsplit, follow, node?]

/-- A path that goes down can be followed exactly if it is not too long and something stands at its location. -/
theorem resolve_toText_eq_ok_iff (ht : t.WellFormed) (hp : p.Downward) :
    t.resolve cwd p.toText = .ok l ↔ l = p.resolved cwd ∧ p.Fits ∧ t.node? l ≠ none := by
  rw [resolve_toText hp.normal hp.ne_nil, Path.resolved_of_not_mem hp.no_up]
  split
  · rename_i hlong
    exact iff_of_false (by simp) fun h => absurd h.2.1.1 (Nat.not_le_of_lt hlong)
  · rename_i hshort
    rw [follow_eq_ok_iff ht hp.normal hp.no_up, or_iff_right hp.ne_nil, Path.Fits, and_iff_right (Nat.le_of_not_lt hshort)]
    exact and_congr_right fun hl => by rw [hl]

/-- A path that goes down leads to a text exactly if it is not too long and the file at its location has the bytes. -/
theorem holds_toText_iff (ht : t.WellFormed) (hp : p.Downward) {s : Text} :
    t.Holds cwd p.toText s ↔ p.Fits ∧ t.node? (p.resolved cwd) = some (.file (Utf8.encode s)) := by
  constructor
  · rintro ⟨l, hl, hfile⟩
    obtain ⟨rfl, hfits, -⟩ := (resolve_toText_eq_ok_iff ht hp).1 hl
    exact ⟨hfits, hfile⟩
  · intro ⟨hfits, hfile⟩
    exact ⟨_, (resolve_toText_eq_ok_iff ht hp).2 ⟨rfl, hfits, by simp [hfile]⟩, hfile⟩

/-- Something is found under a path that goes down exactly if it is not too long and something stands at its location. -/
theorem has_toText_iff (ht : t.WellFormed) (hp : p.Downward) :
    t.has cwd p.toText = true ↔ '\x00' ∉ p.toText ∧ p.Fits ∧ t.node? (p.resolved cwd) ≠ none := by
  rw [has, Bool.and_eq_true]
  cases hl : t.resolve cwd p.toText with
  | error e =>
    have hnot : ¬(p.Fits ∧ t.node? (p.resolved cwd) ≠ none) := by
      intro h
      have hok : t.resolve cwd p.toText = .ok _ := (resolve_toText_eq_ok_iff ht hp).2 ⟨rfl, h⟩
      rw [hl] at hok
      exact absurd hok (by simp)
    simp [hnot]
  | ok l =>
    obtain ⟨rfl, hfits, hnode⟩ := (resolve_toText_eq_ok_iff ht hp).1 hl
    simp [hfits, hnode, Option.isSome_iff_ne_none]

end FileTree

end SourceInventory
