import SourceInventory.Proofs.FileTree.Read
import SourceInventory.Proofs.Locate.Search

/-!
# Ancestor: whether a searched directory contains the file

The parent of a path is the path without its last name, whatever that name is. So the directory above `..` is taken to be the
current directory, which lies below it. A searched directory contains the file unless the names after it climb out of it by two
dots and do not come back by the same names.
-/

namespace SourceInventory

/-! ## The way that names go -/

/-- The way that names go from a location: some levels up, and from there names down. -/
structure Way where
  /-- The number of levels up. -/
  ups : Nat
  /-- The names down. -/
  downs : List Text
deriving DecidableEq, Repr

namespace Way

/-- The way with one more name. -/
def step (w : Way) (n : Text) : Way :=
  if n = ['.', '.'] then if w.downs = [] then ⟨w.ups + 1, []⟩ else ⟨w.ups, w.downs.dropLast⟩
  else ⟨w.ups, w.downs ++ [n]⟩

/-- The way that names go. -/
def ofNames (ns : List Text) : Way := ns.foldl step ⟨0, []⟩

/-- Where a way leads from a location; above the root there is nothing but the root. -/
def reach (w : Way) (l : Location) : Location := l.take (l.length - w.ups) ++ w.downs

/-- One more name leads on from where the way leads. -/
theorem reach_step (w : Way) (n : Text) (l : Location) : (w.step n).reach l = (w.reach l).descend n := by
  rw [step, Location.descend]
  split
  · split
    · rename_i hdowns
      rw [reach, reach, hdowns, List.append_nil, List.append_nil, List.dropLast_eq_take, List.length_take, List.take_take]
      have hlen : l.length - (w.ups + 1) = min (min (l.length - w.ups) l.length - 1) (l.length - w.ups) := by omega
      exact congrArg (List.take · l) hlen
    · rename_i hdowns
      rw [reach, reach, List.dropLast_append_of_ne_nil hdowns]
  · rw [reach, reach, List.append_assoc]

/-- Names lead from a location where their way leads. -/
theorem foldl_descend (ns : List Text) (l : Location) : ns.foldl Location.descend l = (ofNames ns).reach l := by
  have run : ∀ w : Way, ns.foldl Location.descend (w.reach l) = (ns.foldl step w).reach l := by
    induction ns with
    | nil => intro w; rfl
    | cons n ns ih =>
      intro w
      rw [List.foldl_cons, List.foldl_cons, ← reach_step]
      exact ih (w.step n)
  have hstart : (⟨0, []⟩ : Way).reach l = l := by simp [reach]
  have h := run ⟨0, []⟩
  rwa [hstart] at h

/-- A way stays below a location if and only if the names that it leaves are the first ones of those that it goes down. -/
theorem prefix_reach_iff (w : Way) (l : Location) : l <+: w.reach l ↔ l.drop (l.length - w.ups) <+: w.downs := by
  calc
    l <+: w.reach l ↔ l.take (l.length - w.ups) ++ l.drop (l.length - w.ups) <+: l.take (l.length - w.ups) ++ w.downs := by
      rw [List.take_append_drop]
      rfl
    _ ↔ l.drop (l.length - w.ups) <+: w.downs := List.prefix_append_right_inj _

/-- Names without two dots go down only. -/
theorem ups_ofNames {ns : List Text} (h : ['.', '.'] ∉ ns) : (ofNames ns).ups = 0 := by
  have run : ∀ w : Way, (ns.foldl step w).ups = w.ups := by
    induction ns with
    | nil => intro w; rfl
    | cons n ns ih =>
      rw [List.mem_cons, not_or] at h
      intro w
      rw [List.foldl_cons, ih h.2, step, if_neg (Ne.symm h.1)]
  exact run ⟨0, []⟩

end Way

/-! ## Searched directories -/

/-- A directory whose names begin a path contains what the path leads to, unless the way of the other names leaves it. -/
theorem Path.resolved_prefix_iff {dir p : Path} {rest : List Text} (hroot : dir.root = p.root) (h : p.names = dir.names ++ rest)
    (cwd : Location) :
    dir.resolved cwd <+: p.resolved cwd ↔
      (dir.resolved cwd).drop ((dir.resolved cwd).length - (Way.ofNames rest).ups) <+: (Way.ofNames rest).downs := by
  have hp : p.resolved cwd = (Way.ofNames rest).reach (dir.resolved cwd) := by
    rw [Path.resolved, h, List.foldl_append, Way.foldl_descend rest, Path.resolved, Path.start, Path.start, hroot]
  rw [hp]
  exact Way.prefix_reach_iff _ _

/-- What is opened under a name in a searched directory lies where the names of the directory lead, two dots taking back
the name before them. That place is the file's own directory or one above it if and only if the way of the names after it
does not leave it, and always if there are no two dots among them. The framework that is found is what one of these
directories says. -/
theorem searched_ancestor_iff (t : FileTree) (cwd : Location) (s : Text) (parents : Int) :
    (∀ dir ∈ (Path.ofText s).searched parents, ∀ n, Path.NormalName n → n ≠ ['.', '.'] → ∀ l,
      t.resolve cwd (dir.child n).toText = .ok l → l = dir.resolved cwd ++ [n]) ∧
    (∀ dir ∈ (Path.ofText s).searched parents, ∃ rest, (Path.ofText s).parent.names = dir.names ++ rest ∧
      (dir.resolved cwd <+: (Path.ofText s).parent.resolved cwd ↔
        (dir.resolved cwd).drop ((dir.resolved cwd).length - (Way.ofNames rest).ups) <+: (Way.ofNames rest).downs) ∧
      (['.', '.'] ∉ rest → dir.resolved cwd <+: (Path.ofText s).parent.resolved cwd)) ∧
    (∀ f, (locate t cwd (Path.ofText s) parents).value = .ok f →
      f = .unknown ∨ ∃ dir ∈ (Path.ofText s).searched parents, (Locate.probeDirectory t cwd dir).value = .ok (some f)) := by
  refine ⟨?_, ?_, fun f hf => Locate.probeDirectory_of_locate_eq hf⟩
  · intro dir hdir n hn hup l hl
    have hnormal := Path.normal_of_mem_searched (Path.normal_ofText s) hdir
    exact FileTree.resolve_child_eq_ok hnormal hn hup hl
  · intro dir hdir
    obtain ⟨hroot, rest, hrest⟩ := Path.prefix_of_mem_searched hdir
    have hiff := Path.resolved_prefix_iff (p := (Path.ofText s).parent) hroot hrest.symm cwd
    refine ⟨rest, hrest.symm, hiff, ?_⟩
    intro hup
    rw [hiff, Way.ups_ofNames hup, Nat.sub_zero, List.drop_length]
    exact List.nil_prefix

/-- A file above the current directory: the search goes on from the directory above to the current one, which does not
contain the file, and takes the answer from a configuration file there. -/
theorem searched_ancestor_false :
    (⟨.here, []⟩ : Path) ∈ (Path.ofText "../x.js".toList).searched 4 ∧
    ¬ Path.resolved ["a".toList, "b".toList] ⟨.here, []⟩ <+:
      (Path.ofText "../x.js".toList).parent.resolved ["a".toList, "b".toList] ∧
    (locate (FileTree.ofFile ["a".toList, "b".toList, "jest.config.js".toList] []) ["a".toList, "b".toList]
      (Path.ofText "../x.js".toList) 4).value = .ok .jest := by
  refine ⟨by decide, by decide, ?_⟩
  have hdirs : (Path.ofText "../x.js".toList).searched 4 = [⟨.here, ["..".toList]⟩, ⟨.here, []⟩] := by decide
  have habove : (Locate.probeDirectory (FileTree.ofFile ["a".toList, "b".toList, "jest.config.js".toList] [])
      ["a".toList, "b".toList] ⟨.here, ["..".toList]⟩).value = .ok none := rfl
  have hhere : (Locate.probeDirectory (FileTree.ofFile ["a".toList, "b".toList, "jest.config.js".toList] [])
      ["a".toList, "b".toList] ⟨.here, []⟩).value = .ok (some .jest) := rfl
  rw [locate, hdirs]
  exact congrArg (Except.map (·.getD .unknown))
    ((Locate.probeAll_eq_iff (by simp)).2 ⟨[⟨.here, ["..".toList]⟩], _, [], rfl, by simpa using habove, hhere⟩)

end SourceInventory
