import Mathlib.Data.List.Chain
import Mathlib.Data.List.Nodup
import SourceInventory.Proofs.Path.Names

/-!
# Upwards: the parents above a path

A parent has one name less, and only a path without names is its own parent. So the way up from a path loses a name at each
step and ends at the root, however far it may go: no path stands on it twice, it is as long as there are names, and a way that
may go further begins with the same paths. This is the shape of the directories that are searched for a file (`searched_shape`).
-/

namespace SourceInventory

namespace Path

variable {p q : Path}

/-! ## Parents -/

/-- Only a path without names is its own parent. -/
theorem parent_eq_self_iff : p.parent = p ↔ p.names = [] := by
  obtain ⟨root, names⟩ := p
  unfold parent
  simp only [mk.injEq, true_and]
  constructor
  · intro h
    have hlen := congrArg List.length h
    rw [List.length_dropLast] at hlen
    exact List.length_eq_zero_iff.1 (by omega)
  · intro h
    rw [h]
    rfl

/-- The parent has one name less, if there is one. -/
theorem length_names_parent (p : Path) : p.parent.names.length = p.names.length - 1 := List.length_dropLast

theorem names_parent_isPrefix (p : Path) : p.parent.names <+: p.names := List.dropLast_prefix p.names

/-- A path without names is written as its root, or as a single dot. -/
theorem toText_of_names_eq_nil (h : p.names = []) : p.toText ∈ [['.'], ['/'], ['/', '/']] := by
  obtain ⟨root, names⟩ := p
  obtain rfl : names = [] := h
  cases root <;> simp [toText, Root.text, Text.join]

/-- Paths of normal names are told apart by their texts. -/
theorem toText_injective (hp : p.Normal) (hq : q.Normal) (h : p.toText = q.toText) : p = q := by
  rw [← ofText_toText hp, h, ofText_toText hq]

/-! ## The way up -/

/-- From a path without names nothing more is searched. -/
theorem upwards_of_names_eq_nil (h : p.names = []) (n : Nat) : upwards n p = [p] := by
  cases n with
  | zero => rfl
  | succ n => rw [upwards, if_pos (parent_eq_self_iff.2 h)]

/-- From any other path the search goes on at its parent. -/
theorem upwards_succ (h : p.names ≠ []) (n : Nat) : upwards (n + 1) p = p :: upwards n p.parent := by
  rw [upwards, if_neg (mt parent_eq_self_iff.1 h)]

/-- The way up begins with the path itself. -/
theorem head?_upwards (n : Nat) (p : Path) : (upwards n p).head? = some p := by
  cases n with
  | zero => rfl
  | succ n =>
    unfold upwards
    split <;> rfl

/-- The way up goes past as many parents as there are names, if it may go so far. -/
theorem length_upwards (n : Nat) (p : Path) : (upwards n p).length = min n p.names.length + 1 := by
  induction n generalizing p with
  | zero => simp [upwards]
  | succ n ih =>
    by_cases h : p.names = []
    · simp [upwards_of_names_eq_nil h, h]
    · have hpos := List.length_pos_iff.2 h
      rw [upwards_succ h, List.length_cons, ih, length_names_parent]
      omega

/-- The way up ends where as many names are left as it may not go past. -/
theorem getLast?_upwards (n : Nat) (p : Path) :
    (upwards n p).getLast? = some { p with names := p.names.take (p.names.length - n) } := by
  induction n generalizing p with
  | zero => simp [upwards]
  | succ n ih =>
    by_cases h : p.names = []
    · rw [upwards_of_names_eq_nil h, h, List.take_nil, ← h]
      rfl
    · have hcut : p.parent.names.take (p.parent.names.length - n) = p.names.take (p.names.length - (n + 1)) := by
        rw [length_names_parent, parent, List.dropLast_eq_take, List.take_take]
        congr 1
        omega
      rw [upwards_succ h, List.getLast?_cons, ih, hcut]
      rfl

/-- What comes next on the way up is the parent. -/
theorem isChain_upwards (n : Nat) (p : Path) : (upwards n p).IsChain fun dir above => above = dir.parent := by
  induction n generalizing p with
  | zero => exact List.isChain_singleton p
  | succ n ih =>
    by_cases h : p.names = []
    · rw [upwards_of_names_eq_nil h]
      exact List.isChain_singleton p
    · rw [upwards_succ h, List.isChain_cons]
      refine ⟨fun above habove => ?_, ih p.parent⟩
      rw [head?_upwards] at habove
      exact (Option.some.inj habove).symm

/-- Of a path and its parents each has the same root and the first names. -/
theorem prefix_of_mem_upwards {d p : Path} {n : Nat} (h : d ∈ upwards n p) : d.root = p.root ∧ d.names <+: p.names := by
  induction n generalizing p with
  | zero =>
    rw [upwards, List.mem_singleton] at h
    exact h ▸ ⟨rfl, List.prefix_refl _⟩
  | succ n ih =>
    by_cases hnames : p.names = []
    · rw [upwards_of_names_eq_nil hnames, List.mem_singleton] at h
      exact h ▸ ⟨rfl, List.prefix_refl _⟩
    · rw [upwards_succ hnames] at h
      rcases List.mem_cons.1 h with rfl | h
      · exact ⟨rfl, List.prefix_refl _⟩
      · obtain ⟨hroot, hnames⟩ := ih h
        exact ⟨hroot, hnames.trans p.names_parent_isPrefix⟩

/-- What comes later on the way up has fewer names. -/
theorem pairwise_length_upwards (n : Nat) (p : Path) :
    (upwards n p).Pairwise fun dir above => above.names.length < dir.names.length := by
  induction n generalizing p with
  | zero => exact List.pairwise_singleton _ p
  | succ n ih =>
    by_cases h : p.names = []
    · rw [upwards_of_names_eq_nil h]
      exact List.pairwise_singleton _ p
    · rw [upwards_succ h, List.pairwise_cons]
      refine ⟨fun above habove => ?_, ih p.parent⟩
      have hle := (prefix_of_mem_upwards habove).2.length_le
      have hpos := List.length_pos_iff.2 h
      rw [length_names_parent] at hle
      omega

/-- No path stands on the way up twice. -/
theorem nodup_upwards (n : Nat) (p : Path) : (upwards n p).Nodup := by
  refine (pairwise_length_upwards n p).imp fun hlt heq => ?_
  rw [heq] at hlt
  exact Nat.lt_irrefl _ hlt

/-- A way up that may go one step further begins with the same paths. -/
theorem upwards_prefix_succ (n : Nat) (p : Path) : upwards n p <+: upwards (n + 1) p := by
  induction n generalizing p with
  | zero =>
    obtain ⟨ps, hps⟩ := List.head?_eq_some_iff.1 (head?_upwards 1 p)
    rw [hps]
    exact List.prefix_append [p] ps
  | succ n ih =>
    by_cases h : p.names = []
    · have heq : upwards (n + 1) p = upwards (n + 1 + 1) p := by rw [upwards_of_names_eq_nil h, upwards_of_names_eq_nil h]
      exact heq ▸ List.prefix_refl _
    · rw [upwards_succ h, upwards_succ h]
      exact (List.prefix_cons_inj p).2 (ih p.parent)

/-! ## Searched directories -/

/-- A searched directory has the root of the file and the first names of its directory. -/
theorem prefix_of_mem_searched {dir file : Path} {parents : Int} (h : dir ∈ file.searched parents) :
    dir.root = file.root ∧ dir.names <+: file.parent.names := prefix_of_mem_upwards h

/-- The directories that are searched for a normal path are normal. -/
theorem normal_of_mem_searched {dir file : Path} {parents : Int} (hfile : file.Normal) (h : dir ∈ file.searched parents) :
    dir.Normal := fun n hn => hfile.parent n ((prefix_of_mem_searched h).2.subset hn)

/-- A search that may go one directory further begins with the same directories. -/
theorem searched_prefix_succ (file : Path) (parents : Int) : file.searched parents <+: file.searched (parents + 1) := by
  unfold searched
  by_cases h : 0 ≤ parents
  · rw [Int.toNat_add h Int.one_nonneg]
    exact upwards_prefix_succ _ _
  · have hzero : parents.toNat = (parents + 1).toNat := by omega
    exact hzero ▸ List.prefix_refl _

/-- The directories searched for a file are all different, and so are their texts. They start with the lexical parent of the path,
and each is the lexical parent of the one before it. There is at most one more than may be searched above the first, a negative
number counting as zero, and if there are fewer the last one is its own parent: the current directory or a root. However
far the search may go, there is at most one directory more than the path has names. A search that may go one directory further
begins with the same directories. -/
theorem searched_shape (s : Text) (parents : Int) :
    let dirs := (ofText s).searched parents
    (dirs.Nodup ∧ (dirs.map toText).Nodup) ∧
      dirs.head? = some (ofText s).parent ∧
      dirs.IsChain (fun dir above => above = dir.parent) ∧
      dirs.length ≤ parents.toNat + 1 ∧
      (dirs.length < parents.toNat + 1 →
        ∃ top, dirs.getLast? = some top ∧ top.parent = top ∧ top.toText ∈ [['.'], ['/'], ['/', '/']]) ∧
      dirs.length ≤ (ofText s).names.length + 1 ∧
      dirs <+: (ofText s).searched (parents + 1) := by
  intro dirs
  have hlength : dirs.length = min parents.toNat (ofText s).parent.names.length + 1 := length_upwards _ _
  have hlast : dirs.getLast? = some _ := getLast?_upwards _ _
  have hnodup : dirs.Nodup := nodup_upwards _ _
  have hnormal : ∀ dir ∈ dirs, dir.Normal := fun dir hdir => normal_of_mem_searched (normal_ofText s) hdir
  refine ⟨⟨hnodup, ?_⟩, head?_upwards _ _, isChain_upwards _ _, by omega, ?_, ?_, searched_prefix_succ _ _⟩
  · exact hnodup.map_on fun dir hdir dir' hdir' h => toText_injective (hnormal dir hdir) (hnormal dir' hdir') h
  · intro hshort
    have hall : (ofText s).parent.names.length - parents.toNat = 0 := by omega
    rw [hall, List.take_zero] at hlast
    exact ⟨_, hlast, parent_eq_self_iff.2 rfl, toText_of_names_eq_nil rfl⟩
  · rw [length_names_parent] at hlength
    omega

/-- The search ends at the root of an absolute path. -/
example : ((ofText "/a/../b.js".toList).searched 9).map toText = ["/a/..".toList, "/a".toList, "/".toList] := by decide

end Path

end SourceInventory
