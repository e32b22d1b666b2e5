import Mathlib.Data.ENat.Basic
import SourceInventory.Proofs.Locate.Search

/-!
# Threshold: how far a search has to go

The directories above a file do not depend on how many of them are searched, so a search that goes further visits the same
places first. It finds nothing until it reaches the nearest directory in which some place says something, and from then on it
always finds what the first such place there says (`locate_threshold`).
-/

namespace SourceInventory

namespace Locate

/-- What a place or a directory says: a framework, nothing, or what ends the search. -/
abbrev Said : Type := Except Interruption (Option Framework)

/-- What is said first in some places, one after another. -/
def firstSaid : List Said → Said
  | [] => .ok none
  | .ok none :: rest => firstSaid rest
  | r :: _ => r

/-- What the places of a directory say, in the order in which they are looked at: the dependency manifest, the project file, and
for each framework its configuration files. -/
def places (t : FileTree) (cwd : Location) (dir : Path) : List Said :=
  (probeManifest t cwd dir).value :: (probeProject t cwd dir).value ::
    configFiles.map fun f => .ok (if f.2.any fun n => t.has cwd (dir.child n).toText then some f.1 else none)

variable {t : FileTree} {cwd : Location} {dir : Path} {f : Framework}

/-! ## The places of a directory -/

theorem firstSaid_cons_of_ne {r : Said} (hr : r ≠ .ok none) (rest : List Said) : firstSaid (r :: rest) = r := by
  unfold firstSaid
  split
  · contradiction
  · rename_i heq
    exact absurd (List.cons.inj heq).1 hr
  · rename_i heq
    exact (List.cons.inj heq).1.symm

/-- Nothing is said, or something is said in one place and nothing before it. -/
theorem firstSaid_cases (rs : List Said) :
    (firstSaid rs = .ok none ∧ ∀ r ∈ rs, r = .ok none) ∨
      firstSaid rs ≠ .ok none ∧ ∃ before after, rs = before ++ firstSaid rs :: after ∧ ∀ r ∈ before, r = .ok none := by
  induction rs with
  | nil => exact Or.inl ⟨rfl, fun r hr => absurd hr List.not_mem_nil⟩
  | cons r rs ih =>
    by_cases hr : r = .ok none
    · subst hr
      rcases ih with ⟨hnone, hall⟩ | ⟨hne, before, after, hrs, hbefore⟩
      · exact Or.inl ⟨hnone, List.forall_mem_cons.2 ⟨rfl, hall⟩⟩
      · exact Or.inr ⟨hne, .ok none :: before, after, congrArg (.ok none :: ·) hrs, List.forall_mem_cons.2 ⟨rfl, hbefore⟩⟩
    · rw [firstSaid_cons_of_ne hr]
      exact Or.inr ⟨hr, [], rs, rfl, fun x hx => absurd hx List.not_mem_nil⟩

/-- The first framework with a configuration file is the first that is said. -/
theorem firstSaid_map_find? (p : Framework × List Text → Bool) (fs : List (Framework × List Text)) :
    firstSaid (fs.map fun f => .ok (if p f then some f.1 else none)) = .ok ((fs.find? p).map (·.1)) := by
  induction fs with
  | nil => rfl
  | cons f fs ih =>
    rw [List.map_cons]
    by_cases hf : p f = true
    · rw [if_pos hf, firstSaid_cons_of_ne (by simp), List.find?_cons_of_pos hf]
      rfl
    · rw [if_neg hf, List.find?_cons_of_neg hf]
      exact ih

/-- What is said after the first place is asked for if the first says nothing. -/
theorem value_orElse_eq_firstSaid {p q : Probe} {rest : List Said} (hq : q.value = firstSaid rest) :
    (p.orElse q).value = firstSaid (p.value :: rest) := by
  by_cases hp : p.value = .ok none
  · rw [Probe.value_orElse_of_none hp, hp]
    exact hq
  · rw [Probe.orElse_of_ne_none hp, firstSaid_cons_of_ne hp]

theorem value_orElse_assoc (p q r : Probe) : ((p.orElse q).orElse r).value = (p.orElse (q.orElse r)).value := by
  by_cases hp : p.value = .ok none
  · have hpq := Probe.value_orElse_of_none hp q
    rw [Probe.value_orElse_of_none hp]
    by_cases hq : q.value = .ok none
    · rw [Probe.value_orElse_of_none hq, Probe.value_orElse_of_none (hpq.trans hq)]
    · rw [Probe.orElse_of_ne_none hq, Probe.orElse_of_ne_none (hpq ▸ hq), hpq]
  · rw [Probe.orElse_of_ne_none hp, Probe.orElse_of_ne_none hp, Probe.orElse_of_ne_none hp]

/-- A directory says what is said first in its places. -/
theorem value_probeDirectory_eq_firstSaid (t : FileTree) (cwd : Location) (dir : Path) :
    (probeDirectory t cwd dir).value = firstSaid (places t cwd dir) := by
  have hconfigured := firstSaid_map_find? (fun f => f.2.any fun n => t.has cwd (dir.child n).toText) configFiles
  rw [value_probeDirectory, signal, value_orElse_assoc]
  exact value_orElse_eq_firstSaid (value_orElse_eq_firstSaid hconfigured.symm)

/-- In a directory that says nothing no place does. -/
theorem eq_none_of_mem_places (h : (probeDirectory t cwd dir).value = .ok none) {r : Said} (hr : r ∈ places t cwd dir) :
    r = .ok none := by
  rw [value_probeDirectory_eq_firstSaid] at h
  rcases firstSaid_cases (places t cwd dir) with ⟨-, hall⟩ | ⟨hne, -⟩
  · exact hall r hr
  · exact absurd h hne

/-- In a directory that says something one place does, and no place before it. -/
theorem exists_places_eq (h : (probeDirectory t cwd dir).value ≠ .ok none) :
    ∃ before after, places t cwd dir = before ++ (probeDirectory t cwd dir).value :: after ∧ ∀ r ∈ before, r = .ok none := by
  rw [value_probeDirectory_eq_firstSaid] at h ⊢
  rcases firstSaid_cases (places t cwd dir) with ⟨hnone, -⟩ | ⟨-, hsaid⟩
  · exact absurd hnone h
  · exact hsaid

/-- What a file says it says by its text. -/
theorem value_probeFile_eq_some {file : Path} {probe : Text → Probe} (h : (probeFile t cwd file probe).value = .ok (some f)) :
    ∃ s, (probe s).value = .ok (some f) := by
  unfold probeFile at h
  split at h
  · exact ⟨_, h⟩
  · simp [Logged.silent] at h
  · simp [Logged.telling] at h

/-- A dependency manifest names no framework but those it may name. -/
theorem mem_priority_of_probeManifest (h : (probeManifest t cwd dir).value = .ok (some f)) : f ∈ Manifest.priority := by
  obtain ⟨s, hs⟩ := value_probeFile_eq_some h
  split at hs
  · rename_i v _
    have hnamed : Manifest.framework? v = some f := Except.ok.inj hs
    unfold Manifest.framework? at hnamed
    split at hnamed
    · exact List.mem_of_find?_eq_some hnamed
    · simp at hnamed
  · simp [Logged.silent] at hs
  · simp [Logged.telling] at hs

/-- A project file names no framework but pytest. -/
theorem eq_pytest_of_probeProject (h : (probeProject t cwd dir).value = .ok (some f)) : f = .pytest := by
  obtain ⟨s, hs⟩ := value_probeFile_eq_some h
  have hnamed : Manifest.projectFramework? s = some f := Except.ok.inj hs
  unfold Manifest.projectFramework? at hnamed
  split at hnamed
  · exact (Option.some.inj hnamed).symm
  · simp at hnamed

/-- No place says that the framework is unknown. -/
theorem ne_unknown_of_mem_places {r : Said} (h : r ∈ places t cwd dir) : r ≠ .ok (some .unknown) := by
  rw [places, List.mem_cons, List.mem_cons, List.mem_map] at h
  rcases h with rfl | rfl | ⟨f, hf, rfl⟩
  · exact fun h => absurd (mem_priority_of_probeManifest h) (by decide)
  · exact fun h => absurd (eq_pytest_of_probeProject h) (by decide)
  · have table : ∀ f ∈ configFiles, f.1 ≠ .unknown := by decide
    split
    · simpa using table f hf
    · simp

/-! ## Searches of any depth -/

/-- A search starts in one directory, and what follows is a search from the directory above. -/
theorem value_probeAll_upwards_succ (t : FileTree) (cwd : Location) (n : Nat) (p : Path) :
    (probeAll t cwd (p.upwards (n + 1))).value =
      ((probeDirectory t cwd p).orElse (probeAll t cwd (p.parent.upwards n))).value := by
  rw [Path.upwards]
  split
  · -- the directory is its own parent, so that the search from there visits it once more
    rename_i hp
    have hstay := Path.upwards_of_names_eq_nil (Path.parent_eq_self_iff.1 hp) n
    rw [hp, hstay]
    by_cases hnone : (probeDirectory t cwd p).value = .ok none
    · exact (Probe.value_orElse_of_none hnone _).symm
    · change ((probeDirectory t cwd p).orElse .none).value = _
      rw [Probe.orElse_of_ne_none hnone, Probe.orElse_of_ne_none hnone]
  · rfl

/-- A search does not end in directories that say nothing, and goes on above them if it goes so far. -/
theorem value_probeAll_upwards_of_silent {k : Nat} {p : Path}
    (h : ∀ i < k, (probeDirectory t cwd (Path.parent^[i] p)).value = .ok none) (n : Nat) :
    (probeAll t cwd (p.upwards n)).value =
      if n < k then .ok none else (probeAll t cwd ((Path.parent^[k] p).upwards (n - k))).value := by
  induction k generalizing n p with
  | zero => rfl
  | succ k ih =>
    have hp : (probeDirectory t cwd p).value = .ok none := h 0 (Nat.succ_pos k)
    cases n with
    | zero =>
      rw [if_pos (Nat.succ_pos k)]
      exact Probe.value_orElse_of_none hp .none
    | succ n =>
      rw [value_probeAll_upwards_succ, Probe.value_orElse_of_none hp, ih fun i hi => h (i + 1) (Nat.succ_lt_succ hi)]
      simp only [Nat.add_lt_add_iff_right, Nat.add_sub_add_right, Function.iterate_succ_apply]

/-- A search that begins in a directory that says something finds it. -/
theorem value_probeAll_upwards_of_ne {p : Path} (h : (probeDirectory t cwd p).value ≠ .ok none) (n : Nat) :
    (probeAll t cwd (p.upwards n)).value = (probeDirectory t cwd p).value := by
  cases n with
  | zero => exact congrArg Logged.value (Probe.orElse_of_ne_none h .none)
  | succ n => rw [value_probeAll_upwards_succ, Probe.orElse_of_ne_none h]

end Locate

variable {t : FileTree} {cwd : Location} {file : Path}

/-- If no directory says anything, no framework is found, however far the search goes. -/
theorem locate_of_silent (h : ∀ i, (Locate.probeDirectory t cwd (Path.parent^[i] file.parent)).value = .ok none) (n : Int) :
    (locate t cwd file n).value = .ok .unknown := by
  have hnone := Locate.value_probeAll_upwards_of_silent (k := n.toNat + 1) (fun i _ => h i) n.toNat
  rw [if_pos (Nat.lt_succ_self _)] at hnone
  rw [Locate.value_locate, Path.searched, hnone]
  rfl

/-- What the nearest directory says that says anything is found by every search that goes so far, and by no other. -/
theorem locate_of_nearest {k : Nat}
    (hsilent : ∀ i < k, (Locate.probeDirectory t cwd (Path.parent^[i] file.parent)).value = .ok none)
    (hsaid : (Locate.probeDirectory t cwd (Path.parent^[k] file.parent)).value ≠ .ok none) (n : Int) :
    (locate t cwd file n).value = if n.toNat < k then .ok .unknown else
      (Locate.probeDirectory t cwd (Path.parent^[k] file.parent)).value.map (·.getD .unknown) := by
  have hfound := Locate.value_probeAll_upwards_of_silent hsilent n.toNat
  rw [Locate.value_probeAll_upwards_of_ne hsaid] at hfound
  rw [Locate.value_locate, Path.searched, hfound]
  split <;> rfl

/-- For every file there is a threshold, which may be infinite, and one outcome that is not "unknown": a search that goes less far
finds that the framework is unknown, and any other has this outcome. The threshold is the number of the nearest directory above the
file in which some place says something, and the outcome is what the first such place of it says. So a framework that is found
is found by every search that goes further. -/
theorem locate_threshold (t : FileTree) (cwd : Location) (file : Path) :
    ∃ (k : ℕ∞) (outcome : Except Interruption Framework), outcome ≠ .ok .unknown ∧
      (∀ n : Int, (locate t cwd file n).value = if (n.toNat : ℕ∞) < k then .ok .unknown else outcome) ∧
      (∀ i : ℕ, (i : ℕ∞) < k → ∀ r ∈ Locate.places t cwd (Path.parent^[i] file.parent), r = .ok none) ∧
      (∀ i : ℕ, (i : ℕ∞) = k → ∃ before r after,
        Locate.places t cwd (Path.parent^[i] file.parent) = before ++ r :: after ∧ (∀ x ∈ before, x = .ok none) ∧
          r ≠ .ok none ∧ outcome = r.map (·.getD .unknown)) ∧
      ∀ n m : Int, n ≤ m → ∀ f, f ≠ .unknown → (locate t cwd file n).value = .ok f → (locate t cwd file m).value = .ok f := by
  classical
  by_cases hsome : ∃ i, (Locate.probeDirectory t cwd (Path.parent^[i] file.parent)).value ≠ .ok none
  · have hsilent : ∀ i < Nat.find hsome, (Locate.probeDirectory t cwd (Path.parent^[i] file.parent)).value = .ok none :=
      fun i hi => Classical.not_not.1 (Nat.find_min hsome hi)
    have hsaid := Nat.find_spec hsome
    generalize Nat.find hsome = k at hsilent hsaid
    have hlocate := locate_of_nearest hsilent hsaid
    obtain ⟨before, after, hplaces, hbefore⟩ := Locate.exists_places_eq hsaid
    have hunknown := Locate.ne_unknown_of_mem_places (hplaces ▸ List.mem_append_right before List.mem_cons_self)
    refine ⟨k, _, ?_, fun n => by simpa only [Nat.cast_lt] using hlocate n, ?_, ?_, ?_⟩
    · cases hvalue : (Locate.probeDirectory t cwd (Path.parent^[k] file.parent)).value with
      | error e => simp [Except.map]
      | ok r =>
        cases r with
        | none => exact absurd hvalue hsaid
        | some f =>
          rw [hvalue] at hunknown
          simpa [Except.map] using hunknown
    · intro i hi r hr
      exact Locate.eq_none_of_mem_places (hsilent i (Nat.cast_lt.1 hi)) hr
    · intro i hi
      obtain rfl := Nat.cast_inj.1 hi
      exact ⟨before, _, after, hplaces, hbefore, hsaid, rfl⟩
    · intro n m hnm f hf hn
      rw [hlocate] at hn ⊢
      split at hn
      · exact absurd (Except.ok.inj hn).symm hf
      · rwa [if_neg (by omega)]
  · have hsilent : ∀ i, (Locate.probeDirectory t cwd (Path.parent^[i] file.parent)).value = .ok none :=
      fun i => Classical.not_not.1 fun hi => hsome ⟨i, hi⟩
    refine ⟨⊤, .ok .pytest, by simp, fun n => ?_, ?_, ?_, ?_⟩
    · rw [if_pos (ENat.natCast_lt_top _), locate_of_silent hsilent]
    · intro i _ r hr
      exact Locate.eq_none_of_mem_places (hsilent i) hr
    · intro i hi
      exact absurd hi (ENat.natCast_ne_top i)
    · intro n m _ f hf hn
      rw [locate_of_silent hsilent] at hn
      exact absurd (Except.ok.inj hn).symm hf

end SourceInventory
