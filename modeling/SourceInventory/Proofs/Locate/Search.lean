import SourceInventory.Locate
import SourceInventory.Proofs.Path.Upwards

/-!
# Search: the directory that an answer comes from

The directories of a file are visited in order, and so are the places of a directory. Whatever is not "no signal" ends the
visit: a framework, or an interruption. So an answer comes from one place, and every place before it gave no signal
(`Locate.probeAll_eq_iff`).
-/

namespace SourceInventory

namespace Probe

theorem value_orElse_of_none {p : Probe} (h : p.value = .ok .none) (q : Probe) : (p.orElse q).value = q.value := by
  rw [orElse, h]

theorem orElse_of_ne_none {p : Probe} (h : p.value ≠ .ok .none) (q : Probe) : p.orElse q = p := by
  rw [orElse]
  split
  · contradiction
  · rfl

/-- What two places say together that is not "no signal" is said by one of them. -/
theorem value_orElse_eq_iff {p q : Probe} {r : Except Interruption (Option Framework)} (hr : r ≠ .ok .none) :
    (p.orElse q).value = r ↔ p.value = r ∨ p.value = .ok .none ∧ q.value = r := by
  by_cases hp : p.value = .ok .none
  · rw [value_orElse_of_none hp, hp, or_iff_right (Ne.symm hr)]
    simp
  · rw [orElse_of_ne_none hp]
    simp [hp]

end Probe

namespace Locate

variable {t : FileTree} {cwd : Location}

/-- What a directory says is not changed by what is told about it. -/
theorem value_probeDirectory (t : FileTree) (cwd : Location) (dir : Path) :
    (probeDirectory t cwd dir).value = (signal t cwd dir).value := by
  rw [probeDirectory, Logged.andThen]
  split <;> rfl

/-- What a manifest that can be read says: an answer if its text denotes a value, and an interruption only for an integer. -/
theorem value_probeManifest {dir : Path} {s : Text} (hread : t.read cwd (dir.child manifestName).toText = .ok s) :
    (probeManifest t cwd dir).value =
      match Json.read s with
      | .ok v => .ok (Manifest.framework? v)
      | .error (.integerTooLong n) => .error (.integerTooLong n)
      | .error (.malformed _ _) => .ok none := by
  rw [probeManifest, probeFile, hread]
  dsimp only
  cases Json.read s with
  | ok v => rfl
  | error e => cases e <;> rfl

/-- The manifest of a directory comes first. -/
theorem value_probeDirectory_of_manifest {dir : Path} {r : Except Interruption (Option Framework)}
    (h : (probeManifest t cwd dir).value = r) (hr : r ≠ .ok none) : (probeDirectory t cwd dir).value = r := by
  rw [value_probeDirectory, signal, Probe.value_orElse_eq_iff hr, Probe.value_orElse_eq_iff hr]
  exact Or.inl (Or.inl h)

/-- An answer of some directories is that of one of them, and those before it give no signal. -/
theorem probeAll_eq_iff {dirs : List Path} {r : Except Interruption (Option Framework)} (hr : r ≠ .ok none) :
    (probeAll t cwd dirs).value = r ↔
      ∃ before dir after, dirs = before ++ dir :: after ∧
        (∀ d ∈ before, (probeDirectory t cwd d).value = .ok none) ∧ (probeDirectory t cwd dir).value = r := by
  induction dirs with
  | nil =>
    refine iff_of_false (fun h => hr h.symm) ?_
    rintro ⟨before, dir, after, h, -⟩
    exact absurd h (by simp)
  | cons d dirs ih =>
    change ((probeDirectory t cwd d).orElse (probeAll t cwd dirs)).value = r ↔ _
    rw [Probe.value_orElse_eq_iff hr, ih]
    constructor
    · rintro (h | ⟨hd, before, dir, after, rfl, hbefore, h⟩)
      · exact ⟨[], d, dirs, rfl, fun _ hx => absurd hx List.not_mem_nil, h⟩
      · exact ⟨d :: before, dir, after, rfl, List.forall_mem_cons.2 ⟨hd, hbefore⟩, h⟩
    · rintro ⟨_ | ⟨b, before⟩, dir, after, h, hbefore, hdir⟩
      · obtain ⟨rfl, rfl⟩ := List.cons.inj h
        exact Or.inl hdir
      · obtain ⟨rfl, rfl⟩ := List.cons.inj h
        obtain ⟨hb, hbefore⟩ := List.forall_mem_cons.1 hbefore
        exact Or.inr ⟨hb, before, dir, after, rfl, hbefore, hdir⟩

end Locate

/-! ## Searches -/

/-- What is found is what the searched directories say together; if they say nothing, no framework is known. -/
theorem Locate.value_locate (t : FileTree) (cwd : Location) (file : Path) (parents : Int) :
    (locate t cwd file parents).value = (probeAll t cwd (file.searched parents)).value.map (·.getD .unknown) := rfl

/-- The framework that is found is what one searched directory says, or none is known. -/
theorem Locate.probeDirectory_of_locate_eq {t : FileTree} {cwd : Location} {file : Path} {parents : Int} {f : Framework}
    (h : (locate t cwd file parents).value = .ok f) :
    f = .unknown ∨ ∃ dir ∈ file.searched parents, (probeDirectory t cwd dir).value = .ok (some f) := by
  rw [value_locate] at h
  cases hall : (probeAll t cwd (file.searched parents)).value with
  | error e =>
    rw [hall] at h
    exact absurd h (by simp [Except.map])
  | ok r =>
    rw [hall] at h
    have hr : r.getD .unknown = f := Except.ok.inj h
    cases r with
    | none => exact Or.inl hr.symm
    | some g =>
      obtain rfl : g = f := hr
      obtain ⟨before, dir, after, hdirs, -, hdir⟩ := (probeAll_eq_iff (by simp)).1 hall
      exact Or.inr ⟨dir, hdirs ▸ by simp, hdir⟩

end SourceInventory
