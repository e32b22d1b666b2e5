import SourceInventory.Proofs.FileTree.Read
import SourceInventory.Proofs.Json.LongInteger
import SourceInventory.Proofs.Locate.Search

/-!
# Interruption: what ends a search without an answer

A path without a null character can be interrupted by one thing alone: a dependency manifest with an integer of too many
digits, in a directory before which none gave a signal. Everything else that may be wrong with a manifest or a project
file is no signal.
-/

namespace SourceInventory

/-! ## Null characters -/

/-- The text of a path has only the characters of its names, slashes and a dot. -/
theorem Path.mem_toText {p : Path} {c : Char} (h : c ∈ p.toText) : c = '.' ∨ c = '/' ∨ ∃ n ∈ p.names, c ∈ n := by
  have hroot : ∀ r : Root, c ∈ r.text → c = '/' := by
    intro r hr
    cases r with
    | here => exact absurd hr List.not_mem_nil
    | slash => exact List.mem_singleton.1 hr
    | doubleSlash => simpa [Root.text] using hr
  have hjoin : ∀ ns : List Text, c ∈ Text.join ['/'] ns → c = '/' ∨ ∃ n ∈ ns, c ∈ n := by
    intro ns hc
    induction ns with
    | nil => exact absurd hc (by simp [Text.join])
    | cons n ns ih =>
      cases ns with
      | nil => exact Or.inr ⟨n, by simp, by simpa [Text.join] using hc⟩
      | cons m ns =>
        rw [Text.join_cons_cons, List.mem_append, List.mem_append, List.mem_singleton] at hc
        rcases hc with (hc | hc) | hc
        · exact Or.inr ⟨n, by simp, hc⟩
        · exact Or.inl hc
        · rcases ih hc with h | ⟨x, hx, hcx⟩
          · exact Or.inl h
          · exact Or.inr ⟨x, List.mem_cons_of_mem n hx, hcx⟩
  rw [toText] at h
  split at h
  · exact Or.inl (List.mem_singleton.1 h)
  · rcases List.mem_append.1 h with h | h
    · exact Or.inr (Or.inl (hroot _ h))
    · exact Or.inr (hjoin _ h)

/-- A searched directory, or a file in it, has a null character in its path only if the file or the name has one. -/
theorem Path.null_not_mem_child {s : Text} (hs : '\x00' ∉ s) {dir : Path} {parents : Int}
    (hdir : dir ∈ (ofText s).searched parents) {n : Text} (hn : '\x00' ∉ n) : '\x00' ∉ (dir.child n).toText := by
  intro h
  rcases mem_toText h with h | h | ⟨m, hm, h⟩
  · exact absurd h (by decide)
  · exact absurd h (by decide)
  · rcases List.mem_append.1 hm with hm | hm
    · have hnames := (names_parent_isPrefix _).subset ((prefix_of_mem_searched hdir).2.subset hm)
      exact hs (subset_of_mem_names hnames h)
    · exact hn (List.mem_singleton.1 hm ▸ h)

namespace Locate

variable {t : FileTree} {cwd : Location} {dir : Path}

/-! ## Places -/

/-- A file whose path has no null character ends the search only by what it holds. -/
theorem value_probeFile_eq_error {file : Path} (hfile : '\x00' ∉ file.toText) {probe : Text → Probe} {e : Interruption}
    (h : (probeFile t cwd file probe).value = .error e) :
    ∃ s, t.read cwd file.toText = .ok s ∧ (probe s).value = .error e := by
  rw [probeFile] at h
  split at h
  · rename_i s hs
    exact ⟨s, hs, h⟩
  · rename_i hs
    exact absurd hs (FileTree.read_ne_nullInPath hfile)
  · exact absurd h (by simp [Logged.telling])

/-- The project file ends no search. -/
theorem value_probeProject_ne_error (hdir : '\x00' ∉ (dir.child projectName).toText) (e : Interruption) :
    (probeProject t cwd dir).value ≠ .error e := by
  intro h
  obtain ⟨s, -, hs⟩ := value_probeFile_eq_error hdir h
  exact absurd hs (by simp [Logged.silent])

/-- A dependency manifest ends the search by an integer alone. -/
theorem value_probeManifest_eq_error_iff (hdir : '\x00' ∉ (dir.child manifestName).toText) {e : Interruption} :
    (probeManifest t cwd dir).value = .error e ↔
      ∃ s n, t.read cwd (dir.child manifestName).toText = .ok s ∧ Json.read s = .error (.integerTooLong n) ∧
        e = .integerTooLong n := by
  constructor
  · intro h
    obtain ⟨s, hread, -⟩ := value_probeFile_eq_error hdir h
    rw [value_probeManifest hread] at h
    split at h
    · exact absurd h (by simp)
    · rename_i n hjson
      exact ⟨s, n, hread, hjson, (Except.error.inj h).symm⟩
    · exact absurd h (by simp)
  · rintro ⟨s, n, hread, hjson, rfl⟩
    rw [value_probeManifest hread, hjson]

/-- A directory ends the search by its dependency manifest alone. -/
theorem value_probeDirectory_eq_error_iff (hproject : '\x00' ∉ (dir.child projectName).toText) {e : Interruption} :
    (probeDirectory t cwd dir).value = .error e ↔ (probeManifest t cwd dir).value = .error e := by
  refine ⟨fun h => ?_, fun h => value_probeDirectory_of_manifest h (by simp)⟩
  rw [value_probeDirectory, signal, Probe.value_orElse_eq_iff (by simp), Probe.value_orElse_eq_iff (by simp)] at h
  rcases h with (h | ⟨-, h⟩) | ⟨-, h⟩
  · exact h
  · exact absurd h (value_probeProject_ne_error hproject e)
  · exact absurd h (by simp [Logged.silent])

end Locate

/-! ## Searches -/

theorem locate_eq_error_iff_probeAll {t : FileTree} {cwd : Location} {file : Path} {parents : Int} {e : Interruption} :
    (locate t cwd file parents).value = .error e ↔ (Locate.probeAll t cwd (file.searched parents)).value = .error e := by
  rw [Locate.value_locate]
  cases (Locate.probeAll t cwd (file.searched parents)).value <;> simp [Except.map]

/-- A search for a path without a null character is interrupted by the manifest of the first directory that does not say "no
signal". -/
theorem locate_eq_error_iff {t : FileTree} {cwd : Location} {s : Text} {parents : Int} (hs : '\x00' ∉ s) {e : Interruption} :
    (locate t cwd (Path.ofText s) parents).value = .error e ↔
      ∃ before dir after m n, (Path.ofText s).searched parents = before ++ dir :: after ∧
        (∀ d ∈ before, (Locate.probeDirectory t cwd d).value = .ok none) ∧
        t.read cwd (dir.child Locate.manifestName).toText = .ok m ∧ Json.read m = .error (.integerTooLong n) ∧
        e = .integerTooLong n := by
  have manifest : ∀ dir ∈ (Path.ofText s).searched parents, (Locate.probeDirectory t cwd dir).value = .error e ↔
      ∃ m n, t.read cwd (dir.child Locate.manifestName).toText = .ok m ∧ Json.read m = .error (.integerTooLong n) ∧
        e = .integerTooLong n := by
    intro dir hdir
    rw [Locate.value_probeDirectory_eq_error_iff (Path.null_not_mem_child hs hdir (by decide)),
      Locate.value_probeManifest_eq_error_iff (Path.null_not_mem_child hs hdir (by decide))]
  rw [locate_eq_error_iff_probeAll, Locate.probeAll_eq_iff (by simp)]
  constructor
  · rintro ⟨before, dir, after, hdirs, hbefore, h⟩
    obtain ⟨m, n, h⟩ := (manifest dir (hdirs ▸ by simp)).1 h
    exact ⟨before, dir, after, m, n, hdirs, hbefore, h⟩
  · rintro ⟨before, dir, after, m, n, hdirs, hbefore, h⟩
    exact ⟨before, dir, after, hdirs, hbefore, (manifest dir (hdirs ▸ by simp)).2 ⟨m, n, h⟩⟩

/-- A search for a path without a null character finds a framework, or none known, unless it is interrupted by an integer
of too many digits. It is so interrupted if and only if no directory before some one gives a signal and the manifest of
that one can be read and is refused for the integer; and a manifest is refused for an integer only if its digits stand in
it one after another. -/
theorem locate_interrupted_iff (t : FileTree) (cwd : Location) (s : Text) (parents : Int) (hs : '\x00' ∉ s) :
    ((∃ f, (locate t cwd (Path.ofText s) parents).value = .ok f) ∨
      ∃ n, (locate t cwd (Path.ofText s) parents).value = .error (.integerTooLong n)) ∧
    (∀ n, (locate t cwd (Path.ofText s) parents).value = .error (.integerTooLong n) ↔
      ∃ before dir after m, (Path.ofText s).searched parents = before ++ dir :: after ∧
        (∀ d ∈ before, (Locate.probeDirectory t cwd d).value = .ok none) ∧
        t.read cwd (dir.child Locate.manifestName).toText = .ok m ∧ Json.read m = .error (.integerTooLong n)) ∧
    (∀ m n, Json.read m = .error (.integerTooLong n) → Json.HasLongInteger n m) := by
  refine ⟨?_, ?_, fun m n h => Json.integerTooLong_of_read h⟩
  · cases hvalue : (locate t cwd (Path.ofText s) parents).value with
    | ok f => exact Or.inl ⟨f, rfl⟩
    | error e =>
      obtain ⟨-, -, -, -, n, -, -, -, -, he⟩ := (locate_eq_error_iff hs).1 hvalue
      exact Or.inr ⟨n, congrArg _ he⟩
  · intro n
    rw [locate_eq_error_iff hs]
    constructor
    · rintro ⟨before, dir, after, m, n', hdirs, hbefore, hread, hjson, he⟩
      obtain rfl := Interruption.integerTooLong.inj he
      exact ⟨before, dir, after, m, hdirs, hbefore, hread, hjson⟩
    · rintro ⟨before, dir, after, m, hdirs, hbefore, hread, hjson⟩
      exact ⟨before, dir, after, m, n, hdirs, hbefore, hread, hjson, rfl⟩

/-- A manifest of ones alone interrupts the search beside it as soon as they are too many. -/
theorem locate_beside_ones {n : Nat} (hn : Json.integerDigits < n + 1) :
    (locate (FileTree.ofFile [Locate.manifestName] ('1' :: List.replicate n '1')) [] (Path.ofText "app.js".toList) 4).value =
      .error (.integerTooLong (n + 1)) := by
  have hread : (FileTree.ofFile [Locate.manifestName] ('1' :: List.replicate n '1')).read []
      (Path.child ⟨.here, []⟩ Locate.manifestName).toText = .ok ('1' :: List.replicate n '1') := by
    refine FileTree.read_ofFile (by simp) ?_ (by decide) rfl
    rw [Text.isAscii, List.all_cons, List.all_replicate]
    simp
  refine (locate_eq_error_iff (by decide)).2 ⟨[], ⟨.here, []⟩, [], _, n + 1, rfl, by simp, hread, ?_, rfl⟩
  have hdigits : ∀ d ∈ List.replicate n '1', d.isDigit = true := by
    intro d hd
    rw [List.eq_of_mem_replicate hd]
    rfl
  have hones := Json.read_digits (c := '1') rfl (by decide) hdigits (by rwa [List.length_replicate])
  rwa [List.length_replicate] at hones

/-- The directory that interrupts a search is found for a manifest of one digit too many. -/
theorem locate_interrupted_beside_ones :
    ∃ before dir after m, (Path.ofText "app.js".toList).searched 4 = before ++ dir :: after ∧
      (∀ d ∈ before, (Locate.probeDirectory (.ofFile [Locate.manifestName] ('1' :: List.replicate 4300 '1')) [] d).value =
        .ok none) ∧
      FileTree.read (.ofFile [Locate.manifestName] ('1' :: List.replicate 4300 '1')) []
        (dir.child Locate.manifestName).toText = .ok m ∧
      Json.read m = .error (.integerTooLong 4301) :=
  ((locate_interrupted_iff _ [] "app.js".toList 4 (by decide)).2.1 4301).1 (locate_beside_ones (by decide))

/-- Not every problem of a manifest is recovered: one digit too many, and there is no answer. -/
theorem locate_recovers_false :
    ¬ ∀ (t : FileTree) (cwd : Location) (s : Text) (parents : Int), '\x00' ∉ s →
      ∃ f, (locate t cwd (Path.ofText s) parents).value = .ok f := by
  intro h
  obtain ⟨f, hf⟩ := h (FileTree.ofFile [Locate.manifestName] ('1' :: List.replicate 4300 '1')) [] "app.js".toList 4 (by decide)
  rw [locate_beside_ones (by decide)] at hf
  exact absurd hf (by simp)

end SourceInventory
