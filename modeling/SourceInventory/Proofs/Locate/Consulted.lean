import SourceInventory.Proofs.FileTree.Update
import SourceInventory.Proofs.Locate.Threshold

/-!
# Consulted: what an answer depends on

In a directory the files of a few names are looked at, and what it says is decided by what stands at their locations. So updates
beside all consulted locations leave what is found as it was, and updates beside those up to the directory that the answer comes
from already do (`locate_after_of_beside`).
-/

namespace SourceInventory

namespace Locate

/-- The names of the files that are looked at in a directory. -/
def consultedNames : List Text := manifestName :: projectName :: configFiles.flatMap (·.2)

/-- The locations that are looked at in a directory. -/
def consulted (cwd : Location) (dir : Path) : List Location := consultedNames.map fun n => (dir.child n).resolved cwd

theorem normal_of_mem_consultedNames : ∀ n ∈ consultedNames, Path.NormalName n ∧ n ≠ ['.', '.'] := by
  have table : ∀ n ∈ consultedNames, n ≠ [] ∧ n ≠ ['.'] ∧ '/' ∉ n ∧ n ≠ ['.', '.'] := by decide
  intro n hn
  obtain ⟨hnil, hdot, hslash, hup⟩ := table n hn
  exact ⟨⟨hnil, hdot, hslash⟩, hup⟩

variable {t t' : FileTree} {cwd : Location} {dir : Path}

/-! ## What a directory says -/

/-- A file in a directory whose names lead down. -/
theorem downward_child (hdir : dir.Normal) (hup : ['.', '.'] ∉ dir.names) {n : Text} (hn : n ∈ consultedNames) :
    (dir.child n).Downward := by
  obtain ⟨hnormal, hne⟩ := normal_of_mem_consultedNames n hn
  refine ⟨hdir.child hnormal, by simp [Path.child], fun hmem => ?_⟩
  rcases List.mem_append.1 hmem with hmem | hmem
  · exact hup hmem
  · exact hne (List.mem_singleton.1 hmem).symm

/-- What a file says is decided by the text that it can be read as. -/
theorem value_probeFile_of_read {file : Path}
    (hok : ∀ s, t'.read cwd file.toText = .ok s ↔ t.read cwd file.toText = .ok s) (probe : Text → Probe) :
    (probeFile t' cwd file probe).value = (probeFile t cwd file probe).value := by
  rw [probeFile, probeFile]
  cases h : t.read cwd file.toText with
  | ok s => rw [(hok s).2 h]
  | error e =>
    cases e with
    | nullInPath => rw [FileTree.read_eq_nullInPath_iff.2 (FileTree.read_eq_nullInPath_iff.1 h)]
    | unreadable cause =>
      -- the cause may be another one, but nothing is said for either
      cases h' : t'.read cwd file.toText with
      | ok s =>
        rw [(hok s).1 h'] at h
        exact absurd h (by simp)
      | error e' =>
        cases e' with
        | nullInPath =>
          rw [FileTree.read_eq_nullInPath_iff.2 (FileTree.read_eq_nullInPath_iff.1 h')] at h
          exact absurd h (by simp)
        | unreadable cause' => rfl

/-- What a file says is decided by what stands at its location. -/
theorem value_probeFile_congr (ht : t.WellFormed) (ht' : t'.WellFormed) {file : Path} (hfile : file.Downward)
    (hnode : t'.node? (file.resolved cwd) = t.node? (file.resolved cwd)) (probe : Text → Probe) :
    (probeFile t' cwd file probe).value = (probeFile t cwd file probe).value := by
  refine value_probeFile_of_read (fun s => ?_) probe
  rw [FileTree.read_eq_ok_iff, FileTree.read_eq_ok_iff, FileTree.holds_toText_iff ht' hfile,
    FileTree.holds_toText_iff ht hfile, hnode]

theorem has_congr (ht : t.WellFormed) (ht' : t'.WellFormed) {file : Path} (hfile : file.Downward)
    (hnode : t'.node? (file.resolved cwd) = t.node? (file.resolved cwd)) :
    t'.has cwd file.toText = t.has cwd file.toText := by
  rw [Bool.eq_iff_iff, FileTree.has_toText_iff ht' hfile, FileTree.has_toText_iff ht hfile, hnode]

/-- What a directory says is decided by what its manifests say and by which configuration files are found. -/
theorem value_probeDirectory_of_places (hmanifest : (probeManifest t' cwd dir).value = (probeManifest t cwd dir).value)
    (hproject : (probeProject t' cwd dir).value = (probeProject t cwd dir).value)
    (hconfig : ∀ f ∈ configFiles, ∀ n ∈ f.2, t'.has cwd (dir.child n).toText = t.has cwd (dir.child n).toText) :
    (probeDirectory t' cwd dir).value = (probeDirectory t cwd dir).value := by
  have hplaces : places t' cwd dir = places t cwd dir := by
    unfold places
    refine congr (congrArg List.cons hmanifest) (congr (congrArg List.cons hproject) (List.map_congr_left fun f hf => ?_))
    have hany : (f.2.any fun n => t'.has cwd (dir.child n).toText) = f.2.any fun n => t.has cwd (dir.child n).toText := by
      rw [Bool.eq_iff_iff, List.any_eq_true, List.any_eq_true]
      exact exists_congr fun n => and_congr_right fun hn => by rw [hconfig f hf n hn]
    rw [hany]
  rw [value_probeDirectory_eq_firstSaid, hplaces, value_probeDirectory_eq_firstSaid]

theorem mem_consultedNames_of_mem_configFiles : ∀ f ∈ configFiles, ∀ n ∈ f.2, n ∈ consultedNames := by decide

/-- What a directory says is decided by what stands at the consulted locations. -/
theorem value_probeDirectory_congr (ht : t.WellFormed) (ht' : t'.WellFormed) (hdir : dir.Normal)
    (hup : ['.', '.'] ∉ dir.names) (h : ∀ k ∈ consulted cwd dir, t'.node? k = t.node? k) :
    (probeDirectory t' cwd dir).value = (probeDirectory t cwd dir).value := by
  have hnode : ∀ n ∈ consultedNames, t'.node? ((dir.child n).resolved cwd) = t.node? ((dir.child n).resolved cwd) :=
    fun n hn => h _ (List.mem_map_of_mem hn)
  have hmanifest : manifestName ∈ consultedNames := by decide
  have hproject : projectName ∈ consultedNames := by decide
  refine value_probeDirectory_of_places ?_ ?_ fun f hf n hn => ?_
  · exact value_probeFile_congr ht ht' (downward_child hdir hup hmanifest) (hnode _ hmanifest) _
  · exact value_probeFile_congr ht ht' (downward_child hdir hup hproject) (hnode _ hproject) _
  · have hmem := mem_consultedNames_of_mem_configFiles f hf n hn
    exact has_congr ht ht' (downward_child hdir hup hmem) (hnode n hmem)

/-- Updates beside the consulted locations leave what a directory says. -/
theorem value_probeDirectory_after (ht : t.WellFormed) (hdir : dir.Normal) (hup : ['.', '.'] ∉ dir.names)
    {us : List Update} (h : ∀ u ∈ us, ∀ k ∈ consulted cwd dir, u.Beside k) :
    (probeDirectory (t.after us) cwd dir).value = (probeDirectory t cwd dir).value :=
  value_probeDirectory_congr ht (ht.after us) hdir hup fun k hk =>
    FileTree.node?_after_of_beside fun u hu => h u hu k hk

/-! ## What several directories say -/

theorem value_probeAll_congr {dirs : List Path}
    (h : ∀ dir ∈ dirs, (probeDirectory t' cwd dir).value = (probeDirectory t cwd dir).value) :
    (probeAll t' cwd dirs).value = (probeAll t cwd dirs).value := by
  induction dirs with
  | nil => rfl
  | cons dir dirs ih =>
    obtain ⟨hdir, hdirs⟩ := List.forall_mem_cons.1 h
    change ((probeDirectory t' cwd dir).orElse (probeAll t' cwd dirs)).value =
      ((probeDirectory t cwd dir).orElse (probeAll t cwd dirs)).value
    by_cases hnone : (probeDirectory t cwd dir).value = .ok none
    · rw [Probe.value_orElse_of_none hnone, Probe.value_orElse_of_none (hdir.trans hnone), ih hdirs]
    · rw [Probe.orElse_of_ne_none hnone, Probe.orElse_of_ne_none (hdir ▸ hnone), hdir]

/-! ## The file itself -/

/-- A file none of whose names is one that is looked for lies beside all consulted locations. -/
theorem beside_consulted_of_location_eq {file : Path} {parents : Int} (hne : file.names ≠ [])
    (hup : ['.', '.'] ∉ file.names) (hnames : ∀ n ∈ consultedNames, n ∉ file.names) {u : Update}
    (hu : u.location = file.resolved cwd) (hdir : dir ∈ file.searched parents) {k : Location}
    (hk : k ∈ consulted cwd dir) : u.Beside k := by
  obtain ⟨n, hn, rfl⟩ := List.mem_map.1 hk
  obtain ⟨hroot, hbegin⟩ := Path.prefix_of_mem_searched hdir
  have hdirup : ['.', '.'] ∉ (dir.child n).names := by
    intro hmem
    rcases List.mem_append.1 hmem with hmem | hmem
    · exact hup (List.dropLast_subset _ (hbegin.subset hmem))
    · exact (normal_of_mem_consultedNames n hn).2 (List.mem_singleton.1 hmem).symm
  have hlen : dir.names.length + 1 ≤ file.names.length := by
    have hle := hbegin.length_le
    have hpos := List.length_pos_iff.2 hne
    rw [Path.parent, List.length_dropLast] at hle
    omega
  have hstart : (dir.child n).start cwd = file.start cwd := by simp only [Path.start, Path.child, hroot]
  have hnot : ¬(dir.names ++ [n] <+: file.names) := fun h => hnames n hn (h.subset (by simp))
  rw [Update.Beside, hu, Path.resolved_of_not_mem hup, Path.resolved_of_not_mem hdirup, hstart,
    List.prefix_append_right_inj, List.prefix_append_right_inj]
  refine ⟨fun h => hnot ?_, hnot⟩
  -- the file has no fewer names, so it would be the consulted location
  rw [h.eq_of_length_le (by simpa [Path.child] using hlen)]
  exact List.prefix_refl _

end Locate

/-- For a path without two dots, a history of updates, each of which is neither at, nor above, nor below a consulted location of a
searched directory, leaves what is found. If a directory says something and those before it do not, that is what is found, and
it is left as well if only the consulted locations of this directory and those before it are kept free. The file itself need not
exist and may be changed: unless one of its names is one that is looked for, its location is beside all consulted ones. -/
theorem locate_after_of_beside {t : FileTree} (ht : t.WellFormed) (cwd : Location) {s : Text}
    (hup : ['.', '.'] ∉ (Path.ofText s).names) (parents : Int) :
    (∀ us : List Update,
      (∀ u ∈ us, ∀ dir ∈ (Path.ofText s).searched parents, ∀ k ∈ Locate.consulted cwd dir, u.Beside k) →
      (locate (t.after us) cwd (Path.ofText s) parents).value = (locate t cwd (Path.ofText s) parents).value) ∧
    (∀ before dir rest, (Path.ofText s).searched parents = before ++ dir :: rest →
      (∀ d ∈ before, (Locate.probeDirectory t cwd d).value = .ok none) → (Locate.probeDirectory t cwd dir).value ≠ .ok none →
      (locate t cwd (Path.ofText s) parents).value = (Locate.probeDirectory t cwd dir).value.map (·.getD .unknown) ∧
      ∀ us : List Update, (∀ u ∈ us, ∀ d ∈ before ++ [dir], ∀ k ∈ Locate.consulted cwd d, u.Beside k) →
        (locate (t.after us) cwd (Path.ofText s) parents).value = (locate t cwd (Path.ofText s) parents).value) ∧
    (∀ us : List Update, (Path.ofText s).names ≠ [] → (∀ n ∈ Locate.consultedNames, n ∉ (Path.ofText s).names) →
      (∀ u ∈ us, u.location = (Path.ofText s).resolved cwd) →
      (locate (t.after us) cwd (Path.ofText s) parents).value = (locate t cwd (Path.ofText s) parents).value) := by
  have hnormal := Path.normal_ofText s
  generalize Path.ofText s = file at hup hnormal
  have hdirup : ∀ dir ∈ file.searched parents, ['.', '.'] ∉ dir.names := fun dir hdir hmem =>
    hup (List.dropLast_subset _ ((Path.prefix_of_mem_searched hdir).2.subset hmem))
  have hframe : ∀ us : List Update,
      (∀ u ∈ us, ∀ dir ∈ file.searched parents, ∀ k ∈ Locate.consulted cwd dir, u.Beside k) →
      (locate (t.after us) cwd file parents).value = (locate t cwd file parents).value := by
    intro us h
    have hall := Locate.value_probeAll_congr fun dir hdir =>
      Locate.value_probeDirectory_after ht (Path.normal_of_mem_searched hnormal hdir) (hdirup dir hdir)
        fun u hu => h u hu dir hdir
    rw [Locate.value_locate, Locate.value_locate, hall]
  refine ⟨hframe, ?_, ?_⟩
  · intro before dir rest hdirs hbefore hdir
    have hfound : (Locate.probeAll t cwd (file.searched parents)).value = (Locate.probeDirectory t cwd dir).value :=
      (Locate.probeAll_eq_iff hdir).2 ⟨before, dir, rest, hdirs, hbefore, rfl⟩
    refine ⟨by rw [Locate.value_locate, hfound], fun us h => ?_⟩
    have hkeep : ∀ d ∈ before ++ [dir], (Locate.probeDirectory (t.after us) cwd d).value =
        (Locate.probeDirectory t cwd d).value := by
      intro d hd
      have hmem : d ∈ file.searched parents := by
        rw [hdirs, List.append_cons]
        exact List.mem_append_left rest hd
      exact Locate.value_probeDirectory_after ht (Path.normal_of_mem_searched hnormal hmem) (hdirup d hmem)
        fun u hu => h u hu d hd
    have hfound' : (Locate.probeAll (t.after us) cwd (file.searched parents)).value =
        (Locate.probeDirectory t cwd dir).value :=
      (Locate.probeAll_eq_iff hdir).2 ⟨before, dir, rest, hdirs,
        fun d hd => (hkeep d (List.mem_append_left _ hd)).trans (hbefore d hd), hkeep dir (by simp)⟩
    rw [Locate.value_locate, Locate.value_locate, hfound', hfound]
  · intro us hne hnames hus
    exact hframe us fun u hu dir hdir k hk =>
      Locate.beside_consulted_of_location_eq hne hup hnames (hus u hu) hdir hk

/-- A file of jest in the second of three directories: a manifest for the directory above, the file itself and a library that
comes and goes change nothing. -/
theorem locate_after_of_beside_jest :
    (FileTree.ofFile ["app".toList, "jest.config.js".toList] []).WellFormed ∧
    (Path.ofText "app/src/a.js".toList).searched 4 =
      [⟨.here, ["app".toList, "src".toList]⟩, ⟨.here, ["app".toList]⟩, ⟨.here, []⟩] ∧
    (locate (FileTree.ofFile ["app".toList, "jest.config.js".toList] []) [] (Path.ofText "app/src/a.js".toList) 4).value =
      .ok .jest ∧
    (locate ((FileTree.ofFile ["app".toList, "jest.config.js".toList] []).after
      [.write ["package.json".toList] (.file []), .write ["app".toList, "src".toList, "a.js".toList] (.file []),
        .write ["lib".toList, "b".toList] .directory, .remove ["lib".toList]])
      [] (Path.ofText "app/src/a.js".toList) 4).value = .ok .jest := by
  have hwf := FileTree.wellFormed_ofFile ["app".toList, "jest.config.js".toList] []
  have hdirs : (Path.ofText "app/src/a.js".toList).searched 4 =
      [⟨.here, ["app".toList, "src".toList]⟩] ++ ⟨.here, ["app".toList]⟩ :: [⟨.here, []⟩] := by decide
  have hsrc : (Locate.probeDirectory (FileTree.ofFile ["app".toList, "jest.config.js".toList] []) []
      ⟨.here, ["app".toList, "src".toList]⟩).value = .ok none := rfl
  have happ : (Locate.probeDirectory (FileTree.ofFile ["app".toList, "jest.config.js".toList] []) []
      ⟨.here, ["app".toList]⟩).value = .ok (some .jest) := rfl
  obtain ⟨-, hnearest, -⟩ := locate_after_of_beside hwf [] (s := "app/src/a.js".toList) (by decide) 4
  obtain ⟨hfound, hafter⟩ := hnearest _ _ _ hdirs (by simpa using hsrc) (by rw [happ]; simp)
  rw [happ] at hfound
  exact ⟨hwf, hdirs, hfound, (hafter _ (by decide)).trans hfound⟩

end SourceInventory
