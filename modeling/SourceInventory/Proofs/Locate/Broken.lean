import SourceInventory.Proofs.FileTree.Removal
import SourceInventory.Proofs.Locate.Consulted
import SourceInventory.Proofs.Locate.Interruption
import SourceInventory.Proofs.Text.WellFormed

/-!
# Broken: manifests that say as much as none

A dependency manifest that is no text, no JSON text or no object gives no signal, and neither does a project file that is no text.
Each searched directory says the same in the tree without such a file, be it the directory of the file, one above it, or one
whose path leads to the same file by two dots. So the answer of a search, a framework or an interruption, does not change
(`locate_without_broken`).
-/

namespace SourceInventory

namespace Locate

/-- The names and the bytes of the files that are looked into and give no signal, whatever else is true of them. -/
inductive Broken : (name : Text) → List UInt8 → Prop where
  /-- The bytes of a dependency manifest or of a project file are not those of a text. -/
  | undecodable {n : Text} {bs : List UInt8} (hn : n = manifestName ∨ n = projectName) (hbs : ¬Utf8.WellFormed bs) : Broken n bs
  /-- The text of a dependency manifest is no JSON text. -/
  | malformed {s before : Text} {c : Json.Cause} (hs : Json.read s = .error (.malformed c before)) :
    Broken manifestName (Utf8.encode s)
  /-- The value of a dependency manifest is no object. -/
  | noObject {s : Text} {v : Json} (hs : Json.read s = .ok v) (hv : ∀ ms, v ≠ .object ms) : Broken manifestName (Utf8.encode s)

variable {t t' : FileTree} {cwd l : Location} {dir : Path} {n : Text} {bs : List UInt8}

/-- Only a manifest or a project file can be broken. -/
theorem Broken.name_eq (h : Broken n bs) : n = manifestName ∨ n = projectName := by
  cases h with
  | undecodable hn => exact hn
  | malformed | noObject => exact Or.inl rfl

/-- The name of a broken file is normal and leads down. -/
theorem Broken.normal (h : Broken n bs) : Path.NormalName n ∧ n ≠ ['.', '.'] := by
  refine normal_of_mem_consultedNames n ?_
  rcases h.name_eq with rfl | rfl <;> decide

/-! ## What a broken file says -/

/-- What cannot be read says nothing. -/
theorem value_probeFile_of_unread {file : Path} (hfile : '\x00' ∉ file.toText) (h : ∀ s, t.read cwd file.toText ≠ .ok s)
    (probe : Text → Probe) : (probeFile t cwd file probe).value = .ok none := by
  rw [probeFile]
  split
  · rename_i s hs
    exact absurd hs (h s)
  · rename_i hs
    exact absurd hs (FileTree.read_ne_nullInPath hfile)
  · rfl

/-- A file whose bytes are not well-formed is not read. -/
theorem read_ne_ok_of_not_wellFormed {path s : Text} (hl : t.resolve cwd path = .ok l) (hfile : t.node? l = some (.file bs))
    (hbs : ¬Utf8.WellFormed bs) : t.read cwd path ≠ .ok s := by
  intro h
  obtain ⟨-, k, hk, hbytes⟩ := FileTree.read_eq_ok_iff.1 h
  obtain rfl := Except.ok.inj (hl.symm.trans hk)
  rw [hfile, Option.some_inj, Node.file.injEq] at hbytes
  exact hbs (Utf8.wellFormed_iff.2 ⟨s, hbytes⟩)

/-- A broken dependency manifest says nothing. -/
theorem value_probeManifest_of_broken (hnull : '\x00' ∉ (dir.child manifestName).toText)
    (hl : t.resolve cwd (dir.child manifestName).toText = .ok l) (hfile : t.node? l = some (.file bs))
    (h : Broken manifestName bs) : (probeManifest t cwd dir).value = .ok none := by
  cases h with
  | undecodable _ hbs => exact value_probeFile_of_unread hnull (fun _ => read_ne_ok_of_not_wellFormed hl hfile hbs) _
  | malformed hs => rw [value_probeManifest (FileTree.read_eq_ok_iff.2 ⟨hnull, l, hl, hfile⟩), hs]
  | @noObject s v hs hv =>
    rw [value_probeManifest (FileTree.read_eq_ok_iff.2 ⟨hnull, l, hl, hfile⟩), hs]
    cases v with
    | object ms => exact absurd rfl (hv ms)
    | _ => rfl

/-- A broken project file says nothing. -/
theorem value_probeProject_of_broken (hnull : '\x00' ∉ (dir.child projectName).toText)
    (hl : t.resolve cwd (dir.child projectName).toText = .ok l) (hfile : t.node? l = some (.file bs))
    (h : Broken projectName bs) : (probeProject t cwd dir).value = .ok none := by
  have hbs : ¬Utf8.WellFormed bs := by
    generalize hn : projectName = n at h
    cases h with
    | undecodable _ hbs => exact hbs
    | malformed | noObject => exact absurd hn (by decide)
  exact value_probeFile_of_unread hnull (fun _ => read_ne_ok_of_not_wellFormed hl hfile hbs) _

/-! ## Without the file -/

theorem start_ofText_child (hdir : dir.Normal) (hn : Path.NormalName n) :
    (Path.ofText (dir.child n).toText).start cwd = dir.start cwd := by
  rw [Path.ofText_toText (hdir.child hn)]
  rfl

/-- A place says the same without a file that it is not, or of which it says nothing. -/
theorem value_probeFile_remove? (h : t.remove? l = some t') (hfile : t.node? l = some (.file bs)) (hdir : dir.Normal)
    (hstart : ¬l <+: dir.start cwd) (hn : Path.NormalName n) (hnull : '\x00' ∉ (dir.child n).toText) {probe : Text → Probe}
    (hsilent : t.resolve cwd (dir.child n).toText = .ok l → (probeFile t cwd (dir.child n) probe).value = .ok none) :
    (probeFile t' cwd (dir.child n) probe).value = (probeFile t cwd (dir.child n) probe).value := by
  rw [← start_ofText_child hdir hn] at hstart
  have hread := fun s => FileTree.read_remove?_eq_ok_iff h hfile hstart (s := s)
  by_cases hl : t.resolve cwd (dir.child n).toText = .ok l
  · rw [hsilent hl]
    exact value_probeFile_of_unread hnull (fun s hs => ((hread s).1 hs).2 hl) probe
  · exact value_probeFile_of_read (fun s => by rw [hread, and_iff_left hl]) probe

/-- A directory says the same without a broken file, whichever directory it stands in. -/
theorem value_probeDirectory_remove? (h : t.remove? l = some t') (hfile : t.node? l = some (.file bs)) (hbroken : Broken n bs)
    {place : Location} (hl : l = place ++ [n]) (hdir : dir.Normal) (hstart : ¬l <+: dir.start cwd)
    (hmanifest : '\x00' ∉ (dir.child manifestName).toText) (hproject : '\x00' ∉ (dir.child projectName).toText) :
    (probeDirectory t' cwd dir).value = (probeDirectory t cwd dir).value := by
  -- what leads to the file has its name
  have hname : ∀ m ∈ consultedNames, t.resolve cwd (dir.child m).toText = .ok l → m = n := by
    intro m hm hresolve
    obtain ⟨hnormal, hup⟩ := normal_of_mem_consultedNames m hm
    have heq := FileTree.resolve_child_eq_ok hdir hnormal hup hresolve
    rw [hl] at heq
    exact (List.singleton_inj.1 (List.append_inj_right' heq rfl)).symm
  have hnames : manifestName ∈ consultedNames ∧ projectName ∈ consultedNames := by decide
  refine value_probeDirectory_of_places ?_ ?_ fun f hf m hm => ?_
  · refine value_probeFile_remove? h hfile hdir hstart (normal_of_mem_consultedNames _ hnames.1).1 hmanifest fun hresolve => ?_
    obtain rfl := hname _ hnames.1 hresolve
    exact value_probeManifest_of_broken hmanifest hresolve hfile hbroken
  · refine value_probeFile_remove? h hfile hdir hstart (normal_of_mem_consultedNames _ hnames.2).1 hproject fun hresolve => ?_
    obtain rfl := hname _ hnames.2 hresolve
    exact value_probeProject_of_broken hproject hresolve hfile hbroken
  · have table : ∀ f ∈ configFiles, ∀ m ∈ f.2, m ≠ manifestName ∧ m ≠ projectName := by decide
    have hm' := mem_consultedNames_of_mem_configFiles f hf m hm
    have hother : t.resolve cwd (dir.child m).toText ≠ .ok l := by
      intro hresolve
      obtain rfl := hname m hm' hresolve
      rcases hbroken.name_eq with heq | heq
      · exact (table f hf m hm).1 heq
      · exact (table f hf m hm).2 heq
    rw [← start_ofText_child hdir (normal_of_mem_consultedNames m hm').1] at hstart
    rw [Bool.eq_iff_iff, FileTree.has_remove?_iff h hfile hstart, and_iff_left hother]

end Locate

/-- If the path to a dependency manifest or a project file in a searched directory leads to a file, and the file is broken, then
it gives no signal, and it can be removed. Without it each searched directory says what it said, so that the answer of the search
is the same, a framework or an interruption. -/
theorem locate_without_broken (t : FileTree) (cwd : Location) {s : Text} (hs : '\x00' ∉ s) {parents : Int} {dir : Path}
    (hdir : dir ∈ (Path.ofText s).searched parents) {n : Text} {l : Location}
    (hl : t.resolve cwd (dir.child n).toText = .ok l) {bs : List UInt8} (hfile : t.node? l = some (.file bs))
    (hbroken : Locate.Broken n bs) :
    (n = Locate.manifestName → (Locate.probeManifest t cwd dir).value = .ok none) ∧
    (n = Locate.projectName → (Locate.probeProject t cwd dir).value = .ok none) ∧
    ∃ t', t.remove? l = some t' ∧
      (∀ d ∈ (Path.ofText s).searched parents,
        (Locate.probeDirectory t' cwd d).value = (Locate.probeDirectory t cwd d).value) ∧
      (locate t' cwd (Path.ofText s) parents).value = (locate t cwd (Path.ofText s) parents).value := by
  have hmanifest : ∀ d ∈ (Path.ofText s).searched parents, '\x00' ∉ (d.child Locate.manifestName).toText :=
    fun d hd => Path.null_not_mem_child hs hd (by decide)
  have hproject : ∀ d ∈ (Path.ofText s).searched parents, '\x00' ∉ (d.child Locate.projectName).toText :=
    fun d hd => Path.null_not_mem_child hs hd (by decide)
  obtain ⟨hname, hup⟩ := hbroken.normal
  have hnormal : ∀ d ∈ (Path.ofText s).searched parents, d.Normal :=
    fun d hd => Path.normal_of_mem_searched (Path.normal_ofText s) hd
  obtain ⟨t', ht'⟩ := FileTree.exists_remove?_of_file hfile
  have hkeep : ∀ d ∈ (Path.ofText s).searched parents,
      (Locate.probeDirectory t' cwd d).value = (Locate.probeDirectory t cwd d).value := by
    intro d hd
    have hstart := FileTree.not_isPrefix_start hfile (hnormal dir hdir) hname hup hl
    have hroot : d.start cwd = dir.start cwd := by
      rw [Path.start, (Path.prefix_of_mem_searched hd).1, Path.start, (Path.prefix_of_mem_searched hdir).1]
    exact Locate.value_probeDirectory_remove? ht' hfile hbroken (FileTree.resolve_child_eq_ok (hnormal dir hdir) hname hup hl)
      (hnormal d hd) (hroot ▸ hstart) (hmanifest d hd) (hproject d hd)
  refine ⟨?_, ?_, t', ht', hkeep, ?_⟩
  · rintro rfl
    exact Locate.value_probeManifest_of_broken (hmanifest dir hdir) hl hfile hbroken
  · rintro rfl
    exact Locate.value_probeProject_of_broken (hproject dir hdir) hl hfile hbroken
  · rw [Locate.value_locate, Locate.value_probeAll_congr hkeep, Locate.value_locate]

/-- An object that is not closed, in the manifest beside the configuration of jest: without the manifest it is jest as well. -/
theorem locate_without_openObject :
    (locate ((FileTree.ofFile ["jest.config.js".toList] []).after
      [.write [Locate.manifestName] (.file (Text.asciiBytes ['{']))]) [] (Path.ofText "a.js".toList) 4).value = .ok .jest ∧
    ∃ t', ((FileTree.ofFile ["jest.config.js".toList] []).after
        [.write [Locate.manifestName] (.file (Text.asciiBytes ['{']))]).remove? [Locate.manifestName] = some t' ∧
      (locate t' [] (Path.ofText "a.js".toList) 4).value = .ok .jest := by
  generalize ht : (FileTree.ofFile ["jest.config.js".toList] []).after
    [.write [Locate.manifestName] (.file (Text.asciiBytes ['{']))] = t
  have hjest : (locate t [] (Path.ofText "a.js".toList) 4).value = .ok .jest := ht ▸ rfl
  have hbroken : Locate.Broken Locate.manifestName (Text.asciiBytes ['{']) := by
    have hread : Json.read ['{'] = .error (.malformed .propertyName ['{']) := rfl
    rw [← Utf8.encode_of_isAscii (s := ['{']) rfl]
    exact .malformed hread
  have hdir : ⟨.here, []⟩ ∈ (Path.ofText "a.js".toList).searched 4 := by decide
  have hl : t.resolve [] (Path.child ⟨.here, []⟩ Locate.manifestName).toText = .ok [Locate.manifestName] := ht ▸ rfl
  obtain ⟨-, -, t', ht', -, hsame⟩ := locate_without_broken t [] (by decide) hdir hl (ht ▸ rfl) hbroken
  exact ⟨hjest, t', ht', hsame.trans hjest⟩

end SourceInventory
