import SourceInventory.Proofs.FileTree.Read
import SourceInventory.Proofs.Json.Search
import SourceInventory.Proofs.Locate.Search
import Mathlib

/-!
# Mention: the framework that a manifest names, without the text it is written in

A dependency manifest is searched by writing its sections out and looking for the names of the frameworks in what was
written. The same answer is found by looking through the sections themselves: a framework is named if its name occurs in a
string or a key at any depth.
-/

namespace SourceInventory

namespace Manifest

/-- A word occurs in a section that is an object or an array. -/
def Names (members : List (CodeText × Json)) (w : Text) : Prop :=
  ∃ n ∈ sectionNames, ∃ v, Json.member? (CodeText.ofText n) members = some v ∧ isSection v = true ∧ v.Mentions w

theorem mem_sections_iff {members : List (CodeText × Json)} {v : Json} :
    v ∈ sections members ↔
      ∃ n ∈ sectionNames, Json.member? (CodeText.ofText n) members = some v ∧ isSection v = true := by
  rw [sections, List.mem_filterMap]
  simp only [Option.filter_eq_some_iff]

theorem sought_priority : ∀ f ∈ priority, Sought f.name := by
  intro f hf
  have letters : ∀ f ∈ priority, f.name.all (fun c => decide ('a' ≤ c ∧ c ≤ 'z')) = true := by decide
  refine ⟨fun c hc => of_decide_eq_true (List.all_eq_true.1 (letters f hf) c hc), ?_⟩
  cases f with
  | jest => exact ⟨'j', _, rfl, by decide⟩
  | vitest => exact ⟨'v', _, rfl, by decide⟩
  | mocha => exact ⟨'m', _, rfl, by decide⟩
  | pytest | unknown => exact absurd hf (by decide)

/-- A sought word occurs in what is written of a manifest if a section of it has the word in one of its strings. -/
theorem occursIn_written_iff {w : Text} (hw : Sought w) (members : List (CodeText × Json)) :
    Text.occursIn w (written (sections members)) = true ↔ Names members w := by
  have hwrite := Json.infix_write_iff hw 0 [] (.array (sections members))
  obtain ⟨c, t, hct, -⟩ := hw.head
  have hnil : ¬ w <:+: [] := by
    rw [List.infix_nil, hct]
    exact List.cons_ne_nil c t
  rw [List.append_nil, or_iff_left hnil, Json.mentions_array_iff] at hwrite
  constructor
  · intro h
    obtain ⟨u, v, huv⟩ := Text.occursIn_iff.1 h
    obtain ⟨x, hx, hm⟩ := hwrite.1 ⟨u, v, huv.symm⟩
    obtain ⟨n, hn, hmember, hsection⟩ := mem_sections_iff.1 hx
    exact ⟨n, hn, x, hmember, hsection, hm⟩
  · rintro ⟨n, hn, x, hmember, hsection, hm⟩
    obtain ⟨u, v, huv⟩ := hwrite.2 ⟨x, mem_sections_iff.2 ⟨n, hn, hmember, hsection⟩, hm⟩
    exact Text.occursIn_iff.2 ⟨u, v, huv.symm⟩

/-- The framework of a manifest, case by case. -/
theorem framework?_object (members : List (CodeText × Json)) :
    (Names members Framework.vitest.name ∧ framework? (.object members) = some .vitest) ∨
    (¬ Names members Framework.vitest.name ∧ Names members Framework.jest.name ∧
      framework? (.object members) = some .jest) ∨
    (¬ Names members Framework.vitest.name ∧ ¬ Names members Framework.jest.name ∧ Names members Framework.mocha.name ∧
      framework? (.object members) = some .mocha) ∨
    (¬ Names members Framework.vitest.name ∧ ¬ Names members Framework.jest.name ∧ ¬ Names members Framework.mocha.name ∧
      framework? (.object members) = none) := by
  have hvitest := occursIn_written_iff (sought_priority .vitest (by decide)) members
  have hjest := occursIn_written_iff (sought_priority .jest (by decide)) members
  have hmocha := occursIn_written_iff (sought_priority .mocha (by decide)) members
  rw [← hvitest, ← hjest, ← hmocha, framework?, priority]
  simp only [List.find?_cons, List.find?_nil]
  cases Text.occursIn Framework.vitest.name (written (sections members)) <;>
    cases Text.occursIn Framework.jest.name (written (sections members)) <;>
      cases Text.occursIn Framework.mocha.name (written (sections members)) <;> simp

end Manifest

open Manifest in
/-- A dependency manifest that holds an object names the first of vitest, jest and mocha that occurs in a string or a key
of its sections, at any depth and in any case of the letters of ASCII, and none if none of them does. -/
theorem probeManifest_eq_named (t : FileTree) (cwd : Location) (dir : Path) (s : Text) (members : List (CodeText × Json))
    (hread : t.read cwd (dir.child Locate.manifestName).toText = .ok s) (hjson : Json.read s = .ok (.object members)) :
    ((Locate.probeManifest t cwd dir).value = .ok (some .vitest) ↔ Names members Framework.vitest.name) ∧
    ((Locate.probeManifest t cwd dir).value = .ok (some .jest) ↔
      Names members Framework.jest.name ∧ ¬ Names members Framework.vitest.name) ∧
    ((Locate.probeManifest t cwd dir).value = .ok (some .mocha) ↔
      Names members Framework.mocha.name ∧ ¬ Names members Framework.jest.name ∧ ¬ Names members Framework.vitest.name) ∧
    ((Locate.probeManifest t cwd dir).value = .ok none ↔
      ¬ Names members Framework.vitest.name ∧ ¬ Names members Framework.jest.name ∧ ¬ Names members Framework.mocha.name) := by
  have hvalue : (Locate.probeManifest t cwd dir).value = .ok (framework? (.object members)) := by
    rw [Locate.value_probeManifest hread, hjson]
  rw [hvalue]
  rcases framework?_object members with ⟨hv, h⟩ | ⟨hv, hj, h⟩ | ⟨hv, hj, hm, h⟩ | ⟨hv, hj, hm, h⟩
  · simp [h, hv]
  · simp [h, hv, hj]
  · simp [h, hv, hj, hm]
  · simp [h, hv, hj, hm]

open Manifest in
/-- A manifest whose scripts are an array with one string in capitals: it names the framework that this string is. -/
theorem probeManifest_eq_jest :
    (Locate.probeManifest (.ofFile [Locate.manifestName] "\x7b\"scripts\":[\"JEST\"]\x7d".toList) [] ⟨.here, []⟩).value =
      .ok (some .jest) ∧
    Names [(CodeText.ofText "scripts".toList, .array [.ofText "JEST".toList])] Framework.jest.name ∧
    ¬ Names [(CodeText.ofText "scripts".toList, .array [.ofText "JEST".toList])] Framework.vitest.name := by
  have hread : FileTree.read (.ofFile [Locate.manifestName] "\x7b\"scripts\":[\"JEST\"]\x7d".toList) []
      (Path.child ⟨.here, []⟩ Locate.manifestName).toText = .ok "\x7b\"scripts\":[\"JEST\"]\x7d".toList :=
    FileTree.read_ofFile (by simp) (by decide) (by decide) rfl
  have hjson : Json.read "\x7b\"scripts\":[\"JEST\"]\x7d".toList =
      .ok (.object [(CodeText.ofText "scripts".toList, .array [.ofText "JEST".toList])]) := by cbv
  have hvalue : (Locate.probeManifest (.ofFile [Locate.manifestName] "\x7b\"scripts\":[\"JEST\"]\x7d".toList) []
      ⟨.here, []⟩).value = .ok (some .jest) := by
    rw [Locate.value_probeManifest hread, hjson]
    rfl
  exact ⟨hvalue, (probeManifest_eq_named _ [] ⟨.here, []⟩ _ _ hread hjson).2.1.1 hvalue⟩

end SourceInventory
