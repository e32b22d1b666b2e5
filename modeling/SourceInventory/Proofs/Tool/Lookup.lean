import SourceInventory.Proofs.Path.LastName
import SourceInventory.Proofs.Text.Lowered
import SourceInventory.Proofs.Tool.Call

/-!
# Lookup: what is found in a table in any case

The language of a file and the framework asked for are looked up in tables by the lower case of a suffix and of a name. The keys
are ASCII without the letter `k`, so a lookup finds what is spelled in ASCII letters of either case, although the lower case is
that of all characters (`lookups_asciiCase`).
-/

namespace SourceInventory

/-- In a table without repeated keys a lookup finds what stands there. -/
theorem lookup_eq_some_iff_mem {α : Type} {table : List (Text × α)} (h : (table.map Prod.fst).Nodup) {key : Text} {a : α} :
    table.lookup key = some a ↔ (key, a) ∈ table := by
  induction table with
  | nil => simp
  | cons e table ih =>
    obtain ⟨key', a'⟩ := e
    rw [List.map_cons, List.nodup_cons] at h
    rw [List.lookup_cons, List.mem_cons, Prod.mk.injEq]
    by_cases hkey : key = key'
    · subst hkey
      have hnew : (key, a) ∉ table := fun hmem => h.1 (List.mem_map.2 ⟨_, hmem, rfl⟩)
      simp [hnew, @eq_comm _ a]
    · have hbeq : (key == key') = false := by simpa using hkey
      simp [hkey, hbeq, ih h.2]

/-! ## Languages -/

namespace Language

/-- The suffixes in the table are ASCII. -/
theorem lt_of_mem_suffixes : ∀ e ∈ suffixes, ∀ c ∈ e.1, c.toNat < 0x80 := by
  have table : ∀ e ∈ suffixes, (e.1.all fun c => decide (c.toNat < 0x80)) = true := by decide
  intro e he c hc
  exact of_decide_eq_true (List.all_eq_true.1 (table e he) c hc)

/-- A language is found by the suffixes in the table, in any case of their ASCII letters. -/
theorem ofPath?_eq_some_iff {p : Path} {l : Language} :
    ofPath? p = some l ↔ (p.suffix.map Char.toLower, l) ∈ suffixes := by
  have hkeys : ∀ e ∈ suffixes, 'k' ∉ e.1 := by decide
  have hspelled : ∀ e ∈ suffixes, p.suffix.lower = e.1 ↔ p.suffix.map Char.toLower = e.1 := fun e he =>
    lower_eq_iff (lt_of_mem_suffixes e he) (hkeys e he)
  rw [ofPath?, lookup_eq_some_iff_mem (by decide)]
  constructor
  · intro h
    rwa [(hspelled _ h).1 rfl]
  · intro h
    rwa [(hspelled _ h).2 rfl]

/-- The language of a text is read off the name that it ends in. -/
theorem ofPath?_ofText_eq_some_iff {s : Text} {l : Language} : ofPath? (Path.ofText s) = some l ↔
    ∃ stem ext, Path.EndsInName s (stem ++ '.' :: ext) ∧ stem ≠ [] ∧ ext ≠ [] ∧ '.' ∉ ext ∧
      (('.' :: ext).map Char.toLower, l) ∈ suffixes := by
  rw [ofPath?_eq_some_iff]
  constructor
  · intro h
    rcases (Path.ofText s).suffix_cases with hnil | ⟨ext, hsuffix⟩
    · rw [hnil] at h
      exact absurd h (by cases l <;> decide)
    · obtain ⟨stem, hname, hstem, hext, hdot⟩ := Path.suffix_eq_iff.1 hsuffix
      rw [hsuffix] at h
      exact ⟨stem, ext, (Path.name_ofText_eq_iff (by simp)).1 hname, hstem, hext, hdot, h⟩
  · rintro ⟨stem, ext, hends, hstem, hext, hdot, h⟩
    have hname := (Path.name_ofText_eq_iff (by simp)).2 hends
    rwa [Path.suffix_eq_iff.2 ⟨stem, hname, hstem, hext, hdot⟩]

end Language

/-! ## Frameworks -/

namespace Framework

/-- The names of the frameworks that can be asked for are ASCII. -/
theorem lt_of_mem_name : ∀ f ∈ choices, ∀ c ∈ f.name, c.toNat < 0x80 := by
  have table : ∀ f ∈ choices, (f.name.all fun c => decide (c.toNat < 0x80)) = true := by decide
  intro f hf c hc
  exact of_decide_eq_true (List.all_eq_true.1 (table f hf) c hc)

/-- A framework is chosen by its name, in any case of its ASCII letters. -/
theorem chosen?_eq_some_iff {s : Text} {f : Framework} : chosen? s = some f ↔ f ∈ choices ∧ s.map Char.toLower = f.name := by
  have hkeys : ∀ f ∈ choices, 'k' ∉ f.name := by decide
  have hspelled : ∀ f ∈ choices, s.lower = f.name ↔ s.map Char.toLower = f.name := fun f hf =>
    lower_eq_iff (lt_of_mem_name f hf) (hkeys f hf)
  have hfound : ∀ {g : Framework}, chosen? s = some g → g ∈ choices ∧ s.lower = g.name := by
    intro g h
    have hname := List.find?_some h
    exact ⟨List.mem_of_find?_eq_some h, (of_decide_eq_true hname).symm⟩
  constructor
  · intro h
    obtain ⟨hf, hlower⟩ := hfound h
    exact ⟨hf, (hspelled f hf).1 hlower⟩
  · rintro ⟨hf, hname⟩
    have hlower := (hspelled f hf).2 hname
    cases hchosen : chosen? s with
    | none => exact absurd (decide_eq_true hlower.symm) (List.find?_eq_none.1 hchosen f hf)
    | some g => rw [name_injective ((hfound hchosen).2.symm.trans hlower)]

/-- The frameworks that can be asked for, with their names. -/
theorem mem_choices_name_iff {s : Text} {f : Framework} : f ∈ choices ∧ s = f.name ↔
    (s, f) ∈ [("jest".toList, jest), ("vitest".toList, vitest), ("mocha".toList, mocha), ("pytest".toList, pytest)] := by
  change _ ↔ (s, f) ∈ choices.map fun g => (g.name, g)
  rw [List.mem_map]
  constructor
  · rintro ⟨hf, rfl⟩
    exact ⟨f, hf, rfl⟩
  · rintro ⟨g, hg, heq⟩
    obtain ⟨rfl, rfl⟩ := Prod.mk.inj heq
    exact ⟨hg, rfl⟩

/-- No framework is chosen by a name that is none of theirs. -/
theorem chosen?_eq_none_iff {s : Text} : chosen? s = none ↔
    s.map Char.toLower ∉ ["jest".toList, "vitest".toList, "mocha".toList, "pytest".toList] := by
  change _ ↔ _ ∉ choices.map name
  simp only [Option.eq_none_iff_forall_ne_some, ne_eq, chosen?_eq_some_iff, List.mem_map, not_exists, not_and,
    @eq_comm _ (name _)]

end Framework

namespace Tool

theorem requested_eq_some_iff {name : Text} {f : Framework} :
    requested (some name) = .ok (some f) ↔ Framework.chosen? name = some f := by
  cases name with
  | nil =>
    have hnone : Framework.chosen? [] = none := by decide
    simp [requested, hnone]
  | cons c name =>
    simp only [requested]
    cases Framework.chosen? (c :: name) <;> simp

end Tool

/-! ## Both lookups -/

/-- Lookups in any case admit ASCII letters only. A file has a language if and only if the text of its path ends, up to slashes
and single dots, in a name with a last dot that is neither its first nor its last character, and the name from that dot on is
a suffix of the table in ASCII letters of either case; whatever the directories are called, the language is that of the
suffix. A name of a framework is accepted if and only if it is `jest`, `vitest`, `mocha` or `pytest` in ASCII letters of either
case, and then for this framework; a name that is neither accepted nor empty is refused. So no suffix and no name with
a character beyond ASCII is accepted. -/
theorem lookups_asciiCase :
    ((∀ (s : Text) (l : Language), Language.ofPath? (Path.ofText s) = some l ↔
        ∃ stem ext, Path.EndsInName s (stem ++ '.' :: ext) ∧ stem ≠ [] ∧ ext ≠ [] ∧ '.' ∉ ext ∧
          (('.' :: ext).map Char.toLower, l) ∈ Language.suffixes) ∧
      (∀ (s : Text) (l : Language), Language.ofPath? (Path.ofText s) = some l →
        ∀ c ∈ (Path.ofText s).suffix, c.toNat < 0x80)) ∧
    ((∀ (name : Text) (f : Framework), Tool.requested (some name) = .ok (some f) ↔
        (name.map Char.toLower, f) ∈
          [("jest".toList, .jest), ("vitest".toList, .vitest), ("mocha".toList, .mocha), ("pytest".toList, .pytest)]) ∧
      (∀ name : Text, Tool.requested (some name) = .error (.unknownFramework name) ↔
        name ≠ [] ∧ name.map Char.toLower ∉ ["jest".toList, "vitest".toList, "mocha".toList, "pytest".toList]) ∧
      (∀ (name : Text) (f : Framework), Tool.requested (some name) = .ok (some f) → ∀ c ∈ name, c.toNat < 0x80)) := by
  refine ⟨⟨fun s l => ?_, fun s l h => ?_⟩, fun name f => ?_, fun name => ?_, fun name f h => ?_⟩
  · exact Language.ofPath?_ofText_eq_some_iff
  · have hmem := Language.ofPath?_eq_some_iff.1 h
    exact lt_of_map_toLower_eq (Language.lt_of_mem_suffixes _ hmem) rfl
  · rw [Tool.requested_eq_some_iff, Framework.chosen?_eq_some_iff, Framework.mem_choices_name_iff]
  · rw [Tool.requested_eq_error_iff, ← Framework.chosen?_eq_none_iff]
    simp
  · rw [Tool.requested_eq_some_iff, Framework.chosen?_eq_some_iff] at h
    exact lt_of_map_toLower_eq (Framework.lt_of_mem_name f h.1) h.2

/-- Neither a directory that is called like a source file counts nor a dot at the end, but two dots are a name. -/
example : Language.ofPath? (Path.ofText "x.js/App.TSX/.".toList) = some .typescript ∧
    Language.ofPath? (Path.ofText "x.js/..".toList) = none ∧ Tool.requested (some "PyTest".toList) = .ok (some .pytest) :=
  ⟨by decide, by decide, rfl⟩

end SourceInventory
