import SourceInventory.Proofs.Analysis.Outcome
import SourceInventory.Proofs.FileTree.Update
import SourceInventory.Proofs.Locate.Threshold

/-!
# Suited frameworks: the runner of the file's own language

The framework of a file is found in the directories above it, and what is looked for there does not depend on the language of the
file. So a file can be given a framework that does not run its tests. Main statement: it is exactly if the nearest directory that
says anything first says a framework of another language (`analyze_suits_iff`).
-/

namespace SourceInventory

/-- A framework runs the tests of a language. -/
def Framework.Suits (f : Framework) : Language → Prop
  | .python => f = .pytest
  | .javascript | .typescript => f = .jest ∨ f = .vitest ∨ f = .mocha

theorem Framework.suits_default (l : Language) : (default l).Suits l := by
  cases l with
  | python => rfl
  | javascript | typescript => exact Or.inl rfl

namespace Locate

open Manifest (priority)

/-- One of the configuration files of a framework stands in a directory. -/
def stands (t : FileTree) (cwd : Location) (dir : Path) (x : Framework × List Text) : Bool :=
  x.2.any fun n => t.has cwd (dir.child n).toText

/-- A framework has a configuration file in a directory. -/
def Configures (t : FileTree) (cwd : Location) (dir : Path) (f : Framework) : Prop :=
  ∃ x ∈ configFiles, x.1 = f ∧ stands t cwd dir x = true

/-- What a directory says first is a framework of another language than the given one. For Python that is a runner that the
dependency manifest names, or one with a configuration file if neither the manifest nor the project file says anything. For the
other languages it is pytest, if the manifest says nothing and the project file names it, or if neither says anything and no
other framework has a configuration file. -/
def Crosses (t : FileTree) (cwd : Location) (dir : Path) : Language → Prop
  | .python =>
    (∃ f ∈ priority, (probeManifest t cwd dir).value = .ok (some f)) ∨
      (probeManifest t cwd dir).value = .ok none ∧ (probeProject t cwd dir).value = .ok none ∧
        ∃ f ∈ priority, Configures t cwd dir f
  | .javascript | .typescript =>
    (probeManifest t cwd dir).value = .ok none ∧
      ((probeProject t cwd dir).value = .ok (some .pytest) ∨
        (probeProject t cwd dir).value = .ok none ∧ (∀ f ∈ priority, ¬Configures t cwd dir f) ∧ Configures t cwd dir .pytest)

variable {t : FileTree} {cwd : Location} {dir : Path} {f : Framework} {l : Language}

/-! ## What a directory says -/

/-- The configuration files of pytest are looked for last. -/
theorem configFiles_eq_concat :
    ∃ front names, configFiles = front ++ [(.pytest, names)] ∧ ∀ x ∈ front, x.1 ∈ priority :=
  ⟨configFiles.take 3, _, rfl, by decide⟩

/-- What the configuration files of a directory say: another framework than pytest if one has a file there, pytest if only that
has one, and nothing otherwise. -/
theorem configured?_cases (t : FileTree) (cwd : Location) (dir : Path) :
    (∃ f ∈ priority, configured? t cwd dir = some f ∧ Configures t cwd dir f) ∨
      (∀ f ∈ priority, ¬Configures t cwd dir f) ∧
        (configured? t cwd dir = some .pytest ∧ Configures t cwd dir .pytest ∨
          configured? t cwd dir = none ∧ ¬Configures t cwd dir .pytest) := by
  have hconfigured : configured? t cwd dir = (configFiles.find? (stands t cwd dir)).map (·.1) := rfl
  obtain ⟨front, names, hfiles, hpriority⟩ := configFiles_eq_concat
  rw [hfiles, List.find?_append] at hconfigured
  have hlast : (.pytest, names) ∈ configFiles := hfiles ▸ List.mem_append_right front List.mem_cons_self
  cases hfind : front.find? (stands t cwd dir) with
  | some x =>
    rw [hfind] at hconfigured
    have hx := List.mem_of_find?_eq_some hfind
    exact Or.inl ⟨x.1, hpriority x hx, hconfigured, x, hfiles ▸ List.mem_append_left _ hx, rfl, List.find?_some hfind⟩
  | none =>
    rw [hfind, Option.none_or] at hconfigured
    -- a file of a framework can only be one of those that are looked for last
    have honly : ∀ f, Configures t cwd dir f → f = .pytest ∧ stands t cwd dir (.pytest, names) = true := by
      rintro _ ⟨x, hx, rfl, hstands⟩
      rcases List.mem_append.1 (hfiles ▸ hx) with hx | hx
      · exact absurd hstands (List.find?_eq_none.1 hfind x hx)
      · rw [List.mem_singleton.1 hx] at hstands ⊢
        exact ⟨rfl, hstands⟩
    refine Or.inr ⟨fun f hf h => ?_, ?_⟩
    · rw [(honly f h).1] at hf
      exact absurd hf (by decide)
    · by_cases hstands : stands t cwd dir (.pytest, names) = true
      · rw [List.find?_cons_of_pos hstands] at hconfigured
        exact Or.inl ⟨hconfigured, _, hlast, rfl, hstands⟩
      · rw [List.find?_cons_of_neg hstands] at hconfigured
        exact Or.inr ⟨hconfigured, fun h => hstands (honly _ h).2⟩

/-- Configuration files say only frameworks that have them. -/
theorem mem_of_configured? (h : configured? t cwd dir = some f) : f ∈ priority ∨ f = .pytest := by
  rcases configured?_cases t cwd dir with ⟨g, hg, hconfigured, -⟩ | ⟨-, ⟨hconfigured, -⟩ | ⟨hconfigured, -⟩⟩
  all_goals rw [h] at hconfigured
  · exact Or.inl (Option.some.inj hconfigured ▸ hg)
  · exact Or.inr (Option.some.inj hconfigured)
  · exact absurd hconfigured (by simp)

theorem exists_configured?_iff :
    (∃ f ∈ priority, configured? t cwd dir = some f) ↔ ∃ f ∈ priority, Configures t cwd dir f := by
  rcases configured?_cases t cwd dir with ⟨f, hf, hconfigured, hfile⟩ | ⟨hnone, hrest⟩
  · exact iff_of_true ⟨f, hf, hconfigured⟩ ⟨f, hf, hfile⟩
  · refine iff_of_false (fun ⟨f, hf, hconfigured⟩ => ?_) fun ⟨f, hf, hfile⟩ => hnone f hf hfile
    rw [hconfigured] at hrest
    rcases hrest with ⟨hpytest, -⟩ | ⟨hnothing, -⟩
    · rw [Option.some.inj hpytest] at hf
      exact absurd hf (by decide)
    · exact absurd hnothing (by simp)

theorem configured?_eq_pytest_iff :
    configured? t cwd dir = some .pytest ↔ (∀ f ∈ priority, ¬Configures t cwd dir f) ∧ Configures t cwd dir .pytest := by
  rcases configured?_cases t cwd dir with ⟨f, hf, hconfigured, hfile⟩ | ⟨hnone, ⟨hconfigured, hfile⟩ | ⟨hconfigured, hfile⟩⟩
  · refine iff_of_false (fun h => ?_) fun h => h.1 f hf hfile
    rw [hconfigured] at h
    rw [Option.some.inj h] at hf
    exact absurd hf (by decide)
  · exact iff_of_true hconfigured ⟨hnone, hfile⟩
  · exact iff_of_false (by rw [hconfigured]; simp) fun h => hfile h.2

/-- A directory says what its manifest says, or what its project file says if the manifest says nothing, or what its configuration
files say if neither does. -/
theorem probeDirectory_eq_some_iff :
    (probeDirectory t cwd dir).value = .ok (some f) ↔
      (probeManifest t cwd dir).value = .ok (some f) ∨
        (probeManifest t cwd dir).value = .ok none ∧
          ((probeProject t cwd dir).value = .ok (some f) ∨
            (probeProject t cwd dir).value = .ok none ∧ configured? t cwd dir = some f) := by
  have hsome : (.ok (some f) : Said) ≠ .ok none := by simp
  rw [value_probeDirectory, signal, value_orElse_assoc, Probe.value_orElse_eq_iff hsome, Probe.value_orElse_eq_iff hsome]
  simp only [Logged.silent, Except.ok.injEq]

/-- A directory says nothing if and only if none of its places does. -/
theorem value_probeDirectory_eq_none_iff :
    (probeDirectory t cwd dir).value = .ok none ↔ ∀ r ∈ places t cwd dir, r = .ok none := by
  refine ⟨fun h r hr => eq_none_of_mem_places h hr, fun h => ?_⟩
  by_contra hne
  obtain ⟨before, after, hplaces, -⟩ := exists_places_eq hne
  exact hne (h _ (hplaces ▸ List.mem_append_right before List.mem_cons_self))

/-- A directory does not say that the framework is unknown. -/
theorem value_probeDirectory_ne_unknown : (probeDirectory t cwd dir).value ≠ .ok (some .unknown) := by
  intro h
  have hsaid : (probeDirectory t cwd dir).value ≠ .ok none := by simp [h]
  obtain ⟨before, after, hplaces, -⟩ := exists_places_eq hsaid
  rw [h] at hplaces
  exact ne_unknown_of_mem_places (hplaces ▸ List.mem_append_right before List.mem_cons_self) rfl

/-- A directory crosses if and only if what it says first is a framework that does not run the tests of the language. -/
theorem crosses_iff : Crosses t cwd dir l ↔ ∃ f, (probeDirectory t cwd dir).value = .ok (some f) ∧ ¬f.Suits l := by
  have hpriority : ∀ f ∈ priority, f ≠ .pytest ∧ (f = .jest ∨ f = .vitest ∨ f = .mocha) := by decide
  cases l with
  | python =>
    constructor
    · rintro (⟨f, hf, hmanifest⟩ | ⟨hmanifest, hproject, hfile⟩)
      · exact ⟨f, probeDirectory_eq_some_iff.2 (Or.inl hmanifest), (hpriority f hf).1⟩
      · obtain ⟨f, hf, hconfigured⟩ := exists_configured?_iff.2 hfile
        exact ⟨f, probeDirectory_eq_some_iff.2 (Or.inr ⟨hmanifest, Or.inr ⟨hproject, hconfigured⟩⟩), (hpriority f hf).1⟩
    · rintro ⟨f, hsaid, hsuits⟩
      rcases probeDirectory_eq_some_iff.1 hsaid with hmanifest | ⟨hmanifest, hproject | ⟨hproject, hconfigured⟩⟩
      · exact Or.inl ⟨f, mem_priority_of_probeManifest hmanifest, hmanifest⟩
      · exact absurd (eq_pytest_of_probeProject hproject) hsuits
      · have hf := (mem_of_configured? hconfigured).resolve_right hsuits
        exact Or.inr ⟨hmanifest, hproject, exists_configured?_iff.1 ⟨f, hf, hconfigured⟩⟩
  | javascript | typescript =>
    have hpytest : ¬Framework.pytest.Suits .javascript := by simp [Framework.Suits]
    constructor
    · rintro ⟨hmanifest, hproject | ⟨hproject, hfiles⟩⟩
      · exact ⟨.pytest, probeDirectory_eq_some_iff.2 (Or.inr ⟨hmanifest, Or.inl hproject⟩), hpytest⟩
      · have hconfigured := configured?_eq_pytest_iff.2 hfiles
        exact ⟨.pytest, probeDirectory_eq_some_iff.2 (Or.inr ⟨hmanifest, Or.inr ⟨hproject, hconfigured⟩⟩), hpytest⟩
    · rintro ⟨f, hsaid, hsuits⟩
      rcases probeDirectory_eq_some_iff.1 hsaid with hmanifest | ⟨hmanifest, hproject | ⟨hproject, hconfigured⟩⟩
      · exact absurd (hpriority f (mem_priority_of_probeManifest hmanifest)).2 hsuits
      · exact ⟨hmanifest, Or.inl (eq_pytest_of_probeProject hproject ▸ hproject)⟩
      · obtain rfl := (mem_of_configured? hconfigured).resolve_left fun hf => hsuits (hpriority f hf).2
        exact ⟨hmanifest, Or.inr ⟨hproject, configured?_eq_pytest_iff.1 hconfigured⟩⟩

/-- The nearest of some directories in which any place says anything crosses if and only if these directories together say a
framework that does not run the tests of the language. -/
theorem exists_crosses_iff {dirs : List Path} :
    (∃ before dir after, dirs = before ++ dir :: after ∧ (∀ d ∈ before, ∀ r ∈ places t cwd d, r = .ok none) ∧
        Crosses t cwd dir l) ↔
      ∃ f, (probeAll t cwd dirs).value = .ok (some f) ∧ ¬f.Suits l := by
  constructor
  · rintro ⟨before, dir, after, hdirs, hbefore, hcrosses⟩
    obtain ⟨f, hsaid, hsuits⟩ := crosses_iff.1 hcrosses
    exact ⟨f, (probeAll_eq_iff (by simp)).2 ⟨before, dir, after, hdirs,
      fun d hd => value_probeDirectory_eq_none_iff.2 (hbefore d hd), hsaid⟩, hsuits⟩
  · rintro ⟨f, hfound, hsuits⟩
    obtain ⟨before, dir, after, hdirs, hbefore, hsaid⟩ := (probeAll_eq_iff (by simp)).1 hfound
    exact ⟨before, dir, after, hdirs, fun d hd => value_probeDirectory_eq_none_iff.1 (hbefore d hd),
      crosses_iff.2 ⟨f, hsaid, hsuits⟩⟩

end Locate

/-- A file that is analysed without a framework being asked for is given one that is known. It runs the tests of the language of the
file unless the nearest directory in which any place says anything crosses, and if it does, the framework is one of another
language. -/
theorem analyze_suits_iff {t : FileTree} {cwd : Location} {file : Text} {parents : Int} {a : Analysis}
    (h : (analyze t cwd file none parents).value = .ok a) :
    a.framework ≠ .unknown ∧
      (a.framework.Suits a.language ↔
        ¬∃ before dir after, (Path.ofText file).searched parents = before ++ dir :: after ∧
          (∀ d ∈ before, ∀ r ∈ Locate.places t cwd d, r = .ok none) ∧ Locate.Crosses t cwd dir a.language) := by
  obtain ⟨l, s, f, -, -, hfound, rfl⟩ := analyze_eq_ok_iff.1 h
  change (locate t cwd (Path.ofText file) parents).value = .ok f at hfound
  change f.orDefault l ≠ .unknown ∧ ((f.orDefault l).Suits l ↔ ¬∃ before dir after, _ ∧ _ ∧ Locate.Crosses t cwd dir l)
  have hdefault : Framework.default l ≠ .unknown := by cases l <;> decide
  rw [Locate.exists_crosses_iff, Framework.orDefault_eq]
  rw [Locate.value_locate] at hfound
  generalize hall : (Locate.probeAll t cwd ((Path.ofText file).searched parents)).value = said at hfound ⊢
  cases said with
  | error i => exact absurd hfound (by simp [Except.map])
  | ok r =>
    obtain rfl : r.getD .unknown = f := Except.ok.inj hfound
    cases r with
    | none =>
      -- nothing is said, and the framework is that of the language
      rw [Option.getD_none, if_pos rfl]
      exact ⟨hdefault, iff_of_true (Framework.suits_default l) (by simp)⟩
    | some g =>
      obtain ⟨_, _, _, -, -, hsaid⟩ := (Locate.probeAll_eq_iff (by simp)).1 hall
      have hg : g ≠ .unknown := fun hg => Locate.value_probeDirectory_ne_unknown (hg ▸ hsaid)
      rw [Option.getD_some, if_neg hg]
      exact ⟨hg, by simp⟩

/-- A project in which a file of pytest stands beside one of another language. -/
def mixedProject : FileTree := (FileTree.ofFile ["pytest.ini".toList] []).after [.write ["app.js".toList] (.file [])]

theorem analyze_mixedProject :
    (analyze mixedProject [] "app.js".toList none).value = .ok (.ofSource "app.js".toList .javascript .pytest []) :=
  analyze_eq_ok_iff.2 ⟨.javascript, [], .pytest, by decide, rfl, rfl, rfl⟩

theorem not_suits_mixedProject :
    ¬(Analysis.ofSource "app.js".toList .javascript .pytest []).framework.Suits .javascript := by
  simp [Analysis.ofSource, Framework.orDefault, Framework.Suits]

/-- The file beside the one of pytest is given pytest, as its directory says pytest first. -/
theorem analyze_suits_mixedProject :
    (analyze mixedProject [] "app.js".toList none).value = .ok (.ofSource "app.js".toList .javascript .pytest []) ∧
      ∃ before dir after, (Path.ofText "app.js".toList).searched Locate.defaultParents = before ++ dir :: after ∧
        (∀ d ∈ before, ∀ r ∈ Locate.places mixedProject [] d, r = .ok none) ∧ Locate.Crosses mixedProject [] dir .javascript := by
  obtain ⟨-, hsuits⟩ := analyze_suits_iff analyze_mixedProject
  exact ⟨analyze_mixedProject, Classical.not_not.1 fun hno => not_suits_mixedProject (hsuits.2 hno)⟩

/-- A file can be given a framework that does not run its tests. -/
theorem analyze_suits_false :
    ¬∀ (t : FileTree) (cwd : Location) (file : Text) (a : Analysis), (analyze t cwd file none).value = .ok a →
      a.framework.Suits a.language :=
  fun h => not_suits_mixedProject (h _ _ _ _ analyze_mixedProject)

end SourceInventory
