import SourceInventory.Proofs.Analysis.Outcome
import SourceInventory.Proofs.Json.Unescaped
import SourceInventory.Proofs.Tool.Call

/-!
# Agreement: one file, three answers

The three tools look at a file in three ways: by its suffix alone, by the manifests beside it alone, and by both and its text.
They agree: where there is a record, the others answer the language and the framework that it names, unless no framework was
found and the record has that of the language. Main statement: `call_agrees`.
-/

namespace SourceInventory

/-! ## What the text of a record says -/

/-- The text of a record as JSON tells its file, its language, its framework and its source. -/
theorem Analysis.indented_toJson_inj {a b : Analysis} (h : a.toJson.indented = b.toJson.indented) :
    a.file = b.file ∧ a.language = b.language ∧ a.framework = b.framework ∧ a.source = b.source := by
  obtain ⟨hfile, r, h⟩ := Json.write_object_inj h
  obtain ⟨hlanguage, h⟩ := Json.writeMembers_append_inj h
  obtain ⟨hframework, h⟩ := Json.writeMembers_append_inj h
  obtain ⟨hsource, -⟩ := Json.writeMembers_append_inj h
  exact ⟨hfile, Language.name_injective hlanguage, Framework.name_injective hframework, hsource⟩

/-- The suffix of a file of some language has no line feed. -/
theorem lineFeed_not_mem_suffix {p : Path} {l : Language} (h : Language.ofPath? p = some l) : '\n' ∉ p.suffix := by
  intro hmem
  obtain ⟨before, after, hsuffixes, -⟩ := List.lookup_eq_some_iff.1 h
  have hlower : '\n' ∈ p.suffix.lower := List.mem_flatMap.2 ⟨'\n', hmem, by decide⟩
  have table : ∀ e ∈ Language.suffixes, '\n' ∉ e.1 := by decide
  exact table (p.suffix.lower, l) (by rw [hsuffixes]; simp) hlower

namespace Tool

variable {t : FileTree} {cwd : Location} {file : Text} {settings : Configuration}

/-- The tool for languages answers the name of the language, whatever else is given. -/
theorem call_detectLanguage (framework format : Option Text) :
    (call t cwd detectLanguage.name ⟨some file, framework, format⟩ settings).value =
      ((Language.ofPath? (Path.ofText file)).map Language.name).getD "unsupported".toList := by
  rw [call_name, answer_detectLanguage rfl]
  rfl

/-- It answers `unsupported` exactly for a file without a language. -/
theorem call_detectLanguage_eq_unsupported_iff (framework format : Option Text) :
    (call t cwd detectLanguage.name ⟨some file, framework, format⟩ settings).value = "unsupported".toList ↔
      Language.ofPath? (Path.ofText file) = none := by
  rw [call_detectLanguage]
  cases Language.ofPath? (Path.ofText file) with
  | none => exact iff_of_true rfl rfl
  | some l => exact iff_of_false (by cases l <;> decide) (Option.some_ne_none l)

/-- The tool for frameworks answers the name of the one that is found, whatever else is given. -/
theorem call_detectFramework (framework format : Option Text) {f : Framework}
    (h : (locate t cwd (Path.ofText file) settings.searchDepth).value = .ok f) :
    (call t cwd detectFramework.name ⟨some file, framework, format⟩ settings).value = f.name := by
  rw [call_name, answer_detectFramework rfl, h]
  rfl

/-- Without a framework, a record is answered in the form that is asked for, and an error by its wording. -/
theorem call_analyze (format : Option Text) :
    (call t cwd Tool.analyze.name ⟨some file, none, format⟩ settings).value =
      reply (((SourceInventory.analyze t cwd file none settings.searchDepth).value.map (rendered format)).mapError .analysis) := by
  rw [call_name, answer_analyze rfl rfl]

/-- The answer to a file of no language is the answer to no other file. -/
theorem call_analyze_eq_unsupported_iff (format : Option Text) :
    (call t cwd Tool.analyze.name ⟨some file, none, format⟩ settings).value =
        "Error: Unsupported file type: ".toList ++ (Path.ofText file).suffix ↔
      Language.ofPath? (Path.ofText file) = none := by
  rw [call_analyze]
  constructor
  · intro h
    cases hlanguage : Language.ofPath? (Path.ofText file) with
    | none => rfl
    | some l =>
      exfalso
      cases hvalue : (SourceInventory.analyze t cwd file none settings.searchDepth).value with
      | ok a =>
        have hm : '\n' ∉ "Unsupported file type: ".toList ++ (Path.ofText file).suffix := by
          rw [List.mem_append, not_or]
          exact ⟨by decide, lineFeed_not_mem_suffix hlanguage⟩
        rw [hvalue] at h
        exact rendered_ne_error format a hm h
      | error e =>
        rw [hvalue] at h
        change "Error: ".toList ++ (ToolError.analysis e).message =
          "Error: ".toList ++ (ToolError.analysis (.unsupported (Path.ofText file).suffix)).message at h
        have hstage := ToolError.stage_eq_of_message (List.append_cancel_left h)
        cases e with
        | unsupported suffix => exact absurd (analyze_eq_unsupported_iff.1 ⟨suffix, hvalue⟩) (by simp [hlanguage])
        | unreadable => exact absurd hstage (by simp [ToolError.stage])
        | interrupted i => cases i <;> exact absurd hstage (by simp [ToolError.stage])
  · intro h
    rw [analyze_of_unsupported h]
    rfl

/-- If a file has a record, its language and its framework are the ones that the other tools answer, or no framework is found
and the record has the one of the language: pytest for an indented source, jest for a braced one. No language is answered
exactly if there is no record for want of a language. -/
theorem call_agrees (t : FileTree) (cwd : Location) (file : Text) (framework format framework' format' : Option Text)
    (settings : Configuration) :
    (∀ a : Analysis, (call t cwd Tool.analyze.name ⟨some file, none, none⟩ settings).value = a.toJson.indented →
      (call t cwd detectLanguage.name ⟨some file, framework, format⟩ settings).value = a.language.name ∧
      ((call t cwd detectFramework.name ⟨some file, framework', format'⟩ settings).value = a.framework.name ∨
        (call t cwd detectFramework.name ⟨some file, framework', format'⟩ settings).value = "unknown".toList ∧
          a.framework = if a.language = .python then .pytest else .jest)) ∧
    ((call t cwd detectLanguage.name ⟨some file, framework, format⟩ settings).value = "unsupported".toList ↔
      (call t cwd Tool.analyze.name ⟨some file, none, format'⟩ settings).value =
        "Error: Unsupported file type: ".toList ++ (Path.ofText file).suffix) := by
  refine ⟨fun a h => ?_, ?_⟩
  · rw [call_analyze] at h
    cases hvalue : (SourceInventory.analyze t cwd file none settings.searchDepth).value with
    | ok b =>
      rw [hvalue] at h
      obtain ⟨-, hlanguage, hframework, -⟩ := Analysis.indented_toJson_inj (a := b) (b := a) h
      obtain ⟨l, s, f, hl, -, hf, rfl⟩ := analyze_eq_ok_iff.1 hvalue
      rw [call_detectLanguage, call_detectFramework _ _ hf, hl, ← hlanguage, ← hframework]
      refine ⟨rfl, ?_⟩
      change f.name = (f.orDefault l).name ∨ f.name = "unknown".toList ∧ f.orDefault l = if l = .python then .pytest else .jest
      rw [Framework.orDefault_eq]
      split
      · rename_i hunknown
        exact Or.inr ⟨hunknown ▸ rfl, by cases l <;> rfl⟩
      · exact Or.inl rfl
    | error e =>
      rw [hvalue] at h
      have hhead := congrArg List.head? h
      have herror : ("Error: ".toList ++ (ToolError.analysis e).message).head? = some 'E' := rfl
      rw [head?_indented_toJson] at hhead
      exact absurd (herror.symm.trans hhead) (by decide)
  · rw [call_detectLanguage_eq_unsupported_iff, call_analyze_eq_unsupported_iff]

end Tool

end SourceInventory
