import SourceInventory.Proofs.Analysis.Outcome
import SourceInventory.Proofs.Path.Names
import SourceInventory.Tool

/-!
# Call: a tool under its name

A call of a tool by its name answers what the tool answers, or the wording of what went wrong after `Error:`. The two kinds of
answers are told apart by their text: a record as JSON begins with a brace, an inventory has a line feed, and the other answers
are names.
-/

namespace SourceInventory

/-! ## Wording of errors -/

namespace ToolError

/-- The place of an error in the order in which errors are looked for: the name of the tool, the framework asked for, the file
among the arguments, its suffix, its bytes, and last what ends a search. -/
def stage : ToolError → Nat
  | .unknownTool _ => 0
  | .unknownFramework _ => 1
  | .missingArgument _ => 2
  | .analysis (.unsupported _) => 3
  | .analysis (.unreadable _ _) => 4
  | .analysis (.interrupted .nullInPath) => 5
  | .analysis (.interrupted (.integerTooLong _)) => 6

/-- How the wording of an error begins, by its stage. -/
def openings : List Text :=
  ["Unknown t".toList, "Unknown f".toList, "Missing a".toList, "Unsupport".toList, "Cannot re".toList, "embedded ".toList,
   "Exceeds t".toList]

/-- A message begins as those of its stage do. -/
theorem openings_stage (e : ToolError) : openings[e.stage]? = some (e.message.take 9) := by
  cases e with
  | unknownTool | missingArgument | unknownFramework => rfl
  | analysis e =>
    cases e with
    | unsupported | unreadable => rfl
    | interrupted i => cases i <;> rfl

/-- The wording of an error tells at which stage it is found. -/
theorem stage_eq_of_message {e e' : ToolError} (h : e.message = e'.message) : e.stage = e'.stage := by
  have hstage := openings_stage e
  have hnodup : openings.Nodup := by decide
  obtain ⟨hlt, -⟩ := List.getElem?_eq_some_iff.1 hstage
  rw [h, ← openings_stage e'] at hstage
  exact (List.getElem?_inj hlt hnodup).1 hstage

end ToolError

namespace Tool

variable {t : FileTree} {cwd : Location} {tool : Tool} {a : Arguments} {settings : Configuration} {e : ToolError}

/-! ## Names -/

/-- A tool is found by its name. -/
theorem ofName?_name (tool : Tool) : ofName? tool.name = some tool := by cases tool <;> decide

/-- The names in the list are those of the tools. -/
theorem mem_names_iff {name : Text} : name ∈ all.map Tool.name ↔ ∃ tool : Tool, tool.name = name := by
  rw [List.mem_map]
  constructor
  · rintro ⟨tool, -, h⟩
    exact ⟨tool, h⟩
  · rintro ⟨tool, h⟩
    exact ⟨tool, by cases tool <;> decide, h⟩

/-! ## Replies -/

/-- The text that is answered: what was found, or what went wrong. -/
def reply : Except ToolError Text → Text
  | .ok s => s
  | .error e => "Error: ".toList ++ e.message

/-- What is told of a failure. -/
def complaint (tool : Tool) : Except ToolError Text → List Entry
  | .ok _ => []
  | .error e => if e.isTold then [⟨.error, tool.name ++ " failed: ".toList ++ e.message⟩] else []

/-- A tool is called by its name. -/
theorem call_name (t : FileTree) (cwd : Location) (tool : Tool) (args : Arguments) (settings : Configuration) :
    call t cwd tool.name args settings =
      ⟨reply (tool.answer t cwd args settings).value, (tool.answer t cwd args settings).log ++ tool.complaint (tool.answer t cwd args settings).value⟩ := by
  rw [call, ofName?_name]
  simp only [Logged.andThen]
  cases (tool.answer t cwd args settings).value with
  | ok s => rfl
  | error e =>
    dsimp only [reply, complaint]
    split <;> rfl

/-- A name of no tool is refused, and nothing is told. -/
theorem call_of_not_mem {name : Text} (h : name ∉ all.map Tool.name) (t : FileTree) (cwd : Location) (args : Arguments)
    (settings : Configuration) :
    call t cwd name args settings = .silent ("Error: Unknown tool: ".toList ++ name) := by
  have hnone : ofName? name = none := by
    rw [ofName?, List.find?_eq_none]
    intro tool htool hname
    exact h (List.mem_map.2 ⟨tool, htool, of_decide_eq_true hname⟩)
  rw [call, hnone]
  rfl

/-! ## Answers -/

/-- A framework is refused exactly if a name is given, not empty, by which none is chosen. -/
theorem requested_eq_error_iff {framework : Option Text} :
    requested framework = .error e ↔
      ∃ name, framework = some name ∧ name ≠ [] ∧ Framework.chosen? name = none ∧ e = .unknownFramework name := by
  cases framework with
  | none => simp [requested]
  | some name =>
    cases name with
    | nil => simp [requested]
    | cons c name =>
      simp only [requested, Option.some.injEq, exists_eq_left']
      cases Framework.chosen? (c :: name) with
      | none => simp [@eq_comm _ e]
      | some f => simp

/-- No framework is asked for exactly if no name is given or an empty one. -/
theorem requested_eq_none_iff {framework : Option Text} :
    requested framework = .ok none ↔ ∀ name, framework = some name → name = [] := by
  cases framework with
  | none => simp [requested]
  | some name =>
    cases name with
    | nil => simp [requested]
    | cons c name =>
      simp only [requested]
      cases Framework.chosen? (c :: name) <;> simp

/-- With a framework settled and a file given, what is answered is what the analysis comes to. -/
theorem answer_analyze {given : Option Framework} {file : Text} (hgiven : requested a.framework = .ok given)
    (hfile : a.file = some file) :
    (answer t cwd a settings .analyze).value =
      ((SourceInventory.analyze t cwd file given settings.searchDepth).value.map (rendered a.format)).mapError .analysis := by
  rw [answer, hgiven]
  dsimp only
  rw [required, hfile]
  rfl

/-- With a framework that is accepted and a file, the answer fails exactly if the analysis does. -/
theorem answer_analyze_eq_error_iff {given : Option Framework} {file : Text}
    (hgiven : requested a.framework = .ok given) (hfile : a.file = some file) :
    (answer t cwd a settings .analyze).value = .error e ↔
      ∃ x, (SourceInventory.analyze t cwd file given settings.searchDepth).value = .error x ∧ e = .analysis x := by
  rw [answer_analyze hgiven hfile]
  cases (SourceInventory.analyze t cwd file given settings.searchDepth).value with
  | ok r =>
    change Except.ok (rendered a.format r) = .error e ↔ _
    simp
  | error x =>
    change Except.error (ToolError.analysis x) = .error e ↔ _
    simp [eq_comm]

/-- Without a file no tool has an answer, unless another fault is answered before. -/
theorem answer_of_noFile (hfile : a.file = none) :
    (tool.answer t cwd a settings).value =
      match tool, requested a.framework with
      | .analyze, .error e => .error e
      | _, _ => .error (.missingArgument "file".toList) := by
  cases tool with
  | analyze =>
    rw [answer]
    cases requested a.framework with
    | error e => rfl
    | ok given => simp only [required, hfile, Logged.silent]
  | detectLanguage | detectFramework => simp only [answer, required, hfile, Logged.silent, Except.map]

/-- The language is told by its name, and `unsupported` where there is none. -/
theorem answer_detectLanguage {file : Text} (hfile : a.file = some file) :
    (answer t cwd a settings .detectLanguage).value =
      .ok (((Language.ofPath? (Path.ofText file)).map Language.name).getD "unsupported".toList) := by
  rw [answer, required, hfile]
  dsimp only [Except.map, Logged.silent]
  cases Language.ofPath? (Path.ofText file) <;> rfl

/-- The framework is that of the search, told by its name. -/
theorem answer_detectFramework {file : Text} (hfile : a.file = some file) :
    (answer t cwd a settings .detectFramework).value =
      ((locate t cwd (Path.ofText file) settings.searchDepth).value.map (·.name)).mapError
        fun i => .analysis (.interrupted i) := by
  rw [answer, required, hfile]
  rfl

/-- The answer fails exactly if the search is interrupted. -/
theorem answer_detectFramework_eq_error_iff {file : Text} (hfile : a.file = some file) :
    (answer t cwd a settings .detectFramework).value = .error e ↔
      ∃ i, (locate t cwd (Path.ofText file) settings.searchDepth).value = .error i ∧ e = .analysis (.interrupted i) := by
  rw [answer_detectFramework hfile]
  cases (locate t cwd (Path.ofText file) settings.searchDepth).value with
  | ok f =>
    change Except.ok f.name = .error e ↔ _
    simp
  | error i =>
    change Except.error (ToolError.analysis (.interrupted i)) = .error e ↔ _
    simp [eq_comm]

/-! ## Texts -/

/-- The text of an analysis has two lines at least. -/
theorem lineFeed_mem_toText (a : Analysis) : '\n' ∈ a.toText := by
  obtain ⟨first, second, rest, hlines⟩ : ∃ first second rest, a.textLines = first :: second :: rest := ⟨_, _, _, rfl⟩
  rw [Analysis.toText, hlines, Text.join_cons_cons]
  simp

/-- The record of an analysis begins with a brace. -/
theorem head?_indented_toJson (a : Analysis) : a.toJson.indented.head? = some '{' := rfl

/-- An error is answered by no text of a record that has no line feed. -/
theorem rendered_ne_error (format : Option Text) (a : Analysis) {m : Text} (hm : '\n' ∉ m) :
    rendered format a ≠ "Error: ".toList ++ m := by
  intro h
  rw [rendered] at h
  split at h
  · have hmem := lineFeed_mem_toText a
    rw [h, List.mem_append] at hmem
    exact hmem.elim (by decide) hm
  · have hhead := congrArg List.head? h
    have herror : ("Error: ".toList ++ m).head? = some 'E' := rfl
    rw [head?_indented_toJson, herror] at hhead
    exact absurd hhead (by decide)

/-- What a tool finds is told from an error by its text, if the error has no line feed. -/
theorem answer_ne_error {s m : Text} (h : (tool.answer t cwd a settings).value = .ok s) (hm : '\n' ∉ m) :
    s ≠ "Error: ".toList ++ m := by
  have of_head : ∀ {s : Text}, s.head? ≠ some 'E' → s ≠ "Error: ".toList ++ m := by
    rintro _ hhead rfl
    exact hhead rfl
  cases hfile : a.file with
  | none =>
    rw [answer_of_noFile hfile] at h
    split at h <;> exact absurd h (by simp)
  | some file =>
    cases tool with
    | analyze =>
      cases hgiven : requested a.framework with
      | error e =>
        rw [answer, hgiven] at h
        exact absurd h (by simp [Logged.silent])
      | ok given =>
        cases hvalue : (SourceInventory.analyze t cwd file given settings.searchDepth).value with
        | error x =>
          have herror := (answer_analyze_eq_error_iff hgiven hfile).2 ⟨x, hvalue, rfl⟩
          exact absurd (herror.symm.trans h) (by simp)
        | ok r =>
          rw [answer_analyze hgiven hfile, hvalue] at h
          exact Except.ok.inj h ▸ rendered_ne_error a.format r hm
    | detectLanguage =>
      rw [answer_detectLanguage hfile] at h
      obtain rfl := Except.ok.inj h
      cases Language.ofPath? (Path.ofText file) with
      | none => exact of_head (by decide)
      | some l => exact of_head (by cases l <;> decide)
    | detectFramework =>
      cases hvalue : (locate t cwd (Path.ofText file) settings.searchDepth).value with
      | error i =>
        have herror := (answer_detectFramework_eq_error_iff hfile).2 ⟨i, hvalue, rfl⟩
        exact absurd (herror.symm.trans h) (by simp)
      | ok f =>
        rw [answer_detectFramework hfile, hvalue] at h
        obtain rfl := Except.ok.inj h
        exact of_head (by cases f <;> decide)

/-! ## Log -/

/-- What is told during a call, apart from a failure, is below the level of errors. -/
theorem level_of_mem_log_answer {entry : Entry} (h : entry ∈ (tool.answer t cwd a settings).log) :
    entry.level = .debug ∨ entry.level = .info := by
  cases tool with
  | analyze =>
    rw [answer] at h
    split at h
    · exact absurd h List.not_mem_nil
    · split at h
      · exact absurd h List.not_mem_nil
      · rw [Logged.andThen] at h
        exact level_of_mem_log_analyze ((List.mem_append.1 h).resolve_right List.not_mem_nil)
  | detectLanguage => exact absurd h List.not_mem_nil
  | detectFramework =>
    rw [answer] at h
    split at h
    · exact absurd h List.not_mem_nil
    · rw [Logged.andThen] at h
      exact Or.inl (quiet_locate t cwd _ _ entry ((List.mem_append.1 h).resolve_right List.not_mem_nil))

/-- The entries of the level of errors are what is told of a failure. -/
theorem filter_log_call (t : FileTree) (cwd : Location) (tool : Tool) (a : Arguments) (settings : Configuration) :
    (call t cwd tool.name a settings).log.filter (·.level = .error) = tool.complaint (tool.answer t cwd a settings).value := by
  rw [call_name, List.filter_append, List.filter_eq_nil_iff.2, List.nil_append, List.filter_eq_self]
  · intro entry hentry
    cases hvalue : (tool.answer t cwd a settings).value with
    | ok s => exact absurd hentry (by simp [hvalue, complaint])
    | error e =>
      rw [hvalue, complaint] at hentry
      split at hentry
      · rw [List.mem_singleton.1 hentry]
        rfl
      · exact absurd hentry List.not_mem_nil
  · intro entry hentry
    rcases level_of_mem_log_answer hentry with h | h <;> simp [h]

end Tool

end SourceInventory
