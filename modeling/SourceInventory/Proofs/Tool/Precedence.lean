import SourceInventory.Proofs.Analysis.Outcome
import SourceInventory.Proofs.Json.Unescaped
import SourceInventory.Proofs.Tool.Call

/-!
# Precedence: which of several errors is answered

A call can be wrong in several ways at once (`Tool.Fault`), and each of them is said without regard to the others. The one that
is answered is found at the earliest stage: the framework asked for, the file among the arguments, its suffix, its bytes, and
last what ends a search. So a call without faults has an answer of its own, and a call with faults answers the first of them
(`call_reports_first`).
-/

namespace SourceInventory

/-! ## Arguments -/

namespace Arguments

/-- The value under a key, if the arguments are an object that has the key. -/
def value? (key : String) : Json → Option Json
  | .object ms => Json.member? (CodeText.ofText key.toList) ms
  | _ => none

/-- Null, or an object of texts and nulls in which the file, if there is one, is a text. -/
inductive Admitted : Json → Prop where
  | null : Admitted .null
  | object {ms : List (CodeText × Json)} (htexts : ∀ m ∈ ms, m.2 = .null ∨ ∃ s, m.2 = .ofText s)
      (hfile : ∀ v, value? "file" (.object ms) = some v → v ≠ .null) : Admitted (.object ms)

/-- An argument that is admitted is null or a text. -/
theorem Admitted.value? {args v : Json} (h : Admitted args) {key : String} (hv : value? key args = some v) :
    v = .null ∨ ∃ s, v = .ofText s := by
  cases h with
  | null => exact absurd hv (by simp [Arguments.value?])
  | object htexts =>
    obtain ⟨m, hm, rfl⟩ := Option.map_eq_some_iff.1 hv
    exact htexts m (List.mem_of_find?_eq_some hm)

/-- Under a key whose value is a text or null, the text is what is read. -/
theorem text?_eq_some_iff {key : String} {ms : List (CodeText × Json)} {s : Text}
    (h : ∀ v, value? key (.object ms) = some v → v = .null ∨ ∃ s, v = .ofText s) :
    text? key ms = some s ↔ value? key (.object ms) = some (.ofText s) := by
  have hread : ∀ s : Text, (CodeText.ofText s).map CodePoint.toChar = s := by
    intro s
    rw [CodeText.ofText, List.map_map]
    exact List.map_id'' CodePoint.toChar_ofChar s
  rw [text?]
  change _ ↔ Json.member? _ ms = _
  cases hmember : Json.member? (CodeText.ofText key.toList) ms with
  | none => simp
  | some v =>
    rcases h v hmember with rfl | ⟨s', rfl⟩
    · simp [Json.ofText]
    · simp only [Json.ofText, hread, Option.some.injEq, Json.string.injEq]
      exact ⟨fun h => h ▸ rfl, Json.ofText_injective⟩

/-- A file is given exactly by the argument for it. -/
theorem ofJson_file_eq_some_iff {args : Json} (h : Admitted args) {s : Text} :
    (ofJson args).file = some s ↔ value? "file" args = some (.ofText s) := by
  cases args with
  | object ms => exact text?_eq_some_iff fun v hv => h.value? hv
  | _ => simp [ofJson, value?]

/-- So is a framework. -/
theorem ofJson_framework_eq_some_iff {args : Json} (h : Admitted args) {s : Text} :
    (ofJson args).framework = some s ↔ value? "framework" args = some (.ofText s) := by
  cases args with
  | object ms => exact text?_eq_some_iff fun v hv => h.value? hv
  | _ => simp [ofJson, value?]

/-- No file is given exactly if there is no argument for it. -/
theorem ofJson_file_eq_none_iff {args : Json} (h : Admitted args) :
    (ofJson args).file = none ↔ value? "file" args = none := by
  constructor
  · intro hnone
    cases hv : value? "file" args with
    | none => rfl
    | some v =>
      exfalso
      rcases h.value? hv with rfl | ⟨s, rfl⟩
      · cases h with
        | null => exact absurd hv (by simp [value?])
        | object _ hfile => exact hfile _ hv rfl
      · rw [(ofJson_file_eq_some_iff h).2 hv] at hnone
        exact absurd hnone (by simp)
  · intro hnone
    cases hv : (ofJson args).file with
    | none => rfl
    | some s =>
      rw [(ofJson_file_eq_some_iff h).1 hv] at hnone
      exact absurd hnone (by simp)

end Arguments

/-! ## Faults -/

namespace Tool

/-- What is wrong with a call of a tool, each fault by itself: a call may have several. -/
inductive Fault (t : FileTree) (cwd : Location) (args : Json) (settings : Configuration) : Tool → ToolError → Prop where
  /-- No framework has the name that is asked for. -/
  | unknownFramework {name : Text} (hname : Arguments.value? "framework" args = some (.ofText name)) (hne : name ≠ [])
      (h : Framework.chosen? name = none) : Fault t cwd args settings .analyze (.unknownFramework name)
  /-- No file is given. -/
  | noFile {tool : Tool} (h : Arguments.value? "file" args = none) : Fault t cwd args settings tool (.missingArgument "file".toList)
  /-- No language has the suffix of the file. -/
  | unsupported {file : Text} (hfile : Arguments.value? "file" args = some (.ofText file))
      (h : Language.ofPath? (Path.ofText file) = none) :
      Fault t cwd args settings .analyze (.analysis (.unsupported (Path.ofText file).suffix))
  /-- The file cannot be opened or is no text. A path with a null character is not opened at all. -/
  | unreadable {file : Text} {cause : Unreadable} (hfile : Arguments.value? "file" args = some (.ofText file))
      (h : t.read cwd file = .error (.unreadable cause)) : Fault t cwd args settings .analyze (.analysis (.unreadable file cause))
  /-- The path of the file has a null character, so it names nothing. -/
  | nullInPath {file : Text} (hfile : Arguments.value? "file" args = some (.ofText file)) (h : '\x00' ∈ file) :
      Fault t cwd args settings .analyze (.analysis (.interrupted .nullInPath))
  /-- No framework is asked for, and the search for one is interrupted. -/
  | interrupted {file : Text} {i : Interruption} (hfile : Arguments.value? "file" args = some (.ofText file))
      (hframework : ∀ name, Arguments.value? "framework" args = some (.ofText name) → name = [])
      (h : (locate t cwd (Path.ofText file) settings.searchDepth).value = .error i) :
      Fault t cwd args settings .analyze (.analysis (.interrupted i))
  /-- The search that is asked for is interrupted. -/
  | notLocated {file : Text} {i : Interruption} (hfile : Arguments.value? "file" args = some (.ofText file))
      (h : (locate t cwd (Path.ofText file) settings.searchDepth).value = .error i) :
      Fault t cwd args settings .detectFramework (.analysis (.interrupted i))

/-- The fault that is found at the earliest stage. -/
def FirstFault (t : FileTree) (cwd : Location) (args : Json) (settings : Configuration) (tool : Tool) (e : ToolError) : Prop :=
  Fault t cwd args settings tool e ∧ ∀ e', Fault t cwd args settings tool e' → e.stage ≤ e'.stage

variable {t : FileTree} {cwd : Location} {args : Json} {settings : Configuration} {tool : Tool} {e e' : ToolError}

/-! ## Stages -/

/-- Every fault of a call comes after the name of its tool. -/
theorem Fault.stage_pos (h : Fault t cwd args settings tool e) : 0 < e.stage := by
  cases h with
  | unknownFramework | noFile | unsupported | unreadable | nullInPath => simp [ToolError.stage]
  | @interrupted _ i | @notLocated _ i => cases i <;> simp [ToolError.stage]

/-- The framework asked for is unknown, or it is settled whether and for which framework there is an analysis. -/
theorem requested_cases (t : FileTree) (cwd : Location) (settings : Configuration) (hargs : Arguments.Admitted args) :
    (∃ e, Fault t cwd args settings .analyze e ∧ e.stage = 1 ∧ requested (Arguments.ofJson args).framework = .error e) ∨
    ∃ given, requested (Arguments.ofJson args).framework = .ok given ∧
      (given = none ↔ ∀ name, Arguments.value? "framework" args = some (.ofText name) → name = []) := by
  cases hrequested : requested (Arguments.ofJson args).framework with
  | error e =>
    obtain ⟨name, hname, hne, hchosen, rfl⟩ := requested_eq_error_iff.1 hrequested
    exact Or.inl ⟨_, .unknownFramework ((Arguments.ofJson_framework_eq_some_iff hargs).1 hname) hne hchosen, rfl, rfl⟩
  | ok given =>
    refine Or.inr ⟨given, rfl, ?_⟩
    simp only [← Arguments.ofJson_framework_eq_some_iff hargs, ← requested_eq_none_iff, hrequested, Except.ok.injEq]

/-- What is answered as an error is a fault. -/
theorem fault_of_answer (hargs : Arguments.Admitted args) (h : (tool.answer t cwd (.ofJson args) settings).value = .error e) :
    Fault t cwd args settings tool e := by
  cases hfile : (Arguments.ofJson args).file with
  | none =>
    have hvalue := (Arguments.ofJson_file_eq_none_iff hargs).1 hfile
    rw [answer_of_noFile hfile] at h
    cases tool with
    | detectLanguage | detectFramework => exact Except.error.inj h ▸ .noFile hvalue
    | analyze =>
      rcases requested_cases t cwd settings hargs with ⟨_, hfault, -, hrequested⟩ | ⟨given, hrequested, -⟩
      · rw [hrequested] at h
        exact Except.error.inj h ▸ hfault
      · rw [hrequested] at h
        exact Except.error.inj h ▸ .noFile hvalue
  | some file =>
    have hvalue := (Arguments.ofJson_file_eq_some_iff hargs).1 hfile
    cases tool with
    | detectLanguage =>
      rw [answer, required, hfile] at h
      exact absurd h (by simp [Logged.silent, Except.map])
    | detectFramework =>
      obtain ⟨i, hi, rfl⟩ := (answer_detectFramework_eq_error_iff hfile).1 h
      exact .notLocated hvalue hi
    | analyze =>
      rcases requested_cases t cwd settings hargs with ⟨_, hfault, -, hrequested⟩ | ⟨given, hrequested, hgiven⟩
      · rw [answer, hrequested] at h
        exact Except.error.inj h ▸ hfault
      · obtain ⟨x, hx, rfl⟩ := (answer_analyze_eq_error_iff hrequested hfile).1 h
        have houtcome := outcome_analyze t cwd file given settings.searchDepth
        generalize SourceInventory.analyze t cwd file given settings.searchDepth = r at houtcome hx
        cases houtcome with
        | unsupported hlanguage => exact Except.error.inj hx ▸ .unsupported hvalue hlanguage
        | nullInPath _ hnull => exact Except.error.inj hx ▸ .nullInPath hvalue hnull
        | unreadable _ hread => exact Except.error.inj hx ▸ .unreadable hvalue hread
        | interrupted _ _ hi =>
          cases given with
          | none => exact Except.error.inj hx ▸ .interrupted hvalue (hgiven.1 rfl) hi
          | some f => exact absurd hi (by simp [givenOrLocated, Logged.silent])
        | record => exact absurd hx (by simp)

/-- A fault of the file that the analysis fails with is answered, unless there is one at an earlier stage. -/
theorem answered_or_earlier_of_analyze (hargs : Arguments.Admitted args) {file : Text} {x : AnalysisError}
    (hfile : Arguments.value? "file" args = some (.ofText file)) (hstage : 1 < (ToolError.analysis x).stage)
    (h : ∀ given, (given = none ↔ ∀ name, Arguments.value? "framework" args = some (.ofText name) → name = []) →
      (SourceInventory.analyze t cwd file given settings.searchDepth).value = .error x ∨
        ∃ e', Fault t cwd args settings .analyze e' ∧ e'.stage < (ToolError.analysis x).stage) :
    (answer t cwd (.ofJson args) settings .analyze).value = .error (.analysis x) ∨
      ∃ e', Fault t cwd args settings .analyze e' ∧ e'.stage < (ToolError.analysis x).stage := by
  rcases requested_cases t cwd settings hargs with ⟨e, hfault, he, -⟩ | ⟨given, hrequested, hgiven⟩
  · exact Or.inr ⟨e, hfault, he ▸ hstage⟩
  · refine (h given hgiven).imp_left fun hvalue => ?_
    have hsome := (Arguments.ofJson_file_eq_some_iff hargs).2 hfile
    exact (answer_analyze_eq_error_iff hrequested hsome).2 ⟨x, hvalue, rfl⟩

/-- A fault is answered unless there is one at an earlier stage. -/
theorem Fault.answered_or_earlier (hargs : Arguments.Admitted args) (h : Fault t cwd args settings tool e) :
    (tool.answer t cwd (.ofJson args) settings).value = .error e ∨ ∃ e', Fault t cwd args settings tool e' ∧ e'.stage < e.stage := by
  cases h with
  | @unknownFramework name hname hne hchosen =>
    have hrequested := requested_eq_error_iff.2
      ⟨name, (Arguments.ofJson_framework_eq_some_iff hargs).2 hname, hne, hchosen, rfl⟩
    rw [answer, hrequested]
    exact Or.inl rfl
  | noFile hvalue =>
    have hfile := (Arguments.ofJson_file_eq_none_iff hargs).2 hvalue
    rw [answer_of_noFile hfile]
    cases tool with
    | detectLanguage | detectFramework => exact Or.inl rfl
    | analyze =>
      rcases requested_cases t cwd settings hargs with ⟨e, hfault, he, -⟩ | ⟨given, hrequested, -⟩
      · exact Or.inr ⟨e, hfault, he ▸ Nat.lt_succ_self 1⟩
      · rw [hrequested]
        exact Or.inl rfl
  | @unsupported file hfile hlanguage =>
    refine answered_or_earlier_of_analyze hargs hfile (by simp [ToolError.stage]) fun given _ => Or.inl ?_
    rw [analyze_of_unsupported hlanguage]
    rfl
  | @unreadable file cause hfile hread =>
    refine answered_or_earlier_of_analyze hargs hfile (by simp [ToolError.stage]) fun given _ => ?_
    cases hlanguage : Language.ofPath? (Path.ofText file) with
    | none => exact Or.inr ⟨_, .unsupported hfile hlanguage, by simp [ToolError.stage]⟩
    | some language => exact Or.inl (by rw [analyze_of_unreadable hlanguage hread]; rfl)
  | @nullInPath file hfile hnull =>
    refine answered_or_earlier_of_analyze hargs hfile (by simp [ToolError.stage]) fun given _ => ?_
    cases hlanguage : Language.ofPath? (Path.ofText file) with
    | none => exact Or.inr ⟨_, .unsupported hfile hlanguage, by simp [ToolError.stage]⟩
    | some language => exact Or.inl (by rw [analyze_of_nullInPath hlanguage hnull]; rfl)
  | @interrupted file i hfile hframework hi =>
    have hstage : 4 < (ToolError.analysis (.interrupted i)).stage := by cases i <;> simp [ToolError.stage]
    refine answered_or_earlier_of_analyze hargs hfile (by omega) fun given hgiven => ?_
    obtain rfl := hgiven.2 hframework
    cases hlanguage : Language.ofPath? (Path.ofText file) with
    | none => exact Or.inr ⟨_, .unsupported hfile hlanguage, Nat.lt_trans (by simp [ToolError.stage]) hstage⟩
    | some language =>
      cases hread : t.read cwd file with
      | ok s => exact Or.inl (by rw [analyze_of_read hlanguage hread, givenOrLocated, hi])
      | error fault =>
        cases fault with
        | unreadable cause => exact Or.inr ⟨_, .unreadable hfile hread, hstage⟩
        | nullInPath =>
          have hnull := FileTree.read_eq_nullInPath_iff.1 hread
          cases i with
          | nullInPath => exact Or.inl (by rw [analyze_of_nullInPath hlanguage hnull]; rfl)
          | integerTooLong n => exact Or.inr ⟨_, .nullInPath hfile hnull, by simp [ToolError.stage]⟩
  | notLocated hfile hi =>
    exact Or.inl ((answer_detectFramework_eq_error_iff ((Arguments.ofJson_file_eq_some_iff hargs).2 hfile)).2 ⟨_, hi, rfl⟩)

/-- Of several faults there is a first one. -/
theorem Fault.exists_first (h : Fault t cwd args settings tool e) : ∃ e', FirstFault t cwd args settings tool e' := by
  -- the stages go down from fault to earlier fault
  induction hn : e.stage using Nat.strongRecOn generalizing e with
  | ind n ih =>
    by_cases hearlier : ∃ e', Fault t cwd args settings tool e' ∧ e'.stage < e.stage
    · obtain ⟨e', h', hlt⟩ := hearlier
      exact ih e'.stage (hn ▸ hlt) h' rfl
    · exact ⟨e, h, fun e' h' => Nat.not_lt.1 fun hlt => hearlier ⟨e', h', hlt⟩⟩

/-- What is answered as an error is the first fault. -/
theorem answer_eq_error_iff (hargs : Arguments.Admitted args) :
    (tool.answer t cwd (.ofJson args) settings).value = .error e ↔ FirstFault t cwd args settings tool e := by
  have answered : ∀ {e}, FirstFault t cwd args settings tool e → (tool.answer t cwd (.ofJson args) settings).value = .error e := by
    intro e h
    refine (h.1.answered_or_earlier hargs).resolve_right ?_
    rintro ⟨e', h', hlt⟩
    exact Nat.not_lt.2 (h.2 e' h') hlt
  refine ⟨fun h => ?_, answered⟩
  obtain ⟨e', h'⟩ := (fault_of_answer hargs h).exists_first
  obtain rfl := Except.error.inj (h.symm.trans (answered h'))
  exact h'

/-! ## Calls -/

/-- A call of a tool of no known name is refused under that name, and nothing is told. Any other call is answered: the first of
its faults, if there is one, by its wording after `Error:`, and otherwise what the tool finds. Faults come in the order of their
stages: for a record the framework asked for, the file, its suffix, its bytes and last what ends a search, and for the other
tools the file first. A fault is told once at the level of errors, unless it is that no file is given, and nothing else is told
at this level. -/
theorem call_reports_first {args : Json} (hargs : Arguments.Admitted args) (t : FileTree) (cwd : Location) (name : Text)
    (settings : Configuration) :
    ((call t cwd name (.ofJson args) settings).value = "Error: Unknown tool: ".toList ++ name ↔ name ∉ all.map Tool.name) ∧
    (name ∉ all.map Tool.name → (call t cwd name (.ofJson args) settings).log = []) ∧
    ∀ tool : Tool, tool.name = name →
      ((∃ e, Fault t cwd args settings tool e) → ∃ e, FirstFault t cwd args settings tool e) ∧
      (∀ e, FirstFault t cwd args settings tool e →
        (call t cwd name (.ofJson args) settings).value = "Error: ".toList ++ e.message ∧
        (call t cwd name (.ofJson args) settings).log.filter (·.level = .error) =
          if e = .missingArgument "file".toList then [] else [⟨.error, name ++ " failed: ".toList ++ e.message⟩]) ∧
      ((∀ e, ¬Fault t cwd args settings tool e) →
        (tool.answer t cwd (.ofJson args) settings).value = .ok (call t cwd name (.ofJson args) settings).value ∧
        (call t cwd name (.ofJson args) settings).log.filter (·.level = .error) = []) := by
  refine ⟨⟨fun h hmem => ?_, fun h => by rw [call_of_not_mem h]; rfl⟩, fun h => by rw [call_of_not_mem h]; rfl, ?_⟩
  · obtain ⟨tool, rfl⟩ := mem_names_iff.1 hmem
    rw [call_name] at h
    cases hvalue : (tool.answer t cwd (.ofJson args) settings).value with
    | ok s =>
      have hm : '\n' ∉ "Unknown tool: ".toList ++ tool.name := by cases tool <;> decide
      rw [hvalue] at h
      exact answer_ne_error hvalue hm h
    | error e =>
      rw [hvalue] at h
      change "Error: ".toList ++ e.message = "Error: ".toList ++ (ToolError.unknownTool tool.name).message at h
      have hstage := ToolError.stage_eq_of_message (List.append_cancel_left h)
      exact absurd hstage (Nat.ne_of_gt (fault_of_answer hargs hvalue).stage_pos)
  · rintro tool rfl
    refine ⟨fun ⟨e, h⟩ => h.exists_first, fun e h => ?_, fun h => ?_⟩
    · have hvalue := (answer_eq_error_iff hargs).2 h
      rw [filter_log_call, call_name, hvalue]
      refine ⟨rfl, ?_⟩
      cases h.1 <;> rfl
    · cases hvalue : (tool.answer t cwd (.ofJson args) settings).value with
      | error e => exact absurd (fault_of_answer hargs hvalue) (h e)
      | ok s =>
        rw [filter_log_call, call_name, hvalue]
        exact ⟨rfl, rfl⟩

/-- Arguments with an unknown framework and without a file. -/
def frameworkAlone : Json := .record [("framework", .ofText "nose".toList), ("format", .null)]

theorem call_frameworkAlone :
    Arguments.Admitted frameworkAlone ∧
    (call .empty [] Tool.analyze.name (.ofJson frameworkAlone)).value = "Error: Unknown framework: nose".toList ∧
    (call .empty [] Tool.analyze.name (.ofJson frameworkAlone)).log.filter (·.level = .error) =
      [⟨.error, "testscout_analyze failed: Unknown framework: nose".toList⟩] := by
  have hfile : Arguments.value? "file" frameworkAlone = none := rfl
  have hargs : Arguments.Admitted frameworkAlone := by
    refine .object (fun m hm => ?_) fun v hv => absurd (hfile.symm.trans hv) (by simp)
    rcases List.mem_cons.1 hm with rfl | hm
    · exact Or.inr ⟨_, rfl⟩
    · rw [List.mem_singleton.1 hm]
      exact Or.inl rfl
  have hfirst : FirstFault .empty [] frameworkAlone .unset .analyze (.unknownFramework "nose".toList) :=
    ⟨.unknownFramework rfl (by decide) (by decide), fun e h => h.stage_pos⟩
  exact ⟨hargs, ((call_reports_first hargs .empty [] Tool.analyze.name .unset).2.2 .analyze rfl).2.1 _ hfirst⟩

end Tool

end SourceInventory
