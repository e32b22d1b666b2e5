import SourceInventory.Analysis
import SourceInventory.Proofs.FileTree.Read

/-!
# Outcome: what an analysis comes to

A file is looked at in stages, each with its own failure: its suffix, its path, its bytes, the framework of its project. The
first stage that fails decides, whatever the later ones would say, and only a file that passes all of them has a record
(`analyze_outcome`). What is told on the way is of the level of debugging; that a record was made is told once, at the end.
-/

namespace SourceInventory

/-! ## What is told during a search -/

namespace Logged

/-- Only entries of the level of debugging are told. -/
def Quiet {α : Type} (a : Logged α) : Prop := ∀ e ∈ a.log, e.level = .debug

/-- A value about which nothing is told is quiet. -/
theorem quiet_silent {α : Type} (a : α) : (silent a).Quiet := fun _ h => absurd h List.not_mem_nil

theorem quiet_telling {α : Type} (message : Text) (a : α) : (telling .debug message a).Quiet := by
  intro e he
  rw [List.mem_singleton.1 he]

/-- Quiet steps are quiet one after another. -/
theorem Quiet.andThen {α β : Type} {a : Logged α} {f : α → Logged β} (ha : a.Quiet) (hf : ∀ x, (f x).Quiet) :
    (a.andThen f).Quiet := fun e he => (List.mem_append.1 he).elim (ha e) (hf _ e)

end Logged

open Logged in

/-- A probe and then another one is quiet if both are. -/
theorem Probe.quiet_orElse {p q : Probe} (hp : p.Quiet) (hq : q.Quiet) : (p.orElse q).Quiet := by
  rw [orElse]
  split
  · exact fun e he => (List.mem_append.1 he).elim (hp e) (hq e)
  · exact hp

namespace Locate

open Logged

variable {t : FileTree} {cwd : Location}

/-- A probe of a file is quiet if that of its text is. -/
theorem quiet_probeFile {file : Path} {probe : Text → Probe} (h : ∀ s, (probe s).Quiet) :
    (probeFile t cwd file probe).Quiet := by
  rw [probeFile]
  split
  · exact h _
  · exact quiet_silent _
  · exact quiet_telling _ _

/-- A probe of a directory is quiet. -/
theorem quiet_probeDirectory (dir : Path) : (probeDirectory t cwd dir).Quiet := by
  have hmanifest : (probeManifest t cwd dir).Quiet := by
    refine quiet_probeFile fun s => ?_
    split
    · exact quiet_silent _
    · exact quiet_silent _
    · exact quiet_telling _ _
  have hproject : (probeProject t cwd dir).Quiet := quiet_probeFile fun s => quiet_silent _
  refine Quiet.andThen (Probe.quiet_orElse (Probe.quiet_orElse hmanifest hproject) (quiet_silent _)) fun r => ?_
  split
  · exact quiet_telling _ _
  · exact quiet_silent _

theorem quiet_probeAll (dirs : List Path) : (probeAll t cwd dirs).Quiet := by
  induction dirs with
  | nil => exact quiet_silent _
  | cons dir dirs ih => exact Probe.quiet_orElse (quiet_probeDirectory dir) ih

end Locate

/-- A search tells nothing above the level of debugging. -/
theorem quiet_locate (t : FileTree) (cwd : Location) (file : Path) (parents : Int) : (locate t cwd file parents).Quiet :=
  Locate.quiet_probeAll _

/-! ## Stages -/

/-- Only where no framework is known that of the language stands in. -/
theorem Framework.orDefault_eq (l : Language) (f : Framework) : f.orDefault l = if f = .unknown then default l else f := by
  cases f <;> rfl

variable {t : FileTree} {cwd : Location} {file : Text} {given : Option Framework} {parents : Int} {language : Language}

/-- A file without a language is not analyzed, and nothing is told. -/
theorem analyze_of_unsupported (h : Language.ofPath? (Path.ofText file) = none) :
    analyze t cwd file given parents = .silent (.error (.unsupported (Path.ofText file).suffix)) := by
  rw [analyze, h]

/-- A path with a null character is an interruption, and nothing is told. -/
theorem analyze_of_nullInPath (hlanguage : Language.ofPath? (Path.ofText file) = some language) (hfile : '\x00' ∈ file) :
    analyze t cwd file given parents = .silent (.error (.interrupted .nullInPath)) := by
  rw [analyze, hlanguage]
  simp only [FileTree.read_eq_nullInPath_iff.2 hfile]

/-- A file that can not be read is not analyzed, and nothing is told. -/
theorem analyze_of_unreadable (hlanguage : Language.ofPath? (Path.ofText file) = some language) {cause : Unreadable}
    (h : t.read cwd file = .error (.unreadable cause)) :
    analyze t cwd file given parents = .silent (.error (.unreadable file cause)) := by
  rw [analyze, hlanguage]
  simp only [h]

/-- A file whose text is read has a record unless its framework cannot be found. -/
theorem analyze_of_read (hlanguage : Language.ofPath? (Path.ofText file) = some language) {s : Text}
    (h : t.read cwd file = .ok s) :
    analyze t cwd file given parents =
      match (givenOrLocated t cwd file given parents).value with
      | .error i => ⟨.error (.interrupted i), (givenOrLocated t cwd file given parents).log⟩
      | .ok f =>
        ⟨.ok (.ofSource file language f s),
          (givenOrLocated t cwd file given parents).log ++ [⟨.info, (Analysis.ofSource file language f s).summary⟩]⟩ := by
  rw [analyze, hlanguage]
  simp only [h, Logged.andThen]
  cases (givenOrLocated t cwd file given parents).value with
  | error i => simp [Logged.silent]
  | ok f => rfl

/-- The stages at which an analysis can end, and what it comes to there. -/
inductive AnalysisOutcome (t : FileTree) (cwd : Location) (file : Text) (given : Option Framework) (parents : Int) :
    Logged (Except AnalysisError Analysis) → Prop where
  /-- No language has the suffix. -/
  | unsupported (h : Language.ofPath? (Path.ofText file) = none) :
      AnalysisOutcome t cwd file given parents ⟨.error (.unsupported (Path.ofText file).suffix), []⟩
  /-- The path names nothing. -/
  | nullInPath {language : Language} (hlanguage : Language.ofPath? (Path.ofText file) = some language)
      (hfile : '\x00' ∈ file) : AnalysisOutcome t cwd file given parents ⟨.error (.interrupted .nullInPath), []⟩
  /-- The file is not read. -/
  | unreadable {language : Language} {cause : Unreadable} (hlanguage : Language.ofPath? (Path.ofText file) = some language)
      (hread : t.read cwd file = .error (.unreadable cause)) :
      AnalysisOutcome t cwd file given parents ⟨.error (.unreadable file cause), []⟩
  /-- The search for a framework is interrupted. -/
  | interrupted {language : Language} {s : Text} {i : Interruption}
      (hlanguage : Language.ofPath? (Path.ofText file) = some language) (hread : t.read cwd file = .ok s)
      (hgiven : (givenOrLocated t cwd file given parents).value = .error i) :
      AnalysisOutcome t cwd file given parents ⟨.error (.interrupted i), (givenOrLocated t cwd file given parents).log⟩
  /-- There is a record. -/
  | record {language : Language} {s : Text} {f : Framework}
      (hlanguage : Language.ofPath? (Path.ofText file) = some language) (hread : t.read cwd file = .ok s)
      (hgiven : (givenOrLocated t cwd file given parents).value = .ok f) :
      AnalysisOutcome t cwd file given parents ⟨.ok (.ofSource file language f s),
        (givenOrLocated t cwd file given parents).log ++ [⟨.info, (Analysis.ofSource file language f s).summary⟩]⟩

/-- An analysis ends at one of the stages. -/
theorem outcome_analyze (t : FileTree) (cwd : Location) (file : Text) (given : Option Framework) (parents : Int) :
    AnalysisOutcome t cwd file given parents (analyze t cwd file given parents) := by
  cases hlanguage : Language.ofPath? (Path.ofText file) with
  | none => exact analyze_of_unsupported hlanguage ▸ .unsupported hlanguage
  | some language =>
    cases hread : t.read cwd file with
    | error e =>
      cases e with
      | nullInPath =>
        have hfile := FileTree.read_eq_nullInPath_iff.1 hread
        exact analyze_of_nullInPath hlanguage hfile ▸ .nullInPath hlanguage hfile
      | unreadable cause => exact analyze_of_unreadable hlanguage hread ▸ .unreadable hlanguage hread
    | ok s =>
      rw [analyze_of_read hlanguage hread]
      split
      · rename_i hgiven
        exact .interrupted hlanguage hread hgiven
      · rename_i hgiven
        exact .record hlanguage hread hgiven

/-- A file is refused for its suffix exactly if it has no language. -/
theorem analyze_eq_unsupported_iff :
    (∃ suffix, (analyze t cwd file given parents).value = .error (.unsupported suffix)) ↔
      Language.ofPath? (Path.ofText file) = none := by
  have houtcome := outcome_analyze t cwd file given parents
  generalize analyze t cwd file given parents = r at houtcome
  cases houtcome with
  | unsupported h => simp [h]
  | nullInPath h | unreadable h | interrupted h | record h => simp [h]

/-- A file of some language cannot be read if and only if its text is not read from the tree. -/
theorem analyze_eq_unreadable_iff {path : Text} {cause : Unreadable} :
    (analyze t cwd file given parents).value = .error (.unreadable path cause) ↔
      path = file ∧ Language.ofPath? (Path.ofText file) ≠ none ∧ t.read cwd file = .error (.unreadable cause) := by
  have houtcome := outcome_analyze t cwd file given parents
  generalize analyze t cwd file given parents = r at houtcome
  cases houtcome with
  | unsupported h => simp [h]
  | nullInPath h hfile => simp [FileTree.read_eq_nullInPath_iff.2 hfile]
  | unreadable h hread => simp [h, hread, eq_comm]
  | interrupted h hread | record h hread => simp [hread]

/-- A record is made of the language of the file, the text that is read under its path and the framework that is given or
found. -/
theorem analyze_eq_ok_iff {a : Analysis} :
    (analyze t cwd file given parents).value = .ok a ↔
      ∃ language source framework, Language.ofPath? (Path.ofText file) = some language ∧ t.read cwd file = .ok source ∧
        (givenOrLocated t cwd file given parents).value = .ok framework ∧
        a = Analysis.ofSource file language framework source := by
  rw [analyze]
  cases hlanguage : Language.ofPath? (Path.ofText file) with
  | none => simp [Logged.silent]
  | some language =>
    cases hread : t.read cwd file with
    | error e => cases e <;> simp [Logged.silent]
    | ok source =>
      simp only [Logged.andThen]
      cases hframework : (givenOrLocated t cwd file given parents).value with
      | error i => simp [Logged.silent]
      | ok framework => simp [Logged.telling, eq_comm]

/-- Neither a framework that is given nor the search for one tells anything above the level of debugging. -/
theorem quiet_givenOrLocated (t : FileTree) (cwd : Location) (file : Text) (given : Option Framework) (parents : Int) :
    (givenOrLocated t cwd file given parents).Quiet := by
  cases given with
  | none => exact quiet_locate t cwd _ _
  | some f => exact Logged.quiet_silent _

/-- A failure is not told. -/
theorem quiet_analyze_of_error {e : AnalysisError} (h : (analyze t cwd file given parents).value = .error e) :
    (analyze t cwd file given parents).Quiet := by
  have houtcome := outcome_analyze t cwd file given parents
  generalize analyze t cwd file given parents = r at houtcome h
  cases houtcome with
  | unsupported | nullInPath | unreadable => exact Logged.quiet_silent _
  | interrupted => exact quiet_givenOrLocated t cwd file given parents
  | record => exact absurd h (by simp)

/-- A record is told after everything else, and what is told before is of the level of debugging. -/
theorem log_analyze_of_ok {a : Analysis} (h : (analyze t cwd file given parents).value = .ok a) :
    (analyze t cwd file given parents).log = (givenOrLocated t cwd file given parents).log ++ [⟨.info, a.summary⟩] := by
  have houtcome := outcome_analyze t cwd file given parents
  generalize analyze t cwd file given parents = r at houtcome h
  cases houtcome with
  | unsupported | nullInPath | unreadable | interrupted => exact absurd h (by simp)
  | record => rw [← Except.ok.inj h]

/-- An analysis tells nothing above the level of information. -/
theorem level_of_mem_log_analyze {entry : Entry} (h : entry ∈ (analyze t cwd file given parents).log) :
    entry.level = .debug ∨ entry.level = .info := by
  cases hvalue : (analyze t cwd file given parents).value with
  | error e => exact Or.inl (quiet_analyze_of_error hvalue entry h)
  | ok a =>
    rw [log_analyze_of_ok hvalue, List.mem_append, List.mem_singleton] at h
    rcases h with h | rfl
    · exact Or.inl (quiet_givenOrLocated t cwd file given parents entry h)
    · exact Or.inr rfl

/-- A file comes to one outcome, decided in this order. (1) It is refused with its suffix exactly if the suffix is that of no
language, whatever the tree holds. (2) A null character in its path ends the analysis. (3) Otherwise it cannot be read exactly if
the path leads to no file with the bytes of a text; neither the framework asked for nor any other file of the tree nor how far a
framework is looked for matters for this. (4) Otherwise the analysis fails exactly if no framework is given and the search for one
does, with the same interruption. (5) Otherwise there is a record, for the framework given or found, or for that of the language
if this is "unknown", and this is told once, after what the search tells. A failure is not told. -/
theorem analyze_outcome (t : FileTree) (cwd : Location) (file : Text) (given : Option Framework) (parents : Int) :
    ((∃ suffix, (analyze t cwd file given parents).value = .error (.unsupported suffix)) ↔
      Language.ofPath? (Path.ofText file) = none) ∧
    (Language.ofPath? (Path.ofText file) = none →
      analyze t cwd file given parents = ⟨.error (.unsupported (Path.ofText file).suffix), []⟩) ∧
    (∀ language, Language.ofPath? (Path.ofText file) = some language →
      ('\x00' ∈ file → analyze t cwd file given parents = ⟨.error (.interrupted .nullInPath), []⟩) ∧
      ('\x00' ∉ file →
        ((∃ cause, analyze t cwd file given parents = ⟨.error (.unreadable file cause), []⟩) ↔ ¬∃ s, t.Holds cwd file s) ∧
        ∀ s, t.Holds cwd file s →
          (∀ e, (analyze t cwd file given parents).value = .error e ↔
            given = none ∧ ∃ i, (locate t cwd (Path.ofText file) parents).value = .error i ∧
              e = .interrupted i) ∧
          ∀ f, given = some f ∨ given = none ∧ (locate t cwd (Path.ofText file) parents).value = .ok f →
            ∃ a, (analyze t cwd file given parents).value = .ok a ∧ a.file = file ∧ a.language = language ∧
              a.framework = (if f = .unknown then .default language else f) ∧ a.source = s ∧
              a.exports = language.exports s ∧ a.imports = language.imports s ∧
              (analyze t cwd file given parents).log =
                (if given = none then (locate t cwd (Path.ofText file) parents).log else [])
                  ++ [⟨.info, a.summary⟩])) ∧
    (∀ (t' : FileTree) (given' : Option Framework) (parents' : Int), t'.bytes cwd file = t.bytes cwd file → ∀ path cause,
      ((analyze t' cwd file given' parents').value = .error (.unreadable path cause) ↔
        (analyze t cwd file given parents).value = .error (.unreadable path cause))) ∧
    (∀ a, (analyze t cwd file given parents).value = .ok a →
      (analyze t cwd file given parents).log.filter (·.level = .info) = [⟨.info, a.summary⟩]) ∧
    (∀ e, (analyze t cwd file given parents).value = .error e → ∀ entry ∈ (analyze t cwd file given parents).log, entry.level ≠ .info) := by
  refine ⟨analyze_eq_unsupported_iff, fun h => analyze_of_unsupported h, fun language hlanguage => ⟨fun hfile =>
    analyze_of_nullInPath hlanguage hfile, fun hfile => ⟨?_, fun s hs => ⟨fun e => ?_, fun f hf => ?_⟩⟩⟩, ?_, ?_, ?_⟩
  · have hread : (∃ cause, t.read cwd file = .error (.unreadable cause)) ↔ ¬∃ s, t.Holds cwd file s :=
      FileTree.exists_read_eq_unreadable_iff.trans (and_iff_right hfile)
    rw [← hread]
    constructor
    · rintro ⟨cause, h⟩
      exact ⟨cause, (analyze_eq_unreadable_iff.1 (congrArg Logged.value h)).2.2⟩
    · rintro ⟨cause, h⟩
      exact ⟨cause, analyze_of_unreadable hlanguage h⟩
  · rw [analyze_of_read hlanguage (FileTree.read_eq_ok_iff.2 ⟨hfile, hs⟩)]
    cases given with
    | some f => simp [givenOrLocated, Logged.silent]
    | none =>
      cases hlocated : (locate t cwd (Path.ofText file) parents).value with
      | error i => simp [givenOrLocated, hlocated, eq_comm]
      | ok f => simp [givenOrLocated, hlocated]
  · have hgiven : givenOrLocated t cwd file given parents =
        ⟨.ok f, if given = none then (locate t cwd (Path.ofText file) parents).log else []⟩ := by
      rcases hf with rfl | ⟨rfl, hf⟩
      · rfl
      · rw [if_pos rfl, ← hf]
        rfl
    rw [analyze_of_read hlanguage (FileTree.read_eq_ok_iff.2 ⟨hfile, hs⟩), hgiven]
    exact ⟨_, rfl, rfl, rfl, Framework.orDefault_eq language f, rfl, rfl, rfl, rfl⟩
  · intro t' given' parents' hbytes path cause
    have hread : t'.read cwd file = t.read cwd file := by rw [FileTree.read, FileTree.read, hbytes]
    rw [analyze_eq_unreadable_iff, analyze_eq_unreadable_iff, hread]
  · intro a ha
    rw [log_analyze_of_ok ha, List.filter_append, List.filter_eq_nil_iff.2 ?_]
    · rfl
    · intro entry hentry
      simp [quiet_givenOrLocated t cwd file given parents entry hentry]
  · intro e he entry hentry
    simp [quiet_analyze_of_error he entry hentry]

end SourceInventory
