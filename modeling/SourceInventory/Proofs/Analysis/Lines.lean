import Mathlib
import SourceInventory.Proofs.Analysis.Outcome
import SourceInventory.Proofs.Extract.Symbols
import SourceInventory.Proofs.FileTree.Read

/-!
# Lines of an inventory

The inventory of a file has an entry for each symbol, for each method and for the imports. An entry shows what was captured from
the source as it was written, with the line feeds in it. So the inventory has a line for each entry and one more for each line
feed that was captured (`length_lines_toText`), and each entry has a line of its own exactly if none was. Only lists of
parameters, lists of what a class of an indented source is derived from and the names of modules of a braced source can bring
line feeds (`analyze_lines_iff`).
-/

namespace SourceInventory

/-! ## Line feeds of joined texts -/

namespace Text

/-- A character of joined texts stands in one of them or in a separator. -/
theorem count_join (c : Char) (sep p : Text) (ps : List Text) :
    (join sep (p :: ps)).count c = ((p :: ps).map (·.count c)).sum + ps.length * sep.count c := by
  induction ps generalizing p with
  | nil => simp [join]
  | cons q ps ih =>
    rw [join_cons_cons, List.count_append, List.count_append, ih q, List.map_cons (l := q :: ps), List.sum_cons,
      List.length_cons, Nat.succ_mul]
    omega

/-- Joined by line feeds, texts have a line each, and one more for each line feed in them. -/
theorem length_lines_join (p : Text) (ps : List Text) :
    (lines (join ['\n'] (p :: ps))).length = (p :: ps).length + ((p :: ps).map (·.count '\n')).sum := by
  rw [lines, length_splitOn, count_join, List.length_cons, List.count_singleton_self]
  omega

/-- The decimal text of a number has no line feed. -/
theorem lineFeed_not_mem_ofNat (n : Nat) : '\n' ∉ ofNat n := by
  intro h
  have hdigit := Nat.isDigit_of_mem_toDigits (by decide) (by decide) h
  exact absurd hdigit (by decide)

end Text

namespace Analysis

/-! ## Entries -/

/-- The number of entries of an inventory: two about the file, one for each symbol, for each class with methods one and one for
each of them, and one for the imports, if there are any. -/
def entryCount (a : Analysis) : Nat :=
  2 + a.exports.length
    + ((a.exports.filter fun s => s.kind = .classType ∧ s.methods ≠ []).map fun s => 1 + s.methods.length).sum
    + if a.imports.isEmpty then 0 else 1

/-- The number of line feeds that were captured with the signatures and the names of modules. -/
def capturedBreaks (a : Analysis) : Nat :=
  (a.exports.map fun s => s.signature.count '\n' + (s.methods.map fun m => m.signature.count '\n').sum).sum
    + (a.imports.map fun i => i.count '\n').sum

/-- A symbol has a line of its own, and a class with methods has one for their heading and one for each. -/
theorem length_symbolLines (s : Symbol) :
    (symbolLines s).length = 1 + if s.kind = .classType ∧ s.methods ≠ [] then 1 + s.methods.length else 0 := by
  rw [symbolLines]
  cases s.kind with
  | function => simp
  | classType =>
    cases s.methods with
    | nil => simp
    | cons m ms => simp [Nat.add_comm]

/-- The text of an analysis has as many entries as are counted. -/
theorem length_textLines (a : Analysis) : a.textLines.length = a.entryCount := by
  have hsymbols : ∀ ss : List Symbol, (ss.flatMap symbolLines).length = ss.length +
      ((ss.filter fun s => s.kind = .classType ∧ s.methods ≠ []).map fun s => 1 + s.methods.length).sum := by
    intro ss
    induction ss with
    | nil => rfl
    | cons s ss ih =>
      rw [List.flatMap_cons, List.length_append, ih, length_symbolLines, List.length_cons, List.filter_cons]
      split
      · rename_i hs
        rw [if_pos (decide_eq_true hs), List.map_cons, List.sum_cons]
        omega
      · rename_i hs
        rw [if_neg (by simpa using hs)]
        omega
  have himports : ∀ t : Text, (if a.imports.isEmpty then [] else [t]).length = if a.imports.isEmpty then 0 else 1 := by
    intro t
    split <;> rfl
  rw [textLines, List.length_append, List.length_append, hsymbols, himports, entryCount, ← Nat.add_assoc]
  rfl

/-- A symbol brings the line feeds of its signature and of the signatures of its methods. -/
theorem count_symbolLines {s : Symbol} (hs : s.kind = .function → s.methods = []) :
    ((symbolLines s).map fun line => line.count '\n').sum =
      s.signature.count '\n' + (s.methods.map fun m => m.signature.count '\n').sum := by
  rw [symbolLines]
  cases hkind : s.kind with
  | function =>
    have hasync : (if s.isAsync then "async ".toList else []).count '\n' = 0 := by split <;> rfl
    simp only [hs hkind, List.map_cons, List.map_nil, List.sum_cons, List.sum_nil, List.count_append, hasync]
    exact Nat.zero_add _
  | classType =>
    have hmethods : ∀ ms : List Method, ((ms.map fun m => "    - ".toList ++ m.signature).map fun line => line.count '\n') =
        ms.map fun m => m.signature.count '\n' := by
      intro ms
      rw [List.map_map]
      refine List.map_congr_left fun m _ => ?_
      rw [Function.comp_apply, List.count_append]
      exact Nat.zero_add _
    rw [List.map_cons, List.sum_cons, List.count_append]
    cases s.methods with
    | nil => exact congrArg (· + 0) (Nat.zero_add _)
    | cons m ms =>
      rw [if_neg (by simp), List.map_cons (l := (m :: ms).map _), List.sum_cons, hmethods]
      exact congrArg₂ (· + ·) (Nat.zero_add _) (Nat.zero_add _)

/-- The entries bring the line feeds that were captured, and the name of the file brings its own. -/
theorem count_textLines {a : Analysis} (hname : '\n' ∉ (Path.ofText a.file).name)
    (hfunctions : ∀ s ∈ a.exports, s.kind = .function → s.methods = []) :
    (a.textLines.map fun line => line.count '\n').sum = a.capturedBreaks := by
  have hlanguage : a.language.name.count '\n' = 0 := by cases a.language <;> rfl
  have hframework : a.framework.name.count '\n' = 0 := by cases a.framework <;> rfl
  have hnumber : ∀ n, (Text.ofNat n).count '\n' = 0 := fun n => List.count_eq_zero.2 (Text.lineFeed_not_mem_ofNat n)
  have hsymbols : ∀ ss : List Symbol, (∀ s ∈ ss, s.kind = .function → s.methods = []) →
      ((ss.flatMap symbolLines).map fun line => line.count '\n').sum =
        (ss.map fun s => s.signature.count '\n' + (s.methods.map fun m => m.signature.count '\n').sum).sum := by
    intro ss hss
    induction ss with
    | nil => rfl
    | cons s ss ih =>
      rw [List.flatMap_cons, List.map_append, List.sum_append, count_symbolLines (hss s List.mem_cons_self),
        ih fun x hx => hss x (List.mem_cons_of_mem s hx), List.map_cons, List.sum_cons]
  have himports : ((if a.imports.isEmpty then [] else ["Imports: ".toList ++ Text.join ", ".toList a.imports]).map
      fun line => line.count '\n').sum = (a.imports.map fun i => i.count '\n').sum := by
    cases a.imports with
    | nil => rfl
    | cons i is =>
      rw [if_neg (by simp), List.map_singleton, List.sum_singleton, List.count_append, Text.count_join]
      exact Nat.zero_add _
  rw [textLines, List.map_append, List.map_append, List.sum_append, List.sum_append, hsymbols _ hfunctions, himports,
    capturedBreaks]
  simp only [List.map_cons, List.map_nil, List.sum_cons, List.sum_nil, List.count_append, List.count_eq_zero.2 hname,
    hlanguage, hframework, hnumber]
  exact congrArg (· + _) (Nat.zero_add _)

/-- An inventory has a line for each entry and one more for each line feed that was captured. -/
theorem length_lines_toText {a : Analysis} (hname : '\n' ∉ (Path.ofText a.file).name)
    (hfunctions : ∀ s ∈ a.exports, s.kind = .function → s.methods = []) :
    (Text.lines a.toText).length = a.entryCount + a.capturedBreaks := by
  rw [← length_textLines, ← count_textLines hname hfunctions]
  exact Text.length_lines_join _ _

/-- No line feed is captured exactly if none stands in a signature or in the name of a module. -/
theorem capturedBreaks_eq_zero_iff (a : Analysis) :
    a.capturedBreaks = 0 ↔
      (∀ s ∈ a.exports, '\n' ∉ s.signature ∧ ∀ m ∈ s.methods, '\n' ∉ m.signature) ∧ ∀ i ∈ a.imports, '\n' ∉ i := by
  simp only [capturedBreaks, Nat.add_eq_zero_iff, List.sum_eq_zero_iff_forall_eq_nat, List.forall_mem_map, List.count_eq_zero]

/-- If no line feed was captured, the lines of the inventory are its entries. -/
theorem lines_toText {a : Analysis} (hname : '\n' ∉ (Path.ofText a.file).name)
    (hfunctions : ∀ s ∈ a.exports, s.kind = .function → s.methods = []) (h : a.capturedBreaks = 0) :
    Text.lines a.toText = a.textLines := by
  rw [← count_textLines hname hfunctions, List.sum_eq_zero_iff_forall_eq_nat] at h
  refine Text.splitOn_join fun line hline => ?_
  exact List.count_eq_zero.1 (h _ (List.mem_map_of_mem hline))

end Analysis

/-! ## Where line feeds come from -/

/-- A word has no line feed. -/
theorem lineFeed_not_mem_of_isWord {w : Text} (h : ∀ c ∈ w, isWord c = true) : '\n' ∉ w :=
  fun hmem => absurd (h _ hmem) (by decide)

/-- A line feed in the signature of a function with a plain name stands in its parameters. -/
theorem lineFeed_mem_callSignature {name params : Text} (hname : '\n' ∉ name) (h : '\n' ∈ callSignature name params) :
    '\n' ∈ params := by
  simpa [callSignature, hname] using h

/-- In the signature of a method the line feeds are in the list of its parameters. -/
theorem Method.Formed.lineFeed_mem {m : Method} (hm : m.Formed) (h : '\n' ∈ m.signature) :
    ∃ params, m.signature = callSignature m.name params ∧ '\n' ∈ params := by
  obtain ⟨params, hsignature⟩ := hm.signature
  exact ⟨params, hsignature, lineFeed_mem_callSignature (lineFeed_not_mem_of_isWord hm.isWord_name) (hsignature ▸ h)⟩

/-- In the signature of a symbol the line feeds are in the list of its parameters, or in the list of what a class of an
indented source is derived from. -/
theorem Symbol.Formed.lineFeed_mem {l : Language} {s : Symbol} (hs : s.Formed l) (h : '\n' ∈ s.signature) :
    (∃ params, s.signature = callSignature s.name params ∧ '\n' ∈ params) ∨
      l = .python ∧ ∃ base, s.base = some base ∧ '\n' ∈ base := by
  have hname := lineFeed_not_mem_of_isWord hs.isWord_name
  have hclass : '\n' ∉ "class ".toList := by decide
  cases hs.signed with
  | function params hkind hsignature hmethods =>
    exact Or.inl ⟨params, hsignature, lineFeed_mem_callSignature hname (hsignature ▸ h)⟩
  | plain hkind hsignature =>
    rw [hsignature] at h
    exact absurd h fun h => (List.mem_append.1 h).elim hclass hname
  | derived base hkind hbase hsignature =>
    have hextends : '\n' ∉ " extends ".toList := by decide
    rw [hsignature, List.mem_append, List.mem_append, List.mem_append] at h
    rcases h with ((h | h) | h) | h
    · exact absurd h hclass
    · exact absurd h hname
    · exact absurd h hextends
    · exact absurd h (lineFeed_not_mem_of_isWord hbase)
  | listed base hlanguage hkind hbase hsignature =>
    rw [hsignature] at h
    refine Or.inr ⟨hlanguage, base, hbase, ?_⟩
    exact lineFeed_mem_callSignature hname ((List.mem_append.1 h).resolve_left hclass)

/-- The inventory of a file whose name has no line feed has a line for each entry and one more for each line feed that was
captured. So each entry has one line exactly if no signature and no name of a module that was captured has a line feed, and
then the lines are the entries. The line feeds stand in lists of parameters, in lists of what a class of an indented source is
derived from, and in names of modules of a braced source, and nowhere else. -/
theorem analyze_lines_iff {t : FileTree} {cwd : Location} {file : Text} {given : Option Framework} {parents : Int} {a : Analysis}
    (h : (analyze t cwd file given parents).value = .ok a) (hname : '\n' ∉ (Path.ofText file).name) :
    (Text.lines a.toText).length = a.entryCount + a.capturedBreaks ∧
    ((Text.lines a.toText).length = a.entryCount ↔
      (∀ s ∈ a.exports, '\n' ∉ s.signature ∧ ∀ m ∈ s.methods, '\n' ∉ m.signature) ∧ ∀ i ∈ a.imports, '\n' ∉ i) ∧
    (Text.lines a.toText = a.textLines ↔ (Text.lines a.toText).length = a.entryCount) ∧
    (∀ s ∈ a.exports, '\n' ∈ s.signature →
      (∃ params, s.signature = callSignature s.name params ∧ '\n' ∈ params) ∨
        a.language = .python ∧ ∃ base, s.base = some base ∧ '\n' ∈ base) ∧
    (∀ s ∈ a.exports, ∀ m ∈ s.methods, '\n' ∈ m.signature →
      ∃ params, m.signature = callSignature m.name params ∧ '\n' ∈ params) ∧
    (a.language = .python → ∀ i ∈ a.imports, '\n' ∉ i) := by
  obtain ⟨language, source, framework, -, -, -, rfl⟩ := analyze_eq_ok_iff.1 h
  have hformed : ∀ s ∈ language.exports source, s.Formed language := fun s hs => formed_of_mem_exports hs
  have hfunctions : ∀ s ∈ language.exports source, s.kind = .function → s.methods = [] :=
    fun s hs => (hformed s hs).methods_eq_nil
  have hlength := Analysis.length_lines_toText (a := Analysis.ofSource file language framework source) hname hfunctions
  have hnone : ∀ {k n : Nat}, k = n + (Analysis.ofSource file language framework source).capturedBreaks →
      (k = n ↔ (Analysis.ofSource file language framework source).capturedBreaks = 0) := by
    intro k n hk
    omega
  refine ⟨hlength, ?_, ?_, fun s hs hbreak => (hformed s hs).lineFeed_mem hbreak,
    fun s hs m hm hbreak => ((hformed s hs).formed_methods m hm).lineFeed_mem hbreak, ?_⟩
  · rw [hnone hlength, Analysis.capturedBreaks_eq_zero_iff]
  · constructor
    · intro hlines
      rw [hlines, Analysis.length_textLines]
    · intro hlines
      exact Analysis.lines_toText hname hfunctions ((hnone hlength).1 hlines)
  · rintro rfl i hi hbreak
    exact absurd (Indented.isDotted_of_mem_imports hi _ hbreak) (by decide)

/-- A source with a list of parameters on two lines. -/
def listOnTwoLines : Text := "export function f(a,\nb) \x7b\x7d".toList

/-- A source with a list on two lines is analyzed. -/
theorem analyze_listOnTwoLines :
    (analyze (FileTree.ofFile ["a.js".toList] listOnTwoLines) [] "a.js".toList (some .jest)).value =
      .ok (Analysis.ofSource "a.js".toList .javascript .jest listOnTwoLines) := by
  have hread : (FileTree.ofFile ["a.js".toList] listOnTwoLines).read [] "a.js".toList = .ok listOnTwoLines :=
    FileTree.read_ofFile (List.cons_ne_nil _ _) (by decide) (by decide) (by decide)
  exact analyze_eq_ok_iff.2 ⟨.javascript, _, .jest, by decide, hread, rfl, rfl⟩

theorem analyze_lines_listOnTwoLines :
    (analyze (FileTree.ofFile ["a.js".toList] listOnTwoLines) [] "a.js".toList (some .jest)).value =
      .ok (Analysis.ofSource "a.js".toList .javascript .jest listOnTwoLines) ∧
    '\n' ∉ (Path.ofText "a.js".toList).name ∧
    (Text.lines (Analysis.ofSource "a.js".toList .javascript .jest listOnTwoLines).toText).length =
      (Analysis.ofSource "a.js".toList .javascript .jest listOnTwoLines).entryCount + 1 := by
  have hname : '\n' ∉ (Path.ofText "a.js".toList).name := by decide
  have hbreaks : (Analysis.ofSource "a.js".toList .javascript .jest listOnTwoLines).capturedBreaks = 1 := by decide +kernel
  have h := (analyze_lines_iff analyze_listOnTwoLines hname).1
  rw [hbreaks] at h
  exact ⟨analyze_listOnTwoLines, hname, h⟩

/-- Not every inventory has a line for each of its entries: a list of parameters is shown as it was written, on two lines. -/
theorem analyze_lines_false :
    ¬ ∀ (t : FileTree) (cwd : Location) (file : Text) (given : Option Framework) (a : Analysis),
      (analyze t cwd file given).value = .ok a → '\n' ∉ (Path.ofText file).name →
        (Text.lines a.toText).length = a.entryCount := by
  intro h
  have hlines := h _ _ _ _ _ analyze_listOnTwoLines (by decide)
  have hmore : (Text.lines (Analysis.ofSource "a.js".toList .javascript .jest listOnTwoLines).toText).length ≠
      (Analysis.ofSource "a.js".toList .javascript .jest listOnTwoLines).entryCount := by decide +kernel
  exact hmore hlines

end SourceInventory
