import SourceInventory.Proofs.Analysis.Source
import SourceInventory.Proofs.Extract.ExportPass
import SourceInventory.Proofs.Json.Unambiguous
import SourceInventory.Proofs.Json.Written
import SourceInventory.Proofs.Tool.Call

/-!
# Record: the answer of an analysis is its record

Every value that a record is put together from is a text, a list, or a number of things found in the source, so that the record
can be written and read back. The answer of the tool is the text of the record, and nothing of the record is lost in it
(`call_analyze_record`).
-/

namespace SourceInventory

/-! ## Numbers of things found -/

/-- In a text there are no more occurrences than characters. -/
theorem Pattern.length_scanFrom_le (p : Pattern) (anchor : Anchor) (before : Option Char) (skip : Nat) (s : Text) :
    (p.scanFrom anchor before skip s).length ≤ s.length := by
  induction s generalizing before skip with
  | nil => cases skip <;> exact Nat.le_refl 0
  | cons c s ih =>
    cases skip with
    | succ skip => exact Nat.le_succ_of_le (ih (some c) skip)
    | zero =>
      rw [scanFrom]
      split
      · exact Nat.succ_le_succ (ih _ _)
      · exact Nat.le_succ_of_le (ih _ _)

/-- There are at most four passes, so no more exports than four times the characters. -/
theorem Language.length_exports_le (l : Language) (source : Text) : (l.exports source).length ≤ 4 * source.length := by
  have bound := fun p anchor => Pattern.length_scanFrom_le p anchor none 0 source
  have braced : (Braced.exports source).length ≤ 4 * source.length := by
    have hnamed := bound Braced.namedFunction .anywhere
    have harrow := bound Braced.arrowFunction .anywhere
    have hclass := bound Braced.classDeclaration .anywhere
    have hdefault := bound Braced.defaultFunction .anywhere
    simp only [Braced.exports, Braced.namedPass, Braced.arrowPass, Braced.classPass, Braced.defaultPass, Pattern.occurrences,
      List.length_append, List.length_map]
    omega
  cases l with
  | javascript | typescript => exact braced
  | python =>
    have hfunction := Nat.le_trans (List.length_filterMap_le Indented.functionSymbol? _)
      (bound Indented.functionDefinition .lineStart)
    have hclass := bound Indented.classDefinition .lineStart
    simp only [Language.exports, Indented.exports, Indented.functionPass, Indented.classPass, Pattern.occurrences,
      List.length_append, List.length_map]
    omega

/-- What is exported is a function or a class. -/
theorem Analysis.functionCount_add_classCount (a : Analysis) : a.functionCount + a.classCount = a.exports.length := by
  have hkinds : ∀ s : Symbol, decide (s.kind = .classType) = !decide (s.kind = .function) := by
    intro s
    cases s.kind <;> rfl
  rw [functionCount, classCount, List.length_eq_countP_add_countP (·.kind = .function)]
  simp [hkinds]

/-! ## Records that can be written -/

namespace Json

variable {limit : ℕ∞}

/-- A record is an object of its keys, if it has none twice. -/
theorem Proper.record {ms : List (String × Json)} (hkeys : (ms.map (·.1)).Nodup) (h : ∀ m ∈ ms, Proper limit m.2) :
    Proper limit (.record ms) := by
  have hnodup : ((ms.map fun m => (m.1.toList, m.2)).map (·.1)).Nodup := by
    have hmap := List.Pairwise.map (S := (· ≠ ·)) String.toList (fun _ _ hne heq => hne (String.toList_injective heq)) hkeys
    rw [List.map_map] at hmap ⊢
    exact hmap
  have hvalues : ∀ m ∈ ms.map fun m => (m.1.toList, m.2), Proper limit m.2 := by
    intro m hm
    obtain ⟨x, hx, rfl⟩ := List.mem_map.1 hm
    exact h x hx
  have hobject := Proper.object hnodup hvalues
  rw [List.map_map] at hobject
  exact hobject

/-- A number of things is written within the limit of an integer if it is below a power of ten. -/
theorem proper_ofNat {n : Nat} (h : ((Text.ofNat n).length : ℕ∞) ≤ limit) : Proper limit (.ofNat n) := .number h

/-- A text, or that there is none, can be written. -/
theorem proper_ofText? (s : Option Text) : Proper limit (.ofText? s) := by
  cases s with
  | none => exact .null
  | some s => exact .string s

end Json

/-- The record of a method can be written. -/
theorem Method.proper_toJson {limit : ℕ∞} (m : Method) : m.toJson.Proper limit :=
  .record (by simp) (by simp [Json.Proper.string])

/-- The record of a symbol can be written. -/
theorem Symbol.proper_toJson {limit : ℕ∞} (s : Symbol) : s.toJson.Proper limit := by
  have hmethods : Json.Proper limit (.array (s.methods.map Method.toJson)) := by
    refine .array fun v hv => ?_
    obtain ⟨m, -, rfl⟩ := List.mem_map.1 hv
    exact m.proper_toJson
  exact .record (by simp) (by simp [Json.Proper.string, Json.Proper.bool, Json.proper_ofText?, hmethods])

/-- A record can be written if its counts have no more digits than an integer may have. -/
theorem Analysis.proper_toJson {limit : ℕ∞} {a : Analysis}
    (h : ∀ n ∈ [a.lineCount, a.functionCount, a.classCount], ((Text.ofNat n).length : ℕ∞) ≤ limit) : a.toJson.Proper limit := by
  have hexports : Json.Proper limit (.array (a.exports.map Symbol.toJson)) := by
    refine .array fun v hv => ?_
    obtain ⟨s, -, rfl⟩ := List.mem_map.1 hv
    exact s.proper_toJson
  have himports : Json.Proper limit (.array (a.imports.map .ofText)) := by
    refine .array fun v hv => ?_
    obtain ⟨s, -, rfl⟩ := List.mem_map.1 hv
    exact .string s
  simp only [List.forall_mem_cons] at h
  exact .record (by simp)
    (by simp [Json.Proper.string, hexports, himports, Json.proper_ofNat h.1, Json.proper_ofNat h.2.1, Json.proper_ofNat h.2.2.1])

/-! ## What a record tells -/

/-- A text, or that there is none, is told by its value. -/
theorem Json.ofText?_injective {s s' : Option Text} (h : ofText? s = ofText? s') : s = s' := by
  cases s <;> cases s'
  · rfl
  · exact absurd h (by simp [ofText?, ofText])
  · exact absurd h (by simp [ofText?, ofText])
  · exact congrArg some (ofText_injective (Json.string.inj h))

/-- The values of the members of an object are told by it. -/
theorem Json.map_snd_eq_of_record_eq {ms ms' : List (String × Json)} (h : record ms = record ms') :
    ms.map (·.2) = ms'.map (·.2) := by
  have hvalues := congrArg (List.map Prod.snd) (Json.object.inj h)
  rwa [List.map_map, List.map_map] at hvalues

/-- A kind is told by its name. -/
theorem SymbolKind.name_injective {k k' : SymbolKind} (h : k.name = k'.name) : k = k' := by
  cases k <;> cases k' <;> first | rfl | exact absurd h (by decide)

/-- A method is told by its record. -/
theorem Method.toJson_injective : Function.Injective Method.toJson := by
  intro m m' h
  have hvalues := Json.map_snd_eq_of_record_eq h
  simp only [List.map_cons, List.map_nil, List.cons.injEq, and_true] at hvalues
  obtain ⟨hname, hsignature⟩ := hvalues
  obtain ⟨name, signature⟩ := m
  obtain rfl : name = m'.name := Json.ofText_injective (Json.string.inj hname)
  obtain rfl : signature = m'.signature := Json.ofText_injective (Json.string.inj hsignature)
  rfl

/-- A symbol is told by its record. -/
theorem Symbol.toJson_injective : Function.Injective Symbol.toJson := by
  intro s s' h
  have hvalues := Json.map_snd_eq_of_record_eq h
  simp only [List.map_cons, List.map_nil, List.cons.injEq, and_true] at hvalues
  obtain ⟨hkind, hname, hsignature, hasync, hdefault, hbase, hmethods⟩ := hvalues
  obtain ⟨kind, name, signature, isAsync, isDefault, base, methods⟩ := s
  obtain rfl : kind = s'.kind := SymbolKind.name_injective (Json.ofText_injective (Json.string.inj hkind))
  obtain rfl : name = s'.name := Json.ofText_injective (Json.string.inj hname)
  obtain rfl : signature = s'.signature := Json.ofText_injective (Json.string.inj hsignature)
  obtain rfl : isAsync = s'.isAsync := Json.bool.inj hasync
  obtain rfl : isDefault = s'.isDefault := Json.bool.inj hdefault
  obtain rfl : base = s'.base := Json.ofText?_injective hbase
  obtain rfl : methods = s'.methods := (List.map_inj_right fun _ _ h => Method.toJson_injective h).1 (Json.array.inj hmethods)
  rfl

/-- Nothing of an analysis is lost in its record. -/
theorem Analysis.toJson_injective : Function.Injective Analysis.toJson := by
  intro a a' h
  have hvalues := Json.map_snd_eq_of_record_eq h
  simp only [List.map_cons, List.map_nil, List.cons.injEq, and_true] at hvalues
  obtain ⟨hfile, hlanguage, hframework, hsource, hexports, himports, -⟩ := hvalues
  obtain ⟨file, language, framework, source, exports, imports⟩ := a
  obtain rfl : file = a'.file := Json.ofText_injective (Json.string.inj hfile)
  obtain rfl : language = a'.language := Language.name_injective (Json.ofText_injective (Json.string.inj hlanguage))
  obtain rfl : framework = a'.framework := Framework.name_injective (Json.ofText_injective (Json.string.inj hframework))
  obtain rfl : source = a'.source := Json.ofText_injective (Json.string.inj hsource)
  obtain rfl : exports = a'.exports := (List.map_inj_right fun _ _ h => Symbol.toJson_injective h).1 (Json.array.inj hexports)
  obtain rfl : imports = a'.imports :=
    (List.map_inj_right fun _ _ h => Json.ofText_injective (Json.string.inj h)).1 (Json.array.inj himports)
  rfl

/-! ## Kinds of exports -/

/-- Whether a value is an object whose kind is the given text. -/
def Json.hasKind (kind : Text) : Json → Bool
  | .object ms =>
    match Json.member? (CodeText.ofText "kind".toList) ms with
    | some (.string s) => s = CodeText.ofText kind
    | _ => false
  | _ => false

/-- The record of a symbol has the name of its kind. -/
theorem Symbol.hasKind_toJson (k : SymbolKind) (s : Symbol) : s.toJson.hasKind k.name = decide (s.kind = k) := by
  have hname : CodeText.ofText s.kind.name = CodeText.ofText k.name ↔ s.kind = k :=
    ⟨fun h => SymbolKind.name_injective (Json.ofText_injective h), fun h => h ▸ rfl⟩
  simp [Json.hasKind, Symbol.toJson, Json.record, Json.member?, Json.ofText, hname]

/-- The exports of a kind can be counted in their records. -/
theorem Symbol.countP_hasKind (k : SymbolKind) (ss : List Symbol) :
    (ss.map Symbol.toJson).countP (·.hasKind k.name) = ss.countP (·.kind = k) := by
  rw [List.countP_map]
  exact List.countP_congr fun s _ => by rw [Function.comp_apply, s.hasKind_toJson k]

/-! ## The answer -/

/-- An analysis that succeeds is answered with the text of its record, unless the inventory is asked for. The record has its keys in
this order, and each export and each method is a record of its own with all its fields. The numbers of functions and classes are
those of the exports of either kind and add up to all of them, and the number of lines is one more than that of line feeds in the
source. By the grammar the text denotes the record and no other value, and it is read as the record, unless the source is so long
that a number might have more digits than an integer may have. No other analysis has the record. -/
theorem call_analyze_record (t : FileTree) (cwd : Location) {args : Arguments} {settings : Configuration} {file : Text}
    {given : Option Framework} {a : Analysis} (hfile : args.file = some file)
    (hgiven : Tool.requested args.framework = .ok given)
    (ha : (analyze t cwd file given settings.searchDepth).value = .ok a) (hformat : args.format ≠ some "text".toList) :
    let answer := (Tool.call t cwd Tool.analyze.name args settings).value
    let methods := fun s : Symbol => s.methods.map fun m =>
      Json.record [("name", .ofText m.name), ("signature", .ofText m.signature)]
    let exports := a.exports.map fun s =>
      Json.record
        [("kind", .ofText (if s.kind = .function then "function".toList else "class".toList)), ("name", .ofText s.name),
         ("signature", .ofText s.signature), ("is_async", .bool s.isAsync), ("is_default", .bool s.isDefault),
         ("base_name", s.base.elim .null .ofText), ("methods", .array (methods s))]
    a.toJson = .record
      [("file_path", .ofText file), ("language", .ofText a.language.name), ("framework", .ofText a.framework.name),
       ("source", .ofText a.source), ("exports", .array exports), ("imports", .array (a.imports.map .ofText)),
       ("line_count", .ofNat (a.source.count '\n' + 1)),
       ("function_count", .ofNat (exports.countP (·.hasKind "function".toList))),
       ("class_count", .ofNat (exports.countP (·.hasKind "class".toList)))] ∧
    exports.countP (·.hasKind "function".toList) + exports.countP (·.hasKind "class".toList) = exports.length ∧
    (∀ v, Json.Denotes ⊤ answer v ↔ v = a.toJson) ∧
    (4 * a.source.length + 1 < 10 ^ Json.integerDigits → Json.read answer = .ok a.toJson) ∧
    ∀ b : Analysis, b.toJson = a.toJson → b = a := by
  intro answer methods exports
  obtain ⟨language, source, framework, -, -, -, hrecord⟩ := analyze_eq_ok_iff.1 ha
  have hexports : exports = a.exports.map Symbol.toJson := by
    refine List.map_congr_left fun s _ => ?_
    have hkind : (if s.kind = .function then "function".toList else "class".toList) = s.kind.name := by cases s.kind <;> rfl
    have hbase : s.base.elim .null .ofText = Json.ofText? s.base := by cases s.base <;> rfl
    rw [hkind, hbase]
    rfl
  have hfunctions : exports.countP (·.hasKind "function".toList) = a.functionCount :=
    hexports ▸ Symbol.countP_hasKind .function a.exports
  have hclasses : exports.countP (·.hasKind "class".toList) = a.classCount :=
    hexports ▸ Symbol.countP_hasKind .classType a.exports
  have hlines : a.lineCount = a.source.count '\n' + 1 := Text.length_splitOn '\n' a.source
  have hsum := a.functionCount_add_classCount
  have hanswer : answer = a.toJson.indented := by
    change (Tool.call t cwd Tool.analyze.name args settings).value = _
    rw [Tool.call_name, Tool.answer_analyze hgiven hfile, ha]
    exact if_neg hformat
  have hdenotes : Json.Denotes ⊤ answer a.toJson := by
    rw [hanswer]
    exact Json.denotes_indented (Analysis.proper_toJson fun _ _ => le_top)
  refine ⟨?_, ?_, fun v => ⟨fun hv => hv.unique hdenotes, fun hv => hv ▸ hdenotes⟩, fun hshort => ?_,
    fun b hb => Analysis.toJson_injective hb⟩
  · have hnamed : a.file = file := by rw [hrecord]; rfl
    rw [hfunctions, hclasses, hexports, ← hlines, ← hnamed]
    rfl
  · rw [hfunctions, hclasses, hsum, List.length_map]
  · have hbound : a.exports.length ≤ 4 * a.source.length := by
      rw [hrecord]
      exact language.length_exports_le source
    have hcount : a.source.count '\n' ≤ a.source.length := List.count_le_length
    rw [hanswer]
    refine Json.read_indented (Analysis.proper_toJson fun n hn => Nat.cast_le.2 ?_)
    refine (Nat.length_toDigits_le_iff (by decide) (by decide)).2 (Nat.lt_of_le_of_lt ?_ hshort)
    simp only [List.mem_cons, List.not_mem_nil, or_false] at hn
    rcases hn with rfl | rfl | rfl
    all_goals omega

/-- A source with a quotation mark and a backslash in the parameters of a method. -/
def quotedDefault : Text := "export class A extends B \x7b\n  f(s = '\"\\') \x7b\x7d\n\x7d\n".toList

/-- The record of the source with a quotation mark is what is read in the answer, with the class, its base and its method. -/
theorem call_analyze_record_quotedDefault :
    (analyze (FileTree.ofFile ["a.js".toList] quotedDefault) [] "a.js".toList (some .mocha)).value =
      .ok (Analysis.ofSource "a.js".toList .javascript .mocha quotedDefault) ∧
    (Analysis.ofSource "a.js".toList .javascript .mocha quotedDefault).exports =
      [{ kind := .classType
         name := ['A']
         signature := "class A extends B".toList
         base := some ['B']
         methods := [⟨['f'], "f(s = '\"\\')".toList⟩] }] ∧
    Json.read (Tool.call (FileTree.ofFile ["a.js".toList] quotedDefault) [] Tool.analyze.name
      ⟨some "a.js".toList, some "mocha".toList, none⟩).value =
      .ok (Analysis.ofSource "a.js".toList .javascript .mocha quotedDefault).toJson := by
  have hread : (FileTree.ofFile ["a.js".toList] quotedDefault).read [] "a.js".toList = .ok quotedDefault :=
    FileTree.read_ofFile (List.cons_ne_nil _ _) (by decide) (by decide) (by decide)
  have hanalyze : (analyze (FileTree.ofFile ["a.js".toList] quotedDefault) [] "a.js".toList (some .mocha)
      Configuration.unset.searchDepth).value = .ok (Analysis.ofSource "a.js".toList .javascript .mocha quotedDefault) :=
    analyze_eq_ok_iff.2 ⟨.javascript, _, .mocha, by decide, hread, rfl, rfl⟩
  have hfile : (Arguments.mk (some "a.js".toList) (some "mocha".toList) none).file = some "a.js".toList := rfl
  have hrequested : Tool.requested (some "mocha".toList) = .ok (some .mocha) := by decide
  have hshort : 4 * quotedDefault.length + 1 < 10 ^ Json.integerDigits :=
    Nat.lt_of_lt_of_le (by decide : 4 * quotedDefault.length + 1 < 10 ^ 3) (Nat.pow_le_pow_right (by decide) (by decide))
  obtain ⟨-, -, -, hanswer, -⟩ := call_analyze_record _ [] hfile hrequested hanalyze (by simp)
  exact ⟨hanalyze, by decide +kernel, hanswer hshort⟩

end SourceInventory
