import SourceInventory.Proofs.Extract.ExportPass
import SourceInventory.Proofs.Pattern.Consumed

/-!
# Forms of symbols: what a signature is put together from

Every name that is extracted is made of word characters. The signature of a function or a method is its name with a list of
parameters. The signature of a class has only words, or, in an indented source, the list of what it is derived from as it was
written (`formed_of_mem_exports`).
-/

namespace SourceInventory

open Pattern

/-- How a method is shown. -/
structure Method.Formed (m : Method) : Prop where
  /-- The name is a word. -/
  isWord_name : ∀ c ∈ m.name, isWord c = true
  /-- The signature has a list of parameters after the name. -/
  signature : ∃ params, m.signature = callSignature m.name params

/-- How the signature of a symbol of a language is put together. -/
inductive Symbol.Signed (l : Language) (s : Symbol) : Prop where
  /-- A function has a list of parameters after its name, and no methods. -/
  | function (params : Text) : s.kind = .function → s.signature = callSignature s.name params → s.methods = [] → Signed l s
  /-- A class that is derived from nothing. -/
  | plain : s.kind = .classType → s.signature = "class ".toList ++ s.name → Signed l s
  /-- A class that is derived from a word. -/
  | derived (base : Text) : s.kind = .classType → (∀ c ∈ base, isWord c = true) →
      s.signature = "class ".toList ++ s.name ++ " extends ".toList ++ base → Signed l s
  /-- A class that is derived from a list. -/
  | listed (base : Text) : l = .python → s.kind = .classType → s.base = some base →
      s.signature = "class ".toList ++ callSignature s.name base → Signed l s

/-- How a symbol of a language is shown. -/
structure Symbol.Formed (l : Language) (s : Symbol) : Prop where
  /-- The name is a word. -/
  isWord_name : ∀ c ∈ s.name, isWord c = true
  /-- The signature is put together from the name and what was captured. -/
  signed : s.Signed l
  /-- So are the signatures of the methods. -/
  formed_methods : ∀ m ∈ s.methods, m.Formed

/-- Functions have no methods. -/
theorem Symbol.Formed.methods_eq_nil {l : Language} {s : Symbol} (hs : s.Formed l) (h : s.kind = .function) :
    s.methods = [] := by
  have hclass : s.kind ≠ .classType := fun h' => absurd (h.symm.trans h') (by decide)
  cases hs.signed with
  | function params hkind hsignature hmethods => exact hmethods
  | plain hkind | derived base hkind | listed base hlanguage hkind => exact absurd hkind hclass

/-! ## Names -/

/-- The name of a method is a word. -/
theorem Method.fieldReads_name : Method.pattern.FieldReads (isWord · = true) .name := by
  simp [Method.pattern, Method.modifiers, Method.head, keyword, lit, blanks, nonemptyRun, gap, word, parenthesised, upTo,
    fieldReads_append, onlyReads_append, FieldReads, OnlyReads]

/-- So is the name of any declaration. -/
theorem ExportPass.fieldReads_name (pass : ExportPass) : pass.pattern.FieldReads (isWord · = true) .name := by
  cases pass <;>
    simp [pattern, Braced.namedFunction, Braced.arrowFunction, Braced.classDeclaration, Braced.defaultFunction,
      Indented.functionDefinition, Indented.classDefinition, keyword, lit, blanks, nonemptyRun, gap, word, parenthesised, upTo,
      fieldReads_append, onlyReads_append, FieldReads, OnlyReads]

/-- The base of a class in a braced source is a word. -/
theorem Braced.fieldReads_base : Braced.classDeclaration.FieldReads (isWord · = true) .base := by
  simp [Braced.classDeclaration, keyword, lit, blanks, nonemptyRun, word, fieldReads_append, onlyReads_append, FieldReads,
    OnlyReads]

/-! ## Methods -/

theorem Method.formed_of_ofOccurrence? {s : Text} {d : Derivation} {m : Method} (hd : Derives pattern s d)
    (h : ofOccurrence? d = some m) : m.Formed := by
  rw [ofOccurrence?] at h
  split at h
  · exact absurd h (Option.some_ne_none m).symm
  · obtain rfl := Option.some.inj h
    exact ⟨fieldReads_name.get hd, _, rfl⟩

/-- The methods of a class are made of occurrences in its body. -/
theorem Method.exists_of_mem_ofDeclaration {declaration : Text} {m : Method} (h : m ∈ ofDeclaration declaration) :
    ∃ body, classBody? declaration = some body ∧
      ∃ o ∈ pattern.occurrences .anywhere body, ofOccurrence? o.toDerivation = some m := by
  rw [ofDeclaration] at h
  cases hbody : classBody? declaration with
  | none => rw [hbody] at h; exact absurd h List.not_mem_nil
  | some body =>
    rw [hbody] at h
    exact ⟨body, rfl, List.mem_filterMap.1 (h : m ∈ ofBody body)⟩

theorem Method.formed_of_mem_ofDeclaration {declaration : Text} {m : Method} (h : m ∈ ofDeclaration declaration) :
    m.Formed := by
  obtain ⟨body, -, o, ho, hm⟩ := exists_of_mem_ofDeclaration h
  exact formed_of_ofOccurrence? (derives_of_first? (first?_of_mem_scanFrom ho)) hm

/-! ## Symbols -/

/-- A symbol that a pass over a source of a language makes of an occurrence is well formed. -/
theorem ExportPass.formed_of_symbol? {l : Language} {pass : ExportPass} (hpass : pass ∈ ofLanguage l) {o : Occurrence}
    {s : Symbol} (ho : Derives pass.pattern o.start o.toDerivation) (h : pass.symbol? o = some s) : s.Formed l := by
  have hname := pass.fieldReads_name.get ho
  have hnone : ∀ m ∈ ([] : List Method), m.Formed := fun m hm => absurd hm List.not_mem_nil
  cases pass with
  | namedFunction | arrowFunction =>
    obtain rfl := Option.some.inj h
    exact ⟨hname, .function _ rfl rfl rfl, hnone⟩
  | classDeclaration =>
    obtain rfl := Option.some.inj h
    refine ⟨hname, ?_, fun m hm => Method.formed_of_mem_ofDeclaration hm⟩
    cases hbase : o.get? .base with
    | none => exact .plain rfl (by simp only [Braced.classSymbol, hbase])
    | some b => exact .derived b rfl (Braced.fieldReads_base.get? ho hbase) (by simp only [Braced.classSymbol, hbase])
  | defaultFunction =>
    obtain rfl := Option.some.inj h
    refine ⟨?_, .function _ rfl rfl rfl, hnone⟩
    change ∀ c ∈ (if (o.get .name).isEmpty then Braced.defaultName else o.get .name), isWord c = true
    split
    · exact List.all_eq_true.1 (by decide)
    · exact hname
  | functionDefinition =>
    rw [symbol?, Indented.functionSymbol?] at h
    split at h
    · exact absurd h (Option.some_ne_none s).symm
    · obtain rfl := Option.some.inj h
      exact ⟨hname, .function _ rfl rfl rfl, hnone⟩
  | classDefinition =>
    have hpython : l = .python := by
      cases l with
      | python => rfl
      | javascript | typescript => exact absurd hpass (by decide)
    obtain rfl := Option.some.inj h
    refine ⟨hname, ?_, hnone⟩
    cases hbase : (o.get? .base).filter fun b => !b.isEmpty with
    | none => exact .plain rfl (by simp only [Indented.classSymbol, hbase])
    | some b => exact .listed b hpython rfl hbase (by simp only [Indented.classSymbol, hbase])

/-- What a source exports is well formed. -/
theorem formed_of_mem_exports {l : Language} {source : Text} {s : Symbol} (h : s ∈ l.exports source) : s.Formed l := by
  obtain ⟨pass, hpass, o, ho, hs⟩ := ExportPass.exists_of_mem_exports h
  exact ExportPass.formed_of_symbol? hpass (derives_of_first? (first?_of_mem_scanFrom ho)) hs

/-- The modules that an indented source imports have dotted names. -/
theorem Indented.isDotted_of_mem_imports {source i : Text} (h : i ∈ Indented.imports source) :
    ∀ c ∈ i, Indented.isDotted c = true := by
  have hreads : Indented.importStatement.FieldReads (Indented.isDotted · = true) .specifier := by
    simp [Indented.importStatement, Indented.dottedName, keyword, lit, blanks, nonemptyRun, fieldReads_append,
      onlyReads_append, FieldReads, OnlyReads]
  obtain ⟨o, ho, rfl⟩ := List.mem_map.1 h
  exact hreads.get (derives_of_first? (first?_of_mem_scanFrom ho))

end SourceInventory
