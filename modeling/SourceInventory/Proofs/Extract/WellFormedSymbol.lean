import SourceInventory.Proofs.Extract.Symbols
import SourceInventory.Proofs.Extract.WholeName

/-!
# Well-formed symbols: what the fields of a symbol have to do with each other and with the source

The fields of a symbol that is exported are tied together by its kind and by the language, and what they say is cut out of the
source. A function is shown with its list of parameters, has no base and no methods; a class is shown with what it is derived from
if there is something, and is neither asynchronous nor the default; only a class of a braced source has methods. Names, parameters
and bases are stretches of the source, except for the name of a default function without one (`wellFormed_of_mem_exports`).
-/

namespace SourceInventory

open Pattern

/-! ## Well-formed records -/

/-- A signature is a name with a list of parameters, as it stands in the source between parentheses, without the blanks around
it. -/
def CalledIn (source name signature : Text) : Prop :=
  ∃ params, signature = callSignature name params ∧ ')' ∉ params ∧ params.Trimmed ∧ params <:+: source

/-- A method as it is taken from a source. -/
structure Method.WellFormed (source : Text) (m : Method) : Prop where
  /-- It has a name. -/
  name_ne_nil : m.name ≠ []
  /-- The name is a word. -/
  isWord_name : ∀ c ∈ m.name, isWord c = true
  /-- The word begins no statement. -/
  name_not_mem : m.name ∉ statementWords
  /-- It stands in the source. -/
  name_stretch : m.name <:+: source
  /-- The method is shown with its list of parameters. -/
  called : CalledIn source m.name m.signature

/-- What a symbol declares, by its kind and by the language. -/
inductive Symbol.DeclaredIn (l : Language) (source : Text) (s : Symbol) : Prop where
  /-- A function. In an indented source it is not private and never the default. -/
  | function (hkind : s.kind = .function) (hbase : s.base = none) (hmethods : s.methods = [])
      (hcalled : CalledIn source s.name s.signature)
      (hindented : l = .python → s.name.head? ≠ some '_' ∧ s.isDefault = false)
  /-- A class of a braced source, which may be derived from a word. -/
  | bracedClass (hl : l ≠ .python) (hkind : s.kind = .classType) (hplain : s.isAsync = false ∧ s.isDefault = false)
      (hbase : s.signature = "class ".toList ++ s.name ↔ s.base = none)
      (hderived : ∀ b ∈ s.base, b ≠ [] ∧ (∀ c ∈ b, isWord c = true) ∧ b <:+: source ∧
        s.signature = "class ".toList ++ s.name ++ (" extends ".toList ++ b))
      (hmethods : ∀ m ∈ s.methods, m.WellFormed source)
  /-- A class of an indented source, which may be derived from a list. -/
  | indentedClass (hl : l = .python) (hkind : s.kind = .classType) (hplain : s.isAsync = false ∧ s.isDefault = false)
      (hbase : s.signature = "class ".toList ++ s.name ↔ s.base = none)
      (hderived : ∀ b ∈ s.base, b ≠ [] ∧ ')' ∉ b ∧ b <:+: source ∧
        s.signature = "class ".toList ++ callSignature s.name b)
      (hmethods : s.methods = [])

/-- A symbol as it is taken from a source of a language. -/
structure Symbol.WellFormed (l : Language) (source : Text) (s : Symbol) : Prop where
  /-- It has a name. -/
  name_ne_nil : s.name ≠ []
  /-- The name is a word. -/
  isWord_name : ∀ c ∈ s.name, isWord c = true
  /-- It stands in the source, unless it is that of a default function without one. -/
  name_stretch : s.name <:+: source ∨ s.kind = .function ∧ s.isDefault = true ∧ s.name = Braced.defaultName
  /-- The other fields say what is declared. -/
  declared : s.DeclaredIn l source

/-! ## Lists of parameters -/

/-- A signature is a call with a list that stands in the source, without the blanks around it. -/
theorem calledIn_trim {source params : Text} (name : Text) (hparams : ∀ c ∈ params, c ≠ ')') (hsource : params <:+: source) :
    CalledIn source name (callSignature name params.trim) := by
  have hstretch := params.trim_isInfix
  exact ⟨params.trim, rfl, fun hmem => hparams ')' (hstretch.subset hmem) rfl, params.trimmed_trim, hstretch.trans hsource⟩

/-- It is one in every source that the source is part of. -/
theorem CalledIn.mono {source source' name signature : Text} (h : CalledIn source name signature) (hs : source <:+: source') :
    CalledIn source' name signature := by
  obtain ⟨params, hsignature, hclosed, htrimmed, hparams⟩ := h
  exact ⟨params, hsignature, hclosed, htrimmed, hparams.trans hs⟩

/-- The parameters of a method have no closing parenthesis. -/
theorem Method.fieldReads_params : Method.pattern.FieldReads (· ≠ ')') .params := by
  simp [Method.pattern, Method.modifiers, Method.head, keyword, lit, blanks, nonemptyRun, gap, word, parenthesised, upTo,
    fieldReads_append, OnlyReads, FieldReads]

theorem ExportPass.fieldReads_params (pass : ExportPass) : pass.pattern.FieldReads (· ≠ ')') .params := by
  cases pass <;>
    simp [pattern, Braced.namedFunction, Braced.arrowFunction, Braced.classDeclaration, Braced.defaultFunction,
      Indented.functionDefinition, Indented.classDefinition, keyword, lit, blanks, nonemptyRun, gap, word, parenthesised, upTo,
      fieldReads_append, OnlyReads, FieldReads]

/-! ## Methods -/

/-- A method that is well-formed in a source is so in every source that it is part of. -/
theorem Method.WellFormed.mono {source source' : Text} {m : Method} (h : m.WellFormed source) (hs : source <:+: source') :
    m.WellFormed source' where
  name_ne_nil := h.name_ne_nil
  isWord_name := h.isWord_name
  name_not_mem := h.name_not_mem
  name_stretch := h.name_stretch.trans hs
  called := h.called.mono hs

/-- What is read as a method is well formed, unless it is a statement. -/
theorem Method.wellFormed_of_ofOccurrence? {s : Text} {d : Derivation} {m : Method} (hd : Derives pattern s d)
    (h : ofOccurrence? d = some m) : m.WellFormed s := by
  -- what is read ends with what looks like a method, and that has a name
  obtain ⟨t, -, u, t', name, params, -, hhead, hcaptures, -⟩ := sights_pattern.takes hd
  have hname : d.get .name = name := by
    rw [Derivation.get, Derivation.get?_eq_lookup, hcaptures]
    rfl
  obtain ⟨w, -, -, rfl, -⟩ := hhead.exists_opening
  rw [ofOccurrence?] at h
  split at h
  · exact absurd h (Option.some_ne_none m).symm
  · rename_i hstatement
    obtain rfl := Option.some.inj h
    exact ⟨hname ▸ w.text_ne_nil, fieldReads_name.get hd, hstatement, hd.get_isInfix .name,
      calledIn_trim _ (fieldReads_params.get hd) (hd.get_isInfix .params)⟩

/-- The body of a class stands in its declaration. -/
theorem classBody?_isInfix {declaration body : Text} (h : classBody? declaration = some body) : body <:+: declaration := by
  rw [classBody?] at h
  split at h
  · exact absurd h (Option.some_ne_none body).symm
  · rename_i c s hs
    obtain rfl := Option.some.inj h
    have hbehind : s <:+ declaration := (hs ▸ List.suffix_cons c s).trans (List.dropWhile_suffix _)
    exact (prefix_beforeClosing 0 s).isInfix.trans hbehind.isInfix

/-- The methods of a class are well formed. -/
theorem Method.wellFormed_of_mem_ofDeclaration {declaration : Text} {m : Method} (h : m ∈ ofDeclaration declaration) :
    m.WellFormed declaration := by
  obtain ⟨body, hbody, o, ho, hm⟩ := exists_of_mem_ofDeclaration h
  have hstart := start_suffix_of_mem_scanFrom ho
  exact (wellFormed_of_ofOccurrence? (derives_of_first? (first?_of_mem_scanFrom ho)) hm).mono
    (hstart.isInfix.trans (classBody?_isInfix hbody))

/-! ## Classes -/

/-- The base of a class is not empty. -/
theorem Braced.base_ne_nil {s b : Text} {d : Derivation} (hd : Derives classDeclaration s d) (hb : d.get? .base = some b) :
    b ≠ [] := by
  obtain ⟨x, n, y, hx, hn, hy, rfl⟩ := derives_classDeclaration hd
  have hnone : x.get? .base = none ∧ n.get? .base = none := ⟨get?_eq_none hx (by decide), get?_eq_none hn (by decide)⟩
  rw [Derivation.get?_andThen, hnone.1, Derivation.get?_andThen, hnone.2, Option.none_or, Option.none_or] at hb
  -- a base is recorded in the clause for it alone, and there it is a word
  rcases derives_optional_iff.1 hy with hy | rfl
  · obtain ⟨e, f, he, hf, rfl⟩ := derives_append_iff.1 hy
    obtain ⟨w, r, -, hne, -, rfl⟩ := derives_word hf
    rw [Derivation.get?_andThen, get?_eq_none he (by decide), get?_beginning] at hb
    exact Option.some.inj hb ▸ hne
  · exact absurd hb (by simp [Derivation.get?, Derivation.span?, Derivation.plain])

/-- The bases of a class in an indented source have no closing parenthesis. -/
theorem Indented.fieldReads_base : Indented.classDefinition.FieldReads (· ≠ ')') .base := by
  simp [Indented.classDefinition, keyword, lit, blanks, nonemptyRun, word, parenthesised, upTo, fieldReads_append, OnlyReads,
    FieldReads]

/-- If a class with a base is shown with something behind its name, and one without with nothing, it is seen by the signature
which of them it is. -/
theorem signature_eq_iff {signature plain : Text} {base : Option Text} (hnone : base = none → signature = plain)
    (hsome : ∀ b ∈ base, ∃ t, t ≠ [] ∧ signature = plain ++ t) : signature = plain ↔ base = none := by
  refine ⟨fun h => ?_, hnone⟩
  cases base with
  | none => rfl
  | some b =>
    obtain ⟨t, ht, rfl⟩ := hsome b rfl
    exact absurd (List.append_right_eq_self.1 h) ht

/-! ## Symbols -/

namespace ExportPass

variable {l : Language} {pass : ExportPass} {source : Text} {o : Occurrence} {s : Symbol}

/-- A pass over the functions of a source makes functions. -/
theorem declaredIn_of_function (ho : Derives pass.pattern o.start o.toDerivation) (hsource : o.start <:+ source)
    (hkind : s.kind = .function) (hbase : s.base = none) (hmethods : s.methods = [])
    (hsignature : s.signature = callSignature s.name (o.get .params).trim)
    (hindented : l = .python → s.name.head? ≠ some '_' ∧ s.isDefault = false) : s.DeclaredIn l source := by
  refine .function hkind hbase hmethods ?_ hindented
  rw [hsignature]
  exact calledIn_trim _ (pass.fieldReads_params.get ho) ((ho.get_isInfix .params).trans hsource.isInfix)

/-- The fields of a symbol say what the occurrence declares. -/
theorem declaredIn_of_symbol? (hpass : pass ∈ ofLanguage l) (ho : Derives pass.pattern o.start o.toDerivation)
    (hsource : o.start <:+ source) (hs : pass.symbol? o = some s) : s.DeclaredIn l source := by
  have hbraced : pass ∉ ofLanguage .python → l ≠ .python := fun h heq => h (heq ▸ hpass)
  cases pass with
  | namedFunction | arrowFunction | defaultFunction =>
    obtain rfl := Option.some.inj hs
    exact declaredIn_of_function ho hsource rfl rfl rfl rfl fun heq => absurd heq (hbraced (by decide))
  | functionDefinition =>
    rw [symbol?, Indented.functionSymbol?] at hs
    split at hs
    · exact absurd hs (Option.some_ne_none s).symm
    · rename_i hprivate
      obtain rfl := Option.some.inj hs
      exact declaredIn_of_function ho hsource rfl rfl rfl rfl fun _ => ⟨hprivate, rfl⟩
  | classDeclaration =>
    obtain rfl := Option.some.inj hs
    have hderived : ∀ b ∈ o.get? .base, (Braced.classSymbol o).signature =
        "class ".toList ++ o.get .name ++ (" extends ".toList ++ b) := by
      intro b hb
      simp only [Braced.classSymbol, Option.mem_def.1 hb, List.append_assoc]
    refine .bracedClass (hbraced (by decide)) rfl ⟨rfl, rfl⟩ (signature_eq_iff (fun hnone => ?_) fun b hb => ?_) (fun b hb => ?_) ?_
    · have hnone : o.get? .base = none := hnone
      simp only [Braced.classSymbol, hnone]
    · exact ⟨_, by simp, hderived b hb⟩
    · exact ⟨Braced.base_ne_nil ho hb, Braced.fieldReads_base.get? ho hb, (ho.get?_isInfix hb).trans hsource.isInfix,
        hderived b hb⟩
    · exact fun m hm => (Method.wellFormed_of_mem_ofDeclaration hm).mono hsource.isInfix
  | classDefinition =>
    have hpython : l = .python := by
      cases l with
      | python => rfl
      | javascript | typescript => exact absurd hpass (by decide)
    obtain rfl := Option.some.inj hs
    have hderived : ∀ b ∈ (Indented.classSymbol o).base, (Indented.classSymbol o).signature =
        "class ".toList ++ callSignature (o.get .name) b := by
      intro b hb
      have hb : (o.get? .base).filter (fun b => !b.isEmpty) = some b := hb
      simp only [Indented.classSymbol, hb]
    refine .indentedClass hpython rfl ⟨rfl, rfl⟩ (signature_eq_iff (fun hnone => ?_) fun b hb => ?_) (fun b hb => ?_) rfl
    · have hnone : (o.get? .base).filter (fun b => !b.isEmpty) = none := hnone
      simp only [Indented.classSymbol, hnone]
    · refine ⟨['('] ++ b ++ [')'], by simp, ?_⟩
      rw [hderived b hb, callSignature]
      simp only [List.append_assoc]
      rfl
    · obtain ⟨hbase, hne⟩ := Option.filter_eq_some_iff.1 hb
      refine ⟨by simpa using hne, fun hmem => ?_, (ho.get?_isInfix hbase).trans hsource.isInfix, hderived b hb⟩
      exact Indented.fieldReads_base.get? ho hbase ')' hmem rfl

/-- A symbol that a pass makes of an occurrence in a source is well formed. -/
theorem wellFormed_of_symbol? (hpass : pass ∈ ofLanguage l) (ho : o ∈ pass.occurrences source) (hs : pass.symbol? o = some s) :
    s.WellFormed l source := by
  have hfirst := first?_of_mem_scanFrom ho
  have hsource := start_suffix_of_mem_scanFrom ho
  have hd := derives_of_first? hfirst
  have hdeclared := declaredIn_of_symbol? hpass hd hsource hs
  obtain ⟨u, w, r, hnames, hother, -⟩ := exists_names hfirst
  have hword := hnames.get
  rcases name_of_symbol? hs with ⟨hname, hne⟩ | ⟨rfl, -, hname⟩
  · refine ⟨?_, ?_, Or.inl ?_, hdeclared⟩
    · rw [hname]
      by_cases hdefault : pass = .defaultFunction
      · exact hne hdefault
      · exact hword ▸ (hother hdefault).1
    · exact hname ▸ pass.fieldReads_name.get hd
    · exact hname ▸ (hd.get_isInfix .name).trans hsource.isInfix
  · -- a default function without a name: only the name is not taken from the source
    have hletters : Braced.defaultName ≠ [] ∧ ∀ c ∈ Braced.defaultName, isWord c = true :=
      ⟨by decide, List.all_eq_true.1 (by decide)⟩
    obtain rfl := Option.some.inj hs
    exact ⟨hname ▸ hletters.1, hname ▸ hletters.2, Or.inr ⟨rfl, rfl, hname⟩, hdeclared⟩

end ExportPass

/-- Whatever a source of a language exports is well formed. Its name is a word that is not empty. A function has no base and no
methods and is shown with its list of parameters, in which nothing closes it and which no blanks surround. A class is neither
asynchronous nor the default. In a braced source it is shown with a base exactly if it has one, which is a word, and its methods
are named by words other than those that begin statements and shown like functions. In an indented source it is shown with a list
exactly if it is derived from one that is not empty, it has no methods, and no function is private or the default. All names, lists
and bases are stretches of the source, except for the name of a default function without one. -/
theorem wellFormed_of_mem_exports {l : Language} {source : Text} {s : Symbol} (h : s ∈ l.exports source) :
    s.WellFormed l source := by
  obtain ⟨pass, hpass, o, ho, hs⟩ := ExportPass.exists_of_mem_exports h
  exact ExportPass.wellFormed_of_symbol? hpass ho hs

/-- A class with a base and a method behind a statement. -/
def boxSource : Text := "export default class Box extends Base \x7b if (a) \x7b\x7d async put ( k, v ) \x7b\x7d \x7d".toList

/-- The class as it is exported. -/
def boxSymbol : Symbol where
  kind := .classType
  name := "Box".toList
  signature := "class Box extends Base".toList
  base := some "Base".toList
  methods := [⟨"put".toList, "put(k, v)".toList⟩]

/-- A class with a base, a method and a statement that is none. -/
theorem wellFormed_boxSymbol :
    boxSymbol ∈ Language.exports .typescript boxSource ∧ boxSymbol.WellFormed .typescript boxSource := by
  have hmem : boxSymbol ∈ Language.exports .typescript boxSource := by decide +kernel
  exact ⟨hmem, wellFormed_of_mem_exports hmem⟩

end SourceInventory
