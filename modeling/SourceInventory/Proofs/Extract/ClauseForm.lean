import SourceInventory.Proofs.Extract.Hit
import SourceInventory.Proofs.Extract.ImportStatement

/-!
# Clause forms: what an import statement may bind

An import statement binds a default name, a namespace, some names between braces, or a default name together with one of the other
two. What the pattern for import statements reads is always a written statement (`takes_importStatement`), and in the pattern a
namespace stands only at the beginning of a clause. So the module is found in all of the forms but the last one
(`imports_clauseForm_iff`).
-/

namespace SourceInventory

open Pattern

namespace Braced

/-! ## What is read as an import statement -/

/-- Names in braces are taken up to the first closing brace. -/
theorem takes_bindings : Takes bindings fun t cs => ∃ names, '}' ∉ names ∧ t = '{' :: (names ++ ['}']) ∧ cs = [] := by
  refine (((takes_lit "\x7b").append (takes_run _)).append (takes_lit "\x7d")).mono ?_
  rintro _ _ ⟨⟨⟨rfl, rfl⟩, ⟨hnames, rfl⟩⟩, ⟨rfl, rfl⟩⟩
  exact ⟨_, fun hmem => absurd (hnames '}' hmem) (by decide), rfl, rfl⟩

/-- A binding is taken as it is written. -/
theorem takes_binding : Takes (.either bindings word) fun t cs => (∃ b : Binding, t = b.text) ∧ cs = [] := by
  refine (takes_bindings.either takes_word).mono ?_
  rintro _ _ (⟨names, hnames, rfl, rfl⟩ | ⟨⟨w, rfl⟩, rfl⟩)
  · exact ⟨⟨.braced names hnames, rfl⟩, rfl⟩
  · exact ⟨⟨.named w, rfl⟩, rfl⟩

/-- The first part of a clause is taken as it is written. -/
theorem takes_importHead : Takes importHead fun t cs => (∃ h : ClauseHead, t = h.text) ∧ cs = [] := by
  have hstar := (((takes_lit "*").append takes_blanks).append (takes_keyword "as")).append takes_word
  refine (takes_bindings.either (hstar.either takes_word)).mono ?_
  rintro _ _ (⟨names, hnames, rfl, rfl⟩ |
    ⟨⟨⟨⟨rfl, rfl⟩, ⟨⟨afterStar, rfl⟩, rfl⟩⟩, ⟨⟨afterAs, rfl⟩, rfl⟩⟩, ⟨⟨name, rfl⟩, rfl⟩⟩ | ⟨⟨w, rfl⟩, rfl⟩)
  · exact ⟨⟨.binding (.braced names hnames), rfl⟩, rfl⟩
  · exact ⟨⟨.namespaced afterStar afterAs name, rfl⟩, rfl⟩
  · exact ⟨⟨.binding (.named w), rfl⟩, rfl⟩

/-- The further parts of a clause are taken as they are written. -/
theorem takes_importItems :
    Takes (.many importItem) fun t cs => (∃ items : List ClauseItem, t = (items.map ClauseItem.text).flatten) ∧ cs = [] := by
  have hitem : Takes importItem fun t cs => (∃ i : ClauseItem, t = i.text) ∧ cs = [] := by
    refine (((takes_gap.append (takes_lit ",")).append takes_gap).append takes_binding).mono ?_
    rintro _ _ ⟨⟨⟨⟨⟨before, rfl⟩, rfl⟩, ⟨rfl, rfl⟩⟩, ⟨⟨after, rfl⟩, rfl⟩⟩, ⟨⟨b, rfl⟩, rfl⟩⟩
    exact ⟨⟨⟨before, after, b⟩, rfl⟩, rfl⟩
  refine hitem.many ⟨⟨[], rfl⟩, rfl⟩ ?_
  rintro _ _ ⟨⟨⟨i, rfl⟩, rfl⟩, ⟨⟨items, rfl⟩, rfl⟩⟩
  exact ⟨⟨i :: items, rfl⟩, rfl⟩

/-- A clause is taken as it is written, or left out. -/
theorem takes_importClause :
    Takes (.optional (importHead ++ .many importItem ++ blanks ++ keyword "from")) fun t cs =>
      (∃ c : Option ImportClause, t = c.elim [] ImportClause.text) ∧ cs = [] := by
  refine (((takes_importHead.append takes_importItems).append takes_blanks).append (takes_keyword "from")).optional.mono ?_
  rintro _ _ (⟨⟨⟨⟨⟨head, rfl⟩, rfl⟩, ⟨⟨items, rfl⟩, rfl⟩⟩, ⟨⟨beforeFrom, rfl⟩, rfl⟩⟩, ⟨⟨afterFrom, rfl⟩, rfl⟩⟩ | ⟨rfl, rfl⟩)
  · exact ⟨⟨some ⟨head, items, beforeFrom, afterFrom⟩, rfl⟩, rfl⟩
  · exact ⟨⟨none, rfl⟩, rfl⟩

/-- What is read as an import statement is one that is written, with the name of its module captured. -/
theorem takes_importStatement :
    Takes importStatement fun t cs => ∃ d : ImportDeclaration, t = d.text ∧ cs = [(.specifier, d.specifier)] := by
  have hname := ((takes_char fun c => !isQuote c).append (takes_run fun c => !isQuote c)).field .specifier
  refine (((((takes_keyword "import").append takes_importClause).append (takes_char isQuote)).append hname).append
    (takes_char isQuote)).mono ?_
  rintro _ _ ⟨⟨⟨⟨⟨⟨afterImport, rfl⟩, rfl⟩, ⟨⟨clause, rfl⟩, rfl⟩⟩, ⟨⟨opening, hopening, rfl⟩, rfl⟩⟩,
    ⟨_, ⟨⟨⟨x, hx, rfl⟩, rfl⟩, ⟨hspecifier, rfl⟩⟩, rfl⟩⟩, ⟨⟨closing, hclosing, rfl⟩, rfl⟩⟩
  exact ⟨⟨afterImport, clause, opening, x :: _, closing, List.cons_ne_nil x _, List.forall_mem_cons.2 ⟨hx, hspecifier⟩, hopening,
    hclosing⟩, rfl, rfl⟩

/-- An import statement up to the mark before the name of the module. -/
def ImportDeclaration.front (d : ImportDeclaration) : Text :=
  "import".toList ++ d.afterImport.text ++ d.clause.elim [] ImportClause.text

/-- A declaration is what stands before its first quote, and its module in quotes. -/
theorem ImportDeclaration.text_eq_front (d : ImportDeclaration) :
    d.text = d.front ++ d.opening :: (d.specifier ++ [d.closing]) := by
  have htext : d.text = d.front ++ [d.opening] ++ d.specifier ++ [d.closing] := rfl
  rw [htext, List.append_assoc, List.append_assoc, List.singleton_append]

/-- In a text that ends with the only two quotation marks in it, every import statement is one of the module between them. -/
theorem exists_importDeclaration {front m u v : Text} {e : Derivation} (hfront : ∀ c ∈ front, isQuote c = false)
    (hm : ∀ c ∈ m, isQuote c = false) (huv : u ++ v = front ++ '\'' :: (m ++ ['\''])) (he : Derives importStatement v e) :
    ∃ d : ImportDeclaration, d.front <:+ front ∧ d.specifier = m := by
  obtain ⟨_, rfl, d, rfl, -⟩ := takes_importStatement he
  have htext : u ++ (d.front ++ d.opening :: (d.specifier ++ d.closing :: e.rest)) = front ++ '\'' :: (m ++ ['\'']) := by
    rw [← huv, d.text_eq_front, List.append_assoc, List.cons_append, List.append_assoc, List.singleton_append]
  have hnone : ∀ {t : Text}, (∀ c ∈ t, isQuote c = false) → t.countP isQuote = 0 := by
    intro t ht
    exact List.countP_eq_zero.2 fun c hc => by rw [ht c hc]; exact Bool.false_ne_true
  -- the marks of the statement are both marks of the text
  have hcount := congrArg (List.countP isQuote) htext
  simp only [List.countP_append, List.countP_cons, List.countP_nil, hnone hfront, hnone hm, d.isQuote_opening, d.isQuote_closing,
    show isQuote '\'' = true from rfl, if_true] at hcount
  have hfree : ∀ c ∈ u ++ d.front, isQuote c = false := by
    have hzero : (u ++ d.front).countP isQuote = 0 := by
      rw [List.countP_append]
      omega
    exact fun c hc => Bool.eq_false_iff.2 (List.countP_eq_zero.1 hzero c hc)
  have hunquoted : ∀ {t : Text}, (∀ c ∈ t, isQuote c = false) → ∀ c ∈ t, (!isQuote c) = true := by
    intro t ht c hc
    rw [ht c hc]
    rfl
  have hmark : ∀ {x : Char} (t : Text), isQuote x = true → ∀ c ∈ (x :: t).head?, (!isQuote c) = false := by
    intro x t hx c hc
    rw [← Option.some.inj hc, hx]
    rfl
  rw [← List.append_assoc] at htext
  obtain ⟨hbefore, hbehind⟩ :=
    run_split_unique htext (hunquoted hfree) (hunquoted hfront) (hmark _ d.isQuote_opening) (hmark _ rfl)
  exact ⟨d, ⟨u, hbefore⟩, (run_split_unique (List.cons.inj hbehind).2 d.isQuote_specifier (hunquoted hm)
    (hmark _ d.isQuote_closing) (hmark _ rfl)).1⟩

/-- In such a text no module is found if what stands before the marks does not end like an import statement. -/
theorem imports_eq_nil {front m : Text} (hfront : ∀ c ∈ front, isQuote c = false) (hm : ∀ c ∈ m, isQuote c = false)
    (hnone : ∀ d : ImportDeclaration, d.front <:+ front → d.specifier ≠ m) :
    imports (front ++ '\'' :: (m ++ ['\''])) = [] := by
  have hquiet : BeginsNowhereIn importStatement (front ++ '\'' :: (m ++ ['\''])) [] := by
    rintro v ⟨u, huv⟩ - e he
    rw [List.append_nil] at he
    obtain ⟨d, hd, hspecifier⟩ := exists_importDeclaration hfront hm huv he
    exact hnone d hd hspecifier
  rw [imports, occurrences_eq_nil hquiet]
  rfl

/-! ## The forms of a clause -/

/-- A name of a module, and the name it gets, if this is another one. -/
structure ImportedName where
  /-- The name in the module. -/
  name : Word
  /-- The name it gets. -/
  renamed : Option Word := none

/-- An imported name as it is written. -/
def ImportedName.text (i : ImportedName) : Text := i.name.text ++ i.renamed.elim [] fun w => " as ".toList ++ w.text

/-- What stands between the braces around imported names. -/
def between : List ImportedName → Text
  | [] => [' ']
  | i :: others => ' ' :: (i.text ++ (others.flatMap fun j => ", ".toList ++ j.text) ++ [' '])

/-- All of a module, under a name. -/
def starAs (name : Word) : Text := "*".toList ++ [' '] ++ ("as".toList ++ [' ']) ++ name.text

/-- What an import statement binds. -/
inductive ClauseForm where
  /-- The default export, under a name. -/
  | byDefault (name : Word)
  /-- All of the module, under a name. -/
  | namespaced (name : Word)
  /-- Names of the module. -/
  | named (names : List ImportedName)
  /-- The default export, and names of the module. -/
  | defaultAndNamed (name : Word) (names : List ImportedName)
  /-- The default export, and all of the module. -/
  | defaultAndNamespaced (name all : Word)

/-- A form as it is written. -/
def ClauseForm.text : ClauseForm → Text
  | .byDefault name => name.text
  | .namespaced name => starAs name
  | .named names => '{' :: (between names ++ ['}'])
  | .defaultAndNamed name names => name.text ++ [',', ' '] ++ '{' :: (between names ++ ['}'])
  | .defaultAndNamespaced name all => name.text ++ [',', ' '] ++ starAs all

/-- An import statement of a form up to the mark before the name of the module. -/
def ClauseForm.front (form : ClauseForm) : Text := "import".toList ++ [' '] ++ (form.text ++ [' '] ++ ("from".toList ++ [' ']))

/-- An import statement of a form, with single spaces. -/
def ClauseForm.statement (form : ClauseForm) (m : Text) : Text := form.front ++ '\'' :: (m ++ ['\''])

/-- Between the braces stand words, spaces and commas. -/
theorem mem_between {names : List ImportedName} : ∀ c ∈ between names, isWord c = true ∨ c = ' ' ∨ c = ',' := by
  have hmarks : ∀ {t : Text}, (t.all fun c => isWord c || (c == ' ' || c == ',')) = true →
      ∀ c ∈ t, isWord c = true ∨ c = ' ' ∨ c = ',' := by
    intro t ht c hc
    simpa only [Bool.or_eq_true, beq_iff_eq] using List.all_eq_true.1 ht c hc
  have hname : ∀ i : ImportedName, ∀ c ∈ i.text, isWord c = true ∨ c = ' ' ∨ c = ',' := by
    rintro ⟨name, renamed⟩
    refine List.forall_mem_append.2 ⟨fun c hc => Or.inl (name.isWord_text c hc), ?_⟩
    cases renamed with
    | none => exact fun c hc => absurd hc List.not_mem_nil
    | some w => exact List.forall_mem_append.2 ⟨hmarks (by decide), fun c hc => Or.inl (w.isWord_text c hc)⟩
  have hspace := hmarks (t := [' ']) (by decide)
  cases names with
  | nil => exact hspace
  | cons i others =>
    refine List.forall_mem_cons.2 ⟨hspace ' ' List.mem_cons_self, List.forall_mem_append.2 ⟨?_, hspace⟩⟩
    refine List.forall_mem_append.2 ⟨hname i, fun c hc => ?_⟩
    obtain ⟨j, -, hc⟩ := List.mem_flatMap.1 hc
    exact List.forall_mem_append.2 ⟨hmarks (by decide), hname j⟩ c hc

/-- Names between braces are a binding. -/
def Binding.ofNames (names : List ImportedName) : Binding :=
  .braced (between names) fun h => absurd (mem_between _ h) (by decide)

theorem unquoting_of_all {t : Text} (h : (t.all fun c => !isQuote c) = true) : ∀ c ∈ t, isQuote c = false := by
  intro c hc
  simpa only [Bool.not_eq_true'] using List.all_eq_true.1 h c hc

/-- No quotation mark stands before the name of the module. -/
theorem ClauseForm.isQuote_front (form : ClauseForm) : ∀ c ∈ form.front, isQuote c = false := by
  have hword : ∀ w : Word, ∀ c ∈ w.text, isQuote c = false := fun w c hc => unquoting_of_isWord (w.isWord_text c hc)
  have hstar : ∀ w : Word, ∀ c ∈ starAs w, isQuote c = false := fun w =>
    List.forall_mem_append.2 ⟨unquoting_of_all (by decide), hword w⟩
  have hnames : ∀ names : List ImportedName, ∀ c ∈ '{' :: (between names ++ ['}']), isQuote c = false := by
    intro names
    refine List.forall_mem_cons.2 ⟨rfl, List.forall_mem_append.2 ⟨fun c hc => ?_, unquoting_of_all (by decide)⟩⟩
    rcases mem_between c hc with hc | rfl | rfl
    · exact unquoting_of_isWord hc
    · rfl
    · rfl
  have hcomma : ∀ w : Word, ∀ c ∈ w.text ++ [',', ' '], isQuote c = false := fun w =>
    List.forall_mem_append.2 ⟨hword w, unquoting_of_all (by decide)⟩
  have htext : ∀ c ∈ form.text, isQuote c = false := by
    cases form with
    | byDefault name => exact hword name
    | namespaced name => exact hstar name
    | named names => exact hnames names
    | defaultAndNamed name names => exact List.forall_mem_append.2 ⟨hcomma name, hnames names⟩
    | defaultAndNamespaced name all => exact List.forall_mem_append.2 ⟨hcomma name, hstar all⟩
  have hspace := unquoting_of_all (t := [' ']) (by decide)
  exact List.forall_mem_append.2 ⟨unquoting_of_all (by decide),
    List.forall_mem_append.2 ⟨List.forall_mem_append.2 ⟨htext, hspace⟩, unquoting_of_all (by decide)⟩⟩

/-- What the clause of a form begins with and goes on with. A default name does not go on with a namespace. -/
def ClauseForm.pieces? : ClauseForm → Option (ClauseHead × List ClauseItem)
  | .byDefault name => some (.binding (.named name), [])
  | .namespaced name => some (.namespaced .space .space name, [])
  | .named names => some (.binding (.ofNames names), [])
  | .defaultAndNamed name names => some (.binding (.named name), [{ after := .ofBlanks .space, binding := .ofNames names }])
  | .defaultAndNamespaced _ _ => none

/-- The pieces of a form are its text. -/
theorem ClauseForm.text_eq {form : ClauseForm} {head : ClauseHead} {items : List ClauseItem}
    (h : form.pieces? = some (head, items)) : head.text ++ (items.map ClauseItem.text).flatten = form.text := by
  cases form with
  | defaultAndNamespaced name all => exact absurd h (Option.some_ne_none _).symm
  | byDefault name | namespaced name | named names =>
    obtain ⟨rfl, rfl⟩ := Prod.mk.inj (Option.some.inj h)
    exact List.append_nil _
  | defaultAndNamed name names =>
    obtain ⟨rfl, rfl⟩ := Prod.mk.inj (Option.some.inj h)
    change name.text ++ ([',', ' '] ++ '{' :: (between names ++ ['}']) ++ []) =
      name.text ++ [',', ' '] ++ '{' :: (between names ++ ['}'])
    rw [List.append_nil, List.append_assoc]

/-- The module of a form that the pattern has is found. -/
theorem ClauseForm.imports_statement {form : ClauseForm} (h : form.pieces?.isSome = true) {m : Text} (hne : m ≠ [])
    (hm : ∀ c ∈ m, isQuote c = false) : imports (form.statement m) = [m] := by
  obtain ⟨⟨head, items⟩, h⟩ := Option.isSome_iff_exists.1 h
  have hunquoted : ∀ c ∈ m, (!isQuote c) = true := fun c hc => by rw [hm c hc]; rfl
  let d : ImportDeclaration :=
    { clause := some { head, items }, specifier := m, specifier_ne_nil := hne, isQuote_specifier := hunquoted }
  have hfront : d.front = form.front :=
    congrArg (fun t => "import".toList ++ [' '] ++ (t ++ [' '] ++ ("from".toList ++ [' ']))) (form.text_eq h)
  have htext : form.statement m = d.text ++ [] := by rw [List.append_nil, d.text_eq_front, hfront, ClauseForm.statement]
  rw [htext, d.imports_text_append]
  rfl

/-! ## A namespace behind a comma -/

/-- What is bound at the end of a clause: a namespace that is the whole clause, or a binding at its beginning or behind a comma. -/
theorem exists_lastPiece (head : ClauseHead) (items : List ClauseItem) :
    (∃ (afterStar afterAs : Blanks) (name : Word), head.text ++ (items.map ClauseItem.text).flatten =
      "*".toList ++ afterStar.text ++ ("as".toList ++ afterAs.text) ++ name.text) ∨
    ∃ (u : Text) (b : Binding), head.text ++ (items.map ClauseItem.text).flatten = u ++ b.text ∧
      (u = [] ∨ ∃ (v : Text) (g : Gap), u = v ++ ",".toList ++ g.text) := by
  rcases List.eq_nil_or_concat' items with rfl | ⟨items, i, rfl⟩
  · cases head with
    | binding b => exact Or.inr ⟨[], b, List.append_nil _, Or.inl rfl⟩
    | namespaced afterStar afterAs name => exact Or.inl ⟨afterStar, afterAs, name, List.append_nil _⟩
  · refine Or.inr ⟨head.text ++ (items.map ClauseItem.text).flatten ++ i.before.text ++ ",".toList ++ i.after.text, i.binding, ?_,
      Or.inr ⟨_, i.after, rfl⟩⟩
    rw [List.map_append, List.flatten_append, List.map_singleton, List.flatten_singleton, ClauseItem.text]
    simp only [List.append_assoc]

/-- A binding ends with a word or with a brace. -/
theorem Binding.lastIs_text (b : Binding) : Text.LastIs Solid b.text := by
  cases b with
  | braced names h => exact ⟨'{' :: names, '}', rfl, rfl⟩
  | named name => exact name.lastIs_text.mono fun _ hc => solid_of_isWord hc

/-- What is bound ends in a character that is no blank. -/
theorem lastIs_bound (head : ClauseHead) (items : List ClauseItem) :
    Text.LastIs Solid (head.text ++ (items.map ClauseItem.text).flatten) := by
  rcases exists_lastPiece head items with ⟨afterStar, afterAs, name, h⟩ | ⟨u, b, h, -⟩
  · rw [h]
    exact (name.lastIs_text.mono fun _ hc => solid_of_isWord hc).append _
  · rw [h]
    exact b.lastIs_text.append u

theorem lastIs_import : Text.LastIs (· = 't') "import".toList := ⟨"impor".toList, 't', by decide, rfl⟩

theorem lastIs_from : Text.LastIs (· = 'm') "from".toList := ⟨"fro".toList, 'm', by decide, rfl⟩

theorem lastIs_as : Text.LastIs (· = 's') "as".toList := ⟨['a'], 's', by decide, rfl⟩

/-- A word or a mark that stands at the end of two texts, with blanks behind it, is cut off from both. -/
theorem suffix_of_keyword {k : Char → Bool} {x : Char} {a p w b : Text} (h : a ++ w ++ b <:+ p ++ w ++ [' '])
    (hb : ∀ c ∈ b, isBlank c = true) (hw : Text.LastIs (· = x) w) (hx : Solid x) (hk : ∀ c ∈ w, k c = true)
    (ha : Text.LastIs (k · = false) a) (hp : Text.LastIs (k · = false) p) : a <:+ p := by
  have hsolid : Text.LastIs Solid w := hw.mono fun _ hc => hc ▸ hx
  have hends := (Text.suffix_of_run h hb Blanks.space.isBlank_text (hsolid.append a) (hsolid.append p)).2
  exact (Text.suffix_of_run hends hk hk ha hp).2

/-- A text with blanks behind it does not stand at the end of a text that has another mark before its last space. -/
theorem not_suffix_of_last {x y : Char} {a p b : Text} (hb : ∀ c ∈ b, isBlank c = true) (ha : Text.LastIs (· = x) a)
    (hp : Text.LastIs (· = y) p) (hx : Solid x) (hy : Solid y) (hne : x ≠ y) : ¬a ++ b <:+ p ++ [' '] := by
  intro h
  have hends := (Text.suffix_of_run h hb Blanks.space.isBlank_text (ha.mono fun _ hc => hc ▸ hx) (hp.mono fun _ hc => hc ▸ hy)).2
  obtain ⟨c, hc, hc'⟩ := ha.of_suffix hp hends
  exact hne (hc.symm.trans hc')

/-- Where a text ends like an import statement, a clause stands between the first word and the last one, and both are cut off. -/
theorem bound_suffix {q : Text} (hq : Text.LastIs (isWord · = true) q) {d : ImportDeclaration}
    (h : d.front <:+ q ++ [' '] ++ "from".toList ++ [' ']) :
    ∃ (head : ClauseHead) (items : List ClauseItem),
      "import".toList ++ d.afterImport.text ++ (head.text ++ (items.map ClauseItem.text).flatten) <:+ q := by
  have hfront : ∀ {c : Option ImportClause}, d.clause = c →
      d.front = "import".toList ++ d.afterImport.text ++ c.elim [] ImportClause.text := fun h => h ▸ rfl
  cases hclause : d.clause with
  | none =>
    rw [(hfront hclause).trans (List.append_nil _)] at h
    exact absurd h (not_suffix_of_last d.afterImport.isBlank_text lastIs_import (lastIs_from.append _) rfl rfl (by decide))
  | some c =>
    obtain ⟨head, items, beforeFrom, afterFrom⟩ := c
    refine ⟨head, items, ?_⟩
    have hd : d.front = "import".toList ++ d.afterImport.text ++ (head.text ++ (items.map ClauseItem.text).flatten) ++
        beforeFrom.text ++ "from".toList ++ afterFrom.text := by
      rw [hfront hclause, Option.elim_some, ImportClause.text]
      simp only [List.append_assoc]
    rw [hd] at h
    have hbefore := suffix_of_keyword h afterFrom.isBlank_text lastIs_from rfl (List.all_eq_true.1 (by decide))
      ((beforeFrom.lastIs_text.mono fun _ hc => isWord_eq_false_of_isBlank hc).append _) ⟨q, ' ', rfl, rfl⟩
    exact (Text.suffix_of_run hbefore beforeFrom.isBlank_text Blanks.space.isBlank_text ((lastIs_bound head items).append _)
      (hq.mono fun _ hc => solid_of_isWord hc)).2

/-- A word is not read where a namespace is bound if something else than the word before its name stands before it. -/
theorem not_word_suffix {x : Char} {a p : Text} {g : Gap} {w all : Word} (ha : Text.LastIs (· = x) a) (hx : Solid x) (hne : x ≠ 's')
    (hword : Text.LastIs (isWord · = false) (a ++ g.text)) :
    ¬a ++ g.text ++ w.text <:+ p ++ "as".toList ++ [' '] ++ all.text := by
  intro h
  have hbefore := (Text.suffix_of_run h w.isWord_text all.isWord_text hword ⟨p ++ "as".toList, ' ', rfl, rfl⟩).2
  exact not_suffix_of_last g.isBlank_text ha (lastIs_as.append p) hx rfl hne hbefore

/-- A namespace is not read where a comma stands before it. -/
theorem not_star_suffix {p : Text} {afterImport afterStar afterAs : Blanks} {w all : Word} :
    ¬"import".toList ++ afterImport.text ++ "*".toList ++ afterStar.text ++ "as".toList ++ afterAs.text ++ w.text <:+
      p ++ [','] ++ [' '] ++ "*".toList ++ [' '] ++ "as".toList ++ [' '] ++ all.text := by
  intro h
  have hblanks : ∀ b : Blanks, Text.LastIs (isWord · = false) b.text := fun b =>
    b.lastIs_text.mono fun _ hc => isWord_eq_false_of_isBlank hc
  have hstar : Text.LastIs (· = '*') "*".toList := ⟨[], '*', by decide, rfl⟩
  have hnoStar : Text.LastIs (fun c => (c == '*') = false) afterImport.text :=
    afterImport.lastIs_text.mono fun c hc => beq_false_of_ne fun heq => absurd (heq ▸ hc) (by decide)
  -- the pieces of both texts are cut off one after the other, from the last one on
  have hname := (Text.suffix_of_run h w.isWord_text all.isWord_text ((hblanks afterAs).append _) ⟨_, ' ', rfl, rfl⟩).2
  have hbeforeAs := suffix_of_keyword hname afterAs.isBlank_text lastIs_as rfl (List.all_eq_true.1 (by decide))
    ((hblanks afterStar).append _) ⟨_, ' ', rfl, rfl⟩
  have hbeforeStar := suffix_of_keyword hbeforeAs afterStar.isBlank_text hstar rfl (List.all_eq_true.1 (by decide))
    (hnoStar.append _) ⟨_, ' ', rfl, rfl⟩
  exact not_suffix_of_last afterImport.isBlank_text lastIs_import ⟨p, ',', rfl, rfl⟩ rfl rfl (by decide) hbeforeStar

/-- A default name with a namespace does not end like an import statement. -/
theorem not_front_suffix (name all : Word) (d : ImportDeclaration) :
    ¬d.front <:+ (ClauseForm.defaultAndNamespaced name all).front := by
  intro h
  obtain ⟨p, hp⟩ : ∃ p, (ClauseForm.defaultAndNamespaced name all).front =
      p ++ [','] ++ [' '] ++ "*".toList ++ [' '] ++ "as".toList ++ [' '] ++ all.text ++ [' '] ++ "from".toList ++ [' '] := by
    refine ⟨"import".toList ++ [' '] ++ name.text, ?_⟩
    change "import".toList ++ [' '] ++
      (name.text ++ ([','] ++ [' ']) ++ ("*".toList ++ [' '] ++ ("as".toList ++ [' ']) ++ all.text) ++ [' '] ++
        ("from".toList ++ [' '])) = _
    simp only [List.append_assoc]
  rw [hp] at h
  obtain ⟨head, items, hbound⟩ := bound_suffix (all.lastIs_text.append _) h
  rcases exists_lastPiece head items with ⟨afterStar, afterAs, w, hpiece⟩ | ⟨u, b, hpiece, hu⟩
  · have htext : "import".toList ++ d.afterImport.text ++ (head.text ++ (items.map ClauseItem.text).flatten) =
        "import".toList ++ d.afterImport.text ++ "*".toList ++ afterStar.text ++ "as".toList ++ afterAs.text ++ w.text := by
      rw [hpiece]
      simp only [List.append_assoc]
    exact not_star_suffix (htext ▸ hbound)
  · have htext : "import".toList ++ d.afterImport.text ++ (head.text ++ (items.map ClauseItem.text).flatten) =
        "import".toList ++ d.afterImport.text ++ u ++ b.text := by
      rw [hpiece, List.append_assoc _ u]
    rw [htext] at hbound
    cases b with
    | braced names hnames =>
      have hbrace : Text.LastIs (· = '}') (Binding.braced names hnames).text := ⟨'{' :: names, '}', rfl, rfl⟩
      obtain ⟨c, hc, hc'⟩ := (hbrace.append _).of_suffix (all.lastIs_text.append _) hbound
      exact absurd (hc ▸ hc') (by decide)
    | named w =>
      rcases hu with rfl | ⟨v, g, rfl⟩
      · rw [List.append_nil] at hbound
        exact not_word_suffix (g := .ofBlanks d.afterImport) lastIs_import rfl (by decide)
          ((d.afterImport.lastIs_text.mono fun _ hc => isWord_eq_false_of_isBlank hc).append _) hbound
      · have hsplit : "import".toList ++ d.afterImport.text ++ (v ++ ",".toList ++ g.text) =
            "import".toList ++ d.afterImport.text ++ v ++ ",".toList ++ g.text := by simp only [List.append_assoc]
        rw [hsplit] at hbound
        have hcomma : Text.LastIs (· = ',') ",".toList := ⟨[], ',', by decide, rfl⟩
        exact not_word_suffix (hcomma.append _) rfl (by decide)
          (((hcomma.mono fun _ hc => hc ▸ rfl).append _).append_gap g fun _ hc => isWord_eq_false_of_isBlank hc) hbound

/-- From the statement of a form its module is found, exactly if the module has a name at all and the form is not a default name
with a namespace. Otherwise nothing is found. -/
theorem imports_clauseForm_iff (form : ClauseForm) {m : Text} (hm : ∀ c ∈ m, isQuote c = false) :
    (imports (form.statement m) = [m] ↔ m ≠ [] ∧ ∀ name all, form ≠ .defaultAndNamespaced name all) ∧
    (imports (form.statement m) ≠ [m] → imports (form.statement m) = []) := by
  by_cases hform : m ≠ [] ∧ ∀ name all, form ≠ .defaultAndNamespaced name all
  · have hpieces : form.pieces?.isSome = true := by
      cases form with
      | defaultAndNamespaced name all => exact absurd rfl (hform.2 name all)
      | _ => rfl
    have hfound := form.imports_statement hpieces hform.1 hm
    exact ⟨iff_of_true hfound hform, fun h => absurd hfound h⟩
  · have hnone : imports (form.statement m) = [] := by
      refine imports_eq_nil form.isQuote_front hm fun d hd hspecifier => hform ⟨hspecifier ▸ d.specifier_ne_nil, ?_⟩
      rintro name all rfl
      exact not_front_suffix name all d hd
    exact ⟨iff_of_false (by rw [hnone]; exact (List.cons_ne_nil m []).symm) hform, fun _ => hnone⟩

/-- A default name and two other names, of which one is renamed. -/
def defaultAndTwoNames : ClauseForm :=
  .defaultAndNamed { text := ['d'] }
    [{ name := { text := ['a'] } }, { name := { text := ['b'] }, renamed := some { text := ['c'] } }]

/-- From a default name with two names in braces, one of them given another name, the module is found. -/
theorem imports_clauseForm_defaultAndTwoNames :
    (∀ c ∈ ['m'], isQuote c = false) ∧
    defaultAndTwoNames.statement ['m'] = "import d, \x7b a, b as c \x7d from 'm'".toList ∧
    imports "import d, \x7b a, b as c \x7d from 'm'".toList = [['m']] := by
  have hm : ∀ c ∈ ['m'], isQuote c = false := unquoting_of_all (by decide)
  have hstatement : defaultAndTwoNames.statement ['m'] = "import d, \x7b a, b as c \x7d from 'm'".toList := by decide
  have hfound := (imports_clauseForm_iff defaultAndTwoNames hm).1.2 ⟨by decide, fun _ _ => ClauseForm.noConfusion⟩
  rw [hstatement] at hfound
  exact ⟨hm, hstatement, hfound⟩

/-- A default name with a namespace is not found. -/
theorem imports_clauseForm_false :
    (¬∀ (form : ClauseForm) (m : Text), (∀ c ∈ m, isQuote c = false) → m ≠ [] → imports (form.statement m) = [m]) ∧
    imports "import d, * as n from 'm'".toList = [] := by
  have hnone : imports "import d, * as n from 'm'".toList = [] := by decide +kernel
  refine ⟨fun h => ?_, hnone⟩
  have hfound := h (.defaultAndNamespaced { text := ['d'] } { text := ['n'] }) ['m'] (unquoting_of_all (by decide)) (by decide)
  have hstatement : ClauseForm.statement (.defaultAndNamespaced { text := ['d'] } { text := ['n'] }) ['m'] =
      "import d, * as n from 'm'".toList := by decide
  rw [hstatement, hnone] at hfound
  exact absurd hfound (by decide)

end Braced

end SourceInventory
