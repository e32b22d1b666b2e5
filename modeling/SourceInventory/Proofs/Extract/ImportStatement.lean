import SourceInventory.Extract.Braced
import SourceInventory.Proofs.Extract.Declarations
import SourceInventory.Proofs.Extract.Piece

/-!
# Import statements: written and read again

An import statement is written from a clause, or none, and the name of a module between quotation marks. The pattern for it
is unambiguous (`unambiguous_importStatement`), so a statement is read as it was written, whatever its names and its bindings
say. A source made of such statements with texts between them in which the word for imports does not occur imports exactly
these modules, in order (`imports_writeImports`).
-/

namespace SourceInventory.Braced

open Pattern

/-! ## Statements -/

/-- What an import binds at one place: names between braces, or a name. -/
inductive Binding where
  /-- Names between braces, with any text that does not close them. -/
  | braced (names : Text) (open_names : '}' ∉ names)
  /-- A name. -/
  | named (name : Word)

/-- A binding as it is written. -/
def Binding.text : Binding → Text
  | .braced names _ => '{' :: (names ++ ['}'])
  | .named name => name.text

/-- What an import clause begins with. -/
inductive ClauseHead where
  /-- A binding. -/
  | binding (b : Binding)
  /-- All of the module, under a name. -/
  | namespaced (afterStar afterAs : Blanks) (name : Word)

/-- The beginning of a clause as it is written. -/
def ClauseHead.text : ClauseHead → Text
  | .binding b => b.text
  | .namespaced afterStar afterAs name => "*".toList ++ afterStar.text ++ ("as".toList ++ afterAs.text) ++ name.text

/-- A binding after a comma, with blanks around the comma. -/
structure ClauseItem where
  /-- The blanks before the comma. -/
  before : Gap := .none
  /-- The blanks after the comma. -/
  after : Gap := .none
  /-- What is bound. -/
  binding : Binding

/-- A comma and a binding as they are written. -/
def ClauseItem.text (i : ClauseItem) : Text := i.before.text ++ ",".toList ++ i.after.text ++ i.binding.text

/-- What an import binds, up to the word before the name of the module. -/
structure ImportClause where
  /-- The first binding. -/
  head : ClauseHead
  /-- The other ones. -/
  items : List ClauseItem := []
  /-- The blanks before the word. -/
  beforeFrom : Blanks := .space
  /-- The blanks after the word. -/
  afterFrom : Blanks := .space

/-- A clause as it is written. -/
def ImportClause.text (c : ImportClause) : Text :=
  c.head.text ++ (c.items.map ClauseItem.text).flatten ++ c.beforeFrom.text ++ ("from".toList ++ c.afterFrom.text)

/-- An import of a module, for what its clause binds or for its effect. -/
structure ImportDeclaration where
  /-- The blanks after the first word. -/
  afterImport : Blanks := .space
  /-- What is bound. -/
  clause : Option ImportClause := none
  /-- The mark before the name of the module. -/
  opening : Char := '\''
  /-- The name of the module. -/
  specifier : Text
  /-- The mark after the name of the module. -/
  closing : Char := '\''
  /-- The name is not empty. -/
  specifier_ne_nil : specifier ≠ [] := by decide
  /-- No quotation mark stands in the name. -/
  isQuote_specifier : ∀ c ∈ specifier, (!isQuote c) = true := by exact List.all_eq_true.1 (by decide)
  /-- The first mark is a quotation mark. -/
  isQuote_opening : isQuote opening = true := by decide
  /-- The second mark is a quotation mark. -/
  isQuote_closing : isQuote closing = true := by decide

/-- An import statement as it is written. -/
def ImportDeclaration.text (d : ImportDeclaration) : Text :=
  "import".toList ++ d.afterImport.text ++ (d.clause.elim [] ImportClause.text) ++ [d.opening] ++ d.specifier ++ [d.closing]

/-- A declaration begins with the first letter of its keyword. -/
theorem ImportDeclaration.text_eq_cons (d : ImportDeclaration) : ∃ t, d.text = 'i' :: t := ⟨_, rfl⟩

/-! ## Reading what was written -/

/-- Names in braces are read as bindings. -/
theorem reads_bindings {names : Text} (h : '}' ∉ names) : Reads bindings ('{' :: (names ++ ['}'])) [] := by
  have hrun : Reads (upTo '}') names [] := by
    refine reads_run fun c hc => ?_
    have hne : c ≠ '}' := fun hc' => h (hc' ▸ hc)
    simpa using hne
  exact ((reads_lit "\x7b").append hrun).append (reads_lit "\x7d")

/-- A binding is read as it is written. -/
theorem Binding.reads (b : Binding) : Reads (.either bindings word) b.text [] := by
  cases b with
  | braced names h => exact (reads_bindings h).left
  | named name => exact (reads_word name).right

theorem ClauseHead.reads (h : ClauseHead) : Reads importHead h.text [] := by
  cases h with
  | binding b =>
    cases b with
    | braced names h => exact (reads_bindings h).left
    | named name => exact (reads_word name).right.right
  | namespaced afterStar afterAs name =>
    have hstar := ((reads_lit "*").append (reads_blanks afterStar)).append (reads_keyword "as" afterAs)
    exact (hstar.append (reads_word name)).left.right

theorem ClauseItem.reads (i : ClauseItem) : Reads importItem i.text [] :=
  (((reads_gap i.before).append (reads_lit ",")).append (reads_gap i.after)).append i.binding.reads

/-- So is a clause as a whole. -/
theorem ImportClause.reads (c : ImportClause) :
    Reads (importHead ++ .many importItem ++ blanks ++ keyword "from") c.text [] := by
  have hitems : Reads (.many importItem) (c.items.map ClauseItem.text).flatten [] := by
    refine reads_many fun t ht => ?_
    obtain ⟨i, -, rfl⟩ := List.mem_map.1 ht
    exact ⟨by simp [ClauseItem.text], i.reads⟩
  exact ((c.head.reads.append hitems).append (reads_blanks c.beforeFrom)).append (reads_keyword "from" c.afterFrom)

/-- The pattern of import statements reads a statement, whatever follows it, and captures the name of the module. -/
theorem ImportDeclaration.reads (d : ImportDeclaration) : Reads importStatement d.text [(.specifier, d.specifier)] := by
  have hclause : Reads (.optional (importHead ++ .many importItem ++ blanks ++ keyword "from"))
      (d.clause.elim [] ImportClause.text) [] := by
    cases d.clause with
    | none => exact reads_absent _
    | some c => exact c.reads.present
  have hname : Reads (nonemptyRun fun c => !isQuote c) d.specifier [] :=
    reads_nonemptyRun d.specifier_ne_nil d.isQuote_specifier
  exact ((((reads_keyword "import" d.afterImport).append hclause).append (reads_char d.isQuote_opening)).append
    (hname.field .specifier)).append (reads_char d.isQuote_closing)

/-! ## One reading -/

/-- A character that is no quotation mark. -/
def Unquoting (c : Char) : Prop := isQuote c = false

/-- A quote is no blank. -/
theorem solid_of_isQuote {c : Char} (h : isQuote c = true) : Solid c := by
  simp only [isQuote, Bool.or_eq_true, beq_iff_eq] at h
  rcases h with rfl | rfl <;> rfl

/-- A word character is no quote. -/
theorem unquoting_of_isWord {c : Char} (h : isWord c = true) : Unquoting c := by
  refine Bool.eq_false_iff.2 fun hq => ?_
  simp only [isQuote, Bool.or_eq_true, beq_iff_eq] at hq
  rcases hq with rfl | rfl <;> exact absurd h (by decide)

theorem beginsWith_bindings : BeginsWith bindings (· = '\x7b') := (beginsWith_lit rfl).append.append

/-- Bindings are told from a word by the first character. -/
theorem settledBefore_binding {b : Pattern} (hb : BeginsWith b OutsideWords) : SettledBefore (.either bindings word) b := by
  refine settledBefore_either ((unambiguous_delimited _ _ rfl).settledBefore _) (settledBefore_word hb) ?_
  intro s d e hd
  exact beginsWith_bindings.disjoint beginsWith_word (by rintro _ rfl; decide) hd

/-- What a clause begins with is told by the first character. -/
theorem settledBefore_importHead {b : Pattern} (hb : BeginsWith b OutsideWords) : SettledBefore importHead b := by
  have hstar : BeginsWith (lit "*" ++ blanks ++ keyword "as" ++ word) (· = '*') := (beginsWith_lit rfl).append.append.append
  refine settledBefore_either ((unambiguous_delimited _ _ rfl).settledBefore _) (settledBefore_either ?_
    (settledBefore_word hb) ?_) ?_
  · refine settledBefore_append (settledBefore_append (settledBefore_append ?_ ?_) ?_) (settledBefore_word hb)
    · exact (unambiguous_text _).settledBefore _
    · exact settledBefore_blanks ((beginsWith_keyword (x := 'a') rfl).append.of_eq rfl)
    · exact settledBefore_keyword _ (beginsWith_word.append.mono fun _ hx => solid_of_isWord hx)
  · intro s d e hd
    exact hstar.disjoint beginsWith_word (by rintro _ rfl; decide) hd
  · intro s d e hd
    have hnot : BeginsWith (.either (lit "*" ++ blanks ++ keyword "as" ++ word) word) (· ≠ '\x7b') :=
      (hstar.of_eq (by decide)).either (beginsWith_word.mono fun x hx hx' => absurd (hx' ▸ hx) (by decide))
    exact beginsWith_bindings.disjoint hnot (fun x hx hx' => hx' hx) hd

/-- A further part of a clause begins outside of words. -/
theorem beginsWith_importItem : BeginsWith importItem OutsideWords :=
  (BeginsWith.run_append (fun _ hx => isWord_eq_false_of_isBlank hx)
    ((beginsWith_lit (x := ',') rfl).of_eq (q := OutsideWords) rfl)).append.append

/-- The items of a clause end where no comma follows. -/
theorem settledBefore_items {b : Pattern} :
    SettledBefore (.many importItem) (blanks ++ (keyword "from" ++ b)) := by
  have hfrom : BeginsWith (keyword "from" ++ b) (· = 'f') := (beginsWith_keyword rfl).append
  have hafter : BeginsWith (.many importItem ++ (blanks ++ (keyword "from" ++ b))) OutsideWords :=
    beginsWith_importItem.many_append beginsWith_blanks.append
  refine settledBefore_many ?_ ?_
  · refine settledBefore_append (settledBefore_append (settledBefore_append ?_ ?_) ?_) (settledBefore_binding hafter)
    · exact settledBefore_gap ((beginsWith_lit (x := ',') rfl).append.of_eq rfl)
    · exact (unambiguous_text _).settledBefore _
    · refine settledBefore_gap (BeginsWith.append ?_)
      exact (beginsWith_bindings.of_eq (q := Solid) rfl).either (beginsWith_word.mono fun _ hx => solid_of_isWord hx)
  · intro s d e hd
    have hcomma : BeginsAfterBlanks (importItem ++ (.many importItem ++ (blanks ++ (keyword "from" ++ b)))) ',' :=
      (beginsAfterBlanks_gap (beginsWith_lit rfl)).append.append.append
    exact hcomma.disjoint (beginsAfterBlanks_blanks hfrom) rfl rfl (by decide) hd

/-- An import statement has one reading. -/
theorem unambiguous_importStatement : Unambiguous importStatement := by
  have hmark : ∀ b : Pattern, BeginsWith (.char isQuote ++ b) (isQuote · = true) := fun b => (beginsWith_char isQuote).append
  have hsolid : ∀ b : Pattern, BeginsWith (.char isQuote ++ b) Solid := fun b => (hmark b).mono fun _ h => solid_of_isQuote h
  have hhead : BeginsWith importHead (fun c => Solid c ∧ Unquoting c) := by
    refine (beginsWith_bindings.of_eq ⟨rfl, rfl⟩).either (((beginsWith_lit (x := '*') rfl).append.append.append.of_eq
      ⟨rfl, rfl⟩).either ?_)
    exact beginsWith_word.mono fun _ hx => ⟨solid_of_isWord hx, unquoting_of_isWord hx⟩
  refine unambiguous_append (settledBefore_append (settledBefore_append (settledBefore_append ?_ ?_) ?_) ?_)
    (unambiguous_char _)
  · exact settledBefore_keyword _ ((hhead.append.append.append.mono fun _ h => h.1).optional_append (hsolid _))
  · refine settledBefore_optional ?_ ?_
    · refine settledBefore_append (settledBefore_append (settledBefore_append ?_ settledBefore_items) ?_)
        (settledBefore_keyword _ (hsolid _))
      · exact settledBefore_importHead (beginsWith_importItem.many_append beginsWith_blanks.append)
      · exact settledBefore_blanks ((beginsWith_keyword (x := 'f') rfl).append.of_eq rfl)
    · intro s d e hd
      refine BeginsWith.disjoint (hhead.append.append.append) (hmark _) ?_ hd
      intro x hx hx'
      exact absurd (hx.2.symm.trans hx') (by decide)
  · exact (unambiguous_char _).settledBefore _
  · refine settledBefore_field (settledBefore_append ((unambiguous_char _).settledBefore _) (settledBefore_run ?_))
    exact (beginsWith_char isQuote).mono fun _ h => by simp [h]

/-! ## Sources of import statements -/

/-- A statement opens with its keyword. -/
theorem opensWith_importStatement : OpensWith importStatement ('i' :: "mport".toList) :=
  (opensWith_lit "import").append.append.append.append.append

/-- From a source that begins with an import statement its module is taken first. -/
theorem ImportDeclaration.imports_text_append (d : ImportDeclaration) (s : Text) :
    imports (d.text ++ s) = d.specifier :: imports s := by
  obtain ⟨t, ht⟩ := d.text_eq_cons
  obtain ⟨e, hocc, hcaptures⟩ := d.reads.occurrences_eq_cons unambiguous_importStatement (by simp [ht]) s
  have hspecifier : Derivation.get e .specifier = d.specifier := by
    rw [Derivation.get, Derivation.get?_eq_lookup, hcaptures]
    rfl
  rw [imports, hocc, List.map_cons, hspecifier, ← imports]

/-- A text before each of some import statements. -/
def writeImports (parts : List (Text × ImportDeclaration)) : Text := parts.flatMap fun x => x.1 ++ x.2.text

/-- A source of import statements, with texts before, between and after them in which the word for imports does not occur,
imports exactly the modules that the statements name, in order. -/
theorem imports_writeImports (parts : List (Text × ImportDeclaration)) (ending : Text)
    (hparts : ∀ x ∈ parts, ¬ "import".toList <:+: x.1) (hending : ¬ "import".toList <:+: ending) :
    imports (writeImports parts ++ ending) = parts.map fun x => x.2.specifier := by
  have hword : 'i' ∉ "mport".toList := by decide
  induction parts with
  | nil =>
    have hnone := opensWith_importStatement.beginsNowhereIn hword hending (s := []) (by simp)
    rw [writeImports, List.flatMap_nil, List.nil_append, imports, occurrences_eq_nil hnone]
    rfl
  | cons x parts ih =>
    obtain ⟨between, d⟩ := x
    obtain ⟨t, ht⟩ := d.text_eq_cons
    have hbetween : BeginsNowhereIn importStatement between (d.text ++ (writeImports parts ++ ending)) :=
      opensWith_importStatement.beginsNowhereIn hword (hparts _ List.mem_cons_self) (by simp [ht])
    have hih := ih fun y hy => hparts y (List.mem_cons_of_mem _ hy)
    rw [writeImports, List.flatMap_cons, ← writeImports, List.append_assoc, List.append_assoc, imports,
      occurrences_of_beginsNowhereIn hbetween, ← imports, d.imports_text_append, hih, List.map_cons]

/-- Three statements with names that are words of the statement itself, quotation marks between braces and the word for imports
as the name of a module. -/
def mixedStatements : List (Text × ImportDeclaration) :=
  [("// impor\n".toList,
    { clause := some
        { head := .binding (.named { text := "from".toList })
          items := [{ after := { text := "\n".toList }, binding := .braced "as \"x\"".toList (by decide) }] }
      specifier := "import".toList }),
   (";".toList,
    { clause := some { head := .namespaced { text := "  ".toList } .space { text := "from".toList } }
      opening := '"'
      specifier := "b".toList
      closing := '"' }),
   ([], { specifier := "b".toList })]

/-- The statements as they stand in a source. -/
def mixedSource : Text :=
  "// impor\nimport from,\n\x7bas \"x\"\x7d from 'import';import *  as from from \"b\"import 'b'impor".toList

/-- From all three the modules are found, in order, between texts that end in most of the keyword. -/
theorem imports_mixedStatements :
    (∀ x ∈ mixedStatements, ¬ "import".toList <:+: x.1) ∧ ¬ "import".toList <:+: "impor".toList ∧
    imports mixedSource = ["import".toList, "b".toList, "b".toList] := by
  have hsource : writeImports mixedStatements ++ "impor".toList = mixedSource := by decide
  have h := imports_writeImports mixedStatements "impor".toList (by decide +kernel) (by decide)
  rw [hsource] at h
  exact ⟨by decide +kernel, by decide, h⟩

end SourceInventory.Braced
