import SourceInventory.Extract
import SourceInventory.Proofs.Extract.ClassBody
import SourceInventory.Proofs.Extract.Piece
import SourceInventory.Proofs.Path.Names
import SourceInventory.Proofs.Pattern.LineStart
import SourceInventory.Proofs.Pattern.Preferred

/-!
# Import lines: the lines of an indented source that import

A line imports a module, or names from a module, or it begins with neither word of an import. What is read of an import ends in its
line, so that each line adds its own module to the imports of the lines after it (`ImportLine.imports_text_append`), and a source
made of such lines imports the modules of its import lines, in order (`imports_of_lines`).
-/

namespace SourceInventory.Indented

open Pattern

/-! ## Lines -/

/-- The name of a module, with the dots of relative ones. -/
structure ModuleName where
  /-- Its characters. -/
  text : Text
  /-- There is one at least. -/
  text_ne_nil : text ≠ [] := by decide
  /-- They are word characters and dots. -/
  isDotted_text : ∀ c ∈ text, isDotted c = true := by exact List.all_eq_true.1 (by decide)

/-- A line of an indented source, as far as imports go. -/
inductive ImportLine where
  /-- An import of a module; the name ends where the rest of the line begins. -/
  | module (afterImport : Blanks) (name : ModuleName) (rest : Text) (ends : ∀ c ∈ rest.head?, isDotted c = false)
  /-- An import of names from a module. -/
  | names (afterFrom : Blanks) (name : ModuleName) (beforeImport : Blanks) (rest : Text)
  /-- A line that begins with neither word. -/
  | other (line : Text) (not_import : ¬"import".toList <+: line) (not_from : ¬"from".toList <+: line)

namespace ImportLine

/-- A line as it is written. -/
def text : ImportLine → Text
  | module afterImport name rest _ => "import".toList ++ afterImport.text ++ name.text ++ rest
  | names afterFrom name beforeImport rest =>
    "from".toList ++ afterFrom.text ++ name.text ++ beforeImport.text ++ "import".toList ++ rest
  | other line _ _ => line

/-- The module that a line imports. -/
def imported? : ImportLine → Option Text
  | module _ name _ _ | names _ name _ _ => some name.text
  | other _ _ _ => none

end ImportLine

/-! ## The two forms of an import -/

/-- An import of names from a module, up to the word before the names. -/
def namesImport : Pattern := keyword "from" ++ dottedName ++ blanks ++ lit "import"

/-- An import of a module. -/
def moduleImport : Pattern := keyword "import" ++ dottedName

theorem isDotted_eq_false_of_isBlank {c : Char} (h : isBlank c = true) : isDotted c = false := by
  have hdot : c ≠ '.' := by
    rintro rfl
    exact absurd h (by decide)
  rw [isDotted, isWord_eq_false_of_isBlank h, beq_false_of_ne hdot]
  rfl

theorem solid_of_isDotted {c : Char} (h : isDotted c = true) : Solid c := by
  cases hc : isBlank c with
  | false => exact hc
  | true => rw [isDotted_eq_false_of_isBlank hc] at h; exact absurd h (by decide)

theorem beginsWith_dottedName : BeginsWith dottedName Solid :=
  (BeginsWith.append ((beginsWith_char isDotted).mono fun _ h => solid_of_isDotted h)).field

theorem ModuleName.reads (n : ModuleName) : Reads dottedName n.text [(.specifier, n.text)] :=
  (reads_nonemptyRun n.text_ne_nil n.isDotted_text).field .specifier

/-- An import of names has one reading: the name ends where the blanks begin. -/
theorem unambiguous_namesImport : Unambiguous namesImport := by
  have hblanks : BeginsWith (blanks ++ lit "import") (isDotted · = false) :=
    (BeginsWith.append ((beginsWith_char isBlank).mono fun _ h => isDotted_eq_false_of_isBlank h)).append
  have hname : SettledBefore dottedName (blanks ++ lit "import") :=
    settledBefore_field (settledBefore_append ((unambiguous_char _).settledBefore _) (settledBefore_run hblanks))
  refine unambiguous_append (settledBefore_append (settledBefore_append ?_ hname) ?_) (unambiguous_text _)
  · exact settledBefore_keyword "from" beginsWith_dottedName.append
  · exact settledBefore_blanks ((beginsWith_lit (x := 'i') rfl).mono fun _ hx => hx ▸ rfl)

/-- An import of names is read up to the word before the names, whatever follows. -/
theorem first?_namesImport (afterFrom : Blanks) (name : ModuleName) (beforeImport : Blanks) (r : Text) :
    ∃ d, importStatement.first? ("from".toList ++ afterFrom.text ++ name.text ++ beforeImport.text ++ "import".toList ++ r) =
        some d ∧ d.rest = r ∧ d.get .specifier = name.text := by
  have hreads : Reads namesImport _ _ :=
    (((reads_keyword "from" afterFrom).append name.reads).append (reads_blanks beforeImport)).append (reads_lit "import")
  obtain ⟨d, hd, hr, hcaptures⟩ := hreads.first?_eq_some unambiguous_namesImport r
  refine ⟨d, ?_, hr, ?_⟩
  · change (Pattern.either namesImport moduleImport).first? _ = _
    rw [first?_either, hd]
    rfl
  · rw [Derivation.get, Derivation.get?_eq_lookup, hcaptures]
    rfl

/-- An import of a module is read up to the end of its name. -/
theorem first?_moduleImport (afterImport : Blanks) (name : ModuleName) {r : Text} (hr : ∀ c ∈ r.head?, isDotted c = false) :
    ∃ d, importStatement.first? ("import".toList ++ afterImport.text ++ name.text ++ r) = some d ∧ d.rest = r ∧
      d.get .specifier = name.text := by
  have hword := reads_keyword "import" afterImport
  obtain ⟨d, hd⟩ := (hword.append name.reads).exists_first? r
  have hfrom : namesImport.first? ("import".toList ++ afterImport.text ++ name.text ++ r) = none := by
    refine first?_eq_none_iff.2 fun e he => ?_
    obtain ⟨t, ht⟩ := (opensWith_lit "from").append.append.append.append he
    exact absurd (List.cons.inj ht).1 (by decide)
  have hfirst : importStatement.first? ("import".toList ++ afterImport.text ++ name.text ++ r) = some d := by
    change (Pattern.either namesImport moduleImport).first? _ = _
    rw [first?_either, hfrom]
    exact hd
  -- the blanks after the word end where the name begins, and the name is taken as far as it goes
  obtain ⟨x, y, hx, hy, rfl⟩ := derives_of_first?_append hd
  obtain ⟨e, he, -⟩ := name.reads r
  obtain ⟨w, hw, hrest, hcaptures⟩ := hword (name.text ++ r)
  rw [List.append_assoc] at hx
  obtain rfl := settledBefore_keyword "import" beginsWith_dottedName hx (derives_of_first? hy) hw (hrest ▸ he)
  obtain ⟨htake, hdrop⟩ := Text.cut_run name.isDotted_text hr
  rw [hrest, dottedName, first?_field, Option.map_eq_some_iff] at hy
  obtain ⟨z, hz, rfl⟩ := hy
  have hz := eq_of_first?_nonemptyRun hz
  rw [htake, hdrop] at hz
  subst hz
  refine ⟨_, hfirst, rfl, ?_⟩
  rw [Derivation.get, Derivation.get?_eq_lookup, Derivation.captures_andThen, hcaptures]
  change (name.text ++ r).take name.text.length = name.text
  exact List.take_left

/-- No import begins where neither word does. -/
theorem first?_importStatement_eq_none {s : Text} (himport : ¬"import".toList <+: s) (hfrom : ¬"from".toList <+: s) :
    importStatement.first? s = none := by
  refine first?_eq_none_iff.2 fun d hd => ?_
  rcases derives_either_iff.1 hd with hd | hd
  · exact hfrom ((opensWith_lit "from").append.append.append.append hd)
  · exact himport ((opensWith_lit "import").append.append hd)

/-! ## Sources -/

/-- From a source that begins with a line the module of the line is taken first, and then what the lines after it import. -/
theorem ImportLine.imports_text_append (l : ImportLine) (hl : '\n' ∉ l.text) {s : Text} (hs : ∀ c ∈ s.head?, c = '\n') :
    imports (l.text ++ s) = l.imported?.toList ++ imports s.tail := by
  have taken : ∀ {t r : Text} {d : Derivation}, importStatement.first? (t ++ (r ++ s)) = some d → d.rest = r ++ s → t ≠ [] →
      '\n' ∉ t ++ r → imports (t ++ r ++ s) = d.get .specifier :: imports s.tail := by
    intro t r d hd hr ht htr
    rw [List.append_assoc, imports, occurrences_eq_cons_of_line hd hr ht htr hs, List.map_cons, ← imports]
  cases l with
  | module afterImport name rest ends =>
    have hends : ∀ c ∈ (rest ++ s).head?, isDotted c = false := by
      intro c hc
      cases rest with
      | nil =>
        rw [hs c hc]
        exact isDotted_eq_false_of_isBlank rfl
      | cons x rest => exact ends c hc
    obtain ⟨d, hd, hr, hname⟩ := first?_moduleImport afterImport name hends
    exact (taken hd hr (by simp) hl).trans (congrArg (· :: imports s.tail) hname)
  | names afterFrom name beforeImport rest =>
    obtain ⟨d, hd, hr, hname⟩ := first?_namesImport afterFrom name beforeImport (rest ++ s)
    exact (taken hd hr (by simp) hl).trans (congrArg (· :: imports s.tail) hname)
  | other line himport hfrom =>
    have hnot : ∀ {w : Text}, '\n' ∉ w → ¬w <+: line → ¬w <+: line ++ s := fun hw hline h =>
      hline (Text.prefix_of_prefix_append_of_head h fun c hc => hs c hc ▸ hw)
    have hnone := first?_importStatement_eq_none (hnot (by decide) himport) (hnot (by decide) hfrom)
    exact congrArg (List.map fun o : Occurrence => o.get .specifier) (occurrences_of_line hnone hl hs)

/-- If each line of a source imports a module, imports names from a module or begins with neither word of an import, then the source
imports the modules of its import lines, in the order of the lines and each as often as it is imported, relative ones with their
dots. -/
theorem imports_of_lines {source : Text} {ls : List ImportLine} (h : Text.lines source = ls.map ImportLine.text) :
    imports source = ls.filterMap ImportLine.imported? := by
  induction ls generalizing source with
  | nil => exact absurd h (Text.splitOn_ne_nil _ _)
  | cons l ls ih =>
    have hcons : (l :: ls).filterMap ImportLine.imported? = l.imported?.toList ++ ls.filterMap ImportLine.imported? := by
      cases hl : l.imported? <;> simp [hl]
    rw [hcons]
    obtain ⟨hl, ⟨rfl, hls⟩ | ⟨s, rfl, hs⟩⟩ := Text.splitOn_eq_cons h
    · have himports := l.imports_text_append hl (s := []) (by simp)
      rw [List.append_nil] at himports
      rw [himports, List.map_eq_nil_iff.1 hls]
      rfl
    · rw [l.imports_text_append hl (s := '\n' :: s) (by simp), List.tail_cons, ih hs]

/-- A relative import of names, an import with another one behind it, two lines that import nothing and the first import again. -/
theorem imports_mixedLines :
    ∃ ls : List ImportLine,
      Text.lines "from ..a \timport b\nimport os.path as p, sys\nx = 1\n\nimport  os.path".toList = ls.map ImportLine.text ∧
      imports "from ..a \timport b\nimport os.path as p, sys\nx = 1\n\nimport  os.path".toList =
        ["..a".toList, "os.path".toList, "os.path".toList] := by
  have hlines : Text.lines "from ..a \timport b\nimport os.path as p, sys\nx = 1\n\nimport  os.path".toList =
      List.map ImportLine.text
        [.names .space { text := "..a".toList } { text := " \t".toList } " b".toList,
         .module .space { text := "os.path".toList } " as p, sys".toList fun _ hc => Option.some.inj hc ▸ rfl,
         .other "x = 1".toList (by decide) (by decide),
         .other [] (by decide) (by decide),
         .module { text := "  ".toList } { text := "os.path".toList } [] fun _ hc => nomatch hc] := by
    decide +kernel
  exact ⟨_, hlines, imports_of_lines hlines⟩

end SourceInventory.Indented
