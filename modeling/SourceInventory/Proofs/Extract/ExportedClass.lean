import SourceInventory.Proofs.Extract.ClassDeclaration
import SourceInventory.Proofs.Extract.Method

/-!
# Exported classes: written and read again

A class is written from its name, a base or none, and its methods. In a source that holds a written class and no other word for
exports, the pass over the classes finds this class and nothing else, with all that was written
(`classPass_exportedClass`).
-/

namespace SourceInventory

open Pattern

/-- A text occurs in another one at a place, counted from its start, and nowhere else. -/
def Text.OccursOnlyAt (w s : Text) (k : Nat) : Prop := ∀ j, w <+: s.drop j ↔ j = k

/-- Only the places inside the text can be others. -/
theorem Text.occursOnlyAt_iff {w s : Text} {k : Nat} (hw : w ≠ []) (hk : k < s.length) :
    OccursOnlyAt w s k ↔ ∀ j < s.length, w <+: s.drop j ↔ j = k := by
  refine ⟨fun h j _ => h j, fun h j => ?_⟩
  by_cases hj : j < s.length
  · exact h j hj
  · rw [List.drop_eq_nil_of_le (Nat.le_of_not_lt hj), List.prefix_nil]
    exact ⟨fun hnil => absurd hnil hw, fun hjk => absurd (hjk ▸ hk) hj⟩

/-- No reading begins in a stretch beside the only place of the word that every reading begins with. -/
theorem Pattern.OpensWith.beginsNowhereIn_beside {p : Pattern} {w u t r : Text} {k : Nat} (hp : OpensWith p w)
    (honly : Text.OccursOnlyAt w (u ++ (t ++ r)) k) (hk : k < u.length ∨ u.length + t.length ≤ k) :
    BeginsNowhereIn p t r := by
  rintro v ⟨x, rfl⟩ hne d hd
  have hdrop : (u ++ (x ++ v ++ r)).drop (u.length + x.length) = v ++ r := by
    rw [List.append_assoc, ← List.append_assoc u, ← List.length_append, List.drop_left]
  have hplace := (honly (u.length + x.length)).1 (hdrop ▸ hp hd)
  have hpos := List.length_pos_iff.2 hne
  rw [List.length_append] at hk
  omega

/-- A word ends before a character that is in no word. -/
theorem Word.cut (w : Word) {r : Text} (hr : ∀ c ∈ r.head?, isWord c = false) :
    (w.text ++ r).takeWhile isWord = w.text ∧ (w.text ++ r).dropWhile isWord = r := Text.cut_run w.isWord_text hr

namespace Braced

/-! ## Classes -/

/-- What a class is derived from, the word for it before it. -/
structure BaseClause where
  /-- The blanks before the word. -/
  beforeExtends : Blanks := .space
  /-- The blanks after the word. -/
  afterExtends : Blanks := .space
  /-- What the class is derived from. -/
  base : Word

/-- The clause as it is written. -/
def BaseClause.text (c : BaseClause) : Text :=
  c.beforeExtends.text ++ ("extends".toList ++ c.afterExtends.text) ++ c.base.text

/-- An exported class and its methods. -/
structure ExportedClass where
  /-- The blanks after the first word. -/
  afterExport : Blanks := .space
  /-- The blanks after the second word. -/
  afterClass : Blanks := .space
  /-- The name. -/
  name : Word
  /-- What it is derived from. -/
  base : Option BaseClause := none
  /-- The blanks before the opening brace. -/
  beforeBody : Gap := .none
  /-- The methods, each after some blanks. -/
  members : List (Gap × Method.Declaration) := []
  /-- The blanks before the closing brace. -/
  ending : Gap := .none

/-! ## Clauses with a base -/

/-- The words before the name of a base are read. -/
theorem reads_extends (b : BaseClause) :
    Reads (blanks ++ keyword "extends") (b.beforeExtends.text ++ ("extends".toList ++ b.afterExtends.text)) [] :=
  (reads_blanks b.beforeExtends).append (reads_keyword "extends" b.afterExtends)

/-- The clause of a base is read with the name of the base. -/
theorem BaseClause.reads (b : BaseClause) : Reads extendsClause b.text [(.base, b.base.text)] :=
  (reads_extends b).append ((reads_word b.base).field .base)

/-- Blanks and a brace behind a word keep it apart. -/
theorem outsideWords_body (g : Gap) (t : Text) : ∀ x ∈ (g.text ++ '{' :: t).head?, isWord x = false :=
  Method.outsideWords_head g.isBlank_text fun _ _ hx => Option.some.inj hx ▸ rfl

/-- No word goes on where the clause of a base begins. -/
theorem BaseClause.outsideWords (b : BaseClause) (r : Text) : ∀ x ∈ (b.text ++ r).head?, isWord x = false := by
  have h := Method.outsideWords_head (r := "extends".toList ++ (b.afterExtends.text ++ (b.base.text ++ r)))
    b.beforeExtends.isBlank_text fun h => absurd h b.beforeExtends.text_ne_nil
  simpa only [BaseClause.text, List.append_assoc] using h

/-- Where a body follows there is no clause with a base. -/
theorem first?_extendsClause_eq_none (g : Gap) (t : Text) : extendsClause.first? (g.text ++ '{' :: t) = none := by
  refine first?_eq_none_iff.2 fun d hd => ?_
  have hclause : BeginsAfterBlanks extendsClause 'e' :=
    fun _ _ h => beginsAfterBlanks_blanks (beginsWith_keyword rfl).append (derives_append_assoc.1 h)
  obtain ⟨u, r, hs, hu⟩ := hclause hd
  have hcut := run_split_unique hs g.isBlank_text hu (fun x hx => Option.some.inj hx ▸ rfl)
    (fun x hx => Option.some.inj hx ▸ rfl)
  exact absurd (List.cons.inj hcut.2).1 (by decide)

/-- The clause with the base is read with the whole base. -/
theorem first?_extendsClause_eq_some (b : BaseClause) {r : Text} (hr : ∀ x ∈ r.head?, isWord x = false) :
    ∃ d, extendsClause.first? (b.text ++ r) = some d ∧ d.rest = r ∧ d.get? .base = some b.base.text := by
  obtain ⟨d, hd⟩ := b.reads.exists_first? r
  obtain ⟨x, hx, hbase, rfl⟩ := first?_extendsClause hd
  obtain ⟨e, he, -⟩ := (reads_word b.base).field .base r
  rw [BaseClause.text, List.append_assoc] at hx
  have hrest := (reads_extends b).rest_eq settledBefore_extends hx hbase he
  obtain ⟨hword, hcut⟩ := b.base.cut hr
  have hnone : x.get? .base = none := get?_eq_none hx List.not_mem_nil
  refine ⟨_, hd, ?_, ?_⟩
  · change x.rest.dropWhile isWord = r
    rw [hrest, hcut]
  · rw [Derivation.get?_andThen, hnone, get?_wholeWord, hrest, hword]
    rfl

/-- A class is read with the whole name, and then with the clause with the base as it is preferred, if there is one. -/
theorem first?_written {t : Text} (ht : Reads classHead t []) (name : Word) {r : Text} (hr : ∀ c ∈ r.head?, isWord c = false) :
    ∃ d, classDeclaration.first? (t ++ (name.text ++ r)) = some d ∧ d.get? .name = some name.text ∧
      d.rest = ((extendsClause.first? r).getD (.plain 0 r)).rest ∧
      d.get? .base = ((extendsClause.first? r).getD (.plain 0 r)).get? .base := by
  have hreads := (ht.append ((reads_word name).field .name)).append (reads_absent extendsClause)
  obtain ⟨d, hd⟩ := Reads.exists_first? (p := classDeclaration) hreads r
  rw [List.append_nil, List.append_assoc] at hd
  obtain ⟨x, hx, hname, rfl⟩ := first?_classDeclaration hd
  obtain ⟨e, he, -⟩ := (reads_word name).field .name r
  have hrest := ht.rest_eq (settledBefore_classHead (beginsWith_word.mono fun _ h => solid_of_isWord h).field) hx hname he
  obtain ⟨hword, hcut⟩ := name.cut hr
  have hnone : ∀ f, x.get? f = none := fun f => get?_eq_none hx List.not_mem_nil
  have hbaseless : (wholeWord .name (name.text ++ r)).get? .base = none := rfl
  rw [hrest, hcut] at hd
  refine ⟨_, hd, ?_, rfl, ?_⟩
  · rw [Derivation.get?_andThen, hnone, Derivation.get?_andThen, get?_wholeWord, hword]
    rfl
  · rw [Derivation.get?_andThen, hnone, Derivation.get?_andThen, hbaseless, Option.none_or, Option.none_or]

/-- A class declaration has words and blanks only. -/
theorem onlyReads_classDeclaration : classDeclaration.OnlyReads fun x => isWord x = true ∨ isBlank x = true := by
  have hword : word.OnlyReads fun x => isWord x = true ∨ isBlank x = true := ⟨fun _ h => Or.inl h, fun _ h => Or.inl h⟩
  have hblanks : blanks.OnlyReads fun x => isWord x = true ∨ isBlank x = true := ⟨fun _ h => Or.inr h, fun _ h => Or.inr h⟩
  refine ⟨⟨⟨⟨Method.onlyReads_keyword ?_, Method.onlyReads_keyword ?_⟩, Method.onlyReads_keyword ?_⟩, hword⟩,
    ⟨hblanks, Method.onlyReads_keyword ?_⟩, hword⟩
  all_goals decide

namespace ExportedClass

/-- The words of a class before its name. -/
def opening (c : ExportedClass) : Text := "export".toList ++ c.afterExport.text ++ ("class".toList ++ c.afterClass.text)

/-- What a class declares before its body. -/
def header (c : ExportedClass) : Text := c.opening ++ (c.name.text ++ c.base.elim [] BaseClause.text)

/-- What stands between the braces of a class. -/
def body (c : ExportedClass) : Text := Method.writeMembers c.members ++ c.ending.text

/-- A class as it is written. -/
def text (c : ExportedClass) : Text := c.header ++ (c.beforeBody.text ++ '{' :: (c.body ++ ['}']))

/-- The symbol of a class. -/
def symbol (c : ExportedClass) : Symbol where
  kind := .classType
  name := c.name.text
  signature :=
    match c.base with
    | some b => "class ".toList ++ c.name.text ++ " extends ".toList ++ b.base.text
    | none => "class ".toList ++ c.name.text
  base := c.base.map fun b => b.base.text
  methods := c.members.map fun x => x.2.method

/-! ## Reading -/

/-- The words before the name of a class are read. -/
theorem reads_opening (c : ExportedClass) : Reads classHead c.opening [] := by
  have h := ((reads_keyword "export" c.afterExport).append (reads_absent (keyword "default"))).append
    (reads_keyword "class" c.afterClass)
  rwa [List.append_nil] at h

/-- The header of a class is read. -/
theorem reads (c : ExportedClass) : ∃ cs, Reads classDeclaration c.header cs := by
  have hname := c.reads_opening.append ((reads_word c.name).field .name)
  rw [header, ← List.append_assoc]
  cases c.base with
  | none => exact ⟨_, hname.append (reads_absent extendsClause)⟩
  | some b => exact ⟨_, hname.append b.reads.present⟩

/-- What follows the name of a class is read up to the body, with the base as it was written. -/
theorem first?_afterName (base : Option BaseClause) (g : Gap) (t : Text) {d : Derivation}
    (hd : d = (extendsClause.first? (base.elim [] BaseClause.text ++ (g.text ++ '{' :: t))).getD
      (.plain 0 (base.elim [] BaseClause.text ++ (g.text ++ '{' :: t)))) :
    d.rest = g.text ++ '{' :: t ∧ d.get? .base = base.map fun b => b.base.text := by
  cases base with
  | none =>
    rw [Option.elim_none, List.nil_append, first?_extendsClause_eq_none] at hd
    subst hd
    exact ⟨rfl, rfl⟩
  | some b =>
    obtain ⟨e, he, hrest, hbase⟩ := first?_extendsClause_eq_some b (outsideWords_body g t)
    rw [Option.elim_some, he] at hd
    subst hd
    exact ⟨hrest, hbase⟩

/-- The header of a class is read with the whole name and with the base as it was written. -/
theorem first?_header (c : ExportedClass) (t : Text) :
    ∃ d, classDeclaration.first? (c.header ++ (c.beforeBody.text ++ '{' :: t)) = some d ∧
      d.rest = c.beforeBody.text ++ '{' :: t ∧ d.get? .name = some c.name.text ∧
      d.get? .base = c.base.map fun b => b.base.text := by
  have hout : ∀ y ∈ (c.base.elim [] BaseClause.text ++ (c.beforeBody.text ++ '{' :: t)).head?, isWord y = false := by
    cases c.base with
    | none => exact outsideWords_body c.beforeBody t
    | some b => exact b.outsideWords _
  obtain ⟨d, hd, hname, hrest, hbase⟩ := first?_written c.reads_opening c.name hout
  obtain ⟨hbody, hbase'⟩ := first?_afterName c.base c.beforeBody t (d := _) rfl
  rw [header, List.append_assoc, List.append_assoc]
  exact ⟨d, hd, hrest.trans hbody, hname, hbase.trans hbase'⟩

/-- Up to its body a class has no brace. -/
theorem not_mem_header (c : ExportedClass) : '{' ∉ c.header ++ c.beforeBody.text := by
  obtain ⟨cs, hc⟩ := c.reads
  obtain ⟨d, hd, hrest, -⟩ := hc []
  obtain ⟨u, hu, -, huk⟩ := onlyReads_classDeclaration.eq_append hd
  rw [hrest, List.append_nil, List.append_nil] at hu
  intro hmem
  rcases List.mem_append.1 hmem with hmem | hmem
  · exact absurd (huk '{' (hu ▸ hmem)) (by decide)
  · exact absurd (c.beforeBody.isBlank_text '{' hmem) (by decide)

/-- The methods of a class are those that were written, whatever stands behind it. -/
theorem ofDeclaration_text (c : ExportedClass) (after : Text) :
    Method.ofDeclaration (c.text ++ after) = c.members.map fun x => x.2.method := by
  have hsource : c.text ++ after = c.header ++ c.beforeBody.text ++ '{' :: (c.body ++ '}' :: after) := by
    simp [text]
  rw [hsource, Method.ofDeclaration, body,
    classBody?_append c.not_mem_header (Method.bracesBalanced_writeMembers c.members c.ending)]
  exact Method.ofBody_writeMembers c.members c.ending

end ExportedClass

/-! ## Sources with one class -/

/-- A class opens with the word for exports. -/
theorem opensWith_classDeclaration : OpensWith classDeclaration "export".toList :=
  (opensWith_lit "export").append.append.append.append.append

/-- In a source where the word for exports occurs once, as the first word of a class, the pass over the classes finds this class
and nothing else, with the name, the base and the methods that were written. -/
theorem classPass_exportedClass (c : ExportedClass) (before after : Text)
    (honly : Text.OccursOnlyAt "export".toList (before ++ (c.text ++ after)) before.length) :
    classPass (before ++ (c.text ++ after)) = [c.symbol] := by
  have hpos : 0 < c.header.length := List.length_pos_iff.2 (List.cons_ne_nil 'e' _)
  obtain ⟨d, hfirst, hrest, hname, hbase⟩ := c.first?_header (c.body ++ '}' :: after)
  have hsource : c.text ++ after = c.header ++ (c.beforeBody.text ++ '{' :: (c.body ++ '}' :: after)) := by
    simp [ExportedClass.text]
  -- no declaration begins before the class, nor behind its header
  have hbefore : BeginsNowhereIn classDeclaration before (c.text ++ after) :=
    opensWith_classDeclaration.beginsNowhereIn_beside (u := []) honly (Or.inr (Nat.le_of_eq (Nat.zero_add _)))
  have hbehind : BeginsNowhereIn classDeclaration (c.beforeBody.text ++ '{' :: (c.body ++ '}' :: after)) [] := by
    refine opensWith_classDeclaration.beginsNowhereIn_beside (u := before ++ c.header) (k := before.length) ?_ (Or.inl ?_)
    · rwa [List.append_nil, List.append_assoc, ← hsource]
    · rw [List.length_append]
      omega
  rw [classPass, occurrences_of_beginsNowhereIn hbefore, hsource,
    Pattern.occurrences_eq_cons hfirst hrest (List.length_pos_iff.1 hpos), occurrences_eq_nil hbehind, ← hsource]
  have hget : d.get .name = c.name.text := by rw [Derivation.get, hname]; rfl
  simp only [List.map_cons, List.map_nil, classSymbol, hget, hbase, c.ofDeclaration_text after, ExportedClass.symbol]
  cases c.base <;> rfl

/-- A class with the words of modifiers and clauses as its names, and with braces in a list of parameters and in a body. -/
def wordyClass : ExportedClass where
  name := { text := "async".toList }
  base := some { base := { text := "extends".toList } }
  beforeBody := { text := " ".toList }
  members :=
    [({ text := "\n ".toList },
      { modifiers := [{ word := "static".toList }, { word := "get".toList }]
        name := { text := "get".toList }
        params := " \x7ba\x7d ".toList
        returnType := some { type := { text := "T".toList } }
        body := "\x7b\x7d".toList }),
     (.none, { name := { text := "set".toList } })]

/-- The class as it stands in a source. -/
def wordySource : Text :=
  "// export class async extends extends \x7b\n static get get( \x7ba\x7d ):T\x7b\x7b\x7d\x7dset()\x7b\x7d\x7df() \x7b\x7d \x7d".toList

/-- A class whose names are words of the language, behind a comment, has its methods and no more. -/
theorem classPass_wordyClass :
    Text.OccursOnlyAt "export".toList ("// ".toList ++ (wordyClass.text ++ "f() \x7b\x7d \x7d".toList)) 3 ∧
    classPass wordySource =
      [{ kind := .classType
         name := "async".toList
         signature := "class async extends extends".toList
         base := some "extends".toList
         methods := [⟨"get".toList, "get(\x7ba\x7d)".toList⟩, ⟨"set".toList, "set()".toList⟩] }] := by
  have honly : Text.OccursOnlyAt "export".toList ("// ".toList ++ (wordyClass.text ++ "f() \x7b\x7d \x7d".toList)) 3 :=
    (Text.occursOnlyAt_iff (by decide) (by decide)).2 (by decide +kernel)
  have hsource : "// ".toList ++ (wordyClass.text ++ "f() \x7b\x7d \x7d".toList) = wordySource := by decide +kernel
  have h := classPass_exportedClass wordyClass "// ".toList "f() \x7b\x7d \x7d".toList honly
  rw [hsource] at h
  exact ⟨honly, h⟩

end Braced

end SourceInventory
