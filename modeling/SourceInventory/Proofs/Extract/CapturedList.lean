import Mathlib.Data.List.Flatten
import Mathlib.Data.List.Nodup
import SourceInventory.Proofs.Extract.DistinctStarts
import SourceInventory.Proofs.Extract.Hit
import SourceInventory.Proofs.Extract.Symbols
import SourceInventory.Proofs.Pattern.Extension

/-!
# Captured lists: how much of a list of parameters or bases is read

A list is read up to its first closing parenthesis, and parentheses in it are not matched. So a function is found whatever its
list is, with the list up to there; a class of an indented source is found only if a colon comes next. A list is read whole
exactly if no parenthesis closes in it, and then, if its parentheses match, there are none (`declaredAt_listed`).
-/

namespace SourceInventory

open Pattern

/-! ## Occurrences at a place -/

/-- No occurrence that begins before a place goes beyond it. -/
def Pattern.FreeAt (p : Pattern) (anchor : Anchor) (before start : Text) : Prop :=
  ∀ o ∈ p.occurrences anchor (before ++ start), start.length < o.start.length → start.length ≤ o.rest.length

/-- Whether a place is free is found by going through the occurrences. -/
instance Pattern.FreeAt.decidable (p : Pattern) (anchor : Anchor) (before start : Text) :
    Decidable (p.FreeAt anchor before start) :=
  inferInstanceAs (Decidable (∀ o ∈ p.occurrences anchor (before ++ start), _))

/-- An occurrence has no more of the text left than the scan had, so none that comes later begins at the same place. -/
theorem Pattern.filter_start_later {p : Pattern} {anchor : Anchor} (c : Char) (s : Text) (before : Option Char) (skip : Nat) :
    (p.scanFrom anchor before skip s).filter (fun o => o.start = c :: s) = [] := by
  refine List.filter_eq_nil_iff.2 fun o ho heq => ?_
  have hle := (start_suffix_of_mem_scanFrom ho).length_le
  rw [of_decide_eq_true heq, List.length_cons] at hle
  omega

/-- A scan takes at its start the reading that is preferred there, if it may begin there. -/
theorem Pattern.filter_start_self {p : Pattern} {anchor : Anchor} {previous : Option Char} {start : Text} (hp : 0 < p.least)
    (hadmits : anchor.admits previous = true) :
    (p.scanFrom anchor previous 0 start).filter (fun o => o.start = start) =
      (p.first? start).toList.map fun d => ⟨d, start⟩ := by
  cases start with
  | nil =>
    rw [first?_nil_eq_none hp]
    rfl
  | cons c s =>
    rw [scanFrom, if_pos hadmits]
    cases p.first? (c :: s) with
    | none => exact filter_start_later c s _ _
    | some d =>
      refine (List.filter_cons_of_pos ?_).trans (congrArg (⟨d, c :: s⟩ :: ·) (filter_start_later c s _ _))
      exact decide_eq_true rfl

/-- A scan that passes over no more than `before`, and takes nothing there that goes beyond it, takes the reading that is preferred
behind it. -/
theorem Pattern.filter_start_scanFrom {p : Pattern} {anchor : Anchor} {previous : Option Char} {skip : Nat} {before start : Text}
    (hp : 0 < p.least) (hskip : skip ≤ before.length)
    (hfree : ∀ o ∈ p.scanFrom anchor previous skip (before ++ start),
      start.length < o.start.length → start.length ≤ o.rest.length)
    (hadmits : anchor.admits (before.getLast?.or previous) = true) :
    (p.scanFrom anchor previous skip (before ++ start)).filter (fun o => o.start = start) =
      (p.first? start).toList.map fun d => ⟨d, start⟩ := by
  induction before generalizing previous skip with
  | nil =>
    obtain rfl := Nat.le_zero.1 hskip
    exact filter_start_self hp hadmits
  | cons c before ih =>
    rw [getLast?_cons_or] at hadmits
    rw [List.cons_append] at hfree ⊢
    cases skip with
    | succ skip => exact ih (Nat.le_of_succ_le_succ hskip) hfree hadmits
    | zero =>
      cases hread : if anchor.admits previous then p.first? (c :: (before ++ start)) else none with
      | none =>
        rw [scanFrom_none hread] at hfree ⊢
        exact ih (Nat.zero_le _) hfree hadmits
      | some d =>
        have hscan : p.scanFrom anchor previous 0 (c :: (before ++ start)) =
            ⟨d, c :: (before ++ start)⟩ :: p.scanFrom anchor (some c) (d.length - 1) (before ++ start) := by
          rw [scanFrom, hread]
        have hlonger : start.length < (c :: (before ++ start)).length := by
          rw [List.length_cons, List.length_append]
          omega
        rw [hscan] at hfree ⊢
        -- what is read here does not go beyond `before`, so that the scan goes on inside of it
        have hrest : start.length ≤ d.rest.length := hfree _ List.mem_cons_self hlonger
        have hlength := length_rest_add (derives_of_first? (Option.ite_none_right_eq_some.1 hread).2)
        rw [List.length_cons, List.length_append] at hlength
        have hskip : d.length - 1 ≤ before.length := by omega
        rw [List.filter_cons_of_neg]
        · exact ih hskip (fun o ho => hfree o (List.mem_cons_of_mem _ ho)) hadmits
        · intro heq
          have heq : c :: (before ++ start) = start := of_decide_eq_true heq
          rw [heq] at hlonger
          exact Nat.lt_irrefl _ hlonger

/-- The occurrence at a place that is free is the reading that is preferred there. -/
theorem Pattern.FreeAt.filter_start_occurrences {p : Pattern} {anchor : Anchor} {before start : Text} (hp : 0 < p.least)
    (h : p.FreeAt anchor before start) (hadmits : anchor.admits before.getLast? = true) :
    (p.occurrences anchor (before ++ start)).filter (fun o => o.start = start) =
      (p.first? start).toList.map fun d => ⟨d, start⟩ :=
  filter_start_scanFrom hp (Nat.zero_le _) h (by rwa [Option.or_none])

/-- What a source of a language exports by the declarations that begin where `start` is left of it. -/
def Language.declaredAt (l : Language) (source start : Text) : List Symbol :=
  (ExportPass.ofLanguage l).flatMap fun pass =>
    ((pass.occurrences source).filter fun o => o.start = start).filterMap pass.symbol?

/-! ## Parentheses -/

/-- The parentheses of a text match: none closes before it is opened, and all that are opened are closed. -/
structure ParensBalanced (w : Text) : Prop where
  /-- No beginning closes more parentheses than it opens. -/
  closed_le : ∀ u, u <+: w → u.count ')' ≤ u.count '('
  /-- As many parentheses are opened as are closed. -/
  count_eq : w.count '(' = w.count ')'

/-- Whether the parentheses of a text match is found by going through its beginnings. -/
instance ParensBalanced.decidable (w : Text) : Decidable (ParensBalanced w) :=
  decidable_of_iff ((∀ u ∈ w.inits, u.count ')' ≤ u.count '(') ∧ w.count '(' = w.count ')')
    ⟨fun h => ⟨fun u hu => h.1 u ((List.mem_inits u w).2 hu), h.2⟩,
      fun h => ⟨fun u hu => h.closed_le u ((List.mem_inits u w).1 hu), h.count_eq⟩⟩

/-- If the parentheses of a text match, one that opens and one that closes come together. -/
theorem ParensBalanced.mem_iff {w : Text} (h : ParensBalanced w) : '(' ∈ w ↔ ')' ∈ w := by
  rw [← List.count_pos_iff, ← List.count_pos_iff, h.count_eq]

/-! ## Declarations with a list -/

/-- The forms of a declaration with a list. -/
inductive ListForm where
  /-- A function of an indented source. -/
  | definition
  /-- A class of an indented source. -/
  | derivedClass
  /-- An exported function of a braced source. -/
  | exported
deriving DecidableEq, Repr

namespace ListForm

/-- The pass over declarations of this form. -/
def pass : ListForm → ExportPass
  | .definition => .functionDefinition
  | .derivedClass => .classDefinition
  | .exported => .namedFunction

/-- The words before the name. -/
def opening : ListForm → Text
  | .definition => "def ".toList
  | .derivedClass => "class ".toList
  | .exported => "export function ".toList

/-- What stands behind the list. -/
def ending : ListForm → Text
  | .definition | .derivedClass => ":".toList
  | .exported => " \x7b\x7d".toList

/-- A declaration as it is written. -/
def text (form : ListForm) (name : Word) (list : Text) : Text :=
  form.opening ++ (name.text ++ '(' :: (list ++ ')' :: form.ending))

/-- The symbol of a declaration: its signature has the list without the blanks around it, of a class the list as it is, and a
class with an empty list is derived from nothing. -/
def symbol (form : ListForm) (name list : Text) (isAsync : Bool) : Symbol :=
  match form with
  | .definition | .exported =>
    { kind := .function
      name := name
      signature := callSignature name list.trim
      isAsync := isAsync }
  | .derivedClass =>
    { kind := .classType
      name := name
      signature := "class ".toList ++ if list.isEmpty then name else callSignature name list
      base := if list.isEmpty then none else some list }

/-- Whether the symbol of a declaration at the start of a text is asynchronous. -/
def isAsync (form : ListForm) (start : Text) : Bool :=
  match form with
  | .definition | .derivedClass => false
  | .exported => Braced.asyncWithin Braced.namedWindow start

/-- What is read of a list: everything before the first closing parenthesis. -/
def captured (list : Text) : Text := list.takeWhile (· ≠ ')')

/-- What stands behind the first closing parenthesis of a declaration. -/
def behind (form : ListForm) (list : Text) : Text := ((list ++ ')' :: form.ending).dropWhile (· ≠ ')')).tail

/-- The declaration goes on behind the first closing parenthesis as its form asks for it: a class with a colon. -/
def Ends (form : ListForm) (list : Text) : Prop := form = .derivedClass → (form.behind list).head? = some ':'

/-! ## What is read of a list -/

/-- No parenthesis closes in what is read of a list. -/
theorem not_mem_captured (list : Text) : ')' ∉ captured list := by
  intro h
  exact absurd (List.mem_takeWhile_imp h) (by decide)

/-- A list without a closing parenthesis is read whole. -/
theorem captured_eq_self {list : Text} (h : ')' ∉ list) : captured list = list := by
  refine List.takeWhile_eq_self_iff.2 fun c hc => ?_
  have hne : c ≠ ')' := fun heq => h (heq ▸ hc)
  simpa using hne

/-- A declaration is cut at its first closing parenthesis. -/
theorem append_ending (form : ListForm) (list : Text) :
    list ++ ')' :: form.ending = captured list ++ ')' :: form.behind list := by
  induction list with
  | nil => rfl
  | cons c list ih =>
    by_cases hc : c = ')'
    · subst hc
      rfl
    · rw [behind, List.cons_append, List.dropWhile_cons_of_pos (by simpa using hc), captured,
        List.takeWhile_cons_of_pos (by simpa using hc), List.cons_append]
      exact congrArg (c :: ·) ih

/-- Something stands behind the first closing parenthesis of a declaration. -/
theorem behind_ne_nil (form : ListForm) (list : Text) : form.behind list ≠ [] := by
  intro h
  have hlast := congrArg List.getLast? (form.append_ending list)
  rw [h, List.getLast?_append_cons, List.getLast?_append_cons] at hlast
  cases form <;> exact absurd hlast (by decide)

/-- A declaration is its words, its name, what is read of its list, and what stands behind. -/
theorem text_append (form : ListForm) (name : Word) (list after : Text) :
    form.text name list ++ after =
      form.opening ++ (name.text ++ ('(' :: (captured list ++ [')']) ++ (form.behind list ++ after))) := by
  rw [text, form.append_ending]
  simp

/-! ## Reading a declaration -/

/-- The field that the list is recorded as. -/
def field : ListForm → Field
  | .definition | .exported => .params
  | .derivedClass => .base

/-- A declaration that goes on as its form asks for it is read with its name and the list up to the first closing parenthesis. -/
theorem exists_first? (form : ListForm) (name : Word) {list : Text} (hends : form.Ends list) (after : Text) :
    ∃ d, form.pass.pattern.first? (form.text name list ++ after) = some d ∧
      d.captures = [(.name, name.text), (form.field, captured list)] := by
  have hname := (reads_word name).field .name
  rw [text_append]
  cases form with
  | definition =>
    have hopening : opening .definition = "def".toList ++ Blanks.space.text := rfl
    have hstart := (reads_absent (.field .modifier (keyword "async"))).append (reads_keyword "def" .space)
    have hreads := ((hstart.append hname).append (reads_gap .none)).append (reads_parenthesised .params (not_mem_captured list))
    obtain ⟨d, hd, -, hcaptures⟩ := Reads.first?_eq_some (p := Indented.functionDefinition) hreads
      Indented.unambiguous_functionDefinition (behind .definition list ++ after)
    refine ⟨d, (congrArg Indented.functionDefinition.first? ?_).trans hd, hcaptures⟩
    simp only [hopening, Gap.none, List.append_assoc, List.nil_append]
  | derivedClass =>
    obtain ⟨more, hmore⟩ := List.head?_eq_some_iff.1 (hends rfl)
    have hopening : opening .derivedClass = "class".toList ++ Blanks.space.text := rfl
    have hlist := (reads_parenthesised .base (not_mem_captured list)).present
    have hreads := (((reads_keyword "class" .space).append hname).append hlist).append (reads_lit ":")
    obtain ⟨d, hd, -, hcaptures⟩ := Reads.first?_eq_some (p := Indented.classDefinition) hreads
      Indented.unambiguous_classDefinition (more ++ after)
    refine ⟨d, (congrArg Indented.classDefinition.first? ?_).trans hd, hcaptures⟩
    simp only [hopening, hmore, List.append_assoc]
    rfl
  | exported =>
    have hopening : opening .exported = "export".toList ++ Blanks.space.text ++ ("function".toList ++ Blanks.space.text) := rfl
    have hstart := ((reads_keyword "export" .space).append (reads_absent (.field .modifier (keyword "async")))).append
      (reads_keyword "function" .space)
    have hreads := ((hstart.append hname).append (reads_gap .none)).append (reads_parenthesised .params (not_mem_captured list))
    obtain ⟨d, hd, -, hcaptures⟩ := Reads.first?_eq_some (p := Braced.namedFunction) hreads Braced.unambiguous_namedFunction
      (behind .exported list ++ after)
    refine ⟨d, (congrArg Braced.namedFunction.first? ?_).trans hd, hcaptures⟩
    simp only [hopening, Gap.none, List.append_assoc, List.nil_append]

/-- A class is not read if its form asks for a colon where none is. -/
theorem first?_eq_none (form : ListForm) (name : Word) {list : Text} (hends : ¬form.Ends list) (after : Text) :
    form.pass.pattern.first? (form.text name list ++ after) = none := by
  obtain rfl : form = .derivedClass := by
    by_contra hform
    exact hends fun h => absurd h hform
  refine first?_eq_none_iff.2 fun d hd => hends fun _ => ?_
  have htakes : Takes Indented.classDefinition fun t _ => ∃ (b : Blanks) (w : Word) (bases : Text),
      t = "class".toList ++ b.text ++ w.text ++ bases ++ ":".toList ∧
        (bases = [] ∨ ∃ u, bases = '(' :: (u ++ [')']) ∧ ')' ∉ u) := by
    refine ((((takes_keyword "class").append (takes_word.field .name)).append (takes_parenthesised .base).optional).append
      (takes_lit ":")).mono ?_
    rintro _ _ ⟨⟨⟨⟨⟨b, rfl⟩, rfl⟩, ⟨_, ⟨⟨w, rfl⟩, rfl⟩, rfl⟩⟩, (⟨u, rfl, hu, rfl⟩ | ⟨rfl, rfl⟩)⟩, ⟨rfl, rfl⟩⟩
    · exact ⟨b, w, _, rfl, Or.inr ⟨u, rfl, hu⟩⟩
    · exact ⟨b, w, _, rfl, Or.inl rfl⟩
  obtain ⟨_, hs, b, w, bases, rfl, hbases⟩ := htakes hd
  have hopening : opening .derivedClass = "class".toList ++ Blanks.space.text := rfl
  rw [text_append, hopening] at hs
  simp only [List.append_assoc] at hs
  obtain ⟨-, hword⟩ := run_split_unique (List.append_cancel_left hs) Blanks.space.isBlank_text b.isBlank_text (name.solid_head _)
    (w.solid_head _)
  have hbehind : ∀ c ∈ (bases ++ ':' :: d.rest).head?, isWord c = false := by
    rcases hbases with rfl | ⟨u, rfl, -⟩
    · exact fun c hc => Option.some.inj hc ▸ by decide
    · exact fun c hc => Option.some.inj hc ▸ by decide
  obtain ⟨-, hlist⟩ := run_split_unique hword name.isWord_text w.isWord_text (fun c hc => Option.some.inj hc ▸ by decide) hbehind
  rcases hbases with rfl | ⟨u, rfl, hu⟩
  · exact absurd (List.cons.inj hlist).1 (by decide)
  · -- both lists end at the first closing parenthesis, and behind it comes the colon
    have hmore : captured list ++ ')' :: (behind .derivedClass list ++ after) = u ++ ')' :: ':' :: d.rest := by
      simpa using hlist
    rcases cut_first hmore hu with ⟨-, hcolon⟩ | ⟨z, hz, -⟩
    · obtain ⟨x, more, hx⟩ := List.exists_cons_of_ne_nil (behind_ne_nil .derivedClass list)
      rw [hx] at hcolon ⊢
      exact congrArg some (List.cons.inj hcolon).1.symm
    · exact absurd (hz ▸ by simp) (not_mem_captured list)

/-! ## The other passes -/

/-- No other pass reads anything where a declaration of this form is. -/
theorem not_derives_of_ne {form : ListForm} {pass : ExportPass} (hne : pass ≠ form.pass) (t : Text) :
    ∀ d, ¬Derives pass.pattern (form.opening ++ t) d := by
  intro d hd
  have hopening : Text.solids form.opening ∈ form.pass.openings := by cases form <;> decide
  obtain ⟨w, hw, hprefix⟩ := pass.spellsFirst_openings hd
  rw [Text.solids_append] at hprefix
  rcases List.prefix_or_prefix_of_prefix hprefix (List.prefix_append _ _) with h | h
  · exact hne (ExportPass.eq_of_prefix_openings hw hopening h)
  · exact hne (ExportPass.eq_of_prefix_openings hopening hw h).symm

/-! ## Symbols -/

/-- A declaration that is read gives its symbol, with what was captured of the list. -/
theorem symbol?_eq (form : ListForm) {name : Word} (hname : form = .definition → name.text.head? ≠ some '_') {list start : Text}
    {d : Derivation} (h : d.captures = [(.name, name.text), (form.field, list)]) :
    form.pass.symbol? ⟨d, start⟩ = some (form.symbol name.text list (form.isAsync start)) := by
  have hget? : ∀ f, d.get? f = [(Field.name, name.text), (form.field, list)].lookup f := fun f => h ▸ d.get?_eq_lookup f
  have hget : d.get .name = name.text := by rw [Derivation.get, hget?]; rfl
  cases form with
  | definition =>
    have hlist : d.get .params = list := by rw [Derivation.get, hget?]; rfl
    have hmodifier : d.get? .modifier = none := hget? .modifier
    simp only [pass, ExportPass.symbol?, Indented.functionSymbol?, hget, hlist, hmodifier, if_neg (hname rfl), symbol, isAsync]
    rfl
  | derivedClass =>
    have hlist : d.get? .base = some list := hget? .base
    simp only [pass, ExportPass.symbol?, Indented.classSymbol, hget, hlist, symbol]
    cases list <;> rfl
  | exported =>
    have hlist : d.get .params = list := by rw [Derivation.get, hget?]; rfl
    simp only [pass, ExportPass.symbol?, Braced.functionSymbol, hget, hlist, symbol, isAsync]

/-- The symbol with what is read of a list is that of the whole list only if no parenthesis closes in the list. -/
theorem symbol_captured_eq_iff (form : ListForm) (name list : Text) (flag : Bool) :
    form.symbol name (captured list) flag = form.symbol name list flag ↔ ')' ∉ list := by
  refine ⟨fun h hmem => ?_, fun h => by rw [captured_eq_self h]⟩
  have hsolid : Solid ')' := rfl
  have htrim : (captured list).trim ≠ list.trim := fun heq =>
    not_mem_captured list ((Text.mem_trim_iff hsolid).1 (heq ▸ (Text.mem_trim_iff hsolid).2 hmem))
  have hsignature := congrArg Symbol.signature h
  have hbase := congrArg Symbol.base h
  cases form with
  | definition | exported =>
    exact htrim (List.append_cancel_left (List.append_cancel_right hsignature))
  | derivedClass =>
    have hfull : list.isEmpty = false := by cases list with
      | nil => exact absurd hmem List.not_mem_nil
      | cons => rfl
    simp only [symbol, hfull] at hbase
    split at hbase
    · exact absurd hbase (by simp)
    · exact not_mem_captured list ((Option.some.inj hbase).symm ▸ hmem)

/-- A declaration whose list has no closing parenthesis goes on as its form asks for it. -/
theorem ends_of_not_mem {form : ListForm} {list : Text} (h : ')' ∉ list) : form.Ends list := by
  rintro rfl
  have hcut := append_ending .derivedClass list
  rw [captured_eq_self h] at hcut
  rw [← (List.cons.inj (List.append_cancel_left hcut)).2]
  rfl

end ListForm

/-! ## Declarations in a source -/

/-- What a source exports by the declarations at a place is part of what it exports. -/
theorem Language.declaredAt_sublist_exports (l : Language) (source start : Text) :
    (l.declaredAt source start).Sublist (l.exports source) := by
  rw [ExportPass.exports_eq_flatMap, declaredAt]
  refine List.Sublist.flatMap_right _ fun pass _ => ?_
  rw [pass.symbols_eq_filterMap]
  exact List.filter_sublist.filterMap _

/-- What a source exports by the declaration at a place is what the pass over its form makes of the reading that is preferred
there. -/
theorem ListForm.declaredAt_eq {l : Language} {form : ListForm} (hform : form.pass ∈ ExportPass.ofLanguage l) {name : Word}
    {list before after start : Text} (hstart : start = form.text name list ++ after)
    (hline : form.pass.anchor.admits before.getLast? = true)
    (hfree : form.pass.pattern.FreeAt form.pass.anchor before start) :
    l.declaredAt (before ++ start) start =
      (form.pass.pattern.first? start).toList.filterMap fun d => form.pass.symbol? ⟨d, start⟩ := by
  have hother : ∀ pass, pass ≠ form.pass →
      ((pass.occurrences (before ++ start)).filter fun o => o.start = start).filterMap pass.symbol? = [] := by
    intro pass hne
    have hnone : (pass.occurrences (before ++ start)).filter (fun o => o.start = start) = [] := by
      refine List.filter_eq_nil_iff.2 fun o ho heq => ?_
      have hread := derives_of_first? (first?_of_mem_scanFrom ho)
      rw [of_decide_eq_true heq, hstart, text, List.append_assoc] at hread
      exact not_derives_of_ne hne _ _ hread
    rw [hnone]
    rfl
  obtain ⟨front, behind, hpasses⟩ := List.append_of_mem hform
  have hnodup : (ExportPass.ofLanguage l).Nodup := by cases l <;> decide
  rw [hpasses, List.nodup_middle, List.nodup_cons, List.mem_append, not_or] at hnodup
  have hnil : ∀ passes : List ExportPass, form.pass ∉ passes →
      passes.flatMap (fun pass =>
        ((pass.occurrences (before ++ start)).filter fun o => o.start = start).filterMap pass.symbol?) = [] := by
    intro passes hnot
    exact List.flatMap_eq_nil_iff.2 fun pass hpass => hother pass fun heq => hnot (heq ▸ hpass)
  rw [Language.declaredAt, hpasses, List.flatMap_append, List.flatMap_cons,
    hnil front hnodup.1.1, hnil behind hnodup.1.2, List.nil_append, List.append_nil, ExportPass.occurrences,
    hfree.filter_start_occurrences form.pass.least_pattern_pos hline, List.filterMap_map]
  rfl

/-- A declaration with a list, at the start of a line if its form asks for it and where no earlier occurrence of its pass covers
it, exports one symbol, made of its name and of its list up to the first closing parenthesis; but a class of an indented source
exports none if no colon comes next. So it exports the symbol of the whole list exactly if no parenthesis closes in the list, and
of a list whose parentheses match exactly if it has none. -/
theorem declaredAt_listed {l : Language} {form : ListForm} (hform : form.pass ∈ ExportPass.ofLanguage l) {name : Word}
    (hname : form = .definition → name.text.head? ≠ some '_') (list : Text) {before after start : Text}
    (hstart : start = form.text name list ++ after) (hline : form.pass.anchor.admits before.getLast? = true)
    (hfree : form.pass.pattern.FreeAt form.pass.anchor before start) :
    (form.Ends list →
      l.declaredAt (before ++ start) start = [form.symbol name.text (ListForm.captured list) (form.isAsync start)]) ∧
    (¬form.Ends list → l.declaredAt (before ++ start) start = []) ∧
    (l.declaredAt (before ++ start) start = [form.symbol name.text list (form.isAsync start)] ↔ ')' ∉ list) ∧
    (ParensBalanced list →
      (l.declaredAt (before ++ start) start = [form.symbol name.text list (form.isAsync start)] ↔ '(' ∉ list ∧ ')' ∉ list)) := by
  have hdeclared := ListForm.declaredAt_eq hform hstart hline hfree
  have hfound : form.Ends list →
      l.declaredAt (before ++ start) start = [form.symbol name.text (ListForm.captured list) (form.isAsync start)] := by
    intro hends
    obtain ⟨d, hd, hcaptures⟩ := form.exists_first? name hends after
    rw [← hstart] at hd
    rw [hdeclared, hd, Option.toList_some, List.filterMap_cons, form.symbol?_eq hname hcaptures]
    rfl
  have hnone : ¬form.Ends list → l.declaredAt (before ++ start) start = [] := by
    intro hends
    rw [hdeclared, hstart, form.first?_eq_none name hends after]
    rfl
  have hwhole : l.declaredAt (before ++ start) start = [form.symbol name.text list (form.isAsync start)] ↔ ')' ∉ list := by
    by_cases hends : form.Ends list
    · rw [hfound hends, List.singleton_inj]
      exact form.symbol_captured_eq_iff name.text list _
    · rw [hnone hends]
      exact ⟨fun h => absurd h (List.cons_ne_nil _ _).symm, fun h => absurd (ListForm.ends_of_not_mem h) hends⟩
  refine ⟨hfound, hnone, hwhole, fun hbalanced => hwhole.trans ?_⟩
  exact ⟨fun h => ⟨fun hopen => h (hbalanced.mem_iff.1 hopen), h⟩, fun h => h.2⟩

/-- A declaration that begins inside a line covers nothing, although it could be read up to the closing parenthesis below. -/
theorem declaredAt_listed_tuple :
    ExportPass.functionDefinition.pattern.FreeAt .lineStart "# def f(\n".toList "def g(a=(1, 2)):".toList ∧
    Language.python.declaredAt "# def f(\ndef g(a=(1, 2)):".toList "def g(a=(1, 2)):".toList =
      [{ kind := .function
         name := ['g']
         signature := "g(a=(1, 2)".toList }] := by
  have hfree : ExportPass.functionDefinition.pattern.FreeAt .lineStart "# def f(\n".toList "def g(a=(1, 2)):".toList := by
    decide +kernel
  refine ⟨hfree, ?_⟩
  exact (@declaredAt_listed .python .definition (by decide) { text := ['g'] } (fun _ => by decide) "a=(1, 2)".toList
    "# def f(\n".toList [] _ (by decide) (by decide) hfree).1 fun h => absurd h (by decide)

/-- A class whose list of bases has a call in it is not found, and of a list of parameters with parentheses in it only the
beginning is read. -/
theorem declaredAt_listed_false :
    (¬∀ (l : Language) (form : ListForm) (name : Word) (list : Text), form.pass ∈ ExportPass.ofLanguage l →
      name.text.head? ≠ some '_' → ParensBalanced list →
        l.declaredAt (form.text name list) (form.text name list) =
          [form.symbol name.text list (form.isAsync (form.text name list))]) ∧
    Language.python.exports "class A(make(B)):".toList = [] ∧
    Language.python.exports "def f(a=(1, 2)):".toList =
      [{ kind := .function
         name := ['f']
         signature := "f(a=(1, 2)".toList }] ∧
    Language.javascript.exports "export function f(a = g()) \x7b\x7d".toList =
      [{ kind := .function
         name := ['f']
         signature := "f(a = g()".toList }] := by
  refine ⟨fun h => ?_, by decide +kernel, by decide +kernel, by decide +kernel⟩
  have hclass := h .python .derivedClass { text := ['A'] } "make(B)".toList (by decide) (by decide) (by decide)
  have hnone : Language.python.declaredAt "class A(make(B)):".toList "class A(make(B)):".toList = [] := by decide +kernel
  exact absurd (hnone.symm.trans hclass) (List.cons_ne_nil _ _).symm

end SourceInventory
