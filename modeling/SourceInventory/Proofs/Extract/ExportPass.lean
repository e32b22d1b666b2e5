import SourceInventory.Extract
import SourceInventory.Proofs.Extract.ClassDeclaration

/-!
# Export passes: what a pass over a source takes

The exports of a source are put together from passes, four over a braced source and two over an indented one. Each pass has a
pattern, the places where it may begin and the symbol that an occurrence gives. A pass tiles the source by the readings of its
pattern, and no other tiling gives other symbols.
-/

namespace SourceInventory

open Pattern

/-- The passes that read the exports of a source. -/
inductive ExportPass where
  | namedFunction | arrowFunction | classDeclaration | defaultFunction | functionDefinition | classDefinition
deriving DecidableEq, Repr

namespace ExportPass

/-- The passes over a source of a language, in order. -/
def ofLanguage : Language → List ExportPass
  | .javascript | .typescript => [.namedFunction, .arrowFunction, .classDeclaration, .defaultFunction]
  | .python => [.functionDefinition, .classDefinition]

/-- What a pass looks for. -/
def pattern : ExportPass → Pattern
  | .namedFunction => Braced.namedFunction
  | .arrowFunction => Braced.arrowFunction
  | .classDeclaration => Braced.classDeclaration
  | .defaultFunction => Braced.defaultFunction
  | .functionDefinition => Indented.functionDefinition
  | .classDefinition => Indented.classDefinition

/-- Where a pass looks for it. -/
def anchor : ExportPass → Anchor
  | .namedFunction | .arrowFunction | .classDeclaration | .defaultFunction => .anywhere
  | .functionDefinition | .classDefinition => .lineStart

/-- The symbol that a pass makes of an occurrence; it makes none of a private function. -/
def symbol? : ExportPass → Occurrence → Option Symbol
  | .namedFunction, o => some (Braced.functionSymbol Braced.namedWindow o)
  | .arrowFunction, o => some (Braced.functionSymbol Braced.arrowWindow o)
  | .classDeclaration, o => some (Braced.classSymbol o)
  | .defaultFunction, o => some (Braced.defaultSymbol o)
  | .functionDefinition, o => Indented.functionSymbol? o
  | .classDefinition, o => some (Indented.classSymbol o)

/-- The symbols of a pass. -/
def symbols : ExportPass → Text → List Symbol
  | .namedFunction => Braced.namedPass
  | .arrowFunction => Braced.arrowPass
  | .classDeclaration => Braced.classPass
  | .defaultFunction => Braced.defaultPass
  | .functionDefinition => Indented.functionPass
  | .classDefinition => Indented.classPass

/-- The occurrences that a pass goes through. -/
def occurrences (pass : ExportPass) (source : Text) : List Occurrence := pass.pattern.occurrences pass.anchor source

/-- The readings among which a pass does not choose: all of them, but of a class declaration only those that take the most. -/
def Takes (pass : ExportPass) (s : Text) (d : Derivation) : Prop :=
  Derives pass.pattern s d ∧ (pass = .classDeclaration → ∀ e, Derives pass.pattern s e → d.Covers e)

/-! ## Passes and exports -/

/-- What a source exports is what its passes give, one after another. -/
theorem exports_eq_flatMap (l : Language) (source : Text) :
    l.exports source = (ofLanguage l).flatMap fun pass => pass.symbols source := by
  cases l <;> simp [Language.exports, Braced.exports, Indented.exports, ofLanguage, symbols]

/-- A pass makes its symbols of its occurrences. -/
theorem symbols_eq_filterMap (pass : ExportPass) (source : Text) :
    pass.symbols source = (pass.occurrences source).filterMap pass.symbol? := by
  cases pass
  case functionDefinition => rfl
  all_goals exact (congrFun List.filterMap_eq_map _).symm

/-- What a source exports a pass over it makes of an occurrence. -/
theorem exists_of_mem_exports {l : Language} {source : Text} {s : Symbol} (h : s ∈ l.exports source) :
    ∃ pass ∈ ofLanguage l, ∃ o ∈ pass.occurrences source, pass.symbol? o = some s := by
  rw [exports_eq_flatMap] at h
  obtain ⟨pass, hpass, hs⟩ := List.mem_flatMap.1 h
  rw [pass.symbols_eq_filterMap] at hs
  exact ⟨pass, hpass, List.mem_filterMap.1 hs⟩

/-- Every pass reads something. -/
theorem least_pattern_pos (pass : ExportPass) : 0 < pass.pattern.least := by
  cases pass <;> decide

/-- The occurrences of a pass tile the source. -/
theorem tiles_occurrences (pass : ExportPass) (source : Text) :
    Tiles pass.pattern pass.anchor source 0 (pass.occurrences source) :=
  Pattern.tiles_occurrences (fun _ _ h => Nat.lt_of_lt_of_le pass.least_pattern_pos (least_le h)) _ _

/-! ## The readings that a pass takes -/

/-- Outside of class declarations the readings of a text agree. -/
theorem agrees {pass : ExportPass} (hpass : pass ≠ .classDeclaration) {s : Text} {d e : Derivation}
    (hd : Derives pass.pattern s d) (he : Derives pass.pattern s e) : d.Agrees e := by
  cases pass with
  | namedFunction => exact Braced.unambiguous_namedFunction hd he ▸ .refl d
  | arrowFunction => exact Braced.unambiguous_arrowFunction hd he ▸ .refl d
  | classDeclaration => exact absurd rfl hpass
  | defaultFunction => exact Braced.agrees_defaultFunction hd he
  | functionDefinition => exact Indented.unambiguous_functionDefinition hd he ▸ .refl d
  | classDefinition => exact Indented.unambiguous_classDefinition hd he ▸ .refl d

/-- The readings of one text that a pass takes agree. -/
theorem Takes.agrees {pass : ExportPass} {s : Text} {d e : Derivation} (hd : pass.Takes s d) (he : pass.Takes s e) :
    d.Agrees e := by
  by_cases hpass : pass = .classDeclaration
  · have hde := hd.2 hpass e he.1
    have hed := he.2 hpass d hd.1
    subst hpass
    exact Braced.agrees_of_covers hd.1 he.1 hde hed
  · exact ExportPass.agrees hpass hd.1 he.1

/-- The preferred reading is one that the pass takes. -/
theorem takes_of_first? {pass : ExportPass} {s : Text} {d : Derivation} (h : pass.pattern.first? s = some d) :
    pass.Takes s d := by
  refine ⟨derives_of_first? h, ?_⟩
  rintro rfl e he
  exact Braced.covers_of_first?_classDeclaration h he

/-- A symbol depends on nothing in which readings that agree may differ. -/
theorem symbol?_eq_of_agrees (pass : ExportPass) {o o' : Occurrence} (hstart : o.start = o'.start)
    (h : o.toDerivation.Agrees o'.toDerivation) : pass.symbol? o = pass.symbol? o' := by
  have hget : ∀ f, o.get? f = o'.get? f → o.get f = o'.get f := fun f hf => congrArg (·.getD []) hf
  have hname := hget .name h.name
  have hparams := hget .params h.params
  cases pass with
  | namedFunction | arrowFunction => simp only [symbol?, Braced.functionSymbol, hname, hparams, hstart]
  | classDeclaration => simp only [symbol?, Braced.classSymbol, hname, h.base, hstart]
  | defaultFunction => simp only [symbol?, Braced.defaultSymbol, hname, hparams, hstart]
  | functionDefinition => simp only [symbol?, Indented.functionSymbol?, hname, hparams, h.modifier]
  | classDefinition => simp only [symbol?, Indented.classSymbol, hname, h.base]

/-- Occurrences that agree one by one give the same symbols. -/
theorem filterMap_symbol?_eq (pass : ExportPass) {os os' : List Occurrence}
    (h : List.Forall₂ (fun o o' => o.start = o'.start ∧ o.toDerivation.Agrees o'.toDerivation) os os') :
    os.filterMap pass.symbol? = os'.filterMap pass.symbol? := by
  induction h with
  | nil => rfl
  | cons ho _ ih => rw [List.filterMap_cons, List.filterMap_cons, pass.symbol?_eq_of_agrees ho.1 ho.2, ih]

end ExportPass

/-! ## The tiling of a pass -/

/-- The exports of a source are the symbols of its passes in order. The occurrences of a pass tile the source: each begins
at the first place, from the end of the one before it on, where a reading may begin. The readings of one text agree,
except those of a class declaration, where the occurrence has whole words as its name and its base and covers every other
reading. So no other tiling by readings that the pass takes has other places or gives other symbols. -/
theorem exportPass_tiles (pass : ExportPass) (source : Text) :
    (∀ l : Language, l.exports source = (ExportPass.ofLanguage l).flatMap fun pass => pass.symbols source) ∧
    pass.symbols source = (pass.occurrences source).filterMap pass.symbol? ∧
    Tiles pass.pattern pass.anchor source 0 (pass.occurrences source) ∧
    (pass ≠ .classDeclaration → ∀ s d e, Derives pass.pattern s d → Derives pass.pattern s e → d.Agrees e) ∧
    (pass = .classDeclaration → ∀ o ∈ pass.occurrences source,
      o.get? .name ≠ none ∧ o.WholeWord .name ∧ o.WholeWord .base ∧ ∀ e, Derives pass.pattern o.start e → o.Covers e) ∧
    (∀ os, Tiles pass.pattern pass.anchor source 0 os → (∀ o ∈ os, pass.Takes o.start o.toDerivation) →
      List.Forall₂ (fun o o' => o.start = o'.start ∧ o.toDerivation.Agrees o'.toDerivation) os (pass.occurrences source) ∧
        os.filterMap pass.symbol? = pass.symbols source) := by
  have hfirst : ∀ o ∈ pass.occurrences source, pass.pattern.first? o.start = some o.toDerivation :=
    fun o ho => first?_of_mem_scanFrom ho
  have htiles := pass.tiles_occurrences source
  refine ⟨fun l => ExportPass.exports_eq_flatMap l source, pass.symbols_eq_filterMap source, htiles,
    fun hpass s d e hd he => ExportPass.agrees hpass hd he, ?_, ?_⟩
  · intro hpass o ho
    have ho' := hfirst o ho
    have hcovers := (ExportPass.takes_of_first? ho').2 hpass
    subst hpass
    obtain ⟨hnone, hname, hbase⟩ := Braced.wholeWord_of_first?_classDeclaration ho'
    exact ⟨hnone, hname, hbase, hcovers⟩
  · intro os hos htake
    have hagree := hos.agrees (Q := pass.Takes) (fun _ _ _ hd he => hd.agrees he) htiles htake
      (fun o ho => ExportPass.takes_of_first? (hfirst o ho))
    refine ⟨hagree, ?_⟩
    rw [pass.symbols_eq_filterMap source]
    exact pass.filterMap_symbol?_eq hagree

end SourceInventory
