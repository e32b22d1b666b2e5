import SourceInventory.Proofs.Extract.TypeClause
import SourceInventory.Proofs.Extract.ExportedClass

/-!
# Exports of a source with a type annotation

A return type is put behind a closing parenthesis of a braced source. What is declared by a named or a default function stays, and
so do the classes with their names and bases. An arrow function whose list closes there is not found any more, since its arrow would
have to come next. A method whose list closes there is found only if the type is one word and its body opens next; all other methods
stay (`exports_annotated`).
-/

namespace SourceInventory

open Pattern

/-! ## Functions -/

namespace Pattern

/-- Nothing more is read behind a pattern. -/
theorem derives_append_nothing {p : Pattern} {s : Text} {d : Derivation} : Derives (p ++ .text []) s d ↔ Derives p s d := by
  rw [derives_append_iff]
  constructor
  · rintro ⟨e, f, he, hf, rfl⟩
    obtain ⟨r, hr, rfl⟩ := derives_text_iff.1 hf
    change e.rest = r at hr
    rw [← hr, List.length_nil, Derivation.andThen_plain]
    exact he
  · exact fun hd => ⟨d, .plain 0 d.rest, hd, derives_text_iff.2 ⟨_, rfl, rfl⟩, (Derivation.andThen_plain d).symm⟩

/-- An empty text between two patterns reads nothing. -/
theorem derives_append_nothing_append {p b c : Pattern} {s : Text} {d : Derivation} :
    Derives (p ++ (.text [] ++ b ++ c)) s d ↔ Derives (p ++ b ++ c) s d := by
  have hbehind : ∀ t e, Derives (.text [] ++ b ++ c) t e ↔ Derives (.text [] ++ (b ++ c)) t e := fun _ _ => derives_append_assoc
  calc Derives (p ++ (.text [] ++ b ++ c)) s d
      ↔ Derives (p ++ (.text [] ++ (b ++ c))) s d := by rw [derives_append_iff, derives_append_iff]; simp only [hbehind]
    _ ↔ Derives (p ++ .text [] ++ (b ++ c)) s d := derives_append_assoc.symm
    _ ↔ Derives (p ++ (b ++ c)) s d := by rw [derives_append_iff, derives_append_iff]; simp only [derives_append_nothing]
    _ ↔ Derives (p ++ b ++ c) s d := derives_append_assoc.symm

end Pattern

namespace ExportPass

variable {pass : ExportPass} {window : Nat}

/-- A function is read up to the end of its list, and then up to its end. -/
theorem derives_upToList_iff (hpass : pass.window? = some window) {s : Text} {d : Derivation} :
    Derives pass.pattern s d ↔ Derives (pass.upToList ++ pass.afterList) s d := by
  cases pass with
  | namedFunction | defaultFunction => exact derives_append_nothing.symm
  | arrowFunction => exact derives_append_nothing_append.symm
  | classDeclaration | functionDefinition | classDefinition => exact absurd hpass (by simp [window?])

/-- A function is read up to its first closing parenthesis, and an arrow function then up to its arrow. -/
theorem closesList (hpass : pass.window? = some window) : ClosesList pass.pattern pass.upToList pass.afterList where
  derives_iff _ _ := derives_upToList_iff hpass
  readsPast := readsPast_upToList hpass
  onlyReads_tail := by
    refine pass.onlyReads_afterList.mono ?_
    rintro c (hc | rfl | rfl)
    · rintro rfl
      exact absurd hc (by decide)
    all_goals decide
  recorded_tail := by cases pass <;> rfl
  agrees _ _ _ := by
    refine ExportPass.agrees ?_
    rintro rfl
    exact absurd hpass (by simp [window?])
  quiet := by
    rintro v _ e he rfl
    obtain ⟨k, hk, -, hmarks⟩ := pass.onlyReads_afterList.eq_append he
    obtain rfl := List.append_cancel_right hk
    refine pass.beginsWith_pattern.beginsNowhereIn (fun c hc hword => ?_) _
    rcases hmarks c hc with hblank | rfl | rfl
    · rw [isWord_eq_false_of_isBlank hblank] at hword
      exact Bool.false_ne_true hword
    all_goals exact absurd hword (by decide)

/-- No arrow comes next where an annotation begins. -/
theorem not_derives_afterList (a : TypeClause) (r : Text) (e : Derivation) :
    ¬Derives (afterList .arrowFunction) (a.text ++ r) e := by
  intro he
  obtain ⟨_, hs, htaken⟩ := (((takes_lit "").append takes_gap).append (takes_lit "=>")) he
  generalize e.captures = cs at htaken
  obtain ⟨⟨⟨rfl, rfl⟩, ⟨⟨g, rfl⟩, rfl⟩⟩, ⟨rfl, rfl⟩⟩ := htaken
  have hbehind := TypeClause.behind_blanks (g := g) (s := '=' :: '>' :: e.rest) (by simpa using hs)
    fun x hx => Option.some.inj hx ▸ by decide
  exact absurd (List.cons.inj hbehind).1 (by decide)

/-- A function can go on with an annotation behind its list, unless an arrow has to come next. -/
theorem goesOn_iff (hpass : pass.window? = some window) (a : TypeClause) (r : Text) :
    (pass != .arrowFunction) = true ↔ ∃ e, Derives pass.afterList (a.text ++ r) e := by
  cases pass with
  | arrowFunction => exact iff_of_false (by decide) fun ⟨e, he⟩ => not_derives_afterList a r e he
  | namedFunction | defaultFunction => exact iff_of_true (by decide) ⟨_, derives_text_iff.2 ⟨_, rfl, rfl⟩⟩
  | classDeclaration | functionDefinition | classDefinition => exact absurd hpass (by simp [window?])

/-- An annotation can be put behind the list of a function, if no function begins in the type. -/
theorem inserts (hpass : pass.window? = some window) {a : TypeClause} {r : Text} (hfree : a.FreeOf pass.pattern r) :
    Inserts pass.pattern pass.afterList a.text r where
  quiet := a.beginsNowhereIn_text pass.beginsWith_pattern hfree
  read := by
    intro e he
    cases pass with
    | arrowFunction => exact absurd he (not_derives_afterList a r e)
    | namedFunction | defaultFunction =>
      obtain ⟨t, ht, rfl⟩ := derives_text_iff.1 he
      obtain rfl : a.text ++ r = t := ht
      exact ⟨.plain 0 r, derives_text_iff.2 ⟨r, rfl, rfl⟩,
        occurrences_of_beginsNowhereIn (a.beginsNowhereIn_text (ExportPass.beginsWith_pattern _) hfree)⟩
    | classDeclaration | functionDefinition | classDefinition => exact absurd hpass (by simp [window?])

/-- In a source with an annotation the functions are found by the same names and parameters, but without the arrow functions whose
list closes there. -/
theorem headings_annotated (pass : ExportPass) (hpass : pass.window? = some window) {a : TypeClause} {r : Text}
    (hfree : a.FreeOf pass.pattern r) (u : Text) : Method.headings pass.pattern (u ++ ')' :: (a.text ++ r)) =
      headingsBut r (pass != .arrowFunction) (pass.pattern.occurrences .anywhere (u ++ ')' :: r)) :=
  (closesList hpass).headings_insert pass.least_pattern_pos (inserts hpass hfree) (goesOn_iff hpass a r) u

end ExportPass

/-! ## Classes -/

namespace Braced

/-- No class declaration goes past a closing parenthesis: a scan takes those before it, and then those behind it. -/
theorem occurrences_classDeclaration_closing (u t : Text) :
    classDeclaration.occurrences .anywhere (u ++ ')' :: t) =
      (classDeclaration.occurrences .anywhere (u ++ [')'])).map (·.extend t) ++ classDeclaration.occurrences .anywhere t := by
  have hsplit : u ++ ')' :: t = (u ++ [')']) ++ t := by simp
  have hreads : classDeclaration.OnlyReads (· ≠ ')') := onlyReads_classDeclaration.mono <| by
    rintro _ hc rfl
    exact absurd hc (by decide)
  have hwithin : EndsWithin classDeclaration (u ++ [')']) t := by
    intro v hv hne d hd
    obtain ⟨z, rfl, -⟩ := (List.suffix_concat_iff.1 hv).resolve_left hne
    rw [List.append_assoc] at hd
    exact Nat.le_of_lt (hreads.length_lt_rest hd)
  rw [hsplit, occurrences, scanFrom_append hwithin (Nat.zero_le _), scanFrom_anywhere (Option.or _ _) none]
  rfl

/-- Two occurrences of classes correspond: they have the same name and the same base, and what stands from the class on is the same
up to the annotation, or the class is declared behind it. -/
def Corresponds (a : TypeClause) (r : Text) (o o' : Occurrence) : Prop :=
  (∀ f, o.get? f = o'.get? f) ∧
    ((∃ z, o.start = z ++ ')' :: (a.text ++ r) ∧ o'.start = z ++ ')' :: r) ∨ o.start = o'.start ∧ o'.start <:+ r)

/-- The classes of a source with an annotation are those of the source without it, one by one. -/
theorem classDeclarations_annotated {a : TypeClause} {r : Text} (hfree : a.FreeOf classDeclaration r) (u : Text) :
    List.Forall₂ (Corresponds a r) (classDeclaration.occurrences .anywhere (u ++ ')' :: (a.text ++ r)))
      (classDeclaration.occurrences .anywhere (u ++ ')' :: r)) := by
  have hquiet : classDeclaration.occurrences .anywhere (a.text ++ r) = classDeclaration.occurrences .anywhere r :=
    occurrences_of_beginsNowhereIn (a.beginsNowhereIn_text (ExportPass.beginsWith_pattern .classDeclaration) hfree)
  rw [occurrences_classDeclaration_closing u (a.text ++ r), occurrences_classDeclaration_closing u r, hquiet]
  refine List.rel_append ?_ ?_
  · rw [List.forall₂_map_left_iff, List.forall₂_map_right_iff, List.forall₂_same]
    intro o ho
    have hne := start_ne_nil_of_mem_scanFrom (by decide) ho
    obtain ⟨z, hz, -⟩ := (List.suffix_concat_iff.1 (start_suffix_of_mem_scanFrom ho)).resolve_left hne
    have hd : Derives classDeclaration o.start o.toDerivation := derives_of_first? (first?_of_mem_scanFrom ho)
    have hstart : ∀ t, (o.extend t).start = z ++ ')' :: t := fun t => by
      change o.start ++ t = _
      rw [hz, List.append_assoc]
      rfl
    exact ⟨fun f => (get?_extend hd _ f).trans (get?_extend hd _ f).symm, Or.inl ⟨z, hstart _, hstart _⟩⟩
  · rw [List.forall₂_same]
    exact fun o ho => ⟨fun _ => rfl, Or.inr ⟨rfl, start_suffix_of_mem_scanFrom ho⟩⟩

end Braced

/-! ## Exports -/

/-- A symbol without the flag for asynchronous functions. -/
def Symbol.unflagged (s : Symbol) : Symbol := { s with isAsync := false }

/-- A symbol without the flag and without methods. -/
def Symbol.declared (s : Symbol) : Symbol := { s.unflagged with methods := [] }

/-- The kind and the name of a symbol, and the names of its methods. -/
def Symbol.outline (s : Symbol) : SymbolKind × Text × List Text := (s.kind, s.name, s.methods.map Method.name)

/-- What does not depend on the flag is the same if the symbols are the same without it. -/
theorem Symbol.map_eq_of_unflagged {β : Type} {f : Symbol → β} (hf : ∀ s : Symbol, f s.unflagged = f s) {xs ys : List Symbol}
    (h : xs.map Symbol.unflagged = ys.map Symbol.unflagged) : xs.map f = ys.map f := by
  have hmap : ∀ l : List Symbol, l.map f = (l.map Symbol.unflagged).map f := fun l => by
    rw [List.map_map]
    exact List.map_congr_left fun s _ => (hf s).symm
  rw [hmap xs, hmap ys, h]

namespace Braced

/-- The arrow functions of a source without those whose list closes right before `r`. -/
def arrowsBut (r source : Text) : List Symbol :=
  ((arrowFunction.occurrences .anywhere source).filter fun o => !closesBefore r o.start).map (functionSymbol arrowWindow)

/-- The classes of a source without the methods whose list closes right before `r`, unless they are kept. -/
def classesBut (r : Text) (keep : Bool) (source : Text) : List Symbol :=
  (classDeclaration.occurrences .anywhere source).map fun o =>
    { classSymbol o with methods := Method.ofDeclarationBut r keep o.start }

/-- The exports of a source without the arrow functions whose list closes right before `r`, and without such methods, unless these
are kept. -/
def exportsBut (r : Text) (keep : Bool) (source : Text) : List Symbol :=
  namedPass source ++ arrowsBut r source ++ classesBut r keep source ++ defaultPass source

variable {a : TypeClause} {r : Text}

/-- The symbol of a function by its name and parameters. -/
def symbolOfHeading (h : Text × Text) : Symbol := { kind := .function, name := h.1, signature := callSignature h.1 h.2.trim }

/-- The symbol of a default function by its name and parameters. -/
def defaultSymbolOfHeading (h : Text × Text) : Symbol :=
  { symbolOfHeading (if h.1.isEmpty then defaultName else h.1, h.2) with isDefault := true }

/-- Without the flag a function has the symbol of its name and parameters. -/
theorem map_unflagged_functionSymbol (window : Nat) (os : List Occurrence) :
    (os.map (functionSymbol window)).map Symbol.unflagged =
      (os.map fun o => Method.heading o.toDerivation).map symbolOfHeading := by
  rw [List.map_map, List.map_map]
  rfl

/-- Up to whether they are asynchronous, the symbols of default functions are made of their headings. -/
theorem map_unflagged_defaultSymbol (os : List Occurrence) :
    (os.map defaultSymbol).map Symbol.unflagged =
      (os.map fun o => Method.heading o.toDerivation).map defaultSymbolOfHeading := by
  rw [List.map_map, List.map_map]
  rfl

/-- Up to whether they are asynchronous, an annotation changes no exported function. -/
theorem namedPass_annotated (hfree : a.FreeOf namedFunction r) (u : Text) :
    (namedPass (u ++ ')' :: (a.text ++ r))).map Symbol.unflagged = (namedPass (u ++ ')' :: r)).map Symbol.unflagged := by
  rw [namedPass, namedPass, map_unflagged_functionSymbol, map_unflagged_functionSymbol]
  exact congrArg _ ((ExportPass.headings_annotated .namedFunction rfl hfree u).trans (headingsBut_true r _))

/-- Of the arrow functions only one whose list closes before the annotation is lost. -/
theorem arrowPass_annotated (hfree : a.FreeOf arrowFunction r) (u : Text) :
    (arrowPass (u ++ ')' :: (a.text ++ r))).map Symbol.unflagged = (arrowsBut r (u ++ ')' :: r)).map Symbol.unflagged := by
  rw [arrowPass, arrowsBut, map_unflagged_functionSymbol, map_unflagged_functionSymbol]
  exact congrArg _ (ExportPass.headings_annotated .arrowFunction rfl hfree u)

/-- An annotation changes no default function. -/
theorem defaultPass_annotated (hfree : a.FreeOf defaultFunction r) (u : Text) :
    (defaultPass (u ++ ')' :: (a.text ++ r))).map Symbol.unflagged = (defaultPass (u ++ ')' :: r)).map Symbol.unflagged := by
  rw [defaultPass, defaultPass, map_unflagged_defaultSymbol, map_unflagged_defaultSymbol]
  exact congrArg _ ((ExportPass.headings_annotated .defaultFunction rfl hfree u).trans (headingsBut_true r _))

/-- What a class declares depends on its name and its base alone. -/
theorem declared_classSymbol {o o' : Occurrence} (h : ∀ f, o.get? f = o'.get? f) (methods methods' : List Method) :
    { classSymbol o with methods := methods }.declared = { classSymbol o' with methods := methods' }.declared := by
  simp only [Symbol.declared, Symbol.unflagged, classSymbol, Derivation.get, h]

/-- An annotation changes no class as it is declared. -/
theorem classPass_annotated_declared (hfree : a.FreeOf classDeclaration r) (keep : Bool) (u : Text) :
    (classPass (u ++ ')' :: (a.text ++ r))).map Symbol.declared = (classesBut r keep (u ++ ')' :: r)).map Symbol.declared := by
  rw [classPass, classesBut, ← List.forall₂_eq_eq_eq]
  simp only [List.forall₂_map_left_iff, List.forall₂_map_right_iff]
  exact (classDeclarations_annotated hfree u).imp fun o o' h => declared_classSymbol h.1 _ _

/-- The classes keep their methods but for that whose list closes before the annotation. -/
theorem classPass_annotated (hr : a.Apart r) (hfree : a.FreeOf classDeclaration r) (hhead : a.FreeOf Method.head r) (u : Text) :
    classPass (u ++ ')' :: (a.text ++ r)) = classesBut r (a.keeps r) (u ++ ')' :: r) := by
  rw [classPass, classesBut, ← List.forall₂_eq_eq_eq]
  simp only [List.forall₂_map_left_iff, List.forall₂_map_right_iff]
  refine (classDeclarations_annotated hfree u).imp fun o o' h => ?_
  have hmethods : Method.ofDeclaration o.start = Method.ofDeclarationBut r (a.keeps r) o'.start := by
    rcases h.2 with ⟨z, hstart, hstart'⟩ | ⟨hstart, hsuffix⟩
    · rw [hstart, hstart']
      exact Method.ofDeclaration_insert hr hhead z
    · rw [hstart, Method.ofDeclarationBut_of_suffix hsuffix]
  rw [← hmethods]
  simp only [classSymbol, Derivation.get, h.1]

/-- No arrow function is left out exactly if no list of one closes right before `r`. -/
theorem map_outline_arrowsBut_iff (r source : Text) :
    (arrowsBut r source).map Symbol.outline = (arrowPass source).map Symbol.outline ↔
      ∀ o ∈ arrowFunction.occurrences .anywhere source, closesBefore r o.start = false := by
  rw [arrowsBut, arrowPass]
  constructor
  · intro h
    have hlength := congrArg List.length h
    rw [List.length_map, List.length_map, List.length_map, List.length_map, List.length_filter_eq_length_iff] at hlength
    exact fun o ho => by simpa using hlength o ho
  · intro h
    rw [List.filter_eq_self.2 fun o ho => by rw [h o ho, Bool.not_false]]

/-- No method is left out exactly if each class has all its methods. -/
theorem map_outline_classesBut_iff (r : Text) (keep : Bool) (source : Text) :
    (classesBut r keep source).map Symbol.outline = (classPass source).map Symbol.outline ↔
      ∀ o ∈ classDeclaration.occurrences .anywhere source, Method.ofDeclarationBut r keep o.start = Method.ofDeclaration o.start := by
  rw [classesBut, classPass, List.map_map, List.map_map, List.map_inj_left]
  refine forall₂_congr fun o _ => ⟨fun h => ?_, fun h => ?_⟩
  · have hnames := congrArg List.length (Prod.mk.inj (Prod.mk.inj h).2).2
    exact (Method.ofDeclarationBut_sublist r keep o.start).eq_of_length (by simpa [classSymbol] using hnames)
  · change Symbol.outline { classSymbol o with methods := Method.ofDeclarationBut r keep o.start } = _
    rw [h]
    rfl

/-- Nothing is left out of the exports exactly if no list of an arrow function closes right before `r`, and no list of a method that
is not kept. -/
theorem map_outline_exportsBut_iff (r : Text) (keep : Bool) (source : Text) :
    (exportsBut r keep source).map Symbol.outline = (exports source).map Symbol.outline ↔
      (∀ o ∈ arrowFunction.occurrences .anywhere source, closesBefore r o.start = false) ∧
      ∀ o ∈ classDeclaration.occurrences .anywhere source, Method.ofDeclarationBut r keep o.start = Method.ofDeclaration o.start := by
  have hlength : ((classesBut r keep source).map Symbol.outline).length = ((classPass source).map Symbol.outline).length := by
    rw [classesBut, classPass, List.length_map, List.length_map, List.length_map, List.length_map]
  rw [← map_outline_arrowsBut_iff, ← map_outline_classesBut_iff, exportsBut, exports]
  simp only [List.map_append, List.append_assoc, List.append_right_inj]
  rw [← List.append_assoc, ← List.append_assoc, List.append_left_inj]
  exact ⟨fun h => List.append_inj' h hlength, fun h => by rw [h.1, h.2]⟩

end Braced

/-- An annotation behind a closing parenthesis changes no kind, no name and no name of a method. -/
def TypeClause.Unchanged (a : TypeClause) (u r : Text) : Prop :=
  (Braced.exports (u ++ ')' :: (a.text ++ r))).map Symbol.outline = (Braced.exports (u ++ ')' :: r)).map Symbol.outline

instance TypeClause.Unchanged.decidable (a : TypeClause) (u r : Text) : Decidable (a.Unchanged u r) :=
  inferInstanceAs (Decidable (_ = _))

/-- No declaration begins in a type in which the word for exports does not occur. -/
theorem TypeClause.freeOf_exports {a : TypeClause} {r : Text} (hr : a.Apart r) (hexport : ¬"export".toList <:+: a.type) :
    ∀ pass ∈ ExportPass.ofLanguage .typescript, a.FreeOf pass.pattern r := by
  intro pass hpass
  exact freeOf_of_opensWith (ExportPass.opensWith_export hpass) hr hexport

open Braced in
/-- If no declaration begins in the type, the exports of a source with an annotation behind a closing parenthesis declare what the
exports without it do, but for the arrow functions whose list closes there. If no method begins in the type either, the methods stay
as well, but for those whose list closes there, unless the type is one word and the body opens next. So the kinds, the names and the
names of the methods are unchanged exactly if nothing of this is left out. -/
theorem exports_annotated {a : TypeClause} {r : Text} (hr : a.Apart r)
    (hfree : ∀ pass ∈ ExportPass.ofLanguage .typescript, a.FreeOf pass.pattern r) (u : Text) :
    (exports (u ++ ')' :: (a.text ++ r))).map Symbol.declared = (exportsBut r (a.keeps r) (u ++ ')' :: r)).map Symbol.declared ∧
    (a.FreeOf Method.head r →
      (exports (u ++ ')' :: (a.text ++ r))).map Symbol.unflagged =
        (exportsBut r (a.keeps r) (u ++ ')' :: r)).map Symbol.unflagged ∧
      (a.Unchanged u r ↔
        (∀ o ∈ arrowFunction.occurrences .anywhere (u ++ ')' :: r), closesBefore r o.start = false) ∧
        ∀ o ∈ classDeclaration.occurrences .anywhere (u ++ ')' :: r),
          Method.ofDeclarationBut r (a.keeps r) o.start = Method.ofDeclaration o.start)) := by
  have hnamed := namedPass_annotated (hfree .namedFunction (by decide)) u
  have harrow := arrowPass_annotated (hfree .arrowFunction (by decide)) u
  have hclass : a.FreeOf classDeclaration r := hfree .classDeclaration (by decide)
  have hdefault := defaultPass_annotated (hfree .defaultFunction (by decide)) u
  refine ⟨?_, fun hhead => ?_⟩
  · have hdeclared := @Symbol.map_eq_of_unflagged _ Symbol.declared fun _ => rfl
    rw [exports, exportsBut]
    simp only [List.map_append, hdeclared hnamed, hdeclared harrow, hdeclared hdefault,
      classPass_annotated_declared hclass (a.keeps r)]
  · have hunflagged : (exports (u ++ ')' :: (a.text ++ r))).map Symbol.unflagged =
        (exportsBut r (a.keeps r) (u ++ ')' :: r)).map Symbol.unflagged := by
      rw [exports, exportsBut]
      simp only [List.map_append, hnamed, harrow, hdefault, classPass_annotated hr hclass hhead]
    refine ⟨hunflagged, ?_⟩
    have houtline := @Symbol.map_eq_of_unflagged _ Symbol.outline fun _ => rfl
    rw [TypeClause.Unchanged, houtline hunflagged]
    exact map_outline_exportsBut_iff r (a.keeps r) _

open Braced in
/-- A method stays if its type is one word. -/
theorem exports_annotated_word :
    let a : TypeClause := { type := "number".toList, after := { text := [' '] } }
    let u := "export class A \x7b size(".toList
    let r := "\x7b\x7d \x7d".toList
    a.Apart r ∧ (∀ pass ∈ ExportPass.ofLanguage .typescript, a.FreeOf pass.pattern r) ∧ a.FreeOf Method.head r ∧
      a.Unchanged u r := by
  intro a u r
  have hr : a.Apart r := fun h => absurd h (by decide)
  have hfree := a.freeOf_exports hr (by decide)
  have hhead : a.FreeOf Method.head r := TypeClause.freeOf_head hr (by decide) (by decide)
  exact ⟨hr, hfree, hhead, ((exports_annotated hr hfree u).2 hhead).2.2 (by decide +kernel)⟩

/-- An annotation changes more than the flags: an arrow function is not found any more, nor a method whose type is more than a word,
and a type in which a declaration or a method begins adds it. -/
theorem exports_annotated_false :
    (¬∀ (a : TypeClause) (u r : Text), a.Apart r → a.type.all isWord = true →
      (∃ o ∈ Braced.arrowFunction.occurrences .anywhere (u ++ ')' :: r), closesBefore r o.start = true) → a.Unchanged u r) ∧
    (¬∀ (a : TypeClause) (u r : Text), a.Apart r → a.type.all (fun c => isWord c || c == '<' || c == '>') = true →
      (∃ o ∈ Braced.classDeclaration.occurrences .anywhere (u ++ ')' :: r),
        Method.ofDeclarationBut r false o.start ≠ Method.ofDeclaration o.start) → a.Unchanged u r) ∧
    (¬∀ (a : TypeClause) (u r : Text), a.Apart r → a.type.all (fun c => isWord c || c == ' ') = true →
      (∃ o ∈ Braced.namedFunction.occurrences .anywhere (u ++ ')' :: r), closesBefore r o.start = true) → a.Unchanged u r) ∧
    ¬∀ (a : TypeClause) (u r : Text), a.Apart r → a.type.all isWord = true →
      (∃ o ∈ Braced.namedFunction.occurrences .anywhere (u ++ ')' :: r), closesBefore r o.start = true) → a.Unchanged u r := by
  refine ⟨fun h => ?_, fun h => ?_, fun h => ?_, fun h => ?_⟩
  · have hsame := h { type := "number".toList, after := { text := [' '] } } "export const f = (x".toList "=> x".toList
      (fun h => absurd h (by decide)) (by decide) (by decide +kernel)
    exact absurd hsame (by decide +kernel)
  · have hsame := h { type := "Promise<void>".toList, after := { text := [' '] } } "export class A \x7b load(".toList
      "\x7b\x7d \x7d".toList (fun h => absurd h (by decide)) (by decide) (by decide +kernel)
    exact absurd hsame (by decide +kernel)
  · have hsame := h { type := "export class B".toList, after := { text := [' '] } } "export function f(x".toList
      "\x7b\x7d".toList (fun h => absurd h (by decide)) (by decide) (by decide +kernel)
    exact absurd hsame (by decide +kernel)
  · have hsame := h { type := "T".toList } "export class A \x7b export function f(x".toList " (y) \x7b\x7d \x7d".toList
      (fun _ c hc => Option.some.inj hc ▸ rfl) (by decide) (by decide +kernel)
    exact absurd hsame (by decide +kernel)

end SourceInventory
