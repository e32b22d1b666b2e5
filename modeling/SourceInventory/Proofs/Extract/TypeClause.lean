import SourceInventory.Proofs.Extract.BodyCut
import SourceInventory.Proofs.Extract.Insertion

/-!
# Type clauses: a return type put behind the list of a method

A return type may stand behind a closing parenthesis of a braced source. A method whose list closes there is read only if the type is
one word and its body opens next (`Method.keeps_iff`). So a class with an annotation behind a closing parenthesis has the methods
that it has without the annotation, but for those whose list closes there and which are not kept (`Method.ofDeclaration_insert`).
-/

namespace SourceInventory

open Pattern

/-! ## Annotations -/

/-- A type annotation: a return type with a colon before it and any blanks between. -/
structure TypeClause where
  /-- The blanks before the colon. -/
  beforeColon : Gap := .none
  /-- The blanks after the colon. -/
  afterColon : Gap := { text := [' '] }
  /-- The type. -/
  type : Text
  /-- The blanks after the type. -/
  after : Gap := .none
  /-- The type is not blank. -/
  not_blank : type.all isBlank = false := by decide
  /-- It has no braces. -/
  no_braces : '{' ∉ type ∧ '}' ∉ type := by decide

namespace TypeClause

/-- An annotation as it is written. -/
def text (a : TypeClause) : Text := a.beforeColon.text ++ (":".toList ++ (a.afterColon.text ++ (a.type ++ a.after.text)))

/-- The type ends before a text: blanks come between, or the text begins with no word character. -/
def Apart (a : TypeClause) (r : Text) : Prop := a.after.text = [] → ∀ c ∈ r.head?, isWord c = false

/-- In front of a text no reading of a pattern begins in the type. -/
def FreeOf (a : TypeClause) (p : Pattern) (r : Text) : Prop := BeginsNowhereIn p a.type (a.after.text ++ r)

/-- A method with this annotation in front of a text is read: the type is one word, and the body opens next. -/
def keeps (a : TypeClause) (r : Text) : Bool := a.type.trim.all isWord && r.firstSolid? == some '{'

/-- A type has a character that is no blank. -/
theorem exists_solid (a : TypeClause) : ∃ c ∈ a.type, isBlank c = false := by
  obtain ⟨c, hc, hblank⟩ := List.all_eq_false.1 a.not_blank
  exact ⟨c, hc, Bool.eq_false_iff.2 hblank⟩

/-- The type is one word with any blanks around it if it has word characters only without the blanks at either end. -/
theorem all_trim_iff (a : TypeClause) :
    a.type.trim.all isWord = true ↔ ∃ (g : Gap) (w : Word) (g' : Gap), a.type = g.text ++ (w.text ++ g'.text) := by
  constructor
  · intro h
    obtain ⟨g, g', htype⟩ := Text.exists_trim a.type
    obtain ⟨c, hc, hsolid⟩ := a.exists_solid
    have hne : a.type.trim ≠ [] := List.ne_nil_of_mem ((Text.mem_trim_iff hsolid).2 hc)
    exact ⟨g, ⟨a.type.trim, hne, List.all_eq_true.1 h⟩, g', htype⟩
  · rintro ⟨g, w, g', h⟩
    rw [h, Text.trim_word]
    exact List.all_eq_true.2 w.isWord_text

/-- No word goes on behind a type that stands apart. -/
theorem Apart.outsideWords {a : TypeClause} {r : Text} (h : a.Apart r) : ∀ c ∈ (a.after.text ++ r).head?, isWord c = false :=
  Method.outsideWords_head a.after.isBlank_text h

/-- Where an annotation stands the first character behind the blanks is its colon. -/
theorem behind_blanks {a : TypeClause} {r : Text} {g : Gap} {s : Text} (h : a.text ++ r = g.text ++ s)
    (hs : ∀ c ∈ s.head?, isBlank c = false) : s = ':' :: (a.afterColon.text ++ (a.type ++ (a.after.text ++ r))) := by
  have hcut : a.beforeColon.text ++ ':' :: (a.afterColon.text ++ (a.type ++ (a.after.text ++ r))) = g.text ++ s := by
    rw [← h, text]
    simp
  exact (run_split_unique hcut a.beforeColon.isBlank_text g.isBlank_text (fun x hx => Option.some.inj hx ▸ by decide) hs).2.symm

/-- A mark other than the colon stands in an annotation only in the type. -/
theorem not_mem_text (a : TypeClause) {c : Char} (hblank : isBlank c = false) (hcolon : c ≠ ':') (htype : c ∉ a.type) :
    c ∉ a.text := by
  have hgap : ∀ g : Gap, c ∉ g.text := fun g h => by
    rw [g.isBlank_text c h] at hblank
    exact absurd hblank (by decide)
  rw [text]
  simp only [List.mem_append, not_or]
  exact ⟨hgap _, fun h => hcolon (List.mem_singleton.1 h), hgap _, htype, hgap _⟩

/-! ## What begins in an annotation -/

/-- What begins nowhere in the type in front of a text does not in front of its beginning. -/
theorem FreeOf.of_append {a : TypeClause} {p : Pattern} {y : Text} {t : Text} (h : a.FreeOf p (y ++ t)) : a.FreeOf p y := by
  intro v hv hne d hd
  refine h v hv hne (d.extend t) ?_
  have hextend := derives_extend hd t
  rwa [List.append_assoc, List.append_assoc] at hextend

/-- What begins with a word begins in an annotation only in the type. -/
theorem beginsNowhereIn_text {p : Pattern} (hp : BeginsWith p (isWord · = true)) (a : TypeClause) {r : Text}
    (htype : a.FreeOf p r) : BeginsNowhereIn p a.text r := by
  have hgap : ∀ (g : Gap) (s : Text), BeginsNowhereIn p g.text s := fun g s =>
    hp.beginsNowhereIn (fun c hc hword => by
      rw [isWord_eq_false_of_isBlank (g.isBlank_text c hc)] at hword
      exact Bool.false_ne_true hword) s
  have hcolon : ∀ s : Text, BeginsNowhereIn p ":".toList s := fun s =>
    hp.beginsNowhereIn (fun c hc => List.mem_singleton.1 hc ▸ by decide) s
  exact (hgap _ _).append ((hcolon _).append ((hgap _ _).append (htype.append (hgap _ _))))

/-- No export begins in the type if the word for exports does not occur in it. -/
theorem freeOf_of_opensWith {p : Pattern} (hp : OpensWith p "export".toList) {a : TypeClause} {r : Text} (hr : a.Apart r)
    (hexport : ¬"export".toList <:+: a.type) : a.FreeOf p r := by
  refine fun v hv _ d hd => hexport ?_
  have hletters : ∀ c ∈ "export".toList, isWord c = true := List.all_eq_true.1 (by decide)
  refine (Text.prefix_of_prefix_append_of_head (hp hd) fun c hc hmem => ?_).isInfix.trans hv.isInfix
  exact absurd ((hr.outsideWords c hc).symm.trans (hletters c hmem)) (by decide)

/-- No method begins in the type if no list opens in it and none follows. -/
theorem freeOf_head {a : TypeClause} {r : Text} (hr : a.Apart r) (hparen : '(' ∉ a.type) (hlist : r.firstSolid? ≠ some '(') :
    a.FreeOf Method.head r := by
  intro v hv hne d hd
  obtain ⟨n, g, x, hs, hn, hg⟩ := Method.derives_head hd
  rw [← List.append_assoc n] at hs
  -- the word begins in the type, and it and the blanks behind it go on up to the parenthesis
  obtain ⟨k, hk, hrest⟩ := Text.exists_cut hs fun h => hparen (hv.subset h)
  have hblank : ∀ c ∈ k, isBlank c = true := by
    rcases List.append_eq_append_iff.1 hk with ⟨n', rfl, hg'⟩ | ⟨g', rfl, rfl⟩
    · exact fun c hc => hg c (hg' ▸ List.mem_append_right n' hc)
    · cases g' with
      | nil => exact hg
      | cons c g' =>
        have hhead := hr.outsideWords c (by rw [hrest]; rfl)
        rw [hn c (by simp)] at hhead
        exact absurd hhead (by decide)
  obtain ⟨k', rfl, hfollows⟩ := Text.exists_cut hrest fun h => absurd (a.after.isBlank_text '(' h) (by decide)
  exact hlist (Text.firstSolid?_eq_some_iff.2
    ⟨rfl, ⟨k', fun c hc => hblank c (List.mem_append_right _ hc)⟩, x, hfollows⟩)

end TypeClause

/-! ## Methods -/

namespace Method

/-- The name and the list of a method. -/
def listed : Pattern := .field .name .word ++ .gap ++ .parenthesised .params

/-- What a method has behind its list. -/
def behindList : Pattern := .gap ++ (.optional (.lit ":" ++ .gap ++ .word ++ .gap) ++ .lit "\x7b")

/-- Behind the list of a method stand a gap, a return type or none, and the opening brace. -/
theorem takes_behindList :
    Takes behindList fun t _ => ∃ (g : Gap) (type : Option ReturnType), t = g.text ++ (type.elim [] ReturnType.text ++ ['{']) := by
  refine (takes_gap.append (takes_returnType.append (takes_lit "\x7b"))).mono ?_
  rintro _ _ ⟨⟨⟨g, rfl⟩, rfl⟩, ⟨⟨⟨type, rfl⟩, rfl⟩, ⟨rfl, rfl⟩⟩⟩
  exact ⟨g, type, rfl⟩

/-- A body may open behind a list after any blanks. -/
theorem reads_behindList (g : Gap) : Reads behindList (g.text ++ ['{']) [] :=
  (reads_gap g).append ((reads_absent _).append (reads_lit "\x7b"))

/-- A body may open behind a list after a return type of one word. -/
theorem reads_behindList_type (g : Gap) (type : ReturnType) : Reads behindList (g.text ++ (type.text ++ ['{'])) [] :=
  (reads_gap g).append ((((((reads_lit ":").append (reads_gap type.afterColon)).append (reads_word type.type)).append
    (reads_gap type.after)).present).append (reads_lit "\x7b"))

/-- A stretch without an opening parenthesis that ends with a mark holds the beginning of no method. -/
theorem beginsNowhereIn_head {v : Text} (hparen : '(' ∉ v) {c : Char} (hlast : v.getLast? = some c) (hword : isWord c = false)
    (hblank : isBlank c = false) (s : Text) : BeginsNowhereIn head v s := by
  rintro x ⟨y, rfl⟩ hne d hd
  obtain ⟨n, g, r, hs, hn, hg⟩ := derives_head hd
  rw [← List.append_assoc n] at hs
  obtain ⟨k, hk, -⟩ := Text.exists_cut hs fun h => hparen (List.mem_append_right y h)
  -- the mark would stand in the name or in the blanks behind it
  rw [List.getLast?_append_of_ne_nil y hne] at hlast
  have hmem : c ∈ n ++ g := hk ▸ List.mem_append_left k (List.mem_of_mem_getLast? hlast)
  rcases List.mem_append.1 hmem with h | h
  · exact absurd ((hn c h).symm.trans hword) (by decide)
  · exact absurd ((hg c h).symm.trans hblank) (by decide)

/-- Neither mark of a list is read behind it. -/
theorem onlyReads_behindList {c : Char} (hblank : isBlank c = false) (hword : isWord c = false) (hcolon : c ≠ ':') (hbrace : c ≠ '{') :
    behindList.OnlyReads (· ≠ c) := by
  have hgap : gap.OnlyReads (· ≠ c) := by
    rintro _ hb rfl
    exact Bool.false_ne_true (hblank.symm.trans hb)
  have hletter : ∀ x, isWord x = true → x ≠ c := by
    rintro _ hw rfl
    exact Bool.false_ne_true (hword.symm.trans hw)
  have hmark : ∀ {x : Char}, c ≠ x → ∀ y ∈ [x], y ≠ c := fun hne y hy => List.mem_singleton.1 hy ▸ hne.symm
  exact ⟨hgap, ⟨⟨⟨hmark hcolon, hgap⟩, hletter, hletter⟩, hgap⟩, hmark hbrace⟩

/-- A method is read up to its first closing parenthesis, then a return type or none, and the brace that opens its body. -/
theorem closesList_head : ClosesList head listed behindList where
  derives_iff := by
    intro s d
    change Derives (listed ++ gap ++ .optional (lit ":" ++ gap ++ word ++ gap) ++ lit "\x7b") s d ↔ _
    rw [derives_append_assoc, derives_append_assoc]
    rfl
  readsPast := by
    have hfront : (Pattern.field .name word ++ gap).OnlyReads (· ≠ ')') := by
      refine ⟨⟨?_, ?_⟩, ?_⟩
      all_goals
        rintro _ hc rfl
        exact absurd hc (by decide)
    exact ExportPass.readsPast_parenthesised hfront .params
  onlyReads_tail := onlyReads_behindList (by decide) (by decide) (by decide) (by decide)
  recorded_tail := rfl
  agrees _ _ _ hd he := unambiguous_head hd he ▸ .refl _
  quiet := by
    rintro v _ e he rfl
    obtain ⟨t, ht, g, type, rfl⟩ := takes_behindList he
    obtain rfl := List.append_cancel_right ht
    obtain ⟨u, hu, -, hfree⟩ :=
      (onlyReads_behindList (c := '(') (by decide) (by decide) (by decide) (by decide)).eq_append he
    obtain rfl := List.append_cancel_right hu
    refine beginsNowhereIn_head (c := '{') (fun h => hfree '(' h rfl) ?_ (by decide) (by decide) _
    rw [← List.append_assoc, List.getLast?_concat]

/-- A type that is read as one word up to the brace of a body is one word, and the body opens next. -/
theorem type_of_cut {a : TypeClause} {r : Text} (hr : a.Apart r) {type : ReturnType} {s : Text}
    (h : a.afterColon.text ++ (a.type ++ (a.after.text ++ r)) = type.afterColon.text ++ (type.type.text ++ (type.after.text ++ '{' :: s))) :
    a.type.trim.all isWord = true ∧ ∃ g : Gap, r = g.text ++ '{' :: s := by
  -- the type is cut where the blanks before its first word end, and where this word ends
  obtain ⟨first, solid, hsolid, hfirst, hstart⟩ := Text.exists_run isBlank a.type
  obtain ⟨c, hc, hcsolid⟩ := a.exists_solid
  have hne : solid ≠ [] := by
    rintro rfl
    rw [hsolid, List.append_nil] at hc
    exact absurd ((hfirst c hc).symm.trans hcsolid) (by decide)
  have hstart' : ∀ x ∈ (solid ++ (a.after.text ++ r)).head?, isBlank x = false := by
    rw [List.head?_append_of_ne_nil _ hne]
    exact hstart
  rw [hsolid, List.append_assoc, ← List.append_assoc] at h
  obtain ⟨-, hname⟩ := run_split_unique h (List.forall_mem_append.2 ⟨a.afterColon.isBlank_text, hfirst⟩)
    type.afterColon.isBlank_text hstart' (type.type.solid_head _)
  obtain ⟨word, last, rfl, hword, hlast⟩ := Text.exists_run isWord solid
  have hlast' : ∀ x ∈ (last ++ (a.after.text ++ r)).head?, isWord x = false := by
    cases last with
    | nil => exact hr.outsideWords
    | cons => exact hlast
  rw [List.append_assoc] at hname
  obtain ⟨rfl, hafter⟩ := run_split_unique hname hword type.type.isWord_text hlast'
    (outsideWords_head type.after.isBlank_text fun _ x hx => Option.some.inj hx ▸ by decide)
  -- blanks come behind the word, up to the brace
  obtain ⟨g', hg', hrest⟩ := Text.exists_cut hafter fun h => a.no_braces.1 (by simp [hsolid, h])
  obtain ⟨g'', hg'', hopens⟩ := Text.exists_cut hrest fun h => absurd (a.after.isBlank_text '{' h) (by decide)
  have hblank : ∀ x ∈ last ++ (a.after.text ++ g''), isBlank x = true := fun x hx => type.after.isBlank_text x (by rwa [hg', hg''])
  exact ⟨a.all_trim_iff.2 ⟨⟨first, hfirst⟩, type.type, ⟨last, fun x hx => hblank x (by simp [hx])⟩, hsolid⟩,
    ⟨g'', fun x hx => hblank x (by simp [hx])⟩, hopens⟩

/-- Where a method can be read on from an annotation the type is one word, and the body opens next. -/
theorem exists_of_derives_behindList {a : TypeClause} {r : Text} (hr : a.Apart r) {e : Derivation}
    (he : Derives behindList (a.text ++ r) e) : a.type.trim.all isWord = true ∧ ∃ g : Gap, r = g.text ++ '{' :: e.rest := by
  obtain ⟨_, hs, g, type, rfl⟩ := takes_behindList he
  have hhead : ∀ x ∈ (type.elim [] ReturnType.text ++ '{' :: e.rest).head?, isBlank x = false := by
    cases type with
    | none => exact fun x hx => Option.some.inj hx ▸ by decide
    | some t => exact fun x hx => Option.some.inj hx ▸ by decide
  have hbehind := TypeClause.behind_blanks (g := g) (by simpa using hs) hhead
  cases type with
  | none => exact absurd (List.cons.inj hbehind).1 (by decide)
  | some t => exact type_of_cut hr (by simpa [ReturnType.text] using hbehind.symm)

/-- Where the type is one word and the body opens next, a method can be read on from an annotation. -/
theorem exists_derives_behindList {a : TypeClause} (ha : a.type.trim.all isWord = true) (g : Gap) (t : Text) :
    ∃ e, Derives behindList (a.text ++ (g.text ++ '{' :: t)) e := by
  obtain ⟨first, w, last, htype⟩ := a.all_trim_iff.1 ha
  have hgap : ∀ k : Gap, ∀ c ∈ k.text, isBlank c = true := Gap.isBlank_text
  let type : ReturnType :=
    { afterColon := ⟨a.afterColon.text ++ first.text, List.forall_mem_append.2 ⟨hgap _, hgap _⟩⟩
      type := w
      after := ⟨last.text ++ (a.after.text ++ g.text), List.forall_mem_append.2 ⟨hgap _, List.forall_mem_append.2 ⟨hgap _, hgap _⟩⟩⟩ }
  obtain ⟨e, he, -⟩ := reads_behindList_type a.beforeColon type t
  refine ⟨e, ?_⟩
  have hsource : a.text ++ (g.text ++ '{' :: t) = a.beforeColon.text ++ (type.text ++ ['{']) ++ t := by
    simp [TypeClause.text, ReturnType.text, htype, type]
  rwa [hsource]

/-- An annotation can be put behind the list of a method, if no method begins in the type. -/
theorem inserts_head {a : TypeClause} {r : Text} (hr : a.Apart r) (hfree : a.FreeOf head r) :
    Inserts head behindList a.text r where
  quiet := a.beginsNowhereIn_text beginsWith_head hfree
  read := by
    intro e he
    obtain ⟨-, g, hg⟩ := exists_of_derives_behindList hr he
    obtain ⟨f, hf, hrest, -⟩ := reads_behindList g e.rest
    rw [List.append_assoc] at hf
    exact ⟨f, hg ▸ hf, by rw [hrest]⟩

/-- A method can be read on from an annotation exactly if it keeps the methods. -/
theorem keeps_iff {a : TypeClause} {r : Text} (hr : a.Apart r) :
    a.keeps r = true ↔ ∃ e, Derives behindList (a.text ++ r) e := by
  rw [TypeClause.keeps, Bool.and_eq_true, beq_iff_eq, Text.firstSolid?_eq_some_iff]
  constructor
  · rintro ⟨ha, -, g, t, rfl⟩
    exact exists_derives_behindList ha g t
  · rintro ⟨e, he⟩
    obtain ⟨ha, g, hg⟩ := exists_of_derives_behindList hr he
    exact ⟨ha, rfl, g, _, hg⟩

/-- The method of a name and parameters, unless the name begins a statement. -/
def ofHeading? (h : Text × Text) : Option Method :=
  if statementWords.contains h.1 then none else some ⟨h.1, callSignature h.1 h.2.trim⟩

/-- The methods are made of the headings. -/
theorem filterMap_ofHeading? (os : List Occurrence) :
    (os.map fun o => heading o.toDerivation).filterMap ofHeading? = os.filterMap fun o => ofOccurrence? o.toDerivation := by
  rw [List.filterMap_map]
  refine List.filterMap_congr fun o _ => ?_
  simp only [Function.comp_apply, ofHeading?, ofOccurrence?, heading, List.contains_iff_mem]

/-- The methods of a body are those of its names and parameters, with modifiers or without. -/
theorem ofBody_eq_filterMap (body : Text) : ofBody body = (headings head body).filterMap ofHeading? := by
  obtain ⟨hits, -, hpattern, hhead⟩ := exists_hits body
  rw [hhead, ← hpattern, headings, filterMap_ofHeading?]
  rfl

/-- The methods of the class that is declared at the start of a text, without those whose list closes right before `r`, unless they
are kept. -/
def ofDeclarationBut (r : Text) (keep : Bool) (declaration : Text) : List Method :=
  match declaration.dropWhile (· ≠ '{') with
  | [] => []
  | _ :: s =>
    let body := beforeClosing 0 s
    ((head.occurrences .anywhere body).filter fun o => keep || !closesBefore r (o.start ++ s.drop body.length)).filterMap
      fun o => ofOccurrence? o.toDerivation

/-- What stands before the first opening brace is dropped. -/
theorem dropWhile_brace {x : Text} (hx : '{' ∉ x) (t : Text) : (x ++ t).dropWhile (· ≠ '{') = t.dropWhile (· ≠ '{') := by
  refine List.dropWhile_append_of_pos fun c hc => ?_
  have hne : c ≠ '{' := fun h => hx (h ▸ hc)
  simpa using hne

/-- What begins with no brace that matters is searched for the closing brace character by character. -/
theorem beforeClosing_append_of_not_mem {w : Text} (hopen : '{' ∉ w) (hclose : '}' ∉ w) (n : Nat) (t : Text) :
    beforeClosing n (w ++ t) = w ++ beforeClosing n t := by
  have hcounts : w.count '{' = 0 ∧ w.count '}' = 0 := ⟨List.count_eq_zero.2 hopen, List.count_eq_zero.2 hclose⟩
  rw [beforeClosing_append, hcounts.1, hcounts.2]
  · rfl
  · intro u hu
    rw [List.count_eq_zero.2 fun h => hclose (hu.subset h)]
    exact Nat.zero_le _

/-- The methods that are kept are made of the headings that are kept. -/
theorem filterMap_headingsBut (r : Text) (keep : Bool) (os : List Occurrence) :
    (headingsBut r keep os).filterMap ofHeading? =
      (os.filter fun o => keep || !closesBefore r o.start).filterMap fun o => ofOccurrence? o.toDerivation :=
  filterMap_ofHeading? _

/-- A method in the body of a class has a list that is closed. -/
theorem closing_mem_start {body : Text} {o : Occurrence} (ho : o ∈ head.occurrences .anywhere body) : ')' ∈ o.start := by
  obtain ⟨v, t, -, hs, -⟩ := closesList_head.readsPast_tail (derives_of_first? (first?_of_mem_scanFrom ho))
  rw [hs]
  simp

/-- If no list of its body closes right before `r`, a class has all its methods. -/
theorem ofDeclarationBut_eq {r declaration s : Text} {keep : Bool} {c : Char} (hdrop : declaration.dropWhile (· ≠ '{') = c :: s)
    (hnone : ∀ o ∈ head.occurrences .anywhere (beforeClosing 0 s),
      closesBefore r (o.start ++ s.drop (beforeClosing 0 s).length) = false) :
    ofDeclarationBut r keep declaration = ofBody (beforeClosing 0 s) := by
  rw [ofDeclarationBut, hdrop, ofBody_eq_filterMap, headings, filterMap_ofHeading?]
  change List.filterMap _ (List.filter _ _) = _
  rw [List.filter_eq_self.2 fun o ho => by rw [hnone o ho, Bool.not_false, Bool.or_true]]

/-- A class that is declared behind the place has all its methods. -/
theorem ofDeclarationBut_of_suffix {r declaration : Text} (h : declaration <:+ r) (keep : Bool) :
    ofDeclarationBut r keep declaration = ofDeclaration declaration := by
  cases hdrop : declaration.dropWhile (· ≠ '{') with
  | nil => rw [ofDeclarationBut, ofDeclaration, classBody?, hdrop]; rfl
  | cons c s =>
    rw [ofDeclaration, classBody?, hdrop]
    refine ofDeclarationBut_eq hdrop fun o ho => closesBefore_of_length_le ?_
    obtain ⟨b, hb⟩ := prefix_beforeClosing 0 s
    have hstart := (start_suffix_of_mem_scanFrom ho).length_le
    have hsource := ((List.dropWhile_suffix (· ≠ '{')).trans h).length_le
    rw [hdrop, List.length_cons] at hsource
    have hlength := congrArg List.length hb
    rw [List.length_append] at hlength ⊢
    rw [List.length_drop]
    omega

/-- What is left of the methods of a class is found among them in the same order. -/
theorem ofDeclarationBut_sublist (r : Text) (keep : Bool) (declaration : Text) :
    (ofDeclarationBut r keep declaration).Sublist (ofDeclaration declaration) := by
  cases hdrop : declaration.dropWhile (· ≠ '{') with
  | nil =>
    rw [ofDeclarationBut, hdrop]
    exact List.nil_sublist _
  | cons c s =>
    rw [ofDeclarationBut, ofDeclaration, classBody?, hdrop]
    change (List.filterMap _ (List.filter _ _)).Sublist (ofBody _)
    rw [ofBody_eq_filterMap, headings, filterMap_ofHeading?]
    exact List.filter_sublist.filterMap _

/-! ## The methods of an annotated class -/

/-- What stands before the opening brace makes no difference for the methods. -/
theorem ofDeclaration_append_left {x : Text} (hx : '{' ∉ x) (t : Text) : ofDeclaration (x ++ t) = ofDeclaration t := by
  rw [ofDeclaration, ofDeclaration, classBody?, classBody?, dropWhile_brace hx]

/-- What stands before the first brace of a declaration makes no difference. -/
theorem ofDeclarationBut_append_left {x : Text} (hx : '{' ∉ x) (r : Text) (keep : Bool) (t : Text) :
    ofDeclarationBut r keep (x ++ t) = ofDeclarationBut r keep t := by
  rw [ofDeclarationBut, ofDeclarationBut, dropWhile_brace hx]

/-- A list that is closed in a text closes at the same place whatever stands behind the text. -/
theorem closesBefore_append {start : Text} (h : ')' ∈ start) (y t : Text) :
    closesBefore (y ++ t) (start ++ t) = closesBefore y start := by
  obtain ⟨v, s, rfl, hv⟩ := List.eq_append_cons_of_mem h
  rw [closesBefore, closesBefore, List.append_assoc, List.cons_append, dropWhile_closing hv, dropWhile_closing hv,
    ← List.cons_append, ← List.cons_append]
  exact decide_eq_decide.2 (List.append_left_inj t)

/-- In the body of a class the first character that is no blank is the first in the source, if there is one. -/
theorem firstSolid?_eq_of_isPrefix {y r : Text} (h : y <+: r) {c : Char} (hc : y.firstSolid? = some c) : r.firstSolid? = some c := by
  obtain ⟨hsolid, g, t, rfl⟩ := Text.firstSolid?_eq_some_iff.1 hc
  obtain ⟨x, rfl⟩ := h
  exact Text.firstSolid?_eq_some_iff.2 ⟨hsolid, g, t ++ x, by simp⟩

/-- A body that opens belongs to the body of the class. -/
theorem keeps_beforeClosing (a : TypeClause) (n : Nat) (r : Text) : a.keeps (beforeClosing n r) = a.keeps r := by
  have hopens : (beforeClosing n r).firstSolid? = some '{' ↔ r.firstSolid? = some '{' := by
    refine ⟨firstSolid?_eq_of_isPrefix (prefix_beforeClosing n r), fun h => ?_⟩
    obtain ⟨-, g, t, rfl⟩ := Text.firstSolid?_eq_some_iff.1 h
    have hgap : ∀ {c : Char}, isBlank c = false → c ∉ g.text := fun hc hmem =>
      Bool.false_ne_true (hc.symm.trans (g.isBlank_text _ hmem))
    rw [beforeClosing_append_of_not_mem (hgap (by decide)) (hgap (by decide)), beforeClosing_open]
    exact Text.firstSolid?_eq_some_iff.2 ⟨rfl, g, _, rfl⟩
  rw [TypeClause.keeps, TypeClause.keeps, Bool.eq_iff_iff, Bool.and_eq_true, Bool.and_eq_true, beq_iff_eq, beq_iff_eq,
    hopens]

/-- In the body of a class with an annotation the methods are those of the body without it; but those whose list closes there are
found only if the annotation keeps them. -/
theorem ofBody_insert {a : TypeClause} {y : Text} (hy : a.Apart y) (hfree : a.FreeOf head y) (m : Text) :
    ofBody (m ++ ')' :: (a.text ++ y)) =
      ((head.occurrences .anywhere (m ++ ')' :: y)).filter fun o => a.keeps y || !closesBefore y o.start).filterMap
        fun o => ofOccurrence? o.toDerivation := by
  rw [ofBody_eq_filterMap, closesList_head.headings_insert (by decide) (inserts_head hy hfree) (keeps_iff hy),
    filterMap_headingsBut]

/-- From a brace on, the methods are those of the body up to the brace that closes it. -/
theorem ofDeclaration_brace (s : Text) : ofDeclaration ('{' :: s) = ofBody (beforeClosing 0 s) := by
  rw [ofDeclaration, classBody?, List.dropWhile_cons_of_neg (by simp)]
  rfl

/-- If the body goes on behind the place, the annotation stands in it. -/
theorem ofDeclaration_insert_of_neverCloses {a : TypeClause} {r : Text} (hr : a.Apart r) (hfree : a.FreeOf head r) {m : Text}
    (hm : NeverCloses m) :
    ofDeclaration ('{' :: (m ++ ')' :: (a.text ++ r))) = ofDeclarationBut r (a.keeps r) ('{' :: (m ++ ')' :: r)) := by
  have happend := fun t => beforeClosing_append (n := 0) (fun u hu => hm u hu) t
  generalize 0 + m.count '{' - m.count '}' = n at happend
  have hparen : ∀ t, beforeClosing n (')' :: t) = ')' :: beforeClosing n t := beforeClosing_other (by decide) (by decide) n
  have hprefix := prefix_beforeClosing n r
  have hkeeps := keeps_beforeClosing a n r
  have hinside : beforeClosing 0 (m ++ ')' :: r) = m ++ ')' :: beforeClosing n r := by rw [happend, hparen]
  rw [ofDeclaration_brace, happend, hparen, beforeClosing_append_of_not_mem (a.not_mem_text (by decide) (by decide) a.no_braces.1)
    (a.not_mem_text (by decide) (by decide) a.no_braces.2)]
  generalize beforeClosing n r = y at hprefix hkeeps hinside
  obtain ⟨t, rfl⟩ := hprefix
  have hy : a.Apart y := fun hnil c hc => hr hnil c (by
    obtain ⟨y, rfl⟩ := List.head?_eq_some_iff.1 hc
    rfl)
  have hleft : (m ++ ')' :: (y ++ t)).drop (m ++ ')' :: y).length = t := by
    rw [← List.cons_append, ← List.append_assoc]
    exact List.drop_left
  rw [ofBody_insert hy hfree.of_append, hkeeps, ofDeclarationBut, List.dropWhile_cons_of_neg (by simp)]
  change _ = List.filterMap _ (List.filter _ _)
  rw [hinside, hleft]
  refine congrArg _ (List.filter_congr fun o ho => ?_)
  rw [closesBefore_append (closing_mem_start ho)]

/-- If the body is closed before the place, no list of it closes there. -/
theorem ofDeclaration_insert_of_balanced {b : Text} (hb : BracesBalanced b) (m t r : Text) (keep : Bool) :
    ofDeclaration ('{' :: (b ++ '}' :: (m ++ ')' :: t))) = ofDeclarationBut r keep ('{' :: (b ++ '}' :: (m ++ ')' :: r))) := by
  have hcut : ∀ t, beforeClosing 0 (b ++ '}' :: (m ++ ')' :: t)) = b := fun t => beforeClosing_of_balanced hb _
  rw [ofDeclaration_brace, hcut, ofDeclarationBut_eq (List.dropWhile_cons_of_neg (by simp)), hcut]
  intro o ho
  rw [hcut] at ho ⊢
  rw [List.drop_left, ← List.cons_append, ← List.append_assoc]
  exact closesBefore_of_mem (List.mem_append_left _ (closing_mem_start ho)) r

/-- The methods of a class with an annotation behind a closing parenthesis are those of the class without it; but those whose list
closes there are found only if the annotation keeps them. The parenthesis may stand before the body, in it or behind it. -/
theorem ofDeclaration_insert {a : TypeClause} {r : Text} (hr : a.Apart r) (hfree : a.FreeOf head r) (z : Text) :
    ofDeclaration (z ++ ')' :: (a.text ++ r)) = ofDeclarationBut r (a.keeps r) (z ++ ')' :: r) := by
  by_cases hz : '{' ∈ z
  · obtain ⟨x, m, rfl, hx⟩ := List.eq_append_cons_of_mem hz
    rw [List.append_assoc, List.append_assoc, List.cons_append, List.cons_append, ofDeclaration_append_left hx,
      ofDeclarationBut_append_left hx]
    rcases BodyCut.neverCloses_or_closing m with hm | ⟨b, m', rfl, hb⟩
    · exact ofDeclaration_insert_of_neverCloses hr hfree hm
    · rw [List.append_assoc, List.append_assoc, List.cons_append, List.cons_append]
      exact ofDeclaration_insert_of_balanced hb m' (a.text ++ r) r (a.keeps r)
  · have hnone : '{' ∉ z ++ [')'] := fun h => (List.mem_append.1 h).elim hz fun h => absurd (List.mem_singleton.1 h) (by decide)
    have hsource : ∀ t, z ++ ')' :: t = (z ++ [')']) ++ t := fun t => by simp
    rw [hsource (a.text ++ r), hsource r, ofDeclaration_append_left hnone,
      ofDeclaration_append_left (a.not_mem_text (by decide) (by decide) a.no_braces.1), ofDeclarationBut_append_left hnone,
      ofDeclarationBut_of_suffix (List.suffix_refl r)]

end Method

end SourceInventory
