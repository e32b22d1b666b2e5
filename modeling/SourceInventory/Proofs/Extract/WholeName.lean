import SourceInventory.Proofs.Extract.Hit
import SourceInventory.Proofs.Extract.Separation
import SourceInventory.Proofs.Pattern.Continuation

/-!
# Whole names: the words that symbols are named after

Before the name of a declaration stand blanks, and behind it comes a blank or a mark, so that the name is a whole word of the source.
Only the word for functions of a default function may be followed by the name at once, without a blank: a longer word that begins
with it is cut there, and what is left of it is taken as the name (`captured_wholeWord_iff`).
-/

namespace SourceInventory

open Pattern

/-! ## Names and what stands around them -/

/-- A reading of a text records the name `w`, with `u` before it and `r` behind it, and does not stop inside a word. -/
structure Pattern.Names (s : Text) (d : Derivation) (u w r : Text) : Prop where
  /-- The text is cut around the name. -/
  text_eq : s = u ++ (w ++ r)
  /-- The name is recorded there. -/
  span : d.span? .name = some ⟨w ++ r, w.length⟩
  /-- It is made of word characters. -/
  isWord_name : ∀ c ∈ w, isWord c = true
  /-- No word character stands behind it. -/
  outside_behind : ∀ c ∈ r.head?, isWord c = false

namespace Pattern

variable {a b : Pattern} {s u w r : Text} {d : Derivation}

theorem Names.get (h : Names s d u w r) : d.get .name = w := by
  rw [Derivation.get, Derivation.get?, h.span]
  exact List.take_left

theorem endsWith_keyword (w : String) : EndsWith (keyword w) (isBlank · = true) := by
  refine EndsWith.append fun s d hd => ?_
  obtain ⟨t, rfl, ⟨g, rfl⟩, -⟩ := takes_blanks hd
  obtain ⟨v, x, hv⟩ := (List.eq_nil_or_concat' g.text).resolve_left g.text_ne_nil
  have hlength := length_of_derives_append hd rfl
  rw [hv] at hlength ⊢
  exact ⟨v, x, List.append_assoc v [x] _, by rw [hlength, List.length_append]; rfl, g.isBlank_text x (by simp [hv])⟩

/-- A name between blanks and what begins with no word character. -/
theorem exists_names (ha : EndsWith a (isBlank · = true)) (hfield : .name ∉ a.recorded) (hb : BeginsWith b OutsideWords)
    (hd : Derives (a ++ (.field .name word ++ b)) s d) : ∃ u w r, Names s d u w r ∧ w ≠ [] ∧ u.LastIs (isBlank · = true) := by
  obtain ⟨x, _, hx, hafter, rfl⟩ := derives_append_iff.1 hd
  obtain ⟨n, y, hn, hy, rfl⟩ := derives_append_iff.1 hafter
  obtain ⟨v, c, hs, -, hc⟩ := ha hx
  obtain ⟨w, r, hrest, hne, hw, rfl⟩ := derives_word hn
  obtain ⟨e, t, hr, he⟩ := hb hy
  change r = e :: t at hr
  refine ⟨v ++ [c], w, r, ⟨?_, ?_, hw, ?_⟩, hne, v, c, rfl, hc⟩
  · rw [hs, hrest, List.append_assoc]
    rfl
  · rw [Derivation.span?_andThen, span?_eq_none hx hfield, Derivation.span?_andThen]
    rfl
  · rw [hr]
    exact fun x hx => Option.some.inj hx ▸ he

end Pattern

namespace ExportPass

variable {pass : ExportPass} {s : Text} {d : Derivation}

/-- The name of a class is read as a whole word. -/
theorem exists_names_classDeclaration (h : Braced.classDeclaration.first? s = some d) :
    ∃ u w r, Names s d u w r ∧ w ≠ [] ∧ u.LastIs (isBlank · = true) := by
  obtain ⟨x, hx, hname, rfl⟩ := Braced.first?_classDeclaration h
  obtain ⟨v, c, hs, -, hc⟩ := (endsWith_keyword "class").append hx
  refine ⟨v ++ [c], x.rest.takeWhile isWord, x.rest.dropWhile isWord, ⟨?_, ?_, ?_, ?_⟩, ?_, v, c, rfl, hc⟩
  · rw [List.takeWhile_append_dropWhile, hs, List.append_assoc]
    rfl
  · rw [List.takeWhile_append_dropWhile, Derivation.span?_andThen, Braced.span?_classHead hx, Derivation.span?_andThen,
      span?_wholeWord]
    rfl
  · exact fun c hc => List.mem_takeWhile_imp hc
  · intro c hc
    have hnot := List.head?_dropWhile_not isWord x.rest
    rw [hc] at hnot
    exact hnot
  · obtain ⟨y, t, ht, hy⟩ := beginsWith_word.field hname
    rw [ht, List.takeWhile_cons_of_pos hy]
    exact List.cons_ne_nil _ _

/-- A default function has blanks before its name, or the word for functions right before it. -/
theorem exists_names_defaultFunction (hd : Derives Braced.defaultFunction s d) :
    ∃ u w r, Names s d u w r ∧ ("function".toList <:+ u ∨ u.LastIs (isBlank · = true)) := by
  obtain ⟨x, y, hx, hy, rfl⟩ := derives_append_iff.1 (derives_append_assoc.1 (derives_append_assoc.1 (derives_append_assoc.1 hd)))
  obtain ⟨b, w, v, t, p, hrest, hb, hw, hv, hp, rfl⟩ := Braced.derives_optionalName hy
  obtain ⟨e, z, he, hz, rfl⟩ := derives_append_iff.1 hx
  obtain ⟨q, hs, -⟩ := he.eq_append
  obtain ⟨r, hfunction, rfl⟩ := derives_text_iff.1 hz
  change r = b ++ w ++ v ++ t at hrest
  obtain ⟨c, k, hk, rfl⟩ := beginsWith_parenthesised _ hp
  refine ⟨q ++ "function".toList ++ b, w, v ++ t, ⟨?_, ?_, hw, ?_⟩, ?_⟩
  · rw [hs, hfunction, hrest]
    simp only [List.append_assoc]
  · rw [Derivation.span?_andThen, span?_eq_none hx (by decide), Derivation.span?_andThen]
    rfl
  · exact Method.outsideWords_head hv fun _ c hc => by rw [hk] at hc; exact Option.some.inj hc ▸ by decide
  · rcases List.eq_nil_or_concat' b with rfl | ⟨g, c, rfl⟩
    · exact Or.inl ⟨q, (List.append_nil _).symm⟩
    · exact Or.inr ⟨q ++ "function".toList ++ g, c, (List.append_assoc _ _ _).symm, hb c (by simp)⟩

/-- A pass records a name between blanks and what begins with no word character; only in a default function the word for functions
may stand right before it instead, and the name may be empty. -/
theorem exists_names (h : pass.pattern.first? s = some d) :
    ∃ u w r, Names s d u w r ∧ (pass ≠ .defaultFunction → w ≠ [] ∧ u.LastIs (isBlank · = true)) ∧
      (pass = .defaultFunction → "function".toList <:+ u ∨ u.LastIs (isBlank · = true)) := by
  have hd := derives_of_first? h
  have hlist : BeginsWith (gap ++ parenthesised .params) OutsideWords := beginsWith_gap_parenthesised _
  have other : pass ≠ .defaultFunction → (∃ u w r, Names s d u w r ∧ w ≠ [] ∧ u.LastIs (isBlank · = true)) →
      ∃ u w r, Names s d u w r ∧ (pass ≠ .defaultFunction → w ≠ [] ∧ u.LastIs (isBlank · = true)) ∧
        (pass = .defaultFunction → "function".toList <:+ u ∨ u.LastIs (isBlank · = true)) := by
    rintro hne ⟨u, w, r, hnames, hw, hu⟩
    exact ⟨u, w, r, hnames, fun _ => ⟨hw, hu⟩, fun heq => absurd heq hne⟩
  cases pass with
  | namedFunction =>
    refine other (by decide) ?_
    exact Pattern.exists_names (endsWith_keyword "function").append (by decide) hlist
      (derives_append_assoc.1 (derives_append_assoc.1 hd))
  | arrowFunction =>
    refine other (by decide) ?_
    refine Pattern.exists_names (endsWith_keyword "const").append (by decide) ?_
      (derives_append_assoc.1 (derives_append_assoc.1 (derives_append_assoc.1 (derives_append_assoc.1 (derives_append_assoc.1
        (derives_append_assoc.1 (derives_append_assoc.1 hd)))))))
    exact BeginsWith.run_append (fun _ hx => isWord_eq_false_of_isBlank hx)
      ((beginsWith_lit (x := '=') rfl).append.of_eq (q := OutsideWords) rfl)
  | classDeclaration => exact other (by decide) (exists_names_classDeclaration h)
  | defaultFunction =>
    obtain ⟨u, w, r, hnames, hu⟩ := exists_names_defaultFunction hd
    exact ⟨u, w, r, hnames, fun hne => absurd rfl hne, fun _ => hu⟩
  | functionDefinition =>
    refine other (by decide) ?_
    exact Pattern.exists_names (endsWith_keyword "def").append (by decide) hlist
      (derives_append_assoc.1 (derives_append_assoc.1 hd))
  | classDefinition =>
    refine other (by decide) ?_
    refine Pattern.exists_names (endsWith_keyword "class") (by decide) ?_ (derives_append_assoc.1 (derives_append_assoc.1 hd))
    exact ((beginsWith_parenthesised .base).of_eq (q := OutsideWords) rfl).optional_append ((beginsWith_lit (w := ":") (x := ':') rfl).of_eq (q := OutsideWords) rfl)

/-- A symbol has the name that was recorded; a default function whose name is empty has the name for those without one. -/
theorem name_of_symbol? {o : Occurrence} {s : Symbol} (h : pass.symbol? o = some s) :
    s.name = o.get .name ∧ (pass = .defaultFunction → o.get .name ≠ []) ∨
      pass = .defaultFunction ∧ o.get .name = [] ∧ s.name = Braced.defaultName := by
  cases pass with
  | namedFunction | arrowFunction | classDeclaration | classDefinition =>
    obtain rfl := Option.some.inj h
    exact Or.inl ⟨rfl, fun heq => absurd heq (by decide)⟩
  | functionDefinition =>
    rw [symbol?, Indented.functionSymbol?] at h
    split at h
    · exact absurd h (Option.some_ne_none s).symm
    · obtain rfl := Option.some.inj h
      exact Or.inl ⟨rfl, fun heq => absurd heq (by decide)⟩
  | defaultFunction =>
    obtain rfl := Option.some.inj h
    by_cases hname : o.get .name = []
    · refine Or.inr ⟨rfl, hname, ?_⟩
      change (if (o.get .name).isEmpty then Braced.defaultName else o.get .name) = Braced.defaultName
      rw [hname]
      rfl
    · refine Or.inl ⟨?_, fun _ => hname⟩
      change (if (o.get .name).isEmpty then Braced.defaultName else o.get .name) = o.get .name
      rw [if_neg (by simpa using hname)]

/-- A name that is cut out of a text is a whole word of it if blanks stand before it. -/
theorem wholeWordAt {before u w r : Text} (hname : Names s d u w r) (hw : w ≠ []) (hu : u.LastIs (isBlank · = true)) :
    Method.WholeWordAt (before ++ s) (before.length + u.length) w := by
  have hsource : before ++ s = before ++ u ++ (w ++ r) := by rw [hname.text_eq, List.append_assoc]
  have hdrop : (before ++ s).drop (before.length + u.length) = w ++ r := by
    rw [hsource, ← List.length_append, List.drop_left]
  refine ⟨hw, hname.isWord_name, ?_, ?_, ?_⟩
  · rw [hdrop]
    exact List.prefix_append _ _
  · rw [hsource, ← List.length_append, List.take_left]
    exact fun c hc => isWord_eq_false_of_isBlank ((hu.append before).of_getLast? c hc)
  · rw [← List.drop_drop, hdrop, List.drop_left]
    exact hname.outside_behind

end ExportPass

/-- Every symbol that is exported comes from an occurrence of a pass. Its name is recorded there as a stretch of the source,
unless it is the name of a default function without one. This stretch is a whole word of the source, except where the word for
functions stands right before the name of a default function. -/
theorem captured_wholeWord_iff (l : Language) (source : Text) :
    l.exports source = (ExportPass.ofLanguage l).flatMap (fun pass => (pass.occurrences source).filterMap pass.symbol?) ∧
    ∀ pass ∈ ExportPass.ofLanguage l, ∀ o ∈ pass.occurrences source, ∀ s, pass.symbol? o = some s →
      pass = .defaultFunction ∧ o.get .name = [] ∧ s.name = Braced.defaultName ∨
      ∃ place, o.span? .name = some ⟨source.drop place, s.name.length⟩ ∧ s.name ≠ [] ∧ s.name <+: source.drop place ∧
        (Method.WholeWordAt source place s.name ↔ (pass = .defaultFunction → ¬"function".toList <:+ source.take place)) := by
  refine ⟨?_, ?_⟩
  · rw [ExportPass.exports_eq_flatMap]
    simp only [ExportPass.symbols_eq_filterMap]
  intro pass _ o ho s hs
  obtain ⟨u, w, r, hname, hother, hdefault⟩ := ExportPass.exists_names (first?_of_mem_scanFrom ho)
  rcases ExportPass.name_of_symbol? hs with ⟨hsname, hne⟩ | hsentinel
  · rw [hname.get] at hsname hne
    have hw : w ≠ [] := by
      by_cases hpass : pass = .defaultFunction
      · exact hne hpass
      · exact (hother hpass).1
    obtain ⟨before, hbefore⟩ := start_suffix_of_mem_scanFrom ho
    have hdrop : source.drop (before.length + u.length) = w ++ r := by
      rw [← hbefore, hname.text_eq, ← List.append_assoc, ← List.length_append, List.drop_left]
    have htake : source.take (before.length + u.length) = before ++ u := by
      rw [← hbefore, hname.text_eq, ← List.append_assoc, ← List.length_append, List.take_left]
    refine Or.inr ⟨before.length + u.length, ?_, hsname ▸ hw, ?_, ?_⟩
    · rw [hname.span, hdrop, hsname]
    · rw [hdrop, hsname]
      exact List.prefix_append _ _
    · rw [hsname, htake]
      refine ⟨fun hwhole _ ⟨v, hv⟩ => ?_, fun hbehind => ?_⟩
      · have hlast : (source.take (before.length + u.length)).getLast? = some 'n' := by
          rw [htake, ← hv, List.getLast?_append]
          rfl
        exact absurd (hwhole.2.2.2.1 'n' hlast) (by decide)
      · have hu : u.LastIs (isBlank · = true) := by
          by_cases hpass : pass = .defaultFunction
          · exact (hdefault hpass).resolve_left fun h => hbehind hpass (h.trans (List.suffix_append _ _))
          · exact (hother hpass).2
        rw [← hbefore]
        exact ExportPass.wholeWordAt hname hw hu
  · exact Or.inl hsentinel

/-- What is called by a longer word that begins with the word for functions is taken for a default function with the rest of this
word as its name. -/
theorem captured_wholeWord_false :
    (¬∀ (l : Language) (source : Text), ∀ pass ∈ ExportPass.ofLanguage l, ∀ o ∈ pass.occurrences source,
      ∀ s, pass.symbol? o = some s →
        pass = .defaultFunction ∧ o.get .name = [] ∧ s.name = Braced.defaultName ∨
        ∃ place, o.span? .name = some ⟨source.drop place, s.name.length⟩ ∧ Method.WholeWordAt source place s.name) ∧
    Braced.exports "export default functionFactory();".toList =
      [{ kind := .function
         name := "Factory".toList
         signature := "Factory()".toList
         isDefault := true }] := by
  refine ⟨fun h => ?_, by decide +kernel⟩
  have hfound : ∃ o ∈ ExportPass.defaultFunction.occurrences "export default functionFactory();".toList,
      (ExportPass.defaultFunction.symbol? o).map (·.name) = some "Factory".toList ∧ o.get .name ≠ [] ∧
        o.span? .name = some ⟨"Factory();".toList, 7⟩ := by decide +kernel
  obtain ⟨o, ho, hsymbol, hname, hspan⟩ := hfound
  obtain ⟨s, hs, hsname⟩ := Option.map_eq_some_iff.1 hsymbol
  rcases h .javascript _ .defaultFunction (by decide) o ho s hs with ⟨-, hempty, -⟩ | ⟨place, hplace, hwhole⟩
  · exact hname hempty
  · have hdrop : "export default functionFactory();".toList.drop place = "Factory();".toList :=
      (congrArg Span.start (Option.some.inj (hspan.symm.trans hplace))).symm
    -- only the last ten characters of the source are these
    obtain rfl : place = 23 := by
      have hlength := congrArg List.length hdrop
      rw [List.length_drop] at hlength
      change 33 - place = 10 at hlength
      omega
    exact absurd (hwhole.2.2.2.1 'n' rfl) (by decide)

end SourceInventory
