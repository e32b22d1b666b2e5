import SourceInventory.Extract.Braced
import SourceInventory.Extract
import SourceInventory.Proofs.Pattern.Preferred
import SourceInventory.Proofs.Pattern.Tiling
import SourceInventory.Proofs.Pattern.Unambiguous

/-!
# The readings of a declaration

Of the patterns of exported declarations four are unambiguous. The readings of a default function without a name differ in
which of its blanks stand before the empty name, and in nothing else (`agrees_defaultFunction`). A class declaration has
many readings, since the words in it may be cut anywhere; the preferred one covers them all
(`covers_of_first?_classDeclaration`).
-/

namespace SourceInventory

open Pattern

/-! ## Agreement of composed readings -/

namespace Derivation

/-- Of two readings one after another the first that records a field tells where it is. -/
theorem span?_andThen (x y : Derivation) (f : Field) : (x.andThen y).span? f = (x.span? f).or (y.span? f) := by
  simp only [span?, andThen, List.find?_append]
  cases x.fields.find? (·.1 = f) <;> rfl

theorem get?_andThen (x y : Derivation) (f : Field) : (x.andThen y).get? f = (x.get? f).or (y.get? f) := by
  rw [get?, span?_andThen, get?, get?]
  cases x.span? f <;> rfl

/-- Readings that agree do so after one reading before them. -/
theorem Agrees.andThen_left {y y' : Derivation} (h : y.Agrees y') (x : Derivation) :
    (x.andThen y).Agrees (x.andThen y') where
  length := by simp only [Derivation.andThen, h.length]
  rest := h.rest
  name := by rw [get?_andThen, get?_andThen, h.name]
  params := by rw [get?_andThen, get?_andThen, h.params]
  base := by rw [get?_andThen, get?_andThen, h.base]
  modifier := by rw [get?_andThen, get?_andThen, Option.isSome_or, Option.isSome_or, h.modifier]

theorem Agrees.andThen_right {x x' : Derivation} (h : x.Agrees x') (y : Derivation) :
    (x.andThen y).Agrees (x'.andThen y) where
  length := by simp only [Derivation.andThen, h.length]
  rest := rfl
  name := by rw [get?_andThen, get?_andThen, h.name]
  params := by rw [get?_andThen, get?_andThen, h.params]
  base := by rw [get?_andThen, get?_andThen, h.base]
  modifier := by rw [get?_andThen, get?_andThen, Option.isSome_or, Option.isSome_or, h.modifier]

end Derivation

/-! ## Unambiguous declarations -/

namespace Pattern

/-- A pattern that begins with one character begins with what holds of it. -/
theorem BeginsWith.of_eq {a : Pattern} {x : Char} {q : Char → Prop} (h : BeginsWith a (· = x)) (hx : q x) :
    BeginsWith a q :=
  h.mono fun _ hy => hy ▸ hx

/-- A name begins with a character that is no blank. -/
theorem beginsWith_name {f : Field} {b : Pattern} : BeginsWith (.field f word ++ b) Solid :=
  (beginsWith_word.mono fun _ hx => solid_of_isWord hx).field.append

/-- Any blanks before a list keep a word apart from what follows. -/
theorem beginsWith_gap_parenthesised (f : Field) : BeginsWith (gap ++ parenthesised f) OutsideWords :=
  ((beginsWith_parenthesised f).of_eq (q := OutsideWords) rfl).run_append fun _ hx => isWord_eq_false_of_isBlank hx

/-- The word that makes a function asynchronous is there or not, by the character after it. -/
theorem settledBefore_async {b : Pattern} {x : Char} (hb : BeginsWith b (· = x)) (hx : Solid x) (hne : x ≠ 'a') :
    SettledBefore (.optional (.field .modifier (keyword "async"))) b := by
  refine settledBefore_optional (settledBefore_field (settledBefore_keyword _ (hb.of_eq hx))) ?_
  intro s d e hd
  exact (beginsWith_keyword rfl).field.disjoint hb (fun y hy hy' => hne (hy'.symm.trans hy)) hd

/-- So does a declaration before which the word for asynchronous functions may stand. -/
theorem beginsWith_async {b : Pattern} {x : Char} (hb : BeginsWith b (· = x)) (hx : Solid x) :
    BeginsWith (.optional (.field .modifier (keyword "async")) ++ b) Solid :=
  BeginsWith.optional_append ((beginsWith_keyword (x := 'a') rfl).field.of_eq rfl) (hb.of_eq hx)

end Pattern

/-- An exported function is read in one way at most. -/
theorem Braced.unambiguous_namedFunction : Unambiguous Braced.namedFunction := by
  have hfunction : BeginsWith (keyword "function" ++ (.field .name word ++ (gap ++ parenthesised .params))) (· = 'f') :=
    (beginsWith_keyword rfl).append
  refine unambiguous_append (settledBefore_append (settledBefore_append (settledBefore_append (settledBefore_append ?_ ?_)
    ?_) ?_) ?_) (unambiguous_parenthesised _)
  · exact settledBefore_keyword _ (beginsWith_async hfunction rfl)
  · exact settledBefore_async hfunction rfl (by decide)
  · exact settledBefore_keyword _ beginsWith_name
  · exact settledBefore_field (settledBefore_word (beginsWith_gap_parenthesised _))
  · exact settledBefore_gap ((beginsWith_parenthesised _).of_eq rfl)

/-- So is an arrow function. -/
theorem Braced.unambiguous_arrowFunction : Unambiguous Braced.arrowFunction := by
  have harrow : BeginsWith (lit "=>") (· = '=') := beginsWith_lit rfl
  have hlist : BeginsWith (parenthesised .params ++ (gap ++ lit "=>")) (· = '(') := (beginsWith_parenthesised _).append
  have hasync : BeginsWith (.field .modifier (lit "async" ++ gap)) (· = 'a') := (beginsWith_lit rfl).append.field
  have hequals : BeginsWith (lit "=" ++ (gap ++ (.optional (.field .modifier (lit "async" ++ gap)) ++
      (parenthesised .params ++ (gap ++ lit "=>"))))) (· = '=') := (beginsWith_lit rfl).append
  refine unambiguous_append (settledBefore_append (settledBefore_append (settledBefore_append (settledBefore_append
    (settledBefore_append (settledBefore_append (settledBefore_append (settledBefore_append ?_ ?_) ?_) ?_) ?_) ?_) ?_) ?_)
    ?_) (unambiguous_text _)
  · exact settledBefore_keyword _ ((beginsWith_keyword (x := 'c') rfl).append.of_eq rfl)
  · exact settledBefore_keyword _ beginsWith_name
  · refine settledBefore_field (settledBefore_word ?_)
    exact (hequals.of_eq (q := OutsideWords) rfl).run_append fun _ hx => isWord_eq_false_of_isBlank hx
  · exact settledBefore_gap (hequals.of_eq rfl)
  · exact (unambiguous_text _).settledBefore _
  · exact settledBefore_gap ((hasync.of_eq (q := Solid) rfl).optional_append (hlist.of_eq rfl))
  · refine settledBefore_optional (settledBefore_field (settledBefore_append ((unambiguous_text _).settledBefore _) ?_)) ?_
    · exact settledBefore_gap (hlist.of_eq rfl)
    · intro s d e hd
      exact hasync.disjoint hlist (by rintro _ rfl; decide) hd
  · exact (unambiguous_parenthesised _).settledBefore _
  · exact settledBefore_gap (harrow.of_eq rfl)

/-- A function of an indented source is read in one way at most. -/
theorem Indented.unambiguous_functionDefinition : Unambiguous Indented.functionDefinition := by
  have hdef : BeginsWith (keyword "def" ++ (.field .name word ++ (gap ++ parenthesised .params))) (· = 'd') :=
    (beginsWith_keyword rfl).append
  refine unambiguous_append (settledBefore_append (settledBefore_append (settledBefore_append ?_ ?_) ?_) ?_)
    (unambiguous_parenthesised _)
  · exact settledBefore_async hdef rfl (by decide)
  · exact settledBefore_keyword _ beginsWith_name
  · exact settledBefore_field (settledBefore_word (beginsWith_gap_parenthesised _))
  · exact settledBefore_gap ((beginsWith_parenthesised _).of_eq rfl)

/-- So is a class. -/
theorem Indented.unambiguous_classDefinition : Unambiguous Indented.classDefinition := by
  have hcolon : BeginsWith (lit ":") (· = ':') := beginsWith_lit rfl
  have hlist : BeginsWith (parenthesised .base) (· = '(') := beginsWith_parenthesised _
  refine unambiguous_append (settledBefore_append (settledBefore_append ?_ ?_) ?_) (unambiguous_text _)
  · exact settledBefore_keyword _ beginsWith_name
  · refine settledBefore_field (settledBefore_word ?_)
    exact (hlist.of_eq (q := OutsideWords) rfl).optional_append (hcolon.of_eq rfl)
  · refine settledBefore_optional ((unambiguous_parenthesised _).settledBefore _) ?_
    intro s d e hd
    exact hlist.disjoint hcolon (by rintro _ rfl; decide) hd

/-! ## Default functions -/

/-- What a default function has after its keyword: blanks, a possibly empty name, blanks again and the list. -/
theorem Braced.derives_optionalName {f : Field} {s : Text} {d : Derivation}
    (h : Derives (gap ++ (.field .name (.run isWord) ++ (gap ++ parenthesised f))) s d) :
    ∃ u w v t p, s = u ++ w ++ v ++ t ∧ (∀ x ∈ u, isBlank x = true) ∧ (∀ x ∈ w, isWord x = true) ∧
      (∀ x ∈ v, isBlank x = true) ∧ Derives (parenthesised f) t p ∧
      d = (Derivation.mk [(.name, ⟨w ++ (v ++ t), w.length⟩)] (u ++ w ++ v).length t).andThen p := by
  obtain ⟨_, _, hu, hname, rfl⟩ := derives_append_iff.1 h
  obtain ⟨u, r, rfl, hublank, rfl⟩ := derives_run_iff.1 hu
  obtain ⟨_, _, hw, hlist, rfl⟩ := derives_append_iff.1 hname
  obtain ⟨_, hw', rfl⟩ := derives_field_iff.1 hw
  obtain ⟨w, r', hr, hword, rfl⟩ := derives_run_iff.1 hw'
  obtain ⟨_, p, hv, hp, rfl⟩ := derives_append_iff.1 hlist
  obtain ⟨v, t, hr', hvblank, rfl⟩ := derives_run_iff.1 hv
  change r = w ++ r' at hr
  change r' = v ++ t at hr'
  subst hr' hr
  refine ⟨u, w, v, t, p, by simp, hublank, hword, hvblank, hp, ?_⟩
  simp [Derivation.andThen, Derivation.plain, Derivation.record, Nat.add_assoc]

/-- A word is what is left of itself with blanks on both sides when the blanks are taken out. -/
theorem filter_isWord_of_blanks {u w v : Text} (hu : ∀ x ∈ u, isBlank x = true) (hw : ∀ x ∈ w, isWord x = true)
    (hv : ∀ x ∈ v, isBlank x = true) : (u ++ w ++ v).filter isWord = w := by
  have out : ∀ b : Text, (∀ x ∈ b, isBlank x = true) → b.filter isWord = [] := by
    intro b hb
    rw [List.filter_eq_nil_iff]
    intro x hx
    simp [isWord_eq_false_of_isBlank (hb x hx)]
  rw [List.filter_append, List.filter_append, out u hu, out v hv, List.filter_eq_self.2 hw, List.nil_append, List.append_nil]

/-- However the blanks around the name of a default function are cut, the name and the end are the same. -/
theorem Braced.agrees_optionalName {f : Field} {s : Text} {d e : Derivation}
    (hd : Derives (gap ++ (.field .name (.run isWord) ++ (gap ++ parenthesised f))) s d)
    (he : Derives (gap ++ (.field .name (.run isWord) ++ (gap ++ parenthesised f))) s e) : d.Agrees e := by
  obtain ⟨u, w, v, t, p, rfl, hu, hw, hv, hp, rfl⟩ := Braced.derives_optionalName hd
  obtain ⟨u', w', v', t', p', hs, hu', hw', hv', hp', rfl⟩ := Braced.derives_optionalName he
  have inside : ∀ ⦃u w v : Text⦄, (∀ x ∈ u, isBlank x = true) → (∀ x ∈ w, isWord x = true) → (∀ x ∈ v, isBlank x = true) →
      ∀ x ∈ u ++ w ++ v, (isBlank x || isWord x) = true := by
    intro u w v hu hw hv x hx
    simp only [List.mem_append] at hx
    rcases hx with (hx | hx) | hx
    · simp [hu x hx]
    · simp [hw x hx]
    · simp [hv x hx]
  have opens : ∀ ⦃t p⦄, Derives (parenthesised f) t p → ∀ x ∈ t.head?, (isBlank x || isWord x) = false := by
    intro t p hp x hx
    obtain ⟨y, r, rfl, rfl⟩ := beginsWith_parenthesised f hp
    obtain rfl : '(' = x := Option.some.inj hx
    rfl
  -- blanks and name together are one run, which the parenthesis ends; the name is the part of it without blanks
  obtain ⟨hcut, rfl⟩ := run_split_unique hs (inside hu hw hv) (inside hu' hw' hv') (opens hp) (opens hp')
  obtain rfl : w = w' := by
    rw [← filter_isWord_of_blanks hu hw hv, hcut, filter_isWord_of_blanks hu' hw' hv']
  obtain rfl := unambiguous_parenthesised f hp hp'
  refine Derivation.Agrees.andThen_right ?_ p
  exact ⟨congrArg List.length hcut, rfl, by simp [Derivation.get?, Derivation.span?, Span.text], rfl, rfl, rfl⟩

/-- The readings of a default function agree. -/
theorem Braced.agrees_defaultFunction {s : Text} {d e : Derivation} (hd : Derives Braced.defaultFunction s d)
    (he : Derives Braced.defaultFunction s e) : d.Agrees e := by
  have hfunction : BeginsWith (lit "function") (· = 'f') := beginsWith_lit rfl
  have hstart : Unambiguous (keyword "export" ++ keyword "default" ++ .optional (.field .modifier (keyword "async"))
      ++ lit "function") := by
    refine unambiguous_append (settledBefore_append (settledBefore_append ?_ ?_) ?_) (unambiguous_text _)
    · exact settledBefore_keyword _ ((beginsWith_keyword (x := 'd') rfl).append.of_eq rfl)
    · exact settledBefore_keyword _ (beginsWith_async hfunction rfl)
    · exact settledBefore_async hfunction rfl (by decide)
  -- the words up to `function`, and what is read after them
  have parts : ∀ ⦃d⦄, Derives Braced.defaultFunction s d → ∃ x y,
      Derives (keyword "export" ++ keyword "default" ++ .optional (.field .modifier (keyword "async")) ++ lit "function") s x ∧
        Derives (gap ++ (.field .name (.run isWord) ++ (gap ++ parenthesised .params))) x.rest y ∧ d = x.andThen y := by
    intro d hd
    exact derives_append_iff.1 (derives_append_assoc.1 (derives_append_assoc.1 (derives_append_assoc.1 hd)))
  obtain ⟨x, y, hx, hy, rfl⟩ := parts hd
  obtain ⟨x', y', hx', hy', rfl⟩ := parts he
  obtain rfl := hstart hx hx'
  exact (Braced.agrees_optionalName hy hy').andThen_left x

end SourceInventory
