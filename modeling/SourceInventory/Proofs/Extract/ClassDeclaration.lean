import SourceInventory.Proofs.Extract.Declarations

/-!
# The readings of a class declaration

A class declaration may be read in many ways: any beginning of the word after `class` is a name, and after the whole word
a clause with the base may be read or not, with any beginning of its last word. One reading takes the most of everything,
and it is the preferred one (`covers_of_first?_classDeclaration`, `wholeWord_of_first?_classDeclaration`).
-/

namespace SourceInventory

open Pattern

/-! ## What a pattern may record -/

/-- The fields that a reading may record. -/
def Pattern.recorded : Pattern → List Field
  | .text _ | .char _ | .run _ => []
  | .seq a b | .either a b => a.recorded ++ b.recorded
  | .optional a | .many a => a.recorded
  | .field f a => f :: a.recorded

/-- A reading records only fields of its pattern. -/
theorem Pattern.mem_recorded {p : Pattern} {s : Text} {d : Derivation} (h : Derives p s d) :
    ∀ x ∈ d.fields, x.1 ∈ p.recorded := by
  induction h with
  | text | char _ | run _ | absent | stop => intro x hx; exact absurd hx List.not_mem_nil
  | seq _ _ iha ihb =>
    intro x hx
    rcases List.mem_append.1 hx with hx | hx
    · exact List.mem_append_left _ (iha x hx)
    · exact List.mem_append_right _ (ihb x hx)
  | left _ ih => intro x hx; exact List.mem_append_left _ (ih x hx)
  | right _ ih => intro x hx; exact List.mem_append_right _ (ih x hx)
  | present _ ih => exact ih
  | more _ _ _ iha ihb =>
    intro x hx
    rcases List.mem_append.1 hx with hx | hx
    · exact iha x hx
    · exact ihb x hx
  | field _ ih =>
    intro x hx
    rcases List.mem_cons.1 hx with rfl | hx
    · exact List.mem_cons_self
    · exact List.mem_cons_of_mem _ (ih x hx)

/-- A field that the pattern does not record has no span in a reading. -/
theorem Pattern.span?_eq_none {p : Pattern} {s : Text} {d : Derivation} {f : Field} (h : Derives p s d)
    (hf : f ∉ p.recorded) : d.span? f = none := by
  rw [Derivation.span?, Option.map_eq_none_iff, List.find?_eq_none]
  intro x hx hxf
  exact hf (of_decide_eq_true hxf ▸ mem_recorded h x hx)

/-- Of a field that a pattern does not record nothing is found. -/
theorem Pattern.get?_eq_none {p : Pattern} {s : Text} {d : Derivation} {f : Field} (h : Derives p s d)
    (hf : f ∉ p.recorded) : d.get? f = none := by
  rw [Derivation.get?, span?_eq_none h hf]
  rfl

/-! ## Words -/

/-- The reading of the whole word at the start of a text as a field. -/
def Pattern.wholeWord (f : Field) (s : Text) : Derivation :=
  ⟨[(f, ⟨s, (s.takeWhile isWord).length⟩)], (s.takeWhile isWord).length, s.dropWhile isWord⟩

/-- A whole word is recorded where it begins. -/
theorem Pattern.span?_wholeWord (f : Field) (s : Text) :
    (wholeWord f s).span? f = some ⟨s, (s.takeWhile isWord).length⟩ := by
  simp [wholeWord, Derivation.span?]

/-- It is all the word characters that stand there. -/
theorem Pattern.get?_wholeWord (f : Field) (s : Text) : (wholeWord f s).get? f = some (s.takeWhile isWord) := by
  rw [Derivation.get?, span?_wholeWord, Option.map_some, Span.text]
  exact congrArg some (List.prefix_iff_eq_take.1 (List.takeWhile_prefix isWord)).symm

/-- The preferred reading of a word is the whole word. -/
theorem Pattern.eq_of_first?_word {f : Field} {s : Text} {d : Derivation} (h : (Pattern.field f word).first? s = some d) :
    d = wholeWord f s := by
  rw [first?_field, Option.map_eq_some_iff] at h
  obtain ⟨e, he, rfl⟩ := h
  rw [eq_of_first?_nonemptyRun he]
  rfl

/-- Every reading of a word records a beginning of it. -/
theorem Pattern.derives_word {f : Field} {s : Text} {d : Derivation} (h : Derives (.field f word) s d) :
    ∃ w r, s = w ++ r ∧ w ≠ [] ∧ (∀ x ∈ w, isWord x = true) ∧ d = ⟨[(f, ⟨w ++ r, w.length⟩)], w.length, r⟩ := by
  obtain ⟨e, he, rfl⟩ := derives_field_iff.1 h
  obtain ⟨_, _, hx, hu, rfl⟩ := derives_append_iff.1 he
  obtain ⟨x, r, rfl, hxw, rfl⟩ := derives_char_iff.1 hx
  obtain ⟨u, r', hr, huw, rfl⟩ := derives_run_iff.1 hu
  change r = u ++ r' at hr
  subst hr
  refine ⟨x :: u, r', rfl, List.cons_ne_nil x u, ?_, ?_⟩
  · intro y hy
    rcases List.mem_cons.1 hy with rfl | hy
    · exact hxw
    · exact huw y hy
  · simp [Derivation.record, Derivation.andThen, Derivation.plain, Nat.add_comm 1]

/-- What is recorded of a beginning of a text is this beginning. -/
theorem Pattern.get?_beginning (f : Field) (w r : Text) (n : Nat) :
    (Derivation.mk [(f, ⟨w ++ r, w.length⟩)] n r).get? f = some w := by
  simp [Derivation.get?, Derivation.span?, Span.text]

/-- Characters of a class are part of the run of the class that they begin. -/
theorem Text.prefix_takeWhile {k : Char → Bool} {w : Text} (hw : ∀ x ∈ w, k x = true) (r : Text) :
    w <+: (w ++ r).takeWhile k := by
  rw [List.takeWhile_append_of_pos hw]
  exact List.prefix_append _ _

/-- A reading of a word before a character that is in no word is the whole word. -/
theorem Pattern.eq_wholeWord {f : Field} {s : Text} {d : Derivation} (h : Derives (.field f word) s d)
    (hr : ∀ x ∈ d.rest.head?, OutsideWords x) : d = wholeWord f s := by
  obtain ⟨w, r, rfl, -, hw, rfl⟩ := derives_word h
  have hstop : r.takeWhile isWord = [] ∧ r.dropWhile isWord = r := by
    cases r with
    | nil => exact ⟨rfl, rfl⟩
    | cons x r =>
      have hx : ¬ isWord x = true := by rw [show isWord x = false from hr x rfl]; decide
      exact ⟨List.takeWhile_cons_of_neg hx, List.dropWhile_cons_of_neg hx⟩
  simp only [wholeWord, List.takeWhile_append_of_pos hw, List.dropWhile_append_of_pos hw, hstop.1, hstop.2,
    List.append_nil]

/-! ## Class declarations -/

namespace Braced

/-- The words of a class declaration before its name. -/
def classHead : Pattern := keyword "export" ++ .optional (keyword "default") ++ keyword "class"

/-- The clause of a class declaration with its base. -/
def extendsClause : Pattern := blanks ++ keyword "extends" ++ .field .base word

/-- The words before the name of a class are settled. -/
theorem settledBefore_classHead {b : Pattern} (hb : BeginsWith b Solid) : SettledBefore classHead b := by
  have hclass : BeginsWith (keyword "class" ++ b) (· = 'c') := (beginsWith_keyword rfl).append
  have hdefault : BeginsWith (keyword "default") (· = 'd') := beginsWith_keyword rfl
  refine settledBefore_append (settledBefore_append ?_ ?_) (settledBefore_keyword _ hb)
  · exact settledBefore_keyword _ ((hdefault.of_eq (q := Solid) rfl).optional_append (hclass.of_eq rfl))
  · refine settledBefore_optional (settledBefore_keyword _ (hclass.of_eq rfl)) ?_
    intro s d e hd
    exact hdefault.disjoint hclass (by rintro _ rfl; decide) hd

/-- The words before the name of a base are settled. -/
theorem settledBefore_extends : SettledBefore (blanks ++ keyword "extends") (.field .base word) :=
  settledBefore_append (settledBefore_blanks ((beginsWith_keyword (x := 'e') rfl).append.of_eq rfl))
    (settledBefore_keyword _ ((beginsWith_word.mono fun _ hx => solid_of_isWord hx).field))

/-- The clause of a base begins outside of words. -/
theorem beginsWith_extendsClause : BeginsWith extendsClause OutsideWords := beginsWith_blanks.append.append

/-- A class is read by the words before its name, the name, and the clause of its base or none. -/
theorem derives_classDeclaration {s : Text} {d : Derivation} (h : Derives classDeclaration s d) :
    ∃ x n y, Derives classHead s x ∧ Derives (.field .name word) x.rest n ∧
      Derives (.optional extendsClause) n.rest y ∧ d = x.andThen (n.andThen y) := by
  obtain ⟨x, _, hx, hny, rfl⟩ := derives_append_iff.1 (derives_append_assoc.1 h)
  obtain ⟨n, y, hn, hy, rfl⟩ := derives_append_iff.1 hny
  exact ⟨x, n, y, hx, hn, hy, rfl⟩

/-- The preferred reading of the clause with the base takes a whole word. -/
theorem first?_extendsClause {s : Text} {d : Derivation} (h : extendsClause.first? s = some d) :
    ∃ x, Derives (blanks ++ keyword "extends") s x ∧ Derives (.field .base word) x.rest (wholeWord .base x.rest) ∧
      d = x.andThen (wholeWord .base x.rest) := by
  obtain ⟨x, y, hx, hy, rfl⟩ := derives_of_first?_append h
  obtain rfl := eq_of_first?_word hy
  exact ⟨x, hx, derives_of_first? hy, rfl⟩

/-- The preferred reading of a class declaration takes a whole word as the name, and then the clause with the base as it
prefers it, if there is one. -/
theorem first?_classDeclaration {s : Text} {d : Derivation} (h : classDeclaration.first? s = some d) :
    ∃ x, Derives classHead s x ∧ Derives (.field .name word) x.rest (wholeWord .name x.rest) ∧
      d = x.andThen ((wholeWord .name x.rest).andThen
        ((extendsClause.first? (x.rest.dropWhile isWord)).getD (.plain 0 (x.rest.dropWhile isWord)))) := by
  have hassoc : (classHead ++ (.field .name word ++ .optional extendsClause)).first? s = some d :=
    (first?_append_assoc _ _ _ s).symm.trans h
  obtain ⟨x, _, hx, hny, rfl⟩ := derives_of_first?_append hassoc
  obtain ⟨n, y, hn, hy, rfl⟩ := first?_of_first?_append (fun t => ⟨_, .absent⟩) hny
  obtain rfl := eq_of_first?_word hn
  rw [first?_optional, Option.some.injEq] at hy
  exact ⟨x, hx, derives_of_first? hn, by rw [← hy]; rfl⟩

/-- The words before the name record nothing. -/
theorem span?_classHead {s : Text} {x : Derivation} (hx : Derives classHead s x) (f : Field) : x.span? f = none :=
  span?_eq_none hx List.not_mem_nil

/-- The words before the name of a base are not recorded. -/
theorem span?_extends {s : Text} {x : Derivation} (hx : Derives (blanks ++ keyword "extends") s x) (f : Field) :
    x.span? f = none :=
  span?_eq_none hx List.not_mem_nil

end Braced

/-! ## The reading that takes the most -/

/-- A reading takes all that another one takes: the name and the base of the other are beginnings of its own. -/
structure Derivation.Covers (d e : Derivation) : Prop where
  length : e.length ≤ d.length
  name : e.get .name <+: d.get .name
  base : ∀ b, e.get? .base = some b → ∃ b', d.get? .base = some b' ∧ b <+: b'

/-- A field, if it was recorded, was recorded up to the end of the word in which it begins. -/
def Derivation.WholeWord (d : Derivation) (f : Field) : Prop :=
  ∀ sp, d.span? f = some sp → sp.text = sp.start.takeWhile isWord

namespace Braced

/-- The clause as it is preferred covers every other reading of the clause. -/
theorem covers_extendsClause {s : Text} {d e : Derivation} (hd : extendsClause.first? s = some d)
    (he : Derives extendsClause s e) :
    e.length ≤ d.length ∧ ∃ b b', e.get? .base = some b ∧ d.get? .base = some b' ∧ b <+: b' := by
  obtain ⟨x, hx, hbase, rfl⟩ := first?_extendsClause hd
  obtain ⟨x', y, hx', hy, rfl⟩ := derives_append_iff.1 he
  obtain rfl := settledBefore_extends hx hbase hx' hy
  obtain ⟨w, r, hrest, -, hw, rfl⟩ := derives_word hy
  have hpre : w <+: x.rest.takeWhile isWord := hrest ▸ Text.prefix_takeWhile hw r
  refine ⟨Nat.add_le_add_left hpre.length_le _, w, x.rest.takeWhile isWord, ?_, ?_, hpre⟩
  · rw [Derivation.get?_andThen, get?_beginning, Derivation.get?, span?_extends hx]
    rfl
  · rw [Derivation.get?_andThen, get?_wholeWord, Derivation.get?, span?_extends hx]
    rfl

/-- A reading of a class declaration covers another one with the same words before the name if it does so part by part. -/
theorem covers_of_parts {s w w' : Text} {x n n' y y' : Derivation} (hx : Derives classHead s x)
    (hn : n.get? .name = some w ∧ n.get? .base = none) (hn' : n'.get? .name = some w' ∧ n'.get? .base = none)
    (hw : w' <+: w) (hlen : n'.length + y'.length ≤ n.length + y.length)
    (hbase : ∀ b, y'.get? .base = some b → ∃ b', y.get? .base = some b' ∧ b <+: b') :
    (x.andThen (n.andThen y)).Covers (x.andThen (n'.andThen y')) := by
  have hnone : ∀ f, x.get? f = none := by
    intro f
    rw [Derivation.get?, span?_classHead hx]
    rfl
  refine ⟨Nat.add_le_add_left hlen _, ?_, ?_⟩
  · simp only [Derivation.get, Derivation.get?_andThen, hnone, hn.1, hn'.1, Option.none_or, Option.some_or, Option.getD_some]
    exact hw
  · simp only [Derivation.get?_andThen, hnone, hn.2, hn'.2, Option.none_or]
    exact hbase

/-- The preferred reading of a class declaration covers every reading. -/
theorem covers_of_first?_classDeclaration {s : Text} {d e : Derivation} (hd : classDeclaration.first? s = some d)
    (he : Derives classDeclaration s e) : d.Covers e := by
  obtain ⟨x, hx, hname, rfl⟩ := first?_classDeclaration hd
  obtain ⟨x', n, y, hx', hn, hy, rfl⟩ := derives_classDeclaration he
  obtain rfl := settledBefore_classHead (beginsWith_word.mono fun _ h => solid_of_isWord h).field hx hname hx' hn
  have hwhole : (wholeWord .name x.rest).get? .name = some (x.rest.takeWhile isWord) ∧
      (wholeWord .name x.rest).get? .base = none := ⟨get?_wholeWord _ _, rfl⟩
  obtain ⟨w, r, hrest, -, hw, hnw⟩ := derives_word hn
  have hpre : w <+: x.rest.takeWhile isWord := hrest ▸ Text.prefix_takeWhile hw r
  have hcut : n.get? .name = some w ∧ n.get? .base = none := by
    subst hnw
    exact ⟨get?_beginning _ _ _ _, rfl⟩
  rcases derives_optional_iff.1 hy with hy | rfl
  · -- a clause begins with a blank, so that the name before it is a whole word and the preferred clause is read too
    have hout : ∀ c ∈ n.rest.head?, OutsideWords c := by
      intro c hc
      obtain ⟨c', t, ht, hc'⟩ := beginsWith_extendsClause hy
      rw [ht, List.head?_cons, Option.mem_some_iff] at hc
      exact hc ▸ hc'
    obtain rfl := eq_wholeWord hn hout
    change Derives extendsClause (x.rest.dropWhile isWord) y at hy
    cases hfirst : extendsClause.first? (x.rest.dropWhile isWord) with
    | none => exact absurd hy (first?_eq_none_iff.1 hfirst y)
    | some z =>
      obtain ⟨hlen, b, b', hb, hb', hbb⟩ := covers_extendsClause hfirst hy
      refine covers_of_parts hx hwhole hwhole (List.prefix_refl _) (Nat.add_le_add_left hlen _) ?_
      intro c hc
      obtain rfl : b = c := Option.some.inj (hb.symm.trans hc)
      exact ⟨b', hb', hbb⟩
  · have hnone : (Derivation.plain 0 n.rest).get? .base = none := rfl
    refine covers_of_parts hx hwhole hcut hpre ?_ (fun b hb => absurd (hnone.symm.trans hb) (by simp))
    rw [hnw]
    exact Nat.add_le_add hpre.length_le (Nat.zero_le _)

/-- The preferred reading of a class declaration takes whole words as the name and the base. -/
theorem wholeWord_of_first?_classDeclaration {s : Text} {d : Derivation} (hd : classDeclaration.first? s = some d) :
    d.get? .name ≠ none ∧ d.WholeWord .name ∧ d.WholeWord .base := by
  obtain ⟨x, hx, hname, rfl⟩ := first?_classDeclaration hd
  have cut : ∀ t : Text, Span.text ⟨t, (t.takeWhile isWord).length⟩ = t.takeWhile isWord := by
    intro t
    exact (List.prefix_iff_eq_take.1 (List.takeWhile_prefix isWord)).symm
  refine ⟨?_, ?_, ?_⟩
  · rw [Derivation.get?_andThen, Derivation.get?_andThen, get?_wholeWord]
    cases x.get? .name <;> simp
  · intro sp hsp
    rw [Derivation.span?_andThen, span?_classHead hx, Derivation.span?_andThen, span?_wholeWord] at hsp
    obtain rfl := Option.some.inj hsp
    exact cut _
  · intro sp hsp
    rw [Derivation.span?_andThen, span?_classHead hx, Derivation.span?_andThen] at hsp
    cases hfirst : extendsClause.first? (x.rest.dropWhile isWord) with
    | none =>
      rw [hfirst] at hsp
      exact absurd hsp (by simp [wholeWord, Derivation.span?, Derivation.plain])
    | some z =>
      obtain ⟨x', hx', -, rfl⟩ := first?_extendsClause hfirst
      rw [hfirst, Option.getD_some, Derivation.span?_andThen, span?_extends hx', span?_wholeWord] at hsp
      obtain rfl := Option.some.inj hsp
      exact cut _

/-- Two readings of a class declaration that cover each other agree. -/
theorem agrees_of_covers {s : Text} {d e : Derivation} (hd : Derives classDeclaration s d) (he : Derives classDeclaration s e)
    (hde : d.Covers e) (hed : e.Covers d) : d.Agrees e := by
  have named : ∀ ⦃d⦄, Derives classDeclaration s d → d.get? .name = some (d.get .name) := by
    intro d hd
    obtain ⟨x, n, y, hx, hn, -, rfl⟩ := derives_classDeclaration hd
    obtain ⟨w, r, -, -, -, rfl⟩ := derives_word hn
    rw [Derivation.get, Derivation.get?_andThen, Derivation.get?_andThen, get?_beginning, Derivation.get?, span?_classHead hx]
    rfl
  have hlen : d.length = e.length := Nat.le_antisymm hed.length hde.length
  have hparams : ∀ ⦃d⦄, Derives classDeclaration s d → d.get? .params = none ∧ d.get? .modifier = none := by
    intro d hd
    rw [Derivation.get?, Derivation.get?, span?_eq_none hd (by decide), span?_eq_none hd (by decide)]
    exact ⟨rfl, rfl⟩
  refine ⟨hlen, ?_, ?_, ?_, ?_, ?_⟩
  · obtain ⟨u, hu, hul⟩ := hd.eq_append
    obtain ⟨v, hv, hvl⟩ := he.eq_append
    exact (List.append_inj (hu.symm.trans hv) (by rw [hul, hvl, hlen])).2
  · rw [named hd, named he, hde.name.eq_of_length_le hed.name.length_le]
  · rw [(hparams hd).1, (hparams he).1]
  · cases hb : e.get? .base with
    | none =>
      cases hb' : d.get? .base with
      | none => rfl
      | some b =>
        obtain ⟨_, h, -⟩ := hed.base b hb'
        exact absurd (hb.symm.trans h) (by simp)
    | some b =>
      obtain ⟨b', hb', hpre⟩ := hde.base b hb
      obtain ⟨b'', hb'', hpre'⟩ := hed.base b' hb'
      obtain rfl : b = b'' := Option.some.inj (hb.symm.trans hb'')
      rw [hb', hpre.eq_of_length_le hpre'.length_le]
  · rw [(hparams hd).2, (hparams he).2]

end Braced

end SourceInventory
