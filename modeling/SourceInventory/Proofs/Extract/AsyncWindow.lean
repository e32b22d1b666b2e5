import SourceInventory.Proofs.Extract.Separation
import SourceInventory.Proofs.Pattern.Continuation

/-!
# The window of the asynchronous word

A function of a braced source counts as asynchronous if the word for it stands in a window of characters from the start of its
declaration. The window may be longer than the declaration, and then it shows what comes after it. A declaration stays as it is
when the text after it is replaced, and its symbol stays too, up to this flag: the flag says whether the word stands in the part
of the declaration that the window shows or in the part of the text after it (`symbols_continued`). So it depends on what follows
exactly if the window leaves room for the word after a declaration that does not show it.
-/

namespace SourceInventory

open Pattern

/-! ## A word in two texts put together -/

/-- A word without the last character of a text occurs in the text or in what follows it, but not across. -/
theorem Text.occursIn_append_of_getLast? {w m : Text} (hm : ∀ c ∈ m.getLast?, c ∉ w) (t : Text) :
    occursIn w (m ++ t) = (occursIn w m || occursIn w t) := by
  rw [Bool.eq_iff_iff, Bool.or_eq_true, occursIn_iff, occursIn_iff, occursIn_iff]
  constructor
  · rintro ⟨x, y, h⟩
    rcases List.append_eq_append_iff.1 h with ⟨z, hz, rfl⟩ | ⟨z, rfl, -⟩
    · rcases List.append_eq_append_iff.1 hz with ⟨k, rfl, rfl⟩ | ⟨k, rfl, rfl⟩
      · rcases List.eq_nil_or_concat' k with rfl | ⟨k, c, rfl⟩
        · exact Or.inr ⟨[], y, rfl⟩
        · -- the word would begin in the text and end behind it
          exact absurd (by simp) (hm c (by simp))
      · exact Or.inr ⟨k, y, rfl⟩
    · exact Or.inl ⟨x, z, rfl⟩
  · rintro (⟨x, y, rfl⟩ | ⟨x, y, rfl⟩)
    · exact ⟨x, y ++ t, by rw [List.append_assoc]⟩
    · exact ⟨m ++ x, y, by simp only [List.append_assoc]⟩

/-- A window over a text and what follows it shows the word in its part of the one or in its part of the other. -/
theorem Braced.asyncWithin_append {m : Text} (hm : ∀ c ∈ m.getLast?, c ∉ asyncWord) (window : Nat) (t : Text) :
    asyncWithin window (m ++ t) = (asyncWithin window m || asyncWithin (window - m.length) t) := by
  rw [asyncWithin, asyncWithin, asyncWithin, List.take_append]
  by_cases hlong : m.length ≤ window
  · rw [List.take_of_length_le hlong]
    exact Text.occursIn_append_of_getLast? hm _
  · have hnone : window - m.length = 0 := by omega
    have hnowhere : Text.occursIn asyncWord [] = false := by decide
    rw [hnone, List.take_zero, List.append_nil, hnowhere, Bool.or_false]

theorem Braced.asyncWithin_nil (room : Nat) : asyncWithin room [] = false := by
  rw [asyncWithin, List.take_nil]
  decide

/-- A window with less room than the word has characters never shows it. -/
theorem Braced.asyncWithin_eq_false {room : Nat} (h : room < asyncWord.length) (t : Text) : asyncWithin room t = false := by
  rw [asyncWithin, Bool.eq_false_iff]
  intro hoccurs
  obtain ⟨u, v, hshown⟩ := Text.occursIn_iff.1 hoccurs
  have hlen := congrArg List.length hshown
  simp only [List.length_append, List.length_take] at hlen
  omega

/-- A window with enough room shows the word where it follows at once. -/
theorem Braced.asyncWithin_asyncWord {room : Nat} (h : asyncWord.length ≤ room) : asyncWithin room asyncWord = true := by
  rw [asyncWithin, List.take_of_length_le h]
  decide

/-! ## Passes over functions -/

namespace ExportPass

/-- The window of a pass over functions of a braced source. -/
def window? : ExportPass → Option Nat
  | .namedFunction => some Braced.namedWindow
  | .arrowFunction => some Braced.arrowWindow
  | .defaultFunction => some Braced.defaultWindow
  | .classDeclaration | .functionDefinition | .classDefinition => none

variable {pass : ExportPass} {window : Nat}

/-- What a function has up to the end of its list of parameters. -/
def upToList : ExportPass → Pattern
  | .arrowFunction =>
    keyword "export" ++ keyword "const" ++ .field .name word ++ gap ++ lit "=" ++ gap
      ++ .optional (.field .modifier (lit "async" ++ gap)) ++ parenthesised .params
  | pass => pass.pattern

/-- What a function has after its list of parameters. -/
def afterList : ExportPass → Pattern
  | .arrowFunction => .text [] ++ gap ++ lit "=>"
  | _ => .text []

/-- A pattern that ends with a list, and has no closing parenthesis before it, goes past the first one there is. -/
theorem readsPast_parenthesised {a : Pattern} (ha : a.OnlyReads (· ≠ ')')) (f : Field) :
    ReadsPast (a ++ parenthesised f) ')' (.text []) := by
  intro s d hd
  obtain ⟨x, y, hx, hy, rfl⟩ := derives_append_iff.1 hd
  obtain ⟨u, rfl, -, hu⟩ := ha.eq_append hx
  obtain ⟨w, r, hr, hw, hlen⟩ := derives_parenthesised hy
  have hrest : y.rest = r := by
    obtain ⟨v, hv, hvlen⟩ := hy.eq_append
    have hcut : '(' :: (w ++ [')']) ++ r = v ++ y.rest := by rw [← hv, hr]; simp
    exact (List.append_inj hcut (by simp [hvlen, hlen])).2.symm
  refine ⟨u ++ '(' :: w, r, .plain 0 r, by rw [hr]; simp, ?_, derives_text_iff.2 ⟨r, rfl, rfl⟩, hrest⟩
  intro hmem
  rcases List.mem_append.1 hmem with hmem | hmem
  · exact hu ')' hmem rfl
  · rcases List.mem_cons.1 hmem with h | hmem
    · exact absurd h (by decide)
    · exact hw hmem

/-- The list of a function ends with the first closing parenthesis. -/
theorem readsPast_upToList (hpass : pass.window? = some window) : ReadsPast pass.upToList ')' (.text []) := by
  have hblank : ∀ c, isBlank c = true → c ≠ ')' := by
    rintro _ hc rfl
    exact absurd hc (by decide)
  have hword : ∀ c, isWord c = true → c ≠ ')' := by
    rintro _ hc rfl
    exact absurd hc (by decide)
  have hlit : ∀ {w : String}, ')' ∉ w.toList → (lit w).OnlyReads (· ≠ ')') := by
    rintro w hw _ hc rfl
    exact hw hc
  have hkeyword : ∀ {w : String}, ')' ∉ w.toList → (keyword w).OnlyReads (· ≠ ')') :=
    fun hw => ⟨hlit hw, hblank, hblank⟩
  have hexport : (keyword "export").OnlyReads (· ≠ ')') := hkeyword (by decide)
  have hasync : (keyword "async").OnlyReads (· ≠ ')') := hkeyword (by decide)
  cases pass with
  | namedFunction =>
    refine readsPast_parenthesised ?_ .params
    exact ⟨⟨⟨⟨hexport, hasync⟩, hkeyword (by decide)⟩, hword, hword⟩, hblank⟩
  | arrowFunction =>
    have hequals : (lit "=").OnlyReads (· ≠ ')') := hlit (by decide)
    have hname : (keyword "export" ++ keyword "const" ++ .field .name word).OnlyReads (· ≠ ')') :=
      ⟨⟨hexport, hkeyword (by decide)⟩, hword, hword⟩
    have hmodifier : (lit "async" ++ gap).OnlyReads (· ≠ ')') := ⟨hasync.1, hblank⟩
    refine readsPast_parenthesised ?_ .params
    exact ⟨⟨⟨⟨hname, hblank⟩, hequals⟩, hblank⟩, hmodifier⟩
  | defaultFunction =>
    have hfunction : (lit "function").OnlyReads (· ≠ ')') := hlit (by decide)
    refine readsPast_parenthesised ?_ .params
    exact ⟨⟨⟨⟨⟨⟨hexport, hkeyword (by decide)⟩, hasync⟩, hfunction⟩, hblank⟩, hword⟩, hblank⟩
  | classDeclaration | functionDefinition | classDefinition => exact absurd hpass (by simp [window?])

theorem readsPast_pattern (hpass : pass.window? = some window) : ReadsPast pass.pattern ')' pass.afterList := by
  cases pass with
  | arrowFunction => exact ((readsPast_upToList hpass).append gap).append (lit "=>")
  | namedFunction | defaultFunction => exact readsPast_upToList hpass
  | classDeclaration | functionDefinition | classDefinition => exact absurd hpass (by simp [window?])

theorem unambiguous_afterList (pass : ExportPass) : Unambiguous pass.afterList := by
  have hnothing : Unambiguous (.text []) := unambiguous_text []
  cases pass with
  | arrowFunction =>
    refine unambiguous_append (settledBefore_append (hnothing.settledBefore _) ?_) (unambiguous_text _)
    exact settledBefore_gap ((beginsWith_lit (x := '=') (t := ['>']) rfl).of_eq rfl)
  | namedFunction | classDeclaration | defaultFunction | functionDefinition | classDefinition => exact hnothing

/-- After its list a function has blanks and an arrow at most. -/
theorem onlyReads_afterList (pass : ExportPass) :
    pass.afterList.OnlyReads fun c => isBlank c = true ∨ c = '=' ∨ c = '>' := by
  have hnothing : (Pattern.text []).OnlyReads fun c => isBlank c = true ∨ c = '=' ∨ c = '>' :=
    fun c hc => absurd hc List.not_mem_nil
  cases pass with
  | arrowFunction =>
    have harrow : ∀ c ∈ "=>".toList, isBlank c = true ∨ c = '=' ∨ c = '>' := fun c hc => Or.inr (by simpa using hc)
    exact ⟨⟨hnothing, fun c hc => Or.inl hc⟩, harrow⟩
  | namedFunction | classDeclaration | defaultFunction | functionDefinition | classDefinition => exact hnothing

/-- No declaration of a function ends with a letter of the asynchronous word. -/
theorem endsWith_pattern_of_window? (hpass : pass.window? = some window) :
    EndsWith pass.pattern (· ∉ Braced.asyncWord) := by
  have hlist : EndsWith (parenthesised .params) (· ∉ Braced.asyncWord) :=
    EndsWith.append (endsWith_lit (c := ')') (t := []) rfl (by decide))
  cases pass with
  | namedFunction | defaultFunction => exact hlist.append
  | arrowFunction => exact EndsWith.append (endsWith_lit (c := '>') (t := ['=']) rfl (by decide))
  | classDeclaration | functionDefinition | classDefinition => exact absurd hpass (by simp [window?])

/-- What stands before the end of a function is read the same whatever follows the function. -/
theorem endsWithin_continued (hpass : pass.window? = some window) {m : Text} {d : Derivation} (hm : Derives pass.pattern m d)
    (hd : d.rest = []) (u t : Text) : EndsWithin pass.pattern (u ++ m) t := by
  refine endsWithin_of_readsPast (readsPast_pattern hpass) pass.unambiguous_afterList ?_ pass.beginsWith_pattern ?_ hm hd u t
  · refine pass.onlyReads_afterList.mono ?_
    rintro c (hc | rfl | rfl)
    · rintro rfl
      exact absurd hc (by decide)
    all_goals decide
  · refine pass.onlyReads_afterList.mono ?_
    rintro c (hc | rfl | rfl)
    · rw [isWord_eq_false_of_isBlank hc]
      decide
    all_goals decide

/-! ## Symbols -/

theorem getElem?_symbols (hpass : pass.window? = some window) (source : Text) (i : Nat) :
    (pass.symbols source)[i]? = (pass.occurrences source)[i]?.bind pass.symbol? := by
  have hmap : ∀ f : Occurrence → Symbol, ((pass.occurrences source).map f)[i]? =
      (pass.occurrences source)[i]?.bind fun o => some (f o) := by
    intro f
    rw [List.getElem?_map]
    cases (pass.occurrences source)[i]? <;> rfl
  cases pass with
  | namedFunction | arrowFunction | defaultFunction => exact hmap _
  | classDeclaration | functionDefinition | classDefinition => exact absurd hpass (by simp [window?])

/-- In front of any text a function gives the same symbol, up to the flag. -/
theorem symbol?_continued (hpass : pass.window? = some window) {o : Occurrence}
    (ho : Derives pass.pattern o.start o.toDerivation) :
    ∃ s : Symbol, ∀ t, pass.symbol? (o.extend t) = some { s with isAsync := Braced.asyncWithin window (o.start ++ t) } := by
  have hget : ∀ t f, (o.extend t).get f = o.get f := fun t f => congrArg (·.getD []) (get?_extend ho t f)
  cases pass with
  | namedFunction | arrowFunction =>
    obtain rfl := Option.some.inj hpass
    refine ⟨Braced.functionSymbol 0 o, fun t => ?_⟩
    simp only [symbol?, Braced.functionSymbol, hget]
    rfl
  | defaultFunction =>
    obtain rfl := Option.some.inj hpass
    refine ⟨Braced.defaultSymbol o, fun t => ?_⟩
    simp only [symbol?, Braced.defaultSymbol, hget]
    rfl
  | classDeclaration | functionDefinition | classDefinition => exact absurd hpass (by simp [window?])

/-- The occurrence with the number `i` in a source is `m`, with `u` before it and `r` after it. -/
def OccursBetween (pass : ExportPass) (i : Nat) (u m r : Text) : Prop :=
  ∃ o, (pass.occurrences (u ++ (m ++ r)))[i]? = some o ∧ o.start = m ++ r ∧ o.rest = r

instance OccursBetween.decidable (pass : ExportPass) (i : Nat) (u m r : Text) : Decidable (pass.OccursBetween i u m r) :=
  decidable_of_iff (((pass.occurrences (u ++ (m ++ r)))[i]?.map fun o => (o.start, o.rest)) = some (m ++ r, r)) <| by
    simp only [OccursBetween, Option.map_eq_some_iff, Prod.mk.injEq]

/-- An occurrence of a function is one of the source that ends with it, and it stays one whatever follows. -/
theorem OccursBetween.exists_occurrence (hpass : pass.window? = some window) {i : Nat} {u m r : Text}
    (h : pass.OccursBetween i u m r) :
    ∃ o : Occurrence, o.start = m ∧ o.rest = [] ∧ Derives pass.pattern m o.toDerivation ∧
      ∀ t, (pass.occurrences (u ++ (m ++ t)))[i]? = some (o.extend t) := by
  obtain ⟨o', ho', hstart, hrest⟩ := h
  have hderives : Derives pass.pattern (m ++ r) o'.toDerivation :=
    hstart ▸ derives_of_first? (first?_of_mem_scanFrom (List.mem_of_getElem? ho'))
  obtain ⟨d, hd, hnil, -⟩ := exists_extend_eq hderives hrest
  have hwithin : ∀ t, EndsWithin pass.pattern (u ++ m) t := endsWithin_continued hpass hd hnil u
  have hpos : 0 < m.length := by
    have hlen := length_rest_add hd
    have hleast := Nat.lt_of_lt_of_le pass.least_pattern_pos (least_le hd)
    omega
  rw [← List.append_assoc] at ho'
  obtain ⟨o, ho, rfl⟩ := exists_occurrence_of_append (hwithin r) ho' (by rw [hstart, List.length_append]; omega)
  have hm : o.start = m := List.append_cancel_right hstart
  refine ⟨o, hm, List.append_left_eq_self.1 hrest, ?_, fun t => ?_⟩
  · exact hm ▸ derives_of_first? (first?_of_mem_scanFrom (List.mem_of_getElem? ho))
  · rw [← List.append_assoc]
    exact occurrence_append (hwithin t) ho

end ExportPass

open Braced in
/-- When the text after a function is replaced, the function stays the occurrence that it is and its symbol stays the same up to
the flag. The flag is set if the asynchronous word stands in what the window shows of the function or of the text after it. So it
is the same for every text after it if and only if the window shows the word in the function or leaves too little room for it. -/
theorem symbols_continued (pass : ExportPass) {window : Nat} (hpass : pass.window? = some window) {i : Nat} {u m r : Text}
    (h : pass.OccursBetween i u m r) :
    ∃ s : Symbol, (pass.symbols (u ++ (m ++ r)))[i]? = some s ∧
      (∀ r', pass.OccursBetween i u m r' ∧ ∃ s', (pass.symbols (u ++ (m ++ r')))[i]? = some s' ∧
        s' = { s with isAsync := s'.isAsync } ∧
        (s'.isAsync = true ↔ asyncWithin window m = true ∨ asyncWithin (window - m.length) r' = true)) ∧
      ((∀ r' s', (pass.symbols (u ++ (m ++ r')))[i]? = some s' → s'.isAsync = s.isAsync) ↔
        asyncWithin window m = true ∨ window < m.length + asyncWord.length) := by
  obtain ⟨o, rfl, hrest, hderives, hoccurs⟩ := h.exists_occurrence hpass
  obtain ⟨s, hs⟩ := ExportPass.symbol?_continued hpass hderives
  have hlast : ∀ c ∈ o.start.getLast?, c ∉ asyncWord := by
    obtain ⟨v, x, hv, -, hx⟩ := ExportPass.endsWith_pattern_of_window? hpass hderives
    rw [hv, hrest]
    simpa using hx
  have hsymbol : ∀ t, (pass.symbols (u ++ (o.start ++ t)))[i]? =
      some { s with isAsync := asyncWithin window o.start || asyncWithin (window - o.start.length) t } := by
    intro t
    rw [ExportPass.getElem?_symbols hpass, hoccurs t, Option.bind_some, hs t, asyncWithin_append hlast]
  refine ⟨_, hsymbol r, fun r' => ⟨⟨o.extend r', hoccurs r', rfl, ?_⟩, _, hsymbol r', rfl, Bool.or_eq_true_iff⟩, ?_⟩
  · change o.rest ++ r' = r'
    rw [hrest, List.nil_append]
  · constructor
    · intro hsame
      by_contra hno
      obtain ⟨hshown, hroom⟩ := not_or.1 hno
      have hroom : asyncWord.length ≤ window - o.start.length := by omega
      -- the word put right behind the function sets the flag, and nothing behind it does not
      have hset := hsame asyncWord _ (hsymbol asyncWord)
      have hunset := hsame [] _ (hsymbol [])
      rw [← hunset] at hset
      simp [hshown, asyncWithin_asyncWord hroom, asyncWithin_nil] at hset
    · rintro hfixed r' s' hs'
      obtain rfl := Option.some.inj ((hsymbol r').symm.trans hs')
      rcases hfixed with hshown | hroom
      · simp only [hshown, Bool.true_or]
      · have hword : 0 < asyncWord.length := by decide
        have hnone : window - o.start.length < asyncWord.length := by omega
        simp only [asyncWithin_eq_false hnone]

/-- A default function without a name, with a function behind it that is asynchronous. -/
theorem symbols_continued_unnamed :
    ExportPass.window? .defaultFunction = some 35 ∧
    ExportPass.OccursBetween .defaultFunction 0 [] "export default function()".toList " \x7b\x7d".toList ∧
    ∃ s', (ExportPass.symbols .defaultFunction
      ("export default function()".toList ++ " \x7b\x7d\nasync function g() \x7b\x7d".toList))[0]? = some s' ∧
        s'.isAsync = true := by
  have hoccurs : ExportPass.OccursBetween .defaultFunction 0 [] "export default function()".toList " \x7b\x7d".toList := by
    decide +kernel
  obtain ⟨s, -, hall, -⟩ := symbols_continued .defaultFunction rfl hoccurs
  obtain ⟨-, s', hs', -, hflag⟩ := hall " \x7b\x7d\nasync function g() \x7b\x7d".toList
  exact ⟨rfl, hoccurs, s', hs', hflag.2 (by decide +kernel)⟩

/-- The flag of a function is not settled by the function: a default function that is not asynchronous counts as such if an
asynchronous one follows it. -/
theorem symbols_continued_false :
    ¬ ∀ (pass : ExportPass) (i : Nat) (u m r r' : Text) (s s' : Symbol), pass.window?.isSome = true →
      pass.OccursBetween i u m r → pass.OccursBetween i u m r' → (pass.symbols (u ++ (m ++ r)))[i]? = some s →
        (pass.symbols (u ++ (m ++ r')))[i]? = some s' → s'.isAsync = s.isAsync := by
  intro h
  have hsame := h .defaultFunction 0 [] "export default function()".toList " \x7b\x7d".toList
    " \x7b\x7d\nasync function g() \x7b\x7d".toList
    { kind := .function, name := "default".toList, signature := "default()".toList, isDefault := true }
    { kind := .function, name := "default".toList, signature := "default()".toList, isDefault := true, isAsync := true }
    rfl (by decide +kernel) (by decide +kernel) (by decide +kernel) (by decide +kernel)
  exact absurd hsame (by decide)

end SourceInventory
