import SourceInventory.Proofs.Extract.ClassBody
import SourceInventory.Proofs.Extract.Declarations
import SourceInventory.Proofs.Extract.Piece
import SourceInventory.Proofs.Pattern.Consumed

/-!
# Methods: written and read again

A method is written from its modifiers, its name, its parameters, a return type or none, and its body. Its words up to the
opening brace have one reading (`unambiguous_pattern`): a modifier that is followed by a word is a modifier, and one that is
followed by the parameters is the name. In a body without an opening parenthesis no method begins, so that from a class body
made of methods exactly these methods are read, in order (`ofBody_writeMembers`).
-/

namespace SourceInventory

open Pattern

/-- Words and blanks have no braces. -/
theorem BracesBalanced.of_words {w : Text} (h : ∀ c ∈ w, isWord c = true ∨ isBlank c = true) : BracesBalanced w :=
  .of_not_mem (fun hc => absurd (h _ hc) (by decide)) (fun hc => absurd (h _ hc) (by decide))

/-- A word has no braces. -/
theorem Word.bracesBalanced (w : Word) : BracesBalanced w.text := .of_words fun c hc => Or.inl (w.isWord_text c hc)

theorem Gap.bracesBalanced (g : Gap) : BracesBalanced g.text := .of_words fun c hc => Or.inr (g.isBlank_text c hc)

namespace Method

/-! ## Modifiers -/

/-- The words of the modifiers. -/
def modifierWords : List Text :=
  ["async".toList, "static".toList, "get".toList, "set".toList, "public".toList, "private".toList, "protected".toList]

/-- One modifier with the blanks after it. -/
def modifier : Pattern :=
  .either (keyword "async") (.either (keyword "static") (.either (keyword "get") (.either (keyword "set")
    (.either (keyword "public") (.either (keyword "private") (keyword "protected"))))))

/-- Modifiers are words. -/
theorem isWord_of_mem_modifierWords {w : Text} (hw : w ∈ modifierWords) : w ≠ [] ∧ ∀ c ∈ w, isWord c = true := by
  have table : (modifierWords.all fun w => !w.isEmpty && w.all isWord) = true := by decide
  simpa using List.all_eq_true.1 table w hw

/-- A keyword is read as its word and the blanks behind it. -/
theorem derives_keyword {w : String} {s : Text} {d : Derivation} (h : Derives (keyword w) s d) :
    ∃ b r, s = w.toList ++ (b ++ r) ∧ b ≠ [] ∧ (∀ c ∈ b, isBlank c = true) ∧ d = .plain (w.toList.length + b.length) r := by
  obtain ⟨_, e, hw, he, rfl⟩ := derives_append_iff.1 h
  obtain ⟨t, rfl, rfl⟩ := derives_text_iff.1 hw
  obtain ⟨_, _, hx, hu, rfl⟩ := derives_append_iff.1 he
  obtain ⟨x, t', ht, hblank, rfl⟩ := derives_char_iff.1 hx
  obtain ⟨u, r, ht', hrun, rfl⟩ := derives_run_iff.1 hu
  change t = x :: t' at ht
  change t' = u ++ r at ht'
  subst ht' ht
  refine ⟨x :: u, r, rfl, List.cons_ne_nil x u, ?_, ?_⟩
  · intro c hc
    rcases List.mem_cons.1 hc with rfl | hc
    · exact hblank
    · exact hrun c hc
  · simp [Derivation.andThen, Derivation.plain, Nat.add_comm 1]

/-- A reading of a modifier takes its word and blanks. -/
theorem derives_modifier {s : Text} {d : Derivation} (h : Derives modifier s d) :
    ∃ w ∈ modifierWords, ∃ b r, s = w ++ (b ++ r) ∧ b ≠ [] ∧ (∀ c ∈ b, isBlank c = true) ∧
      d = .plain (w.length + b.length) r := by
  simp only [modifier, derives_either_iff] at h
  rcases h with h | h | h | h | h | h | h
  all_goals exact ⟨_, by decide, derives_keyword h⟩

/-- A modifier is read with any blanks behind it. -/
theorem reads_modifier {w : Text} (hw : w ∈ modifierWords) (b : Blanks) : Reads modifier (w ++ b.text) [] := by
  simp only [modifierWords, List.mem_cons, List.not_mem_nil, or_false] at hw
  rcases hw with rfl | rfl | rfl | rfl | rfl | rfl | rfl
  · exact (reads_keyword "async" b).left
  · exact (reads_keyword "static" b).left.right
  · exact (reads_keyword "get" b).left.right.right
  · exact (reads_keyword "set" b).left.right.right.right
  · exact (reads_keyword "public" b).left.right.right.right.right
  · exact (reads_keyword "private" b).left.right.right.right.right.right
  · exact (reads_keyword "protected" b).right.right.right.right.right.right

/-- A modifier begins with a word character. -/
theorem beginsWith_modifier : BeginsWith modifier (isWord · = true) := by
  intro s d hd
  obtain ⟨w, hw, b, r, rfl, -⟩ := derives_modifier hd
  obtain ⟨hne, hword⟩ := isWord_of_mem_modifierWords hw
  obtain ⟨c, t, rfl⟩ := List.exists_cons_of_ne_nil hne
  exact ⟨c, t ++ (b ++ r), rfl, hword c List.mem_cons_self⟩

/-- Blanks, or what comes instead of them, keep the word before them apart. -/
theorem outsideWords_head {b r : Text} (hb : ∀ c ∈ b, isBlank c = true) (hr : b = [] → ∀ c ∈ r.head?, isWord c = false) :
    ∀ c ∈ (b ++ r).head?, isWord c = false := by
  cases b with
  | nil => exact hr rfl
  | cons x b =>
    intro c hc
    obtain rfl : x = c := Option.some.inj hc
    exact isWord_eq_false_of_isBlank (hb x List.mem_cons_self)

/-- A modifier takes all blanks before a pattern that begins with none. -/
theorem settledBefore_modifier {b : Pattern} (hb : BeginsWith b Solid) : SettledBefore modifier b := by
  intro s d e d' e' hd hd' he he'
  obtain ⟨w, hw, u, r, rfl, hu, hublank, rfl⟩ := derives_modifier hd
  obtain ⟨w', hw', v, t, hs, hv, hvblank, rfl⟩ := derives_modifier he
  obtain ⟨rfl, hrest⟩ := run_split_unique hs (isWord_of_mem_modifierWords hw).2 (isWord_of_mem_modifierWords hw').2
    (outsideWords_head hublank fun h => absurd h hu) (outsideWords_head hvblank fun h => absurd h hv)
  obtain ⟨x, r', hr, hx⟩ := hb hd'
  obtain ⟨y, t', ht, hy⟩ := hb he'
  change r = x :: r' at hr
  change t = y :: t' at ht
  obtain ⟨rfl, rfl⟩ := run_split_unique hrest hublank hvblank
    (fun c hc => by rw [hr] at hc; exact Option.some.inj hc ▸ hx) (fun c hc => by rw [ht] at hc; exact Option.some.inj hc ▸ hy)
  rfl

/-! ## One reading -/

theorem beginsWith_head : BeginsWith head (isWord · = true) := beginsWith_word.field.append.append.append.append.append

/-- The head of a method begins with a word and, after any blanks, a parenthesis. -/
theorem derives_head {s : Text} {d : Derivation} (h : Derives head s d) :
    ∃ n g r, s = n ++ (g ++ '(' :: r) ∧ (∀ c ∈ n, isWord c = true) ∧ ∀ c ∈ g, isBlank c = true := by
  obtain ⟨_, -, h, -, -⟩ := derives_append_iff.1 h
  obtain ⟨_, -, h, -, -⟩ := derives_append_iff.1 h
  obtain ⟨_, -, h, -, -⟩ := derives_append_iff.1 h
  obtain ⟨_, _, h, hlist, -⟩ := derives_append_iff.1 h
  obtain ⟨_, _, hn, hgap, rfl⟩ := derives_append_iff.1 h
  have hword : (Pattern.field .name word).OnlyReads (isWord · = true) := ⟨fun _ hc => hc, fun _ hc => hc⟩
  obtain ⟨n, rfl, -, hn⟩ := hword.eq_append hn
  obtain ⟨g, r, hr, hg, rfl⟩ := derives_run_iff.1 hgap
  obtain ⟨x, r', hx, rfl⟩ := beginsWith_parenthesised _ hlist
  change r = '(' :: r' at hx
  exact ⟨n, g, r', by rw [hr, hx], hn, hg⟩

/-- The head of a method is read in one way at most. -/
theorem unambiguous_head : Unambiguous head := by
  have hcolon : BeginsWith (lit ":" ++ gap ++ word ++ gap) (· = ':') := (beginsWith_lit rfl).append.append.append
  have hbrace : BeginsWith (lit "\x7b") (· = '{') := beginsWith_lit rfl
  have hlist : ∀ b : Pattern, BeginsWith (parenthesised .params ++ b) (· = '(') := fun b => (beginsWith_parenthesised _).append
  refine unambiguous_append (settledBefore_append (settledBefore_append (settledBefore_append (settledBefore_append ?_ ?_)
    ?_) ?_) ?_) (unambiguous_text _)
  · refine settledBefore_field (settledBefore_word ?_)
    exact ((hlist _).of_eq (q := OutsideWords) rfl).run_append fun _ hx => isWord_eq_false_of_isBlank hx
  · exact settledBefore_gap ((hlist _).of_eq rfl)
  · exact (unambiguous_parenthesised _).settledBefore _
  · exact settledBefore_gap ((hcolon.of_eq (q := Solid) rfl).optional_append (hbrace.of_eq rfl))
  · refine settledBefore_optional ?_ ?_
    · refine settledBefore_append (settledBefore_append (settledBefore_append ?_ ?_) ?_) ?_
      · exact (unambiguous_text _).settledBefore _
      · exact settledBefore_gap (beginsWith_word.append.mono fun _ hx => solid_of_isWord hx)
      · refine settledBefore_word ?_
        exact (hbrace.of_eq (q := OutsideWords) rfl).run_append fun _ hx => isWord_eq_false_of_isBlank hx
      · exact settledBefore_gap (hbrace.of_eq rfl)
    · intro s d e hd
      exact hcolon.disjoint hbrace (by rintro _ rfl; decide) hd

/-- A word before the parameters is the name, also if it is the word of a modifier. -/
theorem settledBefore_modifiers : SettledBefore modifiers head := by
  have hbegins : BeginsWith (.many modifier ++ head) (isWord · = true) := beginsWith_modifier.many_append beginsWith_head
  refine settledBefore_many (settledBefore_modifier (hbegins.mono fun _ hx => solid_of_isWord hx)) ?_
  intro s d e hd he
  obtain ⟨_, _, hm, hf, -⟩ := derives_append_iff.1 hd
  obtain ⟨w, hw, b, r, rfl, hb, hblank, rfl⟩ := derives_modifier hm
  obtain ⟨n, g, t, hs, hn, hg⟩ := derives_head he
  obtain ⟨x, r', hx, hxword⟩ := hbegins hf
  change r = x :: r' at hx
  subst hx
  obtain ⟨-, hrest⟩ := run_split_unique hs (isWord_of_mem_modifierWords hw).2 hn
    (outsideWords_head hblank fun h => absurd h hb) (outsideWords_head hg fun _ c hc => Option.some.inj hc ▸ rfl)
  -- after the blanks the modifier is followed by a word, the name by a parenthesis
  obtain ⟨-, hcut⟩ := run_split_unique hrest hblank hg
    (fun c hc => Option.some.inj hc ▸ solid_of_isWord hxword) (fun c hc => Option.some.inj hc ▸ rfl)
  rw [(List.cons.inj hcut).1] at hxword
  exact absurd hxword (by decide)

/-- A method has one reading up to its opening brace. -/
theorem unambiguous_pattern : Unambiguous pattern := unambiguous_append settledBefore_modifiers unambiguous_head

/-! ## Bodies -/

/-- A keyword reads word characters and blanks only. -/
theorem onlyReads_keyword {w : String} (hw : w.toList.all isWord = true) :
    (keyword w).OnlyReads fun c => isWord c = true ∨ isBlank c = true :=
  ⟨fun c hc => Or.inl (List.all_eq_true.1 hw c hc), fun _ hc => Or.inr hc, fun _ hc => Or.inr hc⟩

/-- A method begins with a word character, with modifiers or without. -/
theorem beginsWith_pattern : BeginsWith pattern (isWord · = true) := beginsWith_modifier.many_append beginsWith_head

/-- Up to its parameters a method has words and blanks only. -/
theorem derives_pattern {s : Text} {d : Derivation} (h : Derives pattern s d) :
    ∃ u r, s = u ++ '(' :: r ∧ ∀ c ∈ u, isWord c = true ∨ isBlank c = true := by
  obtain ⟨_, _, hm, hh, -⟩ := derives_append_iff.1 h
  have hreads : modifiers.OnlyReads fun c => isWord c = true ∨ isBlank c = true := by
    refine ⟨onlyReads_keyword ?_, onlyReads_keyword ?_, onlyReads_keyword ?_, onlyReads_keyword ?_, onlyReads_keyword ?_,
      onlyReads_keyword ?_, onlyReads_keyword ?_⟩
    all_goals decide
  obtain ⟨u, rfl, -, hu⟩ := hreads.eq_append hm
  obtain ⟨n, g, r, hr, hn, hg⟩ := derives_head hh
  refine ⟨u ++ n ++ g, r, by rw [hr]; simp, ?_⟩
  intro c hc
  rcases List.mem_append.1 hc with hc | hc
  · exact (List.mem_append.1 hc).elim (hu c) fun hc => Or.inl (hn c hc)
  · exact Or.inr (hg c hc)

/-- In a body without an opening parenthesis no method begins, not even one that ends behind its closing brace. -/
theorem beginsNowhereIn_body {body : Text} (h : '(' ∉ body) (s : Text) : BeginsNowhereIn pattern (body ++ ['}']) s := by
  intro v hv hne d hd
  obtain ⟨u, r, hur, hu⟩ := derives_pattern hd
  have hparen : '(' ∉ v := fun hmem => by
    rcases List.mem_append.1 (hv.subset hmem) with hmem | hmem
    · exact h hmem
    · exact absurd (List.mem_singleton.1 hmem) (by decide)
  have hbrace : '}' ∈ v := by
    obtain ⟨w, c, rfl⟩ := List.eq_nil_or_concat' v |>.resolve_left hne
    obtain ⟨x, hx⟩ := hv
    have hlast := congrArg List.getLast? hx
    simp only [← List.append_assoc, List.getLast?_concat, Option.some.injEq] at hlast
    simp [hlast]
  -- the parenthesis stands behind the closing brace, which is neither a word character nor a blank
  rcases List.append_eq_append_iff.1 hur with ⟨w, rfl, -⟩ | ⟨w, rfl, hw⟩
  · exact absurd (hu '}' (List.mem_append_left w hbrace)) (by decide)
  · cases w with
    | nil =>
      rw [List.append_nil] at hbrace
      exact absurd (hu '}' hbrace) (by decide)
    | cons c w =>
      rw [← (List.cons.inj hw).1] at hparen
      exact hparen (by simp)

/-! ## Declarations -/

/-- A modifier and the blanks after it. -/
structure Modifier where
  /-- Its word. -/
  word : Text
  /-- The blanks after it. -/
  after : Blanks := .space
  /-- It is the word of a modifier. -/
  mem_modifierWords : word ∈ modifierWords := by decide

/-- A modifier as it is written. -/
def Modifier.text (m : Modifier) : Text := m.word ++ m.after.text

/-- The type of what a method returns, a colon before it. -/
structure ReturnType where
  /-- The blanks after the colon. -/
  afterColon : Gap := .none
  /-- The type. -/
  type : Word
  /-- The blanks after the type. -/
  after : Gap := .none

/-- A return type as it is written. -/
def ReturnType.text (t : ReturnType) : Text := ":".toList ++ t.afterColon.text ++ t.type.text ++ t.after.text

/-- The head of a method is read from its name, its parameters and its return type. -/
theorem reads_head (name : Word) (beforeList : Gap) {params : Text} (hparams : ')' ∉ params) (afterList : Gap)
    (type : Option ReturnType) :
    Reads head
      (name.text ++ beforeList.text ++ '(' :: (params ++ [')']) ++ afterList.text ++ type.elim [] ReturnType.text ++ ['{'])
      [(.name, name.text), (.params, params)] := by
  have htype : Reads (.optional (lit ":" ++ gap ++ word ++ gap)) (type.elim [] ReturnType.text) [] := by
    cases type with
    | none => exact reads_absent _
    | some t =>
      exact ((((reads_lit ":").append (reads_gap t.afterColon)).append (reads_word t.type)).append (reads_gap t.after)).present
  have hname := (reads_word name).field .name
  exact ((((hname.append (reads_gap beforeList)).append (reads_parenthesised .params hparams)).append
    (reads_gap afterList)).append htype).append (reads_lit "\x7b")

/-- A method with its body. -/
structure Declaration where
  /-- The modifiers. -/
  modifiers : List Modifier := []
  /-- The name. -/
  name : Word
  /-- The blanks after the name. -/
  beforeList : Gap := .none
  /-- What stands between the parentheses. -/
  params : Text := []
  /-- The blanks after the closing parenthesis. -/
  afterList : Gap := .none
  /-- The return type. -/
  returnType : Option ReturnType := none
  /-- What stands between the braces. -/
  body : Text := []
  /-- The name does not begin a statement. -/
  name_not_mem : name.text ∉ statementWords := by decide
  /-- The parameters end at the closing parenthesis. -/
  params_open : ')' ∉ params := by decide
  /-- The braces of the parameters match. -/
  params_balanced : BracesBalanced params := by decide
  /-- No parenthesis opens in the body. -/
  body_plain : '(' ∉ body := by decide
  /-- The braces of the body match. -/
  body_balanced : BracesBalanced body := by decide

namespace Declaration

/-- What stands before the opening brace of a method. -/
def heading (d : Declaration) : Text :=
  (d.modifiers.map Modifier.text).flatten ++
    (d.name.text ++ d.beforeList.text ++ '(' :: (d.params ++ [')']) ++ d.afterList.text ++ d.returnType.elim [] ReturnType.text)

/-- A method as it is written. -/
def text (d : Declaration) : Text := d.heading ++ '{' :: (d.body ++ ['}'])

/-- The method that is declared. -/
def method (d : Declaration) : Method := ⟨d.name.text, callSignature d.name.text d.params.trim⟩

/-- A declaration is read with its name and its parameters. -/
theorem reads (d : Declaration) :
    Reads pattern (d.heading ++ ['{']) [(.name, d.name.text), (.params, d.params)] := by
  have hmodifiers : Reads Method.modifiers (d.modifiers.map Modifier.text).flatten [] := by
    refine reads_many fun t ht => ?_
    obtain ⟨m, -, rfl⟩ := List.mem_map.1 ht
    exact ⟨by simp [Modifier.text, m.after.text_ne_nil], reads_modifier m.mem_modifierWords m.after⟩
  rw [heading, List.append_assoc]
  exact hmodifiers.append (reads_head d.name d.beforeList d.params_open d.afterList d.returnType)

/-- The braces of a method match up to its body. -/
theorem bracesBalanced_heading (d : Declaration) : BracesBalanced d.heading := by
  have hmodifiers : BracesBalanced (d.modifiers.map Modifier.text).flatten := by
    refine .flatten fun t ht => ?_
    obtain ⟨m, -, rfl⟩ := List.mem_map.1 ht
    exact (BracesBalanced.of_words fun c hc => Or.inl ((isWord_of_mem_modifierWords m.mem_modifierWords).2 c hc)).append
      (.of_words fun c hc => Or.inr (m.after.isBlank_text c hc))
  have hlist : BracesBalanced ('(' :: (d.params ++ [')'])) :=
    (BracesBalanced.of_not_mem (w := ['(']) (by decide) (by decide)).append
      (d.params_balanced.append (.of_not_mem (by decide) (by decide)))
  have htype : BracesBalanced (d.returnType.elim [] ReturnType.text) := by
    cases d.returnType with
    | none => exact .of_not_mem List.not_mem_nil List.not_mem_nil
    | some t =>
      exact (((BracesBalanced.of_not_mem (by decide) (by decide)).append t.afterColon.bracesBalanced).append
        t.type.bracesBalanced).append t.after.bracesBalanced
  have hhead := (((d.name.bracesBalanced.append d.beforeList.bracesBalanced).append hlist).append
    d.afterList.bracesBalanced).append htype
  exact hmodifiers.append hhead

/-- The braces of a method match. -/
theorem bracesBalanced_text (d : Declaration) : BracesBalanced d.text := d.bracesBalanced_heading.append d.body_balanced.enclose

/-- The occurrence of a method as it was written gives the method. -/
theorem ofOccurrence?_eq_some {d : Declaration} {e : Derivation}
    (h : e.captures = [(.name, d.name.text), (.params, d.params)]) : ofOccurrence? e = some d.method := by
  have hname : e.get .name = d.name.text := by
    rw [Derivation.get, Derivation.get?_eq_lookup, h]
    rfl
  have hparams : e.get .params = d.params := by
    rw [Derivation.get, Derivation.get?_eq_lookup, h]
    rfl
  rw [ofOccurrence?, hname, hparams, if_neg d.name_not_mem, method]

end Declaration

/-- What stands where no method begins does not count. -/
theorem ofBody_append_of_beginsNowhereIn {u s : Text} (h : BeginsNowhereIn pattern u s) : ofBody (u ++ s) = ofBody s := by
  rw [ofBody, occurrences_of_beginsNowhereIn h, ← ofBody]

/-- Blanks before a body make no difference. -/
theorem ofBody_gap_append (g : Gap) (s : Text) : ofBody (g.text ++ s) = ofBody s := by
  refine ofBody_append_of_beginsNowhereIn (beginsWith_pattern.beginsNowhereIn (fun c hc hword => ?_) s)
  rw [isWord_eq_false_of_isBlank (g.isBlank_text c hc)] at hword
  exact absurd hword (by decide)

/-- From a text that begins like a method up to its opening brace this method is read first. -/
theorem Declaration.ofBody_heading_append (d : Declaration) (s : Text) :
    ofBody (d.heading ++ '{' :: s) = d.method :: ofBody s := by
  obtain ⟨e, hocc, hcaptures⟩ := d.reads.occurrences_eq_cons unambiguous_pattern (by simp) s
  rw [List.append_assoc, List.singleton_append] at hocc
  rw [ofBody, hocc, List.filterMap_cons, ofOccurrence?_eq_some hcaptures, ← ofBody]

/-- Methods as they are written one after the other, each after some blanks. -/
def writeMembers (members : List (Gap × Declaration)) : Text := members.flatMap fun x => x.1.text ++ x.2.text

/-- From a class body made of methods exactly these methods are read, in order. -/
theorem ofBody_writeMembers (members : List (Gap × Declaration)) (ending : Gap) :
    ofBody (writeMembers members ++ ending.text) = members.map fun x => x.2.method := by
  induction members with
  | nil => exact (congrArg ofBody (List.append_nil ending.text).symm).trans (ofBody_gap_append ending [])
  | cons x members ih =>
    obtain ⟨before, d⟩ := x
    have hsource : writeMembers ((before, d) :: members) ++ ending.text =
        before.text ++ (d.heading ++ '{' :: (d.body ++ ['}'] ++ (writeMembers members ++ ending.text))) := by
      simp [writeMembers, Declaration.text]
    rw [hsource, ofBody_gap_append, d.ofBody_heading_append,
      ofBody_append_of_beginsNowhereIn (beginsNowhereIn_body d.body_plain _), ih]
    rfl

/-- The braces of a class body made of methods match. -/
theorem bracesBalanced_writeMembers (members : List (Gap × Declaration)) (ending : Gap) :
    BracesBalanced (writeMembers members ++ ending.text) := by
  refine BracesBalanced.append ?_ ending.bracesBalanced
  rw [writeMembers, List.flatMap_def]
  refine .flatten fun t ht => ?_
  obtain ⟨x, -, rfl⟩ := List.mem_map.1 ht
  exact x.1.bracesBalanced.append x.2.bracesBalanced_text

end Method

end SourceInventory
