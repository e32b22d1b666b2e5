import SourceInventory.Proofs.Extract.ClassBody
import SourceInventory.Proofs.Extract.ExportPass
import SourceInventory.Proofs.Pattern.Consumed
import SourceInventory.Proofs.Pattern.Extension
import SourceInventory.Proofs.Pattern.LineStart

/-!
# Separation: sources put together

Two sources are put together with a separator between them: a line feed, semicolons that fill the widest window for the
asynchronous word, and a line feed. A declaration could reach over it only in a list that is still open, since a semicolon is
read nowhere else (`PassesInLists`), and no declaration ends with a blank (`EndsWith`). So if every parenthesis of the first
source is followed by a closing one, and the bodies of its classes are closed, each pass takes from the two sources together
what it takes from each of them (`symbols_append_separated`).
-/

namespace SourceInventory

open Pattern

/-- Every opening parenthesis of a text has a closing one after it. -/
def ParensClosed (s : Text) : Prop := ∀ u v, s = u ++ '(' :: v → ')' ∈ v

/-- A parenthesis opens in a text and none closes after it. -/
def ListOpen (s : Text) : Prop := ∃ u v, s = u ++ '(' :: v ∧ ')' ∉ v

/-- The parentheses of an end of a text are closed if those of the text are. -/
theorem ParensClosed.of_suffix {s v : Text} (h : ParensClosed s) (hv : v <:+ s) : ParensClosed v := by
  obtain ⟨x, rfl⟩ := hv
  rintro u w rfl
  exact h (x ++ u) w (List.append_assoc x u _).symm

/-- Whether the parentheses of a text are closed is found by going through its endings. -/
instance ParensClosed.decidable (s : Text) : Decidable (ParensClosed s) :=
  decidable_of_iff (∀ t ∈ s.tails, t.head? = some '(' → ')' ∈ t.tail)
    ⟨fun h u v hs => h ('(' :: v) ((List.mem_tails _ s).2 ⟨u, hs.symm⟩) rfl, fun h t ht hhead => by
      obtain ⟨u, hu⟩ := (List.mem_tails t s).1 ht
      obtain ⟨v, rfl⟩ := List.head?_eq_some_iff.1 hhead
      exact h u v hu.symm⟩

/-- A list that is open stays open with more text before it. -/
theorem ListOpen.append_left {s : Text} (h : ListOpen s) (t : Text) : ListOpen (t ++ s) := by
  obtain ⟨u, v, rfl, hv⟩ := h
  exact ⟨t ++ u, v, (List.append_assoc t u _).symm, hv⟩

/-- No list is open in a text whose parentheses are closed, nor behind a line feed after it. -/
theorem ParensClosed.not_listOpen {s : Text} (h : ParensClosed s) : ¬ ListOpen (s ++ ['\n']) := by
  rintro ⟨u, v, hs, hv⟩
  rcases List.eq_nil_or_concat' v with rfl | ⟨w, c, rfl⟩
  · exact absurd (List.append_inj_right' hs rfl) (by decide)
  · have hcut : s ++ ['\n'] = (u ++ '(' :: w) ++ [c] := by simpa using hs
    obtain ⟨rfl, -⟩ := List.append_inj' hcut rfl
    exact hv (List.mem_append_left _ (h u w rfl))

namespace Pattern

variable {a b p : Pattern} {c : Char} {q : Char → Prop} {s : Text} {d : Derivation}

/-! ## How a pattern ends -/

/-- Every reading of the pattern ends with a character that satisfies `q`. -/
def EndsWith (p : Pattern) (q : Char → Prop) : Prop :=
  ∀ ⦃s : Text⦄ ⦃d : Derivation⦄, Derives p s d → ∃ u x, s = u ++ x :: d.rest ∧ u.length + 1 = d.length ∧ q x

/-- A piece of fixed text ends in its last character. -/
theorem endsWith_lit {w : String} {t : Text} (hw : w.toList = t ++ [c]) (hc : q c) : EndsWith (lit w) q := by
  intro s d hd
  obtain ⟨r, rfl, rfl⟩ := derives_text_iff.1 hd
  refine ⟨t, c, by rw [hw]; simp [Derivation.plain], by rw [hw]; simp [Derivation.plain], hc⟩

/-- A sequence ends as its last part does. -/
theorem EndsWith.append (hb : EndsWith b q) : EndsWith (a ++ b) q := by
  intro s d hd
  obtain ⟨e, f, he, hf, rfl⟩ := derives_append_iff.1 hd
  obtain ⟨u, rfl, hu⟩ := he.eq_append
  obtain ⟨v, x, hv, hlen, hx⟩ := hb hf
  refine ⟨u ++ v, x, by rw [hv, List.append_assoc]; rfl, ?_, hx⟩
  rw [List.length_append, Nat.add_assoc, hlen, hu]
  rfl

/-- A sequence whose last part may be left out ends as either part does. -/
theorem EndsWith.append_optional (ha : EndsWith a q) (hb : EndsWith b q) : EndsWith (a ++ .optional b) q := by
  intro s d hd
  obtain ⟨e, f, he, hf, rfl⟩ := derives_append_iff.1 hd
  rcases derives_optional_iff.1 hf with hf | rfl
  · exact hb.append (derives_append_iff.2 ⟨e, f, he, hf, rfl⟩)
  · rw [Derivation.andThen_plain]
    exact ha he

/-- A list ends in a character that is no blank. -/
theorem endsWith_parenthesised (f : Field) : EndsWith (parenthesised f) Solid :=
  EndsWith.append (endsWith_lit (c := ')') (t := []) rfl rfl)

theorem endsWith_word (f : Field) : EndsWith (.field f word) Solid := by
  intro s d hd
  obtain ⟨w, r, rfl, hne, hw, rfl⟩ := derives_word hd
  rcases List.eq_nil_or_concat' w with rfl | ⟨u, x, rfl⟩
  · exact absurd rfl hne
  · have hlen : (u ++ [x]).length = u.length + 1 := List.length_append
    refine ⟨u, x, List.append_assoc u [x] r, hlen.symm, solid_of_isWord (hw x ?_)⟩
    exact List.mem_append_right u (List.mem_singleton_self x)

/-! ## What a pattern reads in lists only -/

/-- A reading passes over the character only in a list that is still open. -/
def PassesInLists (p : Pattern) (c : Char) : Prop :=
  ∀ ⦃s : Text⦄ ⦃d : Derivation⦄, Derives p s d → ∀ x y, s = x ++ c :: y → x.length < d.length → ListOpen x

/-- What never reads a character passes over it nowhere. -/
theorem passesInLists_of_onlyReads (h : p.OnlyReads (· ≠ c)) : PassesInLists p c := by
  rintro s d hd x y rfl hx
  obtain ⟨u, hu, hlen, hk⟩ := h.eq_append hd
  rcases List.append_eq_append_iff.1 hu with ⟨w, rfl, hw⟩ | ⟨w, rfl, hw⟩
  · cases w with
    | nil =>
      rw [List.append_nil] at hlen
      omega
    | cons z w =>
      obtain rfl : c = z := (List.cons.inj hw).1
      exact absurd rfl (hk c (by simp))
  · rw [List.length_append] at hx
    omega

/-- A fixed text passes over no character that does not stand in it. -/
theorem passesInLists_lit {w : String} (hw : c ∉ w.toList) : PassesInLists (lit w) c :=
  passesInLists_of_onlyReads fun _ hx hxc => hw (hxc ▸ hx)

/-- A run passes over no character outside its class. -/
theorem passesInLists_run {k : Char → Bool} (hk : k c = false) : PassesInLists (.run k) c := by
  refine passesInLists_of_onlyReads ?_
  rintro x hx rfl
  exact Bool.false_ne_true (hk.symm.trans hx)

theorem passesInLists_nonemptyRun {k : Char → Bool} (hk : k c = false) : PassesInLists (nonemptyRun k) c := by
  refine passesInLists_of_onlyReads ⟨?_, ?_⟩
  all_goals
    rintro x hx rfl
    exact Bool.false_ne_true (hk.symm.trans hx)

/-- A sequence passes over a character only in lists if both parts do. -/
theorem PassesInLists.append (ha : PassesInLists a c) (hb : PassesInLists b c) : PassesInLists (a ++ b) c := by
  rintro s d hd x y hs hx
  obtain ⟨e, f, he, hf, rfl⟩ := derives_append_iff.1 hd
  by_cases hlt : x.length < e.length
  · exact ha he x y hs hlt
  · obtain ⟨u, rfl, hu⟩ := he.eq_append
    obtain ⟨z, rfl⟩ : u <+: x :=
      List.prefix_of_prefix_length_le (hs ▸ List.prefix_append u e.rest) (List.prefix_append x _) (by omega)
    rw [List.append_assoc, List.append_right_inj] at hs
    refine (hb hf z y hs ?_).append_left u
    simp only [List.length_append, Derivation.andThen] at hx
    omega

/-- What may be left out passes over nothing more than what it is when it is there. -/
theorem PassesInLists.optional (ha : PassesInLists a c) : PassesInLists (.optional a) c := by
  rintro s d hd x y hs hx
  rcases derives_optional_iff.1 hd with hd | rfl
  · exact ha hd x y hs hx
  · exact absurd hx (Nat.not_lt_zero _)

theorem PassesInLists.field {f : Field} (ha : PassesInLists a c) : PassesInLists (.field f a) c := by
  rintro s d hd x y hs hx
  obtain ⟨e, he, rfl⟩ := derives_field_iff.1 hd
  exact ha he x y hs hx

/-- A list is read from its opening parenthesis to the first one that closes. -/
theorem derives_parenthesised {f : Field} (h : Derives (parenthesised f) s d) :
    ∃ w r, s = '(' :: (w ++ ')' :: r) ∧ ')' ∉ w ∧ d.length = w.length + 2 := by
  obtain ⟨_, _, hstart, hclose, rfl⟩ := derives_append_iff.1 h
  obtain ⟨_, _, hopen, hlist, rfl⟩ := derives_append_iff.1 hstart
  obtain ⟨r₁, rfl, rfl⟩ := derives_text_iff.1 hopen
  obtain ⟨_, hrun, rfl⟩ := derives_field_iff.1 hlist
  obtain ⟨w, r₂, h₂, hw, rfl⟩ := derives_run_iff.1 hrun
  obtain ⟨r, h₃, rfl⟩ := derives_text_iff.1 hclose
  change r₁ = w ++ r₂ at h₂
  change r₂ = ')' :: r at h₃
  subst h₃ h₂
  refine ⟨w, r, rfl, fun hmem => absurd (hw ')' hmem) (by decide), ?_⟩
  change 1 + w.length + 1 = w.length + 2
  omega

/-- A list passes over any other character between its parentheses only. -/
theorem passesInLists_parenthesised (f : Field) (hc : c ≠ '(') (hc' : c ≠ ')') : PassesInLists (parenthesised f) c := by
  intro s d hd x y hs hx
  obtain ⟨w, r, rfl, hw, hlen⟩ := derives_parenthesised hd
  cases x with
  | nil => exact absurd (List.cons.inj hs).1.symm hc
  | cons z x =>
    obtain ⟨rfl, hcut⟩ := List.cons.inj hs
    refine ⟨[], x, rfl, fun hmem => hw ?_⟩
    rw [List.length_cons] at hx
    rcases List.append_eq_append_iff.1 hcut with ⟨v, rfl, hv⟩ | ⟨v, rfl, hv⟩
    · cases v with
      | nil => exact absurd (List.cons.inj hv).1.symm hc'
      | cons z v =>
        rw [List.length_append, List.length_cons] at hx
        omega
    · exact List.mem_append_left v hmem

/-! ## Readings in front of a separator -/

/-- In front of a line feed and a semicolon no reading goes beyond the end of a text whose parentheses are closed. -/
theorem endsWithin_separator (hends : EndsWith p Solid) (hlists : PassesInLists p ';') (hs : ParensClosed s) (t : Text) :
    EndsWithin p s ('\n' :: ';' :: t) := by
  intro v hv hne d hd
  by_contra hlt
  have hlen := length_rest_add hd
  simp only [List.length_append, List.length_cons] at hlen hlt
  by_cases hlast : d.length = v.length + 1
  · -- the reading would end with the line feed
    obtain ⟨u, x, hu, hul, hx⟩ := hends hd
    obtain ⟨-, hcut⟩ := List.append_inj hu (by omega)
    rw [← (List.cons.inj hcut).1] at hx
    change isBlank '\n' = false at hx
    exact absurd hx (by decide)
  · -- the reading would pass over the semicolon
    have hopen : ListOpen (v ++ ['\n']) := by
      refine hlists hd (v ++ ['\n']) t (by simp) ?_
      rw [List.length_append, List.length_singleton]
      omega
    exact (hs.of_suffix hv).not_listOpen hopen

end Pattern

/-! ## Separators -/

/-- A line feed, some semicolons and a line feed. -/
def separator (n : Nat) : Text := '\n' :: (List.replicate n ';' ++ ['\n'])

theorem mem_separator {n : Nat} {c : Char} (h : c ∈ separator n) : c = '\n' ∨ c = ';' := by
  rcases List.mem_cons.1 h with rfl | h
  · exact Or.inl rfl
  · rcases List.mem_append.1 h with h | h
    · exact Or.inr (List.eq_of_mem_replicate h)
    · exact Or.inl (List.mem_singleton.1 h)

/-- A separator has two characters more than its number says. -/
theorem length_separator (n : Nat) : (separator n).length = n + 2 := by
  simp [separator]

theorem getLast?_separator (n : Nat) : (separator n).getLast? = some '\n' := by
  rw [separator, ← List.cons_append]
  exact List.getLast?_concat

/-- Where none of its characters occurs behind a text, a word occurs if it does in the text. -/
theorem Text.occursIn_append {w u : Text} (hw : w ≠ []) (hu : ∀ c ∈ w, c ∉ u) (s : Text) :
    occursIn w (s ++ u) = occursIn w s := by
  rw [Bool.eq_iff_iff, occursIn_iff, occursIn_iff]
  constructor
  · rintro ⟨x, y, h⟩
    rcases List.append_eq_append_iff.1 h with ⟨z, hz, rfl⟩ | ⟨z, rfl, -⟩
    · -- the word would end behind the text
      rcases List.eq_nil_or_concat' z with rfl | ⟨z, c, rfl⟩
      · exact ⟨x, [], by simpa using hz.symm⟩
      · rcases List.eq_nil_or_concat' w with rfl | ⟨w, c', rfl⟩
        · exact absurd rfl hw
        · rw [← List.append_assoc, ← List.append_assoc] at hz
          obtain rfl : c' = c := List.cons.inj (List.append_inj' hz rfl).2 |>.1
          exact absurd (by simp) (hu c' (by simp))
    · exact ⟨x, z, rfl⟩
  · rintro ⟨x, y, rfl⟩
    exact ⟨x, y ++ u, by rw [List.append_assoc]⟩

/-- In front of a separator, a window that the separator fills shows what it shows without it. -/
theorem Braced.asyncWithin_separator {window n : Nat} (h : window ≤ n) (s t : Text) :
    asyncWithin window (s ++ (separator n ++ t)) = asyncWithin window s := by
  have hfilled : ((separator n ++ t).take (window - s.length)) = (separator n).take (window - s.length) :=
    List.take_append_of_le_length (by rw [length_separator]; omega)
  rw [asyncWithin, asyncWithin, List.take_append, hfilled]
  refine Text.occursIn_append (by decide) (fun c hc hmem => ?_) _
  have hasync : '\n' ∉ asyncWord ∧ ';' ∉ asyncWord := by decide
  rcases mem_separator (List.mem_of_mem_take hmem) with rfl | rfl
  · exact hasync.1 hc
  · exact hasync.2 hc

namespace ExportPass

/-! ## Passes over sources that are put together -/

/-- A declaration passes over a semicolon only in a list. -/
theorem passesInLists_pattern (pass : ExportPass) : PassesInLists pass.pattern ';' := by
  have hgap : PassesInLists gap ';' := passesInLists_run rfl
  have hblanks : PassesInLists blanks ';' := passesInLists_nonemptyRun rfl
  have hkeyword : ∀ {w : String}, ';' ∉ w.toList → PassesInLists (keyword w) ';' :=
    fun hw => (passesInLists_lit hw).append hblanks
  have hword : ∀ f, PassesInLists (.field f word) ';' := fun f => (passesInLists_nonemptyRun rfl).field
  have hlist : ∀ f, PassesInLists (parenthesised f) ';' := fun f => passesInLists_parenthesised f (by decide) (by decide)
  have hexport : PassesInLists (keyword "export") ';' := hkeyword (by decide)
  have hclass : PassesInLists (keyword "class") ';' := hkeyword (by decide)
  have hdefault : PassesInLists (keyword "default") ';' := hkeyword (by decide)
  have hasync : PassesInLists (.optional (.field .modifier (keyword "async"))) ';' := (hkeyword (by decide)).field.optional
  cases pass with
  | namedFunction =>
    have hstart := (hexport.append hasync).append (hkeyword (w := "function") (by decide))
    exact ((hstart.append (hword _)).append hgap).append (hlist _)
  | arrowFunction =>
    have hstart := (hexport.append (hkeyword (w := "const") (by decide))).append (hword .name)
    have hequals := ((hstart.append hgap).append (passesInLists_lit (w := "=") (by decide))).append hgap
    have hmodifier := ((passesInLists_lit (w := "async") (by decide)).append hgap).field (f := .modifier)
    exact (((hequals.append hmodifier.optional).append (hlist .params)).append hgap).append
      (passesInLists_lit (w := "=>") (by decide))
  | classDeclaration =>
    have hclause := (hblanks.append (hkeyword (w := "extends") (by decide))).append (hword .base)
    exact (((hexport.append hdefault.optional).append hclass).append (hword .name)).append hclause.optional
  | defaultFunction =>
    have hstart := ((hexport.append hdefault).append hasync).append (passesInLists_lit (w := "function") (by decide))
    have hname : PassesInLists (.field .name (.run isWord)) ';' := (passesInLists_run rfl).field
    exact (((hstart.append hgap).append hname).append hgap).append (hlist _)
  | functionDefinition =>
    exact (((hasync.append (hkeyword (by decide))).append (hword _)).append hgap).append (hlist _)
  | classDefinition =>
    exact ((hclass.append (hword _)).append (hlist _).optional).append (passesInLists_lit (by decide))

/-- A declaration does not end with a blank. -/
theorem endsWith_pattern (pass : ExportPass) : EndsWith pass.pattern Solid := by
  cases pass with
  | namedFunction | defaultFunction | functionDefinition => exact (endsWith_parenthesised .params).append
  | arrowFunction => exact EndsWith.append (endsWith_lit (c := '>') (t := ['=']) rfl rfl)
  | classDeclaration => exact (endsWith_word .name).append.append_optional (endsWith_word .base).append
  | classDefinition => exact EndsWith.append (endsWith_lit (c := ':') (t := []) rfl rfl)

/-- A declaration begins with a word. -/
theorem beginsWith_pattern (pass : ExportPass) : BeginsWith pass.pattern (isWord · = true) := by
  have hkeyword : ∀ {w : String} {x : Char} {t : Text}, w.toList = x :: t → isWord x = true →
      BeginsWith (keyword w) (isWord · = true) := fun h hx => (beginsWith_keyword h).of_eq hx
  cases pass with
  | namedFunction => exact (hkeyword (w := "export") rfl rfl).append.append.append.append.append
  | arrowFunction => exact (hkeyword (w := "export") rfl rfl).append.append.append.append.append.append.append.append.append
  | classDeclaration => exact (hkeyword (w := "export") rfl rfl).append.append.append.append
  | defaultFunction => exact (hkeyword (w := "export") rfl rfl).append.append.append.append.append.append.append
  | functionDefinition =>
    exact ((hkeyword (w := "async") rfl rfl).field.optional_append (hkeyword (w := "def") rfl rfl)).append.append.append
  | classDefinition => exact (hkeyword (w := "class") rfl rfl).append.append.append

/-- A declaration of a braced source begins with the word for exports. -/
theorem opensWith_export {pass : ExportPass} (hpass : pass ∈ ofLanguage .javascript) :
    OpensWith pass.pattern "export".toList := by
  have hopens := opensWith_lit "export"
  cases pass with
  | namedFunction => exact hopens.append.append.append.append.append.append
  | arrowFunction => exact hopens.append.append.append.append.append.append.append.append.append.append
  | classDeclaration => exact hopens.append.append.append.append.append
  | defaultFunction => exact hopens.append.append.append.append.append.append.append.append
  | functionDefinition | classDefinition => exact absurd hpass (by decide)

/-- Scanning for declarations goes over a separator. -/
theorem beginsNowhereIn_separator (pass : ExportPass) (n : Nat) (s : Text) :
    BeginsNowhereIn pass.pattern (separator n) s := by
  refine pass.beginsWith_pattern.beginsNowhereIn (fun c hc hword => ?_) s
  rcases mem_separator hc with rfl | rfl
  · exact absurd hword (by decide)
  · exact absurd hword (by decide)

/-- From two sources with a separator between them a pass takes the declarations of the first one and then those of the
second one. -/
theorem occurrences_append_separator (pass : ExportPass) {s₁ : Text} (h : ParensClosed s₁) (n : Nat) (s₂ : Text) :
    pass.occurrences (s₁ ++ (separator (n + 1) ++ s₂)) =
      (pass.occurrences s₁).map (·.extend (separator (n + 1) ++ s₂)) ++ pass.occurrences s₂ := by
  have hwithin : EndsWithin pass.pattern s₁ (separator (n + 1) ++ s₂) :=
    endsWithin_separator pass.endsWith_pattern pass.passesInLists_pattern h _
  rw [occurrences, Pattern.occurrences, scanFrom_append hwithin (Nat.zero_le _),
    scanFrom_of_beginsNowhereIn (pass.beginsNowhereIn_separator _ _), getLast?_separator, Option.some_or, scanFrom_lineFeed]
  rfl

/-- A declaration gives the same symbol in front of a separator as at the end of the source. -/
theorem symbol?_extend (pass : ExportPass) {o : Occurrence} (ho : Derives pass.pattern o.start o.toDerivation)
    (hbody : pass = .classDeclaration → BodyCloses o.start) {n : Nat} (hn : 45 ≤ n) (s : Text) :
    pass.symbol? (o.extend (separator n ++ s)) = pass.symbol? o := by
  have hget? : ∀ f, (o.extend (separator n ++ s)).get? f = o.get? f := get?_extend ho _
  have hget : ∀ f, (o.extend (separator n ++ s)).get f = o.get f := fun f => congrArg (·.getD []) (hget? f)
  have hasync : ∀ window ≤ 45,
      Braced.asyncWithin window (o.extend (separator n ++ s)).start = Braced.asyncWithin window o.start :=
    fun window hw => Braced.asyncWithin_separator (Nat.le_trans hw hn) o.start s
  cases pass with
  | namedFunction => simp only [symbol?, Braced.functionSymbol, hget, hasync Braced.namedWindow (by decide)]
  | arrowFunction => simp only [symbol?, Braced.functionSymbol, hget, hasync Braced.arrowWindow (by decide)]
  | classDeclaration =>
    have hmethods : Method.ofDeclaration (o.extend (separator n ++ s)).start = Method.ofDeclaration o.start :=
      Method.ofDeclaration_append (hbody rfl) _
    simp only [symbol?, Braced.classSymbol, hget, hget?, hmethods]
  | defaultFunction => simp only [symbol?, Braced.defaultSymbol, hget, hasync Braced.defaultWindow (by decide)]
  | functionDefinition => simp only [symbol?, Indented.functionSymbol?, hget, hget?]
  | classDefinition => simp only [symbol?, Indented.classSymbol, hget, hget?]

end ExportPass

/-- If every parenthesis of a source is closed and, for the pass over the classes, the bodies of its classes are closed in it,
then behind a separator with at least as many semicolons as the widest window has characters any other source may follow: a
pass takes from both together its symbols of the first source and then its symbols of the second one. -/
theorem symbols_append_separated (pass : ExportPass) (s₁ s₂ : Text) {n : Nat} (hn : 45 ≤ n) (hparens : ParensClosed s₁)
    (hbodies : pass = .classDeclaration → ∀ o ∈ pass.occurrences s₁, BodyCloses o.start) :
    pass.symbols (s₁ ++ (separator n ++ s₂)) = pass.symbols s₁ ++ pass.symbols s₂ := by
  have hsymbol : ∀ o ∈ pass.occurrences s₁, pass.symbol? (o.extend (separator n ++ s₂)) = pass.symbol? o := by
    intro o ho
    exact pass.symbol?_extend (derives_of_first? (first?_of_mem_scanFrom ho)) (fun h => hbodies h o ho) hn s₂
  obtain ⟨k, rfl⟩ := Nat.exists_eq_add_of_le' (Nat.le_trans (by decide : 1 ≤ 45) hn)
  simp only [ExportPass.symbols_eq_filterMap]
  rw [pass.occurrences_append_separator hparens, List.filterMap_append, List.filterMap_map]
  exact congrArg (· ++ _) (List.filterMap_congr hsymbol)

/-- A class with a method, and one derived from it that is not closed. -/
theorem symbols_append_separated_classes :
    45 ≤ 45 ∧ ParensClosed "export class A \x7bm(x) \x7b\x7d\x7d".toList ∧
    (∀ o ∈ ExportPass.classDeclaration.occurrences "export class A \x7bm(x) \x7b\x7d\x7d".toList, BodyCloses o.start) ∧
    ExportPass.classDeclaration.symbols
        ("export class A \x7bm(x) \x7b\x7d\x7d".toList ++ (separator 45 ++ "export class B extends A \x7b".toList)) =
      [{ kind := .classType
         name := ['A']
         signature := "class A".toList
         methods := [⟨['m'], "m(x)".toList⟩] },
       { kind := .classType
         name := ['B']
         signature := "class B extends A".toList
         base := some ['A'] }] := by
  have hclosed : ∀ o ∈ ExportPass.classDeclaration.occurrences "export class A \x7bm(x) \x7b\x7d\x7d".toList,
      BodyCloses o.start := by
    have hstart : ∀ o ∈ ExportPass.classDeclaration.occurrences "export class A \x7bm(x) \x7b\x7d\x7d".toList,
        o.start = "export class A ".toList ++ '\x7b' :: ("m(x) \x7b\x7d".toList ++ '\x7d' :: []) := by decide +kernel
    exact fun o ho => ⟨_, _, _, hstart o ho, by decide, by decide⟩
  refine ⟨Nat.le_refl _, by decide +kernel, hclosed, ?_⟩
  rw [symbols_append_separated .classDeclaration _ "export class B extends A \x7b".toList (Nat.le_refl _) (by decide +kernel)
    fun _ => hclosed]
  decide +kernel

end SourceInventory
