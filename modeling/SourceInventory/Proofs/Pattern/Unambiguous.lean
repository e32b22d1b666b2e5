import SourceInventory.Pattern.Scan

/-!
# Unambiguous patterns

A pattern is unambiguous if a text has at most one reading by it. A run of characters never is, since every shorter run is a
reading too; what fixes its end is the pattern after it, which cannot begin with a character of the run. So the notion that is
built up piece by piece is relative: `SettledBefore a b` says that a text has at most one reading by `a` that a reading by `b`
can follow. Main statement: a pattern that is settled before an unambiguous one makes an unambiguous one with it
(`unambiguous_append`).
-/

namespace SourceInventory.Pattern

/-- A reading of two patterns reassociates. -/
theorem derives_append_assoc {a b c : Pattern} {s : Text} {d : Derivation} :
    Derives (a ++ b ++ c) s d ↔ Derives (a ++ (b ++ c)) s d := by
  simp only [derives_append_iff]
  constructor
  · rintro ⟨_, z, ⟨x, y, hx, hy, rfl⟩, hz, rfl⟩
    exact ⟨x, y.andThen z, hx, ⟨y, z, hy, hz, rfl⟩, Derivation.andThen_assoc _ _ _⟩
  · rintro ⟨x, _, hx, ⟨y, z, hy, hz, rfl⟩, rfl⟩
    exact ⟨x.andThen y, z, ⟨x, y, hx, hy, rfl⟩, hz, (Derivation.andThen_assoc _ _ _).symm⟩

/-! ## How a pattern begins -/

/-- Every reading of the pattern begins with a character that satisfies `q`. -/
def BeginsWith (p : Pattern) (q : Char → Prop) : Prop :=
  ∀ ⦃s : Text⦄ ⦃d : Derivation⦄, Derives p s d → ∃ c r, s = c :: r ∧ q c

variable {a b c : Pattern} {q q' : Char → Prop}

theorem BeginsWith.mono (h : BeginsWith a q) (hq : ∀ x, q x → q' x) : BeginsWith a q' := by
  intro s d hd
  obtain ⟨x, r, hs, hx⟩ := h hd
  exact ⟨x, r, hs, hq x hx⟩

/-- Two patterns that begin with different characters have no reading of one text. -/
theorem BeginsWith.disjoint (ha : BeginsWith a q) (hb : BeginsWith b q') (hq : ∀ x, q x → ¬ q' x) {s : Text}
    {d e : Derivation} (hd : Derives a s d) : ¬ Derives b s e := by
  intro he
  obtain ⟨x, r, rfl, hx⟩ := ha hd
  obtain ⟨y, t, hy, hqy⟩ := hb he
  rw [List.cons.injEq] at hy
  exact hq x hx (hy.1 ▸ hqy)

theorem beginsWith_lit {w : String} {x : Char} {t : Text} (h : w.toList = x :: t) : BeginsWith (lit w) (· = x) := by
  intro s d hd
  obtain ⟨r, rfl, -⟩ := derives_text_iff.1 hd
  exact ⟨x, t ++ r, by rw [h]; rfl, rfl⟩

theorem beginsWith_char (k : Char → Bool) : BeginsWith (.char k) (k · = true) := by
  intro s d hd
  obtain ⟨x, r, rfl, hx, -⟩ := derives_char_iff.1 hd
  exact ⟨x, r, rfl, hx⟩

/-- A sequence begins as its first part does. -/
theorem BeginsWith.append (ha : BeginsWith a q) : BeginsWith (a ++ b) q := by
  intro s d hd
  obtain ⟨e, f, he, -, -⟩ := derives_append_iff.1 hd
  exact ha he

theorem BeginsWith.field {f : Field} (ha : BeginsWith a q) : BeginsWith (.field f a) q := by
  intro s d hd
  obtain ⟨e, he, -⟩ := derives_field_iff.1 hd
  exact ha he

/-- After a run a pattern begins with a character of the run or with one of its own. -/
theorem BeginsWith.run_append {k : Char → Bool} (hk : ∀ x, k x = true → q x) (hb : BeginsWith b q) :
    BeginsWith (.run k ++ b) q := by
  intro s d hd
  obtain ⟨e, f, he, hf, -⟩ := derives_append_iff.1 hd
  obtain ⟨u, r, rfl, hu, rfl⟩ := derives_run_iff.1 he
  cases u with
  | nil => exact hb hf
  | cons x u => exact ⟨x, u ++ r, rfl, hk x (hu x (by simp))⟩

/-- If the first part may be left out, the sequence begins as either part does. -/
theorem BeginsWith.optional_append (ha : BeginsWith a q) (hb : BeginsWith b q) : BeginsWith (.optional a ++ b) q := by
  intro s d hd
  obtain ⟨e, f, he, hf, -⟩ := derives_append_iff.1 hd
  rcases derives_optional_iff.1 he with he | rfl
  · exact ha he
  · exact hb hf

/-- An alternative begins as one of the two does. -/
theorem BeginsWith.either (ha : BeginsWith a q) (hb : BeginsWith b q) : BeginsWith (.either a b) q := by
  intro s d hd
  rcases derives_either_iff.1 hd with hd | hd
  · exact ha hd
  · exact hb hd

/-! ## Settled readings -/

/-- A text has at most one reading by the pattern. -/
def Unambiguous (p : Pattern) : Prop :=
  ∀ ⦃s : Text⦄ ⦃d e : Derivation⦄, Derives p s d → Derives p s e → d = e

/-- A text has at most one reading by `a` that a reading by `b` can follow. -/
def SettledBefore (a b : Pattern) : Prop :=
  ∀ ⦃s : Text⦄ ⦃d e d' e' : Derivation⦄, Derives a s d → Derives b d.rest d' → Derives a s e → Derives b e.rest e' → d = e

/-- A pattern with one reading at most is settled before any other. -/
theorem Unambiguous.settledBefore (h : Unambiguous a) (b : Pattern) : SettledBefore a b := by
  intro s d e d' e' hd _ he _
  exact h hd he

/-- A fixed text is read in one way at most. -/
theorem unambiguous_text (t : Text) : Unambiguous (.text t) := by
  intro s d e hd he
  obtain ⟨r, rfl, rfl⟩ := derives_text_iff.1 hd
  obtain ⟨r', hr, rfl⟩ := derives_text_iff.1 he
  rw [List.append_cancel_left hr]

/-- A character is read in one way at most. -/
theorem unambiguous_char (k : Char → Bool) : Unambiguous (.char k) := by
  intro s d e hd he
  obtain ⟨x, r, rfl, -, rfl⟩ := derives_char_iff.1 hd
  obtain ⟨x', r', hr, -, rfl⟩ := derives_char_iff.1 he
  rw [List.cons.injEq] at hr
  rw [hr.2]

/-- A run ends where a character does not belong to it, so that what a character outside the class begins is the same. -/
theorem run_split_unique {k : Char → Bool} {u v r t : Text} (h : u ++ r = v ++ t) (hu : ∀ x ∈ u, k x = true)
    (hv : ∀ x ∈ v, k x = true) (hr : ∀ x ∈ r.head?, k x = false) (ht : ∀ x ∈ t.head?, k x = false) : u = v ∧ r = t := by
  have stop : ∀ w : Text, (∀ x ∈ w.head?, k x = false) → w.takeWhile k = [] := by
    intro w hw
    cases w with
    | nil => rfl
    | cons x w => rw [List.takeWhile_cons_of_neg]; simp [hw x rfl]
  have hw := congrArg (List.takeWhile k) h
  rw [List.takeWhile_append_of_pos hu, List.takeWhile_append_of_pos hv, stop r hr, stop t ht, List.append_nil,
    List.append_nil] at hw
  subst hw
  exact ⟨rfl, List.append_cancel_left h⟩

/-- A text is cut at the first of a character in one way. -/
theorem cut_unique {c : Char} {u v r t : Text} (h : u ++ c :: r = v ++ c :: t) (hu : c ∉ u) (hv : c ∉ v) : u = v ∧ r = t := by
  have hclass : ∀ {u : Text}, c ∉ u → ∀ x ∈ u, (x != c) = true := fun hu x hx => bne_iff_ne.2 fun heq => hu (heq ▸ hx)
  have hhead : ∀ r : Text, ∀ x ∈ (c :: r).head?, (x != c) = false := by
    intro r x hx
    obtain rfl := Option.some.inj hx
    exact bne_self_eq_false c
  obtain ⟨huv, hrest⟩ := run_split_unique h (hclass hu) (hclass hv) (hhead r) (hhead t)
  exact ⟨huv, (List.cons.inj hrest).2⟩

/-- A run is settled before a pattern that begins with no character of the run. -/
theorem settledBefore_run {k : Char → Bool} (hb : BeginsWith b (k · = false)) : SettledBefore (.run k) b := by
  intro s d e d' e' hd hd' he he'
  obtain ⟨u, r, rfl, hu, rfl⟩ := derives_run_iff.1 hd
  obtain ⟨v, t, h, hv, rfl⟩ := derives_run_iff.1 he
  obtain ⟨x, r', hr, hx⟩ := hb hd'
  obtain ⟨y, t', ht, hy⟩ := hb he'
  change r = x :: r' at hr
  change t = y :: t' at ht
  obtain ⟨rfl, rfl⟩ := run_split_unique h hu hv (by simp [hr, hx]) (by simp [ht, hy])
  rfl

theorem settledBefore_field {f : Field} (ha : SettledBefore a b) : SettledBefore (.field f a) b := by
  intro s d e d' e' hd hd' he he'
  obtain ⟨x, hx, rfl⟩ := derives_field_iff.1 hd
  obtain ⟨y, hy, rfl⟩ := derives_field_iff.1 he
  rw [ha hx hd' hy he']

/-- A sequence is settled if its parts are, each before what comes next. -/
theorem settledBefore_append (ha : SettledBefore a (b ++ c)) (hb : SettledBefore b c) : SettledBefore (a ++ b) c := by
  intro s d e d' e' hd hd' he he'
  obtain ⟨x, y, hx, hy, rfl⟩ := derives_append_iff.1 hd
  obtain ⟨x', y', hx', hy', rfl⟩ := derives_append_iff.1 he
  obtain rfl := ha hx (derives_append_iff.2 ⟨_, _, hy, hd', rfl⟩) hx' (derives_append_iff.2 ⟨_, _, hy', he', rfl⟩)
  rw [hb hy hd' hy' he']

/-- An optional pattern is settled before one that never begins where the optional one can be read first. -/
theorem settledBefore_optional (ha : SettledBefore a b)
    (hab : ∀ ⦃s : Text⦄ ⦃d e : Derivation⦄, Derives a s d → ¬ Derives b s e) : SettledBefore (.optional a) b := by
  intro s d e d' e' hd hd' he he'
  rcases derives_optional_iff.1 hd with hd | rfl
  · rcases derives_optional_iff.1 he with he | rfl
    · exact ha hd hd' he he'
    · exact absurd he' (hab hd)
  · rcases derives_optional_iff.1 he with he | rfl
    · exact absurd hd' (hab he)
    · rfl

/-- One of two patterns is settled before a third if each of them is and no text has a reading by both. -/
theorem settledBefore_either (ha : SettledBefore a c) (hb : SettledBefore b c)
    (hab : ∀ ⦃s : Text⦄ ⦃d e : Derivation⦄, Derives a s d → ¬ Derives b s e) : SettledBefore (.either a b) c := by
  intro s d e d' e' hd hd' he he'
  rcases derives_either_iff.1 hd with hd | hd
  · rcases derives_either_iff.1 he with he | he
    · exact ha hd hd' he he'
    · exact absurd he (hab hd)
  · rcases derives_either_iff.1 he with he | he
    · exact absurd hd (hab he)
    · exact hb hd hd' he he'

/-- A repetition reads nothing, or its pattern once and then a repetition. -/
theorem derives_many_iff {s : Text} {d : Derivation} :
    Derives (.many a) s d ↔
      d = .plain 0 s ∨ ∃ e f, Derives a s e ∧ 0 < e.length ∧ Derives (.many a) e.rest f ∧ d = e.andThen f := by
  constructor
  · intro h
    cases h with
    | stop => exact .inl rfl
    | more he hlt hf => exact .inr ⟨_, _, he, hlt, hf, rfl⟩
  · rintro (rfl | ⟨e, f, he, hlt, hf, rfl⟩)
    · exact .stop
    · exact .more he hlt hf

/-- Before a pattern, repetitions begin with one of them or not at all. -/
theorem BeginsWith.many_append (ha : BeginsWith a q) (hb : BeginsWith b q) : BeginsWith (.many a ++ b) q := by
  intro s d hd
  obtain ⟨e, f, he, hf, -⟩ := derives_append_iff.1 hd
  rcases derives_many_iff.1 he with rfl | ⟨x, y, hx, -, -, -⟩
  · exact hb hf
  · exact ha hx

/-- Repetitions are settled before a pattern that begins nowhere where one more of them could still lead to it. -/
theorem settledBefore_many (ha : SettledBefore a (.many a ++ b))
    (hab : ∀ ⦃s : Text⦄ ⦃d e : Derivation⦄, Derives (a ++ (.many a ++ b)) s d → ¬ Derives b s e) :
    SettledBefore (.many a) b := by
  intro s d e d' e' hd hd' he he'
  -- one more repetition leaves less of the text, so the induction is on how long the text is
  induction hn : s.length using Nat.strongRecOn generalizing s d e with
  | ind n ih =>
    rcases derives_many_iff.1 hd with rfl | ⟨x, y, hx, hlt, hy, rfl⟩
    · rcases derives_many_iff.1 he with rfl | ⟨x', y', hx', -, hy', rfl⟩
      · rfl
      · exact absurd hd' (hab (derives_append_iff.2 ⟨x', _, hx', derives_append_iff.2 ⟨y', _, hy', he', rfl⟩, rfl⟩))
    · rcases derives_many_iff.1 he with rfl | ⟨x', y', hx', -, hy', rfl⟩
      · exact absurd he' (hab (derives_append_iff.2 ⟨x, _, hx, derives_append_iff.2 ⟨y, _, hy, hd', rfl⟩, rfl⟩))
      · obtain rfl := ha hx (derives_append_iff.2 ⟨y, _, hy, hd', rfl⟩) hx' (derives_append_iff.2 ⟨y', _, hy', he', rfl⟩)
        obtain ⟨u, hu, hul⟩ := hx.eq_append
        have hshorter : x.rest.length < n := by
          rw [← hn, hu, List.length_append]
          omega
        rw [ih _ hshorter hy hd' hy' he' rfl]

/-- A pattern that is settled before an unambiguous one makes an unambiguous one with it. -/
theorem unambiguous_append (ha : SettledBefore a b) (hb : Unambiguous b) : Unambiguous (a ++ b) := by
  intro s d e hd he
  obtain ⟨x, y, hx, hy, rfl⟩ := derives_append_iff.1 hd
  obtain ⟨x', y', hx', hy', rfl⟩ := derives_append_iff.1 he
  obtain rfl := ha hx hy hx' hy'
  rw [hb hy hy']

/-! ## The tokens of declarations -/

/-- A character that is no blank. -/
def Solid (x : Char) : Prop := isBlank x = false

/-- A character that stands in no word. -/
def OutsideWords (x : Char) : Prop := isWord x = false

/-- A word character is no blank. -/
theorem solid_of_isWord {x : Char} (h : isWord x = true) : Solid x := by
  cases hx : isBlank x with
  | false => exact hx
  | true => rw [isWord_eq_false_of_isBlank hx] at h; exact absurd h (by decide)

/-- Blanks begin outside of words. -/
theorem beginsWith_blanks : BeginsWith blanks OutsideWords :=
  ((beginsWith_char isBlank).mono fun _ hx => isWord_eq_false_of_isBlank hx).append

/-- A word begins with a word character. -/
theorem beginsWith_word : BeginsWith word (isWord · = true) := (beginsWith_char isWord).append

theorem beginsWith_keyword {w : String} {x : Char} {t : Text} (h : w.toList = x :: t) : BeginsWith (keyword w) (· = x) :=
  (beginsWith_lit h).append

theorem beginsWith_parenthesised (f : Field) : BeginsWith (parenthesised f) (· = '(') :=
  (beginsWith_lit (x := '(') (t := []) rfl).append.append

/-- A gap is settled before what begins with no blank. -/
theorem settledBefore_gap (hb : BeginsWith b Solid) : SettledBefore gap b := settledBefore_run hb

/-- Blanks are settled before what begins with no blank. -/
theorem settledBefore_blanks (hb : BeginsWith b Solid) : SettledBefore blanks b :=
  settledBefore_append ((unambiguous_char isBlank).settledBefore _) (settledBefore_run hb)

/-- A keyword is settled before what begins with no blank. -/
theorem settledBefore_keyword (w : String) (hb : BeginsWith b Solid) : SettledBefore (keyword w) b :=
  settledBefore_append ((unambiguous_text w.toList).settledBefore _) (settledBefore_blanks hb)

/-- A word is settled before what begins outside of words. -/
theorem settledBefore_word (hb : BeginsWith b OutsideWords) : SettledBefore word b :=
  settledBefore_append ((unambiguous_char isWord).settledBefore _) (settledBefore_run hb)

/-- A list is read in one way at most: it ends at the first closing parenthesis. -/
theorem unambiguous_parenthesised (f : Field) : Unambiguous (parenthesised f) := by
  refine unambiguous_append (settledBefore_append ((unambiguous_text _).settledBefore _) ?_) (unambiguous_text _)
  refine settledBefore_field (settledBefore_run ?_)
  exact (beginsWith_lit (x := ')') (t := []) rfl).mono fun x hx => by simp [hx]

/-- A text between two marks of which the second does not stand in it has one reading. -/
theorem unambiguous_delimited (w w' : String) {c : Char} (h : w'.toList = [c]) :
    Unambiguous (lit w ++ upTo c ++ lit w') := by
  refine unambiguous_append (settledBefore_append ((unambiguous_text _).settledBefore _) ?_) (unambiguous_text _)
  exact settledBefore_run ((beginsWith_lit h).mono fun x hx => by simp [hx])

/-- Every reading of the pattern begins with a character after any blanks. -/
def BeginsAfterBlanks (p : Pattern) (x : Char) : Prop :=
  ∀ ⦃s : Text⦄ ⦃d : Derivation⦄, Derives p s d → ∃ u r, s = u ++ x :: r ∧ ∀ c ∈ u, isBlank c = true

/-- A gap and then a pattern begins, after blanks, as the pattern does. -/
theorem beginsAfterBlanks_gap {x : Char} (hb : BeginsWith b (· = x)) : BeginsAfterBlanks (gap ++ b) x := by
  intro s d hd
  obtain ⟨_, f, he, hf, -⟩ := derives_append_iff.1 hd
  obtain ⟨u, r, rfl, hu, rfl⟩ := derives_run_iff.1 he
  obtain ⟨y, t, rfl, rfl⟩ := hb hf
  exact ⟨u, t, rfl, hu⟩

theorem beginsAfterBlanks_blanks {x : Char} (hb : BeginsWith b (· = x)) : BeginsAfterBlanks (blanks ++ b) x := by
  intro s d hd
  obtain ⟨y, e, hy, he, -⟩ := derives_append_iff.1 (derives_append_assoc.1 hd)
  obtain ⟨c, t, rfl, hc, rfl⟩ := derives_char_iff.1 hy
  obtain ⟨u, r, hr, hu⟩ := beginsAfterBlanks_gap hb he
  change t = u ++ x :: r at hr
  subst hr
  refine ⟨c :: u, r, rfl, ?_⟩
  intro z hz
  rcases List.mem_cons.1 hz with rfl | hz
  · exact hc
  · exact hu z hz

/-- A sequence begins after blanks as its first part does. -/
theorem BeginsAfterBlanks.append {x : Char} (ha : BeginsAfterBlanks a x) : BeginsAfterBlanks (a ++ b) x := by
  intro s d hd
  obtain ⟨e, f, he, -, -⟩ := derives_append_iff.1 hd
  exact ha he

/-- Patterns that begin, after any blanks, with different characters have no reading of one text. -/
theorem BeginsAfterBlanks.disjoint {x y : Char} (ha : BeginsAfterBlanks a x) (hb : BeginsAfterBlanks b y) (hx : Solid x)
    (hy : Solid y) (hne : x ≠ y) {s : Text} {d e : Derivation} (hd : Derives a s d) : ¬ Derives b s e := by
  intro he
  obtain ⟨u, r, rfl, hu⟩ := ha hd
  obtain ⟨v, t, hs, hv⟩ := hb he
  have hcut := run_split_unique hs hu hv (fun c hc => Option.some.inj hc ▸ hx) (fun c hc => Option.some.inj hc ▸ hy)
  exact hne (List.cons.inj hcut.2).1

end SourceInventory.Pattern
