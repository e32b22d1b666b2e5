import SourceInventory.Proofs.Extract.Method
import SourceInventory.Proofs.Pattern.Taken
import SourceInventory.Proofs.Pattern.Tiling

/-!
# Hits: what counts as a method

What looks like a method is a word with a list in parentheses before an opening brace. In a body the leftmost is taken, then the
leftmost from its brace on, and so on; what begins a statement is taken as well and left out afterwards. The modifiers before a
name change nothing: they stand in front of it, and from the first of them to the name nothing looks like a method
(`not_headAt_of_blank`). So the search with modifiers and the search without them take the same hits (`Sights.exists_hits`), and
these are determined by the body alone (`ofBody_hits`).
-/

namespace SourceInventory

open Pattern

/-! ## Pieces that are read -/

namespace Pattern

theorem takes_gap : Takes gap fun t cs => (∃ g : Gap, t = g.text) ∧ cs = [] :=
  (takes_run isBlank).mono fun t _ ht => ⟨⟨⟨t, ht.1⟩, rfl⟩, ht.2⟩

theorem takes_word : Takes word fun t cs => (∃ w : Word, t = w.text) ∧ cs = [] := by
  refine ((takes_char isWord).append (takes_run isWord)).mono ?_
  rintro _ _ ⟨⟨⟨c, hc, rfl⟩, rfl⟩, ⟨hu, rfl⟩⟩
  exact ⟨⟨⟨c :: _, List.cons_ne_nil c _, List.forall_mem_cons.2 ⟨hc, hu⟩⟩, rfl⟩, rfl⟩

theorem takes_blanks : Takes blanks fun t cs => (∃ b : Blanks, t = b.text) ∧ cs = [] := by
  refine ((takes_char isBlank).append (takes_run isBlank)).mono ?_
  rintro _ _ ⟨⟨⟨c, hc, rfl⟩, rfl⟩, ⟨hu, rfl⟩⟩
  exact ⟨⟨⟨c :: _, List.cons_ne_nil c _, List.forall_mem_cons.2 ⟨hc, hu⟩⟩, rfl⟩, rfl⟩

/-- A keyword takes its word and blanks. -/
theorem takes_keyword (w : String) : Takes (keyword w) fun t cs => (∃ b : Blanks, t = w.toList ++ b.text) ∧ cs = [] := by
  refine ((takes_lit w).append takes_blanks).mono ?_
  rintro _ _ ⟨⟨rfl, rfl⟩, ⟨⟨b, rfl⟩, rfl⟩⟩
  exact ⟨⟨b, rfl⟩, rfl⟩

end Pattern

namespace Method

/-- A return type is taken as it is written, or left out. -/
theorem takes_returnType :
    Takes (.optional (lit ":" ++ gap ++ word ++ gap)) fun t cs =>
      (∃ type : Option ReturnType, t = type.elim [] ReturnType.text) ∧ cs = [] := by
  refine ((((takes_lit ":").append takes_gap).append takes_word).append takes_gap).optional.mono ?_
  rintro _ _ (⟨⟨⟨⟨rfl, rfl⟩, ⟨⟨afterColon, rfl⟩, rfl⟩⟩, ⟨⟨type, rfl⟩, rfl⟩⟩, ⟨⟨after, rfl⟩, rfl⟩⟩ | ⟨rfl, rfl⟩)
  · exact ⟨⟨some ⟨afterColon, type, after⟩, rfl⟩, rfl⟩
  · exact ⟨⟨none, rfl⟩, rfl⟩

/-! ## What looks like a method -/

/-- What looks like a method, with its name and its parameters: a word, a list in parentheses, a return type or none, with any
blanks between them, and an opening brace. -/
inductive Head : (text name params : Text) → Prop where
  | intro (name : Word) (beforeList : Gap) {params : Text} (hparams : ')' ∉ params) (afterList : Gap)
      (type : Option ReturnType) :
      Head
        (name.text ++ beforeList.text ++ '(' :: (params ++ [')']) ++ afterList.text ++ type.elim [] ReturnType.text ++ ['{'])
        name.text params

variable {t t' name name' params params' : Text}

/-- The head of a method is read with its name and its parameters. -/
theorem Head.reads (h : Head t name params) : Reads head t [(.name, name), (.params, params)] := by
  cases h with
  | intro name beforeList hparams afterList type => exact reads_head name beforeList hparams afterList type

/-- What is read as a method looks like one. -/
theorem takes_head : Takes head fun t cs => ∃ name params, Head t name params ∧ cs = [(.name, name), (.params, params)] := by
  refine ((((((takes_word.field .name).append takes_gap).append (takes_parenthesised .params)).append takes_gap).append
    takes_returnType).append (takes_lit "\x7b")).mono ?_
  rintro _ _ ⟨⟨⟨⟨⟨⟨_, ⟨⟨name, rfl⟩, rfl⟩, rfl⟩, ⟨⟨beforeList, rfl⟩, rfl⟩⟩, ⟨params, rfl, hparams, rfl⟩⟩, ⟨⟨afterList, rfl⟩, rfl⟩⟩,
    ⟨⟨type, rfl⟩, rfl⟩⟩, ⟨rfl, rfl⟩⟩
  exact ⟨name.text, params, .intro name beforeList hparams afterList type, rfl⟩

/-- One text begins with one of them at most. -/
theorem Head.unique {s : Text} (h : Head t name params) (h' : Head t' name' params') (hs : t <+: s) (hs' : t' <+: s) :
    t = t' ∧ name = name' ∧ params = params' := by
  obtain ⟨rest, rfl⟩ := hs
  obtain ⟨rest', hrest⟩ := hs'
  obtain ⟨d, hd, hdrest, hdcaptures⟩ := h.reads rest
  obtain ⟨e, he, herest, hecaptures⟩ := h'.reads rest'
  obtain rfl := unambiguous_head hd (hrest ▸ he)
  obtain rfl := hdrest.symm.trans herest
  have hcaptures := hdcaptures.symm.trans hecaptures
  simp only [List.cons.injEq, Prod.mk.injEq, true_and, and_true] at hcaptures
  exact ⟨(List.append_cancel_right hrest).symm, hcaptures⟩

/-- It goes from a word and blanks to a parenthesis. -/
theorem Head.exists_opening (h : Head t name params) :
    ∃ (w : Word) (g : Gap) (r : Text), name = w.text ∧ t = w.text ++ g.text ++ '(' :: r := by
  obtain @⟨name, beforeList, params, hparams, afterList, type⟩ := h
  refine ⟨name, beforeList, params ++ [')'] ++ afterList.text ++ type.elim [] ReturnType.text ++ ['{'], rfl, ?_⟩
  simp only [List.append_assoc, List.cons_append]

/-- The head of a method ends in the brace that opens the body. -/
theorem Head.getLast?_eq (h : Head t name params) : t.getLast? = some '{' := by
  cases h
  exact List.getLast?_concat

/-- A word character before its name makes the name longer. -/
theorem Head.cons {c : Char} (hc : isWord c = true) (h : Head t name params) : Head (c :: t) (c :: name) params := by
  obtain @⟨name, beforeList, params, hparams, afterList, type⟩ := h
  exact .intro ⟨c :: name.text, List.cons_ne_nil c _, List.forall_mem_cons.2 ⟨hc, name.isWord_text⟩⟩ beforeList hparams
    afterList type

/-- What looks like a method begins at a place of a body. -/
def HeadAt (body : Text) (place : Nat) : Prop := ∃ t name params, Head t name params ∧ t <+: body.drop place

/-! ## Modifiers -/

/-- Words and blanks of which the last is a blank. -/
def EndsBlank (u : Text) : Prop := ∃ v b, u = v ++ [b] ∧ (∀ c ∈ v, isWord c = true ∨ isBlank c = true) ∧ isBlank b = true

/-- A modifier ends in a blank. -/
theorem takes_modifier : Takes modifier fun t cs => EndsBlank t ∧ cs = [] := by
  intro s d hd
  obtain ⟨w, hw, b, r, rfl, hne, hblank, rfl⟩ := derives_modifier hd
  obtain ⟨u, x, rfl⟩ := (List.eq_nil_or_concat' b).resolve_left hne
  refine ⟨w ++ (u ++ [x]), (List.append_assoc _ _ _).symm, ⟨w ++ u, x, (List.append_assoc _ _ _).symm, ?_, ?_⟩, rfl⟩
  · intro c hc
    rcases List.mem_append.1 hc with hc | hc
    · exact Or.inl ((isWord_of_mem_modifierWords hw).2 c hc)
    · exact Or.inr (hblank c (List.mem_append_left _ hc))
  · exact hblank x (List.mem_append_right _ List.mem_cons_self)

/-- Two texts that end in blanks do so one after another. -/
theorem EndsBlank.append {u v : Text} (hu : EndsBlank u) (hv : EndsBlank v) : EndsBlank (u ++ v) := by
  obtain ⟨u, x, rfl, hu, hx⟩ := hu
  obtain ⟨v, y, rfl, hv, hy⟩ := hv
  refine ⟨u ++ [x] ++ v, y, (List.append_assoc _ _ _).symm, fun c hc => ?_, hy⟩
  simp only [List.mem_append, List.mem_singleton] at hc
  rcases hc with (hc | rfl) | hc
  · exact hu c hc
  · exact Or.inr hx
  · exact hv c hc

/-- Modifiers end in a blank where there are any. -/
theorem takes_modifiers : Takes modifiers fun t cs => (t = [] ∨ EndsBlank t) ∧ cs = [] := by
  refine takes_modifier.many ⟨Or.inl rfl, rfl⟩ ?_
  rintro _ _ ⟨⟨ht, rfl⟩, ⟨rfl | hu, rfl⟩⟩
  · exact ⟨Or.inr ((List.append_nil _).symm ▸ ht), rfl⟩
  · exact ⟨Or.inr (ht.append hu), rfl⟩

/-- Behind a blank that follows a word no word comes before the parenthesis. -/
theorem pairwise_word_gap (w : Word) (g : Gap) :
    (w.text ++ g.text).Pairwise fun x y => isBlank x = true → isWord y = false := by
  refine List.pairwise_append.2 ⟨?_, ?_, ?_⟩
  · refine List.pairwise_of_forall_mem_list ?_
    intro x hx y _ hblank
    exact absurd (solid_of_isWord (w.isWord_text x hx)) (by simp [Solid, hblank])
  · refine List.pairwise_of_forall_mem_list ?_
    intro _ _ y hy _
    exact isWord_eq_false_of_isBlank (g.isBlank_text y hy)
  · intro _ _ y hy _
    exact isWord_eq_false_of_isBlank (g.isBlank_text y hy)

/-- A word and a gap have word characters and blanks only. -/
theorem isWord_or_isBlank_word_gap (w : Word) (g : Gap) : ∀ c ∈ w.text ++ g.text, isWord c = true ∨ isBlank c = true :=
  fun c hc => (List.mem_append.1 hc).imp (w.isWord_text c) (g.isBlank_text c)

/-- No parenthesis stands among words and blanks. -/
theorem not_mem_of_words {u : Text} (hu : ∀ c ∈ u, isWord c = true ∨ isBlank c = true) : '(' ∉ u :=
  fun h => absurd (hu '(' h) (by decide)

/-- In front of what looks like a method, nothing that looks like one begins in a stretch without a parenthesis that does not end
inside a word. -/
theorem beginsNowhereIn_before_head {u : Text} (hparen : '(' ∉ u) (hlast : ∀ c ∈ u.getLast?, isWord c = false)
    (h : Head t name params) (s : Text) : BeginsNowhereIn head u (t ++ s) := by
  rintro v ⟨y, rfl⟩ hne d hd
  obtain ⟨_, hs, name', params', h', -⟩ := takes_head hd
  obtain ⟨w, g, x, -, rfl⟩ := h.exists_opening
  obtain ⟨w', g', x', -, rfl⟩ := h'.exists_opening
  obtain ⟨z, b, rfl⟩ := (List.eq_nil_or_concat' v).resolve_left hne
  have hsplit : w'.text ++ g'.text ++ '(' :: (x' ++ d.rest) = z ++ b :: (w.text ++ g.text) ++ '(' :: (x ++ s) := by
    simpa using hs.symm
  have hfree : '(' ∉ z ++ b :: (w.text ++ g.text) := by
    have hz : '(' ∉ z ++ [b] := fun hmem => hparen (List.mem_append_right y hmem)
    have hw := not_mem_of_words (isWord_or_isBlank_word_gap w g)
    simp only [List.mem_append, List.mem_cons, List.not_mem_nil, or_false, not_or] at hz hw ⊢
    exact ⟨hz.1, hz.2, hw⟩
  have heq := (cut_unique hsplit (not_mem_of_words (isWord_or_isBlank_word_gap w' g')) hfree).1
  -- what ends the stretch is a blank of the first one, and the name of the second one stands behind it
  have hword : isWord b = false := hlast b (by rw [← List.append_assoc, List.getLast?_concat]; rfl)
  have hb : isBlank b = true := by
    refine (isWord_or_isBlank_word_gap w' g' b (heq ▸ by simp)).resolve_left ?_
    rw [hword]
    exact Bool.false_ne_true
  have hpairs := (List.pairwise_append.1 (heq ▸ pairwise_word_gap w' g')).2.1
  obtain ⟨c, r, hc⟩ := List.exists_cons_of_ne_nil w.text_ne_nil
  have hmem : c ∈ w.text := hc ▸ List.mem_cons_self
  have hno := (List.pairwise_cons.1 hpairs).1 c (List.mem_append_left _ hmem) hb
  rw [w.isWord_text c hmem] at hno
  exact absurd hno (by decide)

/-- Nothing that looks like a method begins in front of another one with a blank in between. -/
theorem not_headAt_of_blank {u s : Text} (hu : EndsBlank u) (h : Head t name params) {i : Nat} (hi : i < u.length) :
    ¬HeadAt (u ++ t ++ s) i := by
  rintro ⟨t', name', params', h', r, hr⟩
  obtain ⟨v, b, rfl, hv, hb⟩ := hu
  have hwords : ∀ c ∈ v ++ [b], isWord c = true ∨ isBlank c = true :=
    List.forall_mem_append.2 ⟨hv, fun c hc => Or.inr (List.mem_singleton.1 hc ▸ hb)⟩
  have hlast : ∀ c ∈ (v ++ [b]).getLast?, isWord c = false := by
    rw [List.getLast?_concat]
    exact fun c hc => Option.some.inj hc ▸ isWord_eq_false_of_isBlank hb
  obtain ⟨d, hd, -⟩ := h'.reads r
  rw [hr, List.append_assoc, List.drop_append_of_le_length (Nat.le_of_lt hi)] at hd
  refine beginsNowhereIn_before_head (not_mem_of_words hwords) hlast h s _ (List.drop_suffix i _) (fun hnil => ?_) d hd
  rw [List.drop_eq_nil_iff] at hnil
  omega

/-! ## Hits -/

/-- A hit in a body. -/
structure Hit where
  /-- The place where it begins. -/
  place : Nat
  /-- Its text up to the opening brace. -/
  text : Text
  /-- The name. -/
  name : Text
  /-- What stands between the parentheses. -/
  params : Text
deriving DecidableEq, Repr

/-- The place behind the brace of a hit. -/
def Hit.next (hit : Hit) : Nat := hit.place + hit.text.length

/-- The method of a hit, unless its name begins a statement. -/
def Hit.method? (hit : Hit) : Option Method :=
  if statementWords.contains hit.name then none else some ⟨hit.name, callSignature hit.name hit.params.trim⟩

/-- The hits in a body from a place on: the leftmost, and then those behind its brace. -/
inductive Hits (body : Text) : (start : Nat) → List Hit → Prop where
  /-- Nothing looks like a method any more. -/
  | stop {k : Nat} : (∀ i, k ≤ i → ¬HeadAt body i) → Hits body k []
  /-- The leftmost that looks like a method, and the hits behind its brace. -/
  | next {k : Nat} {hit : Hit} {hits : List Hit} : k ≤ hit.place → (∀ i, k ≤ i → i < hit.place → ¬HeadAt body i) →
      Head hit.text hit.name hit.params → hit.text <+: body.drop hit.place → Hits body hit.next hits → Hits body k (hit :: hits)

variable {body : Text}

/-- A body has the same hits however they are found. -/
theorem Hits.unique {k : Nat} {hits hits' : List Hit} (h : Hits body k hits) (h' : Hits body k hits') : hits = hits' := by
  induction h generalizing hits' with
  | stop hnone =>
    cases h' with
    | stop _ => rfl
    | next hk _ hhead hat _ => exact absurd ⟨_, _, _, hhead, hat⟩ (hnone _ hk)
  | @next k hit hits hk hleft hhead hat _ ih =>
    cases h' with
    | stop hnone => exact absurd ⟨_, _, _, hhead, hat⟩ (hnone _ hk)
    | @next _ hit' hits' hk' hleft' hhead' hat' htail' =>
      obtain ⟨place, t, name, params⟩ := hit
      obtain ⟨place', t', name', params'⟩ := hit'
      -- each of the two is the leftmost
      have hle : place' ≤ place := Nat.le_of_not_lt fun hlt => hleft' _ hk hlt ⟨_, _, _, hhead, hat⟩
      have hge : place ≤ place' := Nat.le_of_not_lt fun hlt => hleft _ hk' hlt ⟨_, _, _, hhead', hat'⟩
      obtain rfl := Nat.le_antisymm hle hge
      obtain ⟨rfl, rfl, rfl⟩ := hhead.unique hhead' hat hat'
      rw [ih htail']

/-! ## Whole words -/

/-- A word stands at a place of a body, and no word character right before it or right behind it. -/
def WholeWordAt (body : Text) (place : Nat) (w : Text) : Prop :=
  w ≠ [] ∧ (∀ c ∈ w, isWord c = true) ∧ w <+: body.drop place ∧ (∀ c ∈ (body.take place).getLast?, isWord c = false) ∧
    ∀ c ∈ (body.drop (place + w.length)).head?, isWord c = false

/-- The name of what looks like a method is a whole word if no word character stands right before it. -/
theorem Head.wholeWordAt {place : Nat} (h : Head t name params) (hat : t <+: body.drop place)
    (hbefore : ∀ c ∈ (body.take place).getLast?, isWord c = false) : WholeWordAt body place name := by
  obtain ⟨w, g, r, rfl, rfl⟩ := h.exists_opening
  obtain ⟨s, hs⟩ := hat
  simp only [List.append_assoc] at hs
  refine ⟨w.text_ne_nil, w.isWord_text, ⟨_, hs⟩, hbefore, ?_⟩
  rw [← List.drop_drop, ← hs, List.drop_left]
  exact outsideWords_head g.isBlank_text fun _ c hc => Option.some.inj hc ▸ rfl

/-- Right before the leftmost that looks like a method no word character stands, or it would begin further left. -/
theorem isWord_before_eq_false {k place : Nat} (hk : k ≤ place) (hleft : ∀ i, k ≤ i → i < place → ¬HeadAt body i)
    (h : Head t name params) (hat : t <+: body.drop place) (hstart : ∀ c ∈ (body.take k).getLast?, isWord c = false) :
    ∀ c ∈ (body.take place).getLast?, isWord c = false := by
  intro c hc
  rcases Nat.eq_or_lt_of_le hk with rfl | hlt
  · exact hstart c hc
  · obtain ⟨m, rfl⟩ : ∃ m, place = m + 1 := ⟨place - 1, by omega⟩
    by_contra hword
    rw [Bool.not_eq_false] at hword
    have hm : m < body.length := by
      by_contra hge
      rw [List.drop_eq_nil_of_le (by omega)] at hat
      have hlast := h.getLast?_eq
      rw [List.prefix_nil.1 hat] at hlast
      exact absurd hlast (by simp)
    have hdrop : body.drop m = c :: body.drop (m + 1) := by
      rw [List.drop_eq_getElem_cons hm]
      rw [List.take_succ_eq_append_getElem hm, List.getLast?_concat] at hc
      rw [Option.some.inj hc]
    refine hleft m (by omega) (by omega) ⟨_, _, _, h.cons hword, ?_⟩
    rw [hdrop]
    exact (List.cons_prefix_cons).2 ⟨rfl, hat⟩

/-- The names of the hits are whole words. The induction is on the hits: behind the brace of one no word character stands right
before the next. -/
theorem Hits.wholeWordAt {k : Nat} {hits : List Hit} (h : Hits body k hits)
    (hstart : ∀ c ∈ (body.take k).getLast?, isWord c = false) : ∀ hit ∈ hits, WholeWordAt body hit.place hit.name := by
  induction h with
  | stop _ => exact fun _ hmem => absurd hmem List.not_mem_nil
  | @next k hit hits hk hleft hhead hat _ ih =>
    refine List.forall_mem_cons.2 ⟨hhead.wholeWordAt hat (isWord_before_eq_false hk hleft hhead hat hstart), ih ?_⟩
    have htake : body.take hit.next = body.take hit.place ++ hit.text := by
      rw [Hit.next, List.take_add, List.prefix_iff_eq_take.1 hat]
      simp
    intro c hc
    rw [htake, List.getLast?_append, hhead.getLast?_eq] at hc
    exact Option.some.inj hc ▸ rfl

/-! ## The search with modifiers and without -/

/-- A pattern finds what looks like a method: it reads each of them, and each of its readings ends with one, before which none
begins. -/
structure Sights (p : Pattern) : Prop where
  /-- It reads what looks like a method. -/
  reads : ∀ {t name params : Text}, Head t name params → ∃ cs, Reads p t cs
  /-- Its readings end with what looks like a method. -/
  takes : Takes p fun t cs => ∃ u t' name params, t = u ++ t' ∧ Head t' name params ∧ cs = [(.name, name), (.params, params)] ∧
    ∀ (s : Text), ∀ i < u.length, ¬HeadAt (u ++ t' ++ s) i

/-- A head is sighted where it stands. -/
theorem sights_head : Sights head where
  reads h := ⟨_, h.reads⟩
  takes := takes_head.mono fun t _ ⟨name, params, h, hcs⟩ =>
    ⟨[], t, name, params, rfl, h, hcs, fun _ _ hi => absurd hi (Nat.not_lt_zero _)⟩

theorem sights_pattern : Sights pattern where
  reads h := by
    have hnone : Reads modifiers [] [] := fun rest => ⟨_, .stop, rfl, rfl⟩
    exact ⟨_, hnone.append h.reads⟩
  takes := by
    refine (takes_modifiers.append takes_head).mono ?_
    rintro _ _ ⟨⟨hu, rfl⟩, ⟨name, params, h, rfl⟩⟩
    refine ⟨_, _, name, params, rfl, h, rfl, fun s i hi => ?_⟩
    rcases hu with rfl | hu
    · exact absurd hi (Nat.not_lt_zero _)
    · exact not_headAt_of_blank hu h hi

variable {p : Pattern}

/-- Where the pattern does not begin nothing looks like a method. -/
theorem Sights.not_headAt (hp : Sights p) {i : Nat} (h : ¬p.BeginsAt .anywhere body i) : ¬HeadAt body i := by
  rintro ⟨t, name, params, hhead, s, hs⟩
  obtain ⟨cs, hreads⟩ := hp.reads hhead
  obtain ⟨d, hd, -⟩ := hreads s
  exact h ⟨fun hanchor => absurd hanchor (by decide), d, hs ▸ hd⟩

/-- A reading of the pattern ends with the leftmost that looks like a method from where it begins. -/
theorem Sights.exists_hit (hp : Sights p) {j : Nat} {d : Derivation} (hd : Derives p (body.drop j) d) :
    ∃ hit : Hit, j ≤ hit.place ∧ (∀ i, j ≤ i → i < hit.place → ¬HeadAt body i) ∧ Head hit.text hit.name hit.params ∧
      hit.text <+: body.drop hit.place ∧ hit.next = j + d.length ∧
      d.captures = [(.name, hit.name), (.params, hit.params)] := by
  obtain ⟨_, hs, u, t, name, params, rfl, hhead, hcaptures, hnone⟩ := hp.takes hd
  have hlength := length_of_derives_append (hs ▸ hd) rfl
  refine ⟨⟨j + u.length, t, name, params⟩, Nat.le_add_right _ _, ?_, hhead, ?_, ?_, hcaptures⟩
  · intro i hji hi
    rintro ⟨t', name', params', hhead', hat⟩
    refine hnone d.rest (i - j) (by change i < j + u.length at hi; omega) ⟨t', name', params', hhead', ?_⟩
    rwa [← hs, List.drop_drop, Nat.add_sub_cancel' hji]
  · change t <+: body.drop (j + u.length)
    rw [← List.drop_drop, hs, List.append_assoc, List.drop_left]
    exact List.prefix_append t d.rest
  · change j + u.length + t.length = j + d.length
    rw [hlength, List.length_append, Nat.add_assoc]

/-- The name and the parameters of a reading. -/
def heading (d : Derivation) : Text × Text := (d.get .name, d.get .params)

/-- The names and the parameters that a search in a body finds. -/
def headings (p : Pattern) (body : Text) : List (Text × Text) :=
  (p.occurrences .anywhere body).map fun o => heading o.toDerivation

/-- The name and the parameters of a hit. -/
def Hit.heading (hit : Hit) : Text × Text := (hit.name, hit.params)

/-- What a reading captures gives the heading of the hit. -/
theorem heading_of_captures {d : Derivation} {hit : Hit} (h : d.captures = [(.name, hit.name), (.params, hit.params)]) :
    heading d = hit.heading := by
  simp only [heading, Derivation.get, Derivation.get?_eq_lookup, h]
  rfl

/-- The occurrences of a pattern that finds what looks like a method are the hits. The induction is on the occurrences, each of
which ends where its hit does. -/
theorem Sights.exists_hits (hp : Sights p) {k : Nat} {os : List Occurrence} (h : Tiles p .anywhere body k os) :
    ∃ hits, Hits body k hits ∧ os.map (fun o => heading o.toDerivation) = hits.map Hit.heading := by
  induction h with
  | stop hnone => exact ⟨[], .stop fun i hi => hp.not_headAt (hnone i hi), rfl⟩
  | @next k j o os hkj hgap _ ho hd _ ih =>
    obtain ⟨hits, hhits, hmap⟩ := ih
    obtain ⟨hit, hj, hleft, hhead, hat, hnext, hcaptures⟩ := hp.exists_hit (ho ▸ hd)
    refine ⟨hit :: hits, .next (Nat.le_trans hkj hj) ?_ hhead hat (hnext ▸ hhits), ?_⟩
    · intro i hki hi
      rcases Nat.lt_or_ge i j with hlt | hge
      · exact hp.not_headAt (hgap i hki hlt)
      · exact hleft i hge hi
    · rw [List.map_cons, List.map_cons, heading_of_captures hcaptures, hmap]

/-- A body has hits, which a search with modifiers and a search without them find. -/
theorem exists_hits (body : Text) :
    ∃ hits, Hits body 0 hits ∧ headings pattern body = hits.map Hit.heading ∧ headings head body = hits.map Hit.heading := by
  have htiles : ∀ p : Pattern, 0 < p.least → Tiles p .anywhere body 0 (p.occurrences .anywhere body) :=
    fun p hp => tiles_occurrences (fun s d hd => Nat.lt_of_lt_of_le hp (least_le hd)) _ _
  obtain ⟨hits, hhits, hpattern⟩ := sights_pattern.exists_hits (htiles pattern (by decide))
  obtain ⟨hits', hhits', hhead⟩ := sights_head.exists_hits (htiles head (by decide))
  obtain rfl := hhits.unique hhits'
  exact ⟨hits, hhits, hpattern, hhead⟩

/-- A name and parameters give the same method in an occurrence and in a hit. -/
theorem ofOccurrence?_eq_method? {d : Derivation} {hit : Hit} (h : heading d = hit.heading) : ofOccurrence? d = hit.method? := by
  obtain ⟨hname, hparams⟩ := Prod.mk.inj h
  simp only [ofOccurrence?, Hit.method?, hname, hparams, List.contains_iff_mem]

/-- The same names and parameters give the same methods. -/
theorem filterMap_ofOccurrence? {os : List Occurrence} {hits : List Hit}
    (h : os.map (fun o => heading o.toDerivation) = hits.map Hit.heading) :
    os.filterMap (fun o => ofOccurrence? o.toDerivation) = hits.filterMap Hit.method? := by
  induction os generalizing hits with
  | nil =>
    rw [List.map_eq_nil_iff.1 h.symm]
    rfl
  | cons o os ih =>
    obtain ⟨hit, hits, rfl, hhead, htail⟩ := List.map_eq_cons_iff.1 h.symm
    rw [List.filterMap_cons, List.filterMap_cons, ofOccurrence?_eq_method? hhead.symm, ih htail.symm]

/-- A body has one list of hits: the leftmost that looks like a method, and then the leftmost behind the brace of the one before.
The name of each is a whole word of the body. Those whose name begins a statement are left out, and all others are the methods
of the body, in order. A search with modifiers and a search without them find the names and parameters of these hits. -/
theorem ofBody_hits (body : Text) :
    ∃ hits, (∀ hits', Hits body 0 hits' ↔ hits' = hits) ∧ (∀ hit ∈ hits, WholeWordAt body hit.place hit.name) ∧
      ofBody body = hits.filterMap Hit.method? ∧ headings pattern body = hits.map Hit.heading ∧
        headings head body = hits.map Hit.heading := by
  obtain ⟨hits, hhits, hpattern, hhead⟩ := exists_hits body
  refine ⟨hits, fun hits' => ⟨fun h => h.unique hhits, fun h => h ▸ hhits⟩, hhits.wholeWordAt ?_, filterMap_ofOccurrence? hpattern,
    hpattern, hhead⟩
  intro c hc
  rw [List.take_zero] at hc
  exact absurd hc (by simp)

/-- The word of a modifier before the parameters is a name. -/
example : (ofBody "get(key) \x7b\x7d static async (x) \x7b if (x) \x7b\x7d \x7d".toList).map Method.name =
    ["get".toList, "async".toList] := by decide

end Method

end SourceInventory
