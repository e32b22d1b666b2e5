import SourceInventory.Proofs.Json.Grammar

/-!
# Complete: the value that a text denotes is read from it

Every way of writing that the grammar has is read as what is written, up to where it ends: a point of a string if anything
follows, a number if what follows cannot be a part of it, an array and an object whatever follows. So a text that denotes a
value, its integers not too long, is read as this value (`read_of_denotes`).
-/

namespace SourceInventory.Json

/-! ## Gaps -/

theorem gap_nil : Gap [] := fun _ hc => absurd hc List.not_mem_nil

/-- A gap is passed over whatever follows it. -/
theorem skipGap_append {g : Text} (hg : Gap g) (s : Text) : skipGap (g ++ s) = skipGap s := by
  rw [skipGap, List.dropWhile_append_of_pos hg]
  rfl

/-- Of a gap alone nothing is left. -/
theorem skipGap_of_gap {g : Text} (hg : Gap g) : skipGap g = [] := by
  have h := skipGap_append hg []
  rwa [List.append_nil] at h

/-- Gaps are passed over up to a character that is none. -/
theorem skipGap_append_cons {g : Text} (hg : Gap g) {c : Char} (hc : isGap c = false) (s : Text) :
    skipGap (g ++ c :: s) = c :: s := by
  rw [skipGap_append hg, skipGap, List.dropWhile_cons_of_neg (by simp [hc])]

/-! ## Strings -/

/-- A code point is read if anything follows. -/
theorem codePoints_point {u : Text} {c : CodePoint} (h : SpellsPoint u c) (opening : Text) (e : Char) (s : Text) :
    codePoints opening (u ++ e :: s) = (codePoints opening (e :: s)).map fun r => (c :: r.1, r.2) := by
  cases h with
  | char hquote hbackslash hcontrol =>
    rw [List.singleton_append, codePoints, if_neg hquote, if_neg hcontrol]
    all_goals simp [hbackslash]
  | @letter l c hletter =>
    have hu : l ≠ 'u' := by
      rintro rfl
      exact absurd hletter (by simp [letterEscape?])
    rw [List.cons_append, List.singleton_append, codePoints, if_neg hu, hletter]
    exact fun _ _ _ _ _ _ h => absurd h hu
  | digits hnumber =>
    simp only [List.cons_append, List.nil_append]
    rw [codePoints, hnumber]

/-- Code points are read up to the quotation mark after them. -/
theorem codePoints_points {u : Text} {cs : CodeText} (h : SpellsPoints u cs) (opening r : Text) :
    codePoints opening (u ++ '"' :: r) = .ok (cs, r) := by
  induction h with
  | nil => rw [List.nil_append, codePoints, if_pos rfl] <;> simp
  | @cons u w c cs h _ ih =>
    obtain ⟨e, s, hrest⟩ : ∃ e s, w ++ '"' :: r = e :: s := List.exists_cons_of_ne_nil (by simp)
    rw [List.append_assoc, hrest, codePoints_point h, ← hrest, ih]
    rfl

/-- What spells code points is read up to the closing quote, with surrogate pairs joined. -/
theorem stringTail_points {u : Text} {cs : CodeText} (h : SpellsPoints u cs) (opening r : Text) :
    stringTail opening (u ++ '"' :: r) = .ok (joinPairs cs, r) := by
  rw [stringTail, codePoints_points h]
  rfl

/-! ## Numbers -/

/-- No digit follows. -/
def NoDigit (r : Text) : Prop := ∀ c, r.head? = some c → c.isDigit = false

/-- What follows cannot be a part of a number. -/
def Ends (r : Text) : Prop := ∀ c, r.head? = some c → c.isDigit = false ∧ c ≠ '.' ∧ c ≠ 'e' ∧ c ≠ 'E'

theorem Ends.noDigit {r : Text} (h : Ends r) : NoDigit r := fun c hc => (h c hc).1

/-- A text that begins with no digit ends a run of digits. -/
theorem noDigit_cons {c : Char} (hc : c.isDigit = false) (r : Text) : NoDigit (c :: r) := by
  intro d hd
  rwa [← Option.some.inj hd]

/-- A number ends before any character that could not go on with it. -/
theorem ends_cons {c : Char} (hc : c.isDigit = false) (hpoint : c ≠ '.') (he : c ≠ 'e' ∧ c ≠ 'E') (r : Text) : Ends (c :: r) := by
  intro d hd
  rw [← Option.some.inj hd]
  exact ⟨hc, hpoint, he⟩

/-- A gap is no part of a number. -/
theorem ends_gap_append {g r : Text} (hg : Gap g) (hr : Ends r) : Ends (g ++ r) := by
  cases g with
  | nil => exact hr
  | cons c g =>
    have hc := hg c List.mem_cons_self
    simp only [isGap, Bool.or_eq_true, beq_iff_eq, or_assoc] at hc
    rcases hc with rfl | rfl | rfl | rfl
    all_goals exact ends_cons (by decide) (by decide) (by decide) _

/-- A number ends before a gap. -/
theorem ends_gap {g : Text} (hg : Gap g) : Ends g := by
  have hend := ends_gap_append hg (r := []) fun c hc => by simp at hc
  rwa [List.append_nil] at hend

/-- Digits are taken up to the first character that is none. -/
theorem takeWhile_digits {ds r : Text} (hds : Digits ds) (hr : NoDigit r) : (ds ++ r).takeWhile Char.isDigit = ds := by
  rw [List.takeWhile_append_of_pos hds]
  cases r with
  | nil => exact List.append_nil ds
  | cons c r => rw [List.takeWhile_cons_of_neg (by simp [hr c rfl]), List.append_nil]

theorem dropWhile_digits {ds r : Text} (hds : Digits ds) (hr : NoDigit r) : (ds ++ r).dropWhile Char.isDigit = r := by
  rw [List.dropWhile_append_of_pos hds]
  cases r with
  | nil => rfl
  | cons c r => rw [List.dropWhile_cons_of_neg (by simp [hr c rfl])]

/-- The whole part of a number is read up to its end. -/
theorem wholeDigits_append {ds r : Text} (h : Whole ds) (hr : NoDigit r) : wholeDigits (ds ++ r) = some (ds, r) := by
  cases h with
  | zero => rfl
  | digits hc hzero hds =>
    rw [List.cons_append, wholeDigits, if_neg hzero, if_pos hc, takeWhile_digits hds hr, dropWhile_digits hds hr]

/-- The fraction of a number is read up to its end, and none is read where no point stands. -/
theorem fraction_append {u part r : Text} (h : Part u part) (hr : NoDigit r) (hpoint : r.head? ≠ some '.') :
    fraction (u ++ r) = (part, r) := by
  cases h with
  | none =>
    rw [List.nil_append]
    unfold fraction
    split
    · exact absurd rfl hpoint
    · rfl
  | digits hne hds =>
    rw [List.cons_append, fraction, takeWhile_digits hds hr, dropWhile_digits hds hr, if_neg (by simpa using hne)]

/-- The exponent of a number is read up to its end, and none is read where no `e` stands. -/
theorem exponent_append {w r : Text} {power : Option Int} (h : Power w power) (hr : NoDigit r)
    (he : r.head? ≠ some 'e' ∧ r.head? ≠ some 'E') : exponent (w ++ r) = (power, r) := by
  cases h with
  | none =>
    cases r with
    | nil => rfl
    | cons c r =>
      have hc : ¬(c = 'e' ∨ c = 'E') := by simpa using he
      rw [List.nil_append]
      unfold exponent
      exact if_neg hc
  | @unsigned e ds he' hne hds =>
    obtain ⟨d, ds', rfl⟩ := List.exists_cons_of_ne_nil hne
    have hd := hds d List.mem_cons_self
    have hminus : d ≠ '-' := ne_of_isDigit hd (by decide)
    have hplus : d ≠ '+' := ne_of_isDigit hd (by decide)
    have htake := takeWhile_digits hds hr
    have hdrop := dropWhile_digits hds hr
    rw [List.cons_append] at htake hdrop
    rw [List.cons_append, List.cons_append, exponent, if_pos he']
    · simp [htake, hdrop]
    · simp [hminus]
    · simp [hplus]
  | plus he' hne hds =>
    rw [List.cons_append, List.cons_append, exponent, if_pos he']
    simp [takeWhile_digits hds hr, dropWhile_digits hds hr, hne]
  | minus he' hne hds =>
    rw [List.cons_append, List.cons_append, exponent, if_pos he']
    simp [takeWhile_digits hds hr, dropWhile_digits hds hr, hne]

/-- What stands at the end of a number does not go on with its digits, nor with a point. -/
theorem noDigit_power_append {w r : Text} {power : Option Int} (h : Power w power) (hr : Ends r) :
    NoDigit (w ++ r) ∧ (w ++ r).head? ≠ some '.' := by
  have letter : ∀ {e : Char}, e = 'e' ∨ e = 'E' → ∀ s, NoDigit (e :: s) ∧ (e :: s).head? ≠ some '.' := by
    rintro e (rfl | rfl) s
    · exact ⟨noDigit_cons (by decide) s, by simp⟩
    · exact ⟨noDigit_cons (by decide) s, by simp⟩
  cases h with
  | none => exact ⟨hr.noDigit, fun h => (hr _ h).2.1 rfl⟩
  | unsigned he => exact letter he _
  | plus he => exact letter he _
  | minus he => exact letter he _

/-- A fraction begins with no digit, nor does what follows where there is none. -/
theorem noDigit_part_append {u part r : Text} (h : Part u part) (hr : NoDigit r) : NoDigit (u ++ r) := by
  cases h with
  | none => exact hr
  | digits => exact noDigit_cons (by decide) _

/-- A number is read in parts: its sign, the digits before the point, those after it and the exponent, and what is left. -/
def Parts (s : Text) (i : Int) (ds part : Text) (power : Option Int) (r : Text) : Prop :=
  ∃ sign t r₁ r₂, Sign sign i ∧ s = sign ++ t ∧ t.head? ≠ some '-' ∧ wholeDigits t = some (ds, r₁) ∧ fraction r₁ = (part, r₂) ∧
    exponent r₂ = (power, r)

/-- The parts of a number are those that are written, if what follows cannot be a part of it. -/
theorem SpellsNumber.exists_parts {limit : ℕ∞} {u r : Text} {n : Number} (h : SpellsNumber limit u n) (hr : Ends r) :
    (∃ i ds, Parts (u ++ r) i ds [] none r ∧ (ds.length : ℕ∞) ≤ limit ∧ n = .integer (i * digitsValue ds)) ∨
      ∃ i ds part power, Parts (u ++ r) i ds part power r ∧ (part ≠ [] ∨ power ≠ none) ∧
        n = .decimal (i * digitsValue (ds ++ part)) (power.getD 0 - part.length) := by
  have hexp : r.head? ≠ some 'e' ∧ r.head? ≠ some 'E' := ⟨fun h => (hr _ h).2.2.1 rfl, fun h => (hr _ h).2.2.2 rfl⟩
  have head : ∀ {ds : Text}, Whole ds → ∀ s, (ds ++ s).head? ≠ some '-' := by
    intro ds hwhole s
    obtain ⟨c, cs, rfl, hc⟩ := hwhole.exists_cons
    simpa using ne_of_isDigit hc (by decide)
  cases h with
  | @integer sign ds i hsign hwhole hlimit =>
    have hfraction := fraction_append .none hr.noDigit fun h => (hr _ h).2.1 rfl
    exact Or.inl ⟨i, ds, ⟨sign, ds ++ r, r, r, hsign, List.append_assoc _ _ _, head hwhole r,
      wholeDigits_append hwhole hr.noDigit, hfraction, exponent_append .none hr.noDigit hexp⟩, hlimit, rfl⟩
  | @decimal sign ds u part w i power hsign hwhole hpart hpower h =>
    obtain ⟨hdigit, hpoint⟩ := noDigit_power_append hpower hr
    refine Or.inr ⟨i, ds, part, power, ⟨sign, ds ++ (u ++ (w ++ r)), u ++ (w ++ r), w ++ r, hsign, by simp only [List.append_assoc],
      head hwhole _, ?_, fraction_append hpart hdigit hpoint, exponent_append hpower hr.noDigit hexp⟩, h, rfl⟩
    exact wholeDigits_append hwhole (noDigit_part_append hpart hdigit)

/-- A number is refused only if it has neither a fraction nor an exponent, and too many digits. -/
theorem numeral_of_parts {s ds part r : Text} {i : Int} {power : Option Int} (h : Parts s i ds part power r) :
    numeral s =
      if part.isEmpty && power.isNone then
        if ds.length ≤ integerDigits then .ok (.integer (i * digitsValue ds), r) else .error (.integerTooLong ds.length)
      else .ok (.decimal (i * digitsValue (ds ++ part)) (power.getD 0 - part.length), r) := by
  obtain ⟨sign, t, r₁, r₂, hsign, rfl, ht, hwhole, hfraction, hexponent⟩ := h
  cases hsign with
  | none =>
    rw [List.nil_append]
    unfold numeral
    split
    rename_i negative t' hst
    split at hst
    · exact absurd rfl ht
    · obtain ⟨rfl, rfl⟩ := Prod.mk.inj hst
      rw [hwhole]
      dsimp only
      rw [hfraction]
      dsimp only
      rw [hexponent]
      rfl
  | minus =>
    rw [List.singleton_append, numeral]
    dsimp only
    rw [hwhole]
    dsimp only
    rw [hfraction]
    dsimp only
    rw [hexponent]
    rfl

/-- A number is read if what follows cannot be a part of it. -/
theorem numeral_append {u r : Text} {n : Number} (h : SpellsNumber integerDigits u n) (hr : Ends r) :
    numeral (u ++ r) = .ok (n, r) := by
  obtain ⟨i, ds, hparts, hlimit, rfl⟩ | ⟨i, ds, part, power, hparts, hdecimal, rfl⟩ := h.exists_parts hr
  · rw [numeral_of_parts hparts, if_pos (by rfl), if_pos (Nat.cast_le.1 hlimit)]
  · rw [numeral_of_parts hparts, if_neg]
    rw [Bool.and_eq_true, List.isEmpty_iff, Option.isNone_iff_eq_none, not_and_or]
    exact hdecimal

/-! ## Values -/

/-- The word that a text begins with, and what follows it. -/
def word? (s : Text) : Option (Json × Text) := words.findSome? fun w => (Text.after? w.1 s).map (w.2, ·)

/-- No word begins with a digit, nor with a minus and a digit. -/
theorem word?_number {limit : ℕ∞} {u : Text} {n : Number} (h : SpellsNumber limit u n) (r : Text) : word? (u ++ r) = none := by
  obtain ⟨c, cs, hc, hu⟩ := h.exists_sign
  have other : ∀ x : Char, x.isDigit = false → x ≠ c := fun x hx => (ne_of_isDigit hc hx).symm
  rcases hu with rfl | rfl
  all_goals
    simp [word?, words, Text.after?, other 'n' rfl, other 't' rfl, other 'f' rfl, other 'N' rfl, other 'I' rfl, other '-' rfl]

/-- No word begins another one. -/
theorem word?_word {w : Text × Json} (hw : w ∈ words) (r : Text) : word? (w.1 ++ r) = some (w.2, r) := by
  simp only [words, List.mem_cons, List.not_mem_nil, or_false] at hw
  rcases hw with rfl | rfl | rfl | rfl | rfl | rfl
  all_goals simp [word?, words, Text.after?]

/-- A word is read whatever follows, a number if what follows cannot be a part of it. -/
theorem scalar_append {u r : Text} {v : Json} (h : SpellsScalar integerDigits u v) (hr : Ends r) :
    scalar (u ++ r) = .ok (v, r) := by
  unfold scalar
  cases h with
  | word hw =>
    have hword := word?_word hw r
    unfold word? at hword
    rw [hword]
  | number hn =>
    have hword := word?_number hn r
    unfold word? at hword
    rw [hword, numeral_append hn hr]
    rfl

/-- A value that begins with neither a quotation mark nor a bracket is a scalar. -/
theorem value_scalar {c : Char} (hquote : c ≠ '"') (harray : c ≠ '[') (hobject : c ≠ '{') (n : Nat) (s : Text) :
    value (n + 1) (c :: s) = scalar (c :: s) := by
  unfold value
  split
  · rename_i h
    exact absurd (List.cons.inj h).1 hquote
  · rename_i h
    exact absurd (List.cons.inj h).1 harray
  · rename_i h
    exact absurd (List.cons.inj h).1 hobject
  · rfl

/-- What is written in at most so many characters is read at a depth of `n`: values if what follows ends a number, items and
members whatever follows. -/
structure ReadsAt (n : Nat) : Prop where
  value : ∀ {u v}, Spells integerDigits u v → 2 * u.length ≤ n → ∀ r, Ends r → value n (u ++ r) = .ok (v, r)
  items : ∀ {u vs}, SpellsItems integerDigits u vs → 2 * u.length ≤ n + 1 → ∀ r, items n (u ++ r) = .ok (vs, r)
  members : ∀ {u ms}, SpellsMembers integerDigits u ms → 2 * u.length ≤ n + 1 → ∀ r, members n (u ++ r) = .ok (ms, r)

/-- The items of an array begin with a value, neither with a gap nor with the closing bracket. -/
theorem SpellsItems.exists_cons {limit : ℕ∞} {u : Text} {vs : List Json} (h : SpellsItems limit u vs) :
    ∃ c cs, u = c :: cs ∧ isGap c = false ∧ c ≠ ']' := by
  cases h with
  | last hv | cons hv =>
    obtain ⟨c, cs, rfl, hgap, hclose, -⟩ := hv.exists_cons
    exact ⟨c, _, rfl, hgap, hclose⟩

/-- The members of an object begin with a quote. -/
theorem SpellsMembers.exists_cons {limit : ℕ∞} {u : Text} {ms : List (CodeText × Json)} (h : SpellsMembers limit u ms) :
    ∃ cs, u = '"' :: cs := by
  cases h with
  | last hk | cons hk =>
    cases hk
    exact ⟨_, rfl⟩

/-- A number is ended by what may follow an item or a member. -/
theorem ends_gap_cons {g : Text} (hg : Gap g) {c : Char} (hc : c = ',' ∨ c = ']' ∨ c = '}') (s : Text) : Ends (g ++ c :: s) := by
  refine ends_gap_append hg ?_
  rcases hc with rfl | rfl | rfl
  all_goals exact ends_cons (by decide) (by decide) (by decide) s

namespace ReadsAt

variable {n : Nat}

/-- If the reader is complete at a depth, it reads the values at the next one. -/
theorem value_succ (h : ReadsAt n) {u : Text} {v : Json} (hu : Spells integerDigits u v) (hlen : 2 * u.length ≤ n + 1)
    (r : Text) (hr : Ends r) : Json.value (n + 1) (u ++ r) = .ok (v, r) := by
  cases hu with
  | scalar hu =>
    have hscalar := scalar_append hu hr
    obtain ⟨c, cs, rfl, -, hother⟩ := hu.exists_cons
    rw [List.cons_append] at hscalar ⊢
    rw [value_scalar (hother _ (by simp)) (hother _ (by simp)) (hother _ (by simp)), hscalar]
  | string hs =>
    cases hs with
    | quoted hpoints =>
      rw [List.cons_append, List.append_assoc, List.singleton_append, Json.value, stringTail_points hpoints]
      rfl
  | emptyArray hg =>
    rw [List.cons_append, List.append_assoc, List.singleton_append, Json.value, skipGap_append_cons hg (by decide)]
    rfl
  | @array g u vs hg hitems =>
    simp only [List.length_cons, List.length_append] at hlen
    have hread := h.items hitems (by omega) r
    obtain ⟨c, cs, rfl, hgap, hclose⟩ := hitems.exists_cons
    rw [List.cons_append] at hread
    rw [List.cons_append, List.append_assoc, List.cons_append, Json.value, skipGap_append_cons hg hgap]
    split
    · rename_i heq
      exact absurd (List.cons.inj heq).1 hclose
    · rw [hread]
      rfl
  | emptyObject hg =>
    rw [List.cons_append, List.append_assoc, List.singleton_append, Json.value, skipGap_append_cons hg (by decide)]
    rfl
  | @object g u ms hg hmembers =>
    simp only [List.length_cons, List.length_append] at hlen
    have hread := h.members hmembers (by omega) r
    obtain ⟨cs, rfl⟩ := hmembers.exists_cons
    rw [List.cons_append] at hread
    rw [List.cons_append, List.append_assoc, List.cons_append, Json.value, skipGap_append_cons hg (by decide)]
    change (Json.members n _).map _ = _
    rw [hread]
    rfl

/-- It reads the items of an array there. -/
theorem items_succ (h : ReadsAt n) {u : Text} {vs : List Json} (hu : SpellsItems integerDigits u vs)
    (hlen : 2 * u.length ≤ n + 1 + 1) (r : Text) : Json.items (n + 1) (u ++ r) = .ok (vs, r) := by
  cases hu with
  | last hv hg =>
    simp only [List.length_append, List.length_singleton] at hlen
    rw [List.append_assoc, List.append_assoc, List.singleton_append, Json.items,
      h.value hv (by omega) _ (ends_gap_cons hg (by simp) r)]
    dsimp only [bind, Except.bind]
    rw [skipGap_append_cons hg (by decide)]
    rfl
  | cons hv hg hg' hitems =>
    simp only [List.length_append, List.length_cons] at hlen
    have hread := h.items hitems (by omega) r
    obtain ⟨c, cs, rfl, hgap, -⟩ := hitems.exists_cons
    rw [List.cons_append] at hread
    simp only [List.append_assoc, List.cons_append]
    rw [Json.items, h.value hv (by omega) _ (ends_gap_cons hg (by simp) _)]
    dsimp only [bind, Except.bind]
    rw [skipGap_append_cons hg (by decide)]
    change (Json.items n (skipGap _)).map _ = _
    rw [skipGap_append_cons hg' hgap, hread]
    rfl

/-- A member is read up to the comma or the bracket after it. -/
theorem members_member (h : ReadsAt n) {q g g' u g'' : Text} {k : CodeText} {v : Json} (hk : SpellsString q k) (hg : Gap g)
    (hg' : Gap g') (hv : Spells integerDigits u v) (hg'' : Gap g'') (hlen : 2 * u.length ≤ n) {e : Char}
    (he : e = ',' ∨ e = ']' ∨ e = '}') (s : Text) :
    Json.members (n + 1) (q ++ (g ++ ':' :: (g' ++ (u ++ (g'' ++ e :: s))))) =
      match e :: s with
      | '}' :: r => .ok ([(k, v)], r)
      | ',' :: r => (Json.members n (skipGap r)).map fun ms => ((k, v) :: ms.1, ms.2)
      | r => .error (.malformed .comma r) := by
  cases hk with
  | quoted hpoints =>
    have hvalue := h.value hv hlen _ (ends_gap_cons hg'' he s)
    obtain ⟨c, cs, rfl, hgap, -⟩ := hv.exists_cons
    rw [List.cons_append] at hvalue
    simp only [List.append_assoc, List.cons_append, List.nil_append]
    rw [Json.members, stringTail_points hpoints]
    dsimp only [bind, Except.bind]
    rw [skipGap_append_cons hg (by decide)]
    change (Json.value n (skipGap _) >>= _) = _
    rw [skipGap_append_cons hg' hgap, hvalue]
    dsimp only [bind, Except.bind]
    have hnext : isGap e = false := by
      rcases he with rfl | rfl | rfl
      all_goals rfl
    rw [skipGap_append_cons hg'' hnext]
    rfl

/-- It reads the members of an object there. -/
theorem members_succ (h : ReadsAt n) {u : Text} {ms : List (CodeText × Json)} (hu : SpellsMembers integerDigits u ms)
    (hlen : 2 * u.length ≤ n + 1 + 1) (r : Text) : Json.members (n + 1) (u ++ r) = .ok (ms, r) := by
  cases hu with
  | last hk hg hg' hv hg'' =>
    simp only [List.length_append, List.length_cons] at hlen
    simp only [List.append_assoc, List.cons_append, List.nil_append]
    exact h.members_member hk hg hg' hv hg'' (by omega) (by simp) r
  | cons hk hg hg' hv hg'' hg₃ hmembers =>
    simp only [List.length_append, List.length_cons] at hlen
    have hread := h.members hmembers (by omega) r
    obtain ⟨cs, rfl⟩ := hmembers.exists_cons
    rw [List.cons_append] at hread
    simp only [List.append_assoc, List.cons_append]
    rw [h.members_member hk hg hg' hv hg'' (by omega) (by simp)]
    change (Json.members n (skipGap _)).map _ = _
    rw [skipGap_append_cons hg₃ (by decide), hread]
    rfl

end ReadsAt

/-- At every depth that is not too small for it, all that is written is read; the induction is on the depth. -/
theorem readsAt (n : Nat) : ReadsAt n := by
  induction n with
  | zero =>
    refine ⟨fun {u v} hu hlen => ?_, fun {u vs} hu hlen => ?_, fun {u ms} hu hlen => ?_⟩
    · obtain ⟨c, cs, rfl, -⟩ := hu.exists_cons
      simp at hlen
    · obtain ⟨c, cs, rfl, -⟩ := hu.exists_cons
      simp only [List.length_cons] at hlen
      omega
    · obtain ⟨cs, rfl⟩ := hu.exists_cons
      simp only [List.length_cons] at hlen
      omega
  | succ n ih => exact ⟨ih.value_succ, ih.items_succ, ih.members_succ⟩

/-- A text that denotes a value, no integer of it too long, is read as this value. -/
theorem read_of_denotes {s : Text} {v : Json} (h : Denotes integerDigits s v) : read s = .ok v := by
  obtain ⟨hg, h, hg'⟩ := h
  rename_i g u g'
  have hvalue := (readsAt (2 * (g ++ (u ++ g')).length + 2)).value h (by simp only [List.length_append]; omega) g' (ends_gap hg')
  obtain ⟨c, cs, rfl, hgap, -, hmark⟩ := h.exists_cons
  have hhead : ¬(g ++ (c :: cs ++ g')).head? = some '\uFEFF' := by
    cases g with
    | nil => simpa using hmark
    | cons d g =>
      intro hd
      have hgap' := hg d List.mem_cons_self
      rw [Option.some.inj hd] at hgap'
      exact absurd hgap' (by decide)
  rw [List.cons_append] at hvalue hhead
  rw [List.cons_append, read, document, if_neg hhead, skipGap_append_cons hg hgap, hvalue]
  dsimp only [bind, Except.bind]
  rw [skipGap_of_gap hg']
  rfl

end SourceInventory.Json
