import SourceInventory.Proofs.Json.Complete

/-!
# Long integer: the one refusal that is no fault of the text

A reader leaves the end of the text that it read, and refuses an integer only if that many digits stand in the text one after
another, and too many. Both are kept by every way in which readers are put together, and so they hold of the whole reader
(`integerTooLong_of_read`). A text of too many digits is refused for them (`read_digits`).
-/

namespace SourceInventory.Json

/-- As many digits stand in a text one after another, and they are too many for an integer. -/
def HasLongInteger (n : Nat) (s : Text) : Prop :=
  integerDigits < n ∧ ∃ ds, ds <:+: s ∧ ds.length = n ∧ ∀ c ∈ ds, c.isDigit = true

/-- A text has the long integers of its parts. -/
theorem HasLongInteger.mono {n : Nat} {s t : Text} (h : HasLongInteger n s) (hst : s <:+: t) : HasLongInteger n t := by
  obtain ⟨hn, ds, hds, hlen, hdigits⟩ := h
  exact ⟨hn, ds, hds.trans hst, hlen, hdigits⟩

/-- What a reader did with a text: it left an end of it, or it refused an integer only for digits of the text. -/
structure Reads {α : Type} (s : Text) (x : Except Stop (α × Text)) : Prop where
  /-- What is left is an end of the text. -/
  left : ∀ a r, x = .ok (a, r) → r <:+ s
  /-- An integer that was refused stands in the text. -/
  refused : ∀ n, x = .error (.integerTooLong n) → HasLongInteger n s

namespace Reads

variable {α β : Type} {s t : Text}

/-- Reading leaves an end of the text. -/
theorem ok {a : α} {r : Text} (h : r <:+ s) : Reads s (.ok (a, r)) := by
  refine ⟨?_, fun n hn => by simp at hn⟩
  intro b r' hr
  obtain ⟨rfl, rfl⟩ := Prod.mk.inj (Except.ok.inj hr)
  exact h

/-- A text may be malformed whatever it has in it. -/
theorem malformed (c : Cause) (l : Text) : Reads (α := α) s (.error (.malformed c l)) :=
  ⟨fun a r h => by simp at h, fun n h => by simp at h⟩

/-- What is read of an end of a text is read of the text. -/
theorem mono {x : Except Stop (α × Text)} (h : Reads t x) (hts : t <:+ s) : Reads s x :=
  ⟨fun a r hr => (h.left a r hr).trans hts, fun n hn => (h.refused n hn).mono hts.isInfix⟩

/-- Reading goes on in what the first step leaves. -/
theorem bind {x : Except Stop (α × Text)} {f : α × Text → Except Stop (β × Text)} (hx : Reads s x)
    (hf : ∀ a r, x = .ok (a, r) → Reads r (f (a, r))) : Reads s (x >>= f) := by
  cases x with
  | error e =>
    refine ⟨fun b r h => absurd h (by simp [Bind.bind, Except.bind]), fun n hn => ?_⟩
    obtain rfl : e = .integerTooLong n := Except.error.inj hn
    exact hx.refused n rfl
  | ok y => exact (hf y.1 y.2 rfl).mono (hx.left y.1 y.2 rfl)

/-- What is made of the value changes nothing in what is left. -/
theorem map {x : Except Stop (α × Text)} (hx : Reads s x) (f : α × Text → β) : Reads s (x.map fun y => (f y, y.2)) := by
  have h : (x.map fun y => (f y, y.2)) = x >>= fun y => .ok (f y, y.2) := by cases x <;> rfl
  rw [h]
  exact hx.bind fun a r _ => ok (List.suffix_refl r)

end Reads

/-- Passing over a gap leaves an end of the text. -/
theorem skipGap_suffix (s : Text) : skipGap s <:+ s := List.dropWhile_suffix _

/-! ## Strings -/

/-- Code points are read from the text. -/
theorem reads_codePoints (opening s : Text) : Reads s (codePoints opening s) := by
  fun_induction codePoints opening s with
  | case1 => exact .malformed _ _
  | case2 => exact .malformed _ _
  | case3 a b c d e s n _ ih => exact (ih.map _).mono ⟨['\\', 'u', a, b, c, d], rfl⟩
  | case4 => exact .malformed _ _
  | case5 => exact .malformed _ _
  | case6 c s _ _ n _ ih => exact (ih.map _).mono ⟨['\\', c], rfl⟩
  | case7 => exact .malformed _ _
  | case8 s _ => exact .ok (List.suffix_cons _ _)
  | case9 => exact .malformed _ _
  | case10 c s _ _ _ _ _ ih => exact (ih.map _).mono (List.suffix_cons _ _)

theorem reads_stringTail (opening s : Text) : Reads s (stringTail opening s) := (reads_codePoints opening s).map _

/-! ## Numbers -/

/-- The digits before the point stand at the start of the text. -/
theorem wholeDigits_eq_some {s w r : Text} (h : wholeDigits s = some (w, r)) : s = w ++ r ∧ ∀ c ∈ w, c.isDigit = true := by
  cases s with
  | nil => exact absurd h (by simp [wholeDigits])
  | cons c s =>
    rw [wholeDigits] at h
    split at h
    · rename_i hc
      obtain ⟨rfl, rfl⟩ := Prod.mk.inj (Option.some.inj h)
      subst hc
      exact ⟨rfl, List.forall_mem_singleton.2 rfl⟩
    · split at h
      · rename_i hc
        obtain ⟨rfl, rfl⟩ := Prod.mk.inj (Option.some.inj h)
        refine ⟨congrArg (c :: ·) List.takeWhile_append_dropWhile.symm, List.forall_mem_cons.2 ⟨hc, ?_⟩⟩
        exact List.all_eq_true.1 List.all_takeWhile
      · exact absurd h (by simp)

/-- A fraction leaves an end of the text. -/
theorem fraction_suffix (s : Text) : (fraction s).2 <:+ s := by
  rw [fraction.eq_def]
  split
  · split
    · exact List.suffix_refl _
    · exact (List.dropWhile_suffix _).trans (List.suffix_cons _ _)
  · exact List.suffix_refl _

theorem exponent_suffix (s : Text) : (exponent s).2 <:+ s := by
  cases s with
  | nil => exact List.suffix_refl _
  | cons e s =>
    have left : ∀ (t : Text) (power : Option Int), t <:+ s →
        (if (t.takeWhile Char.isDigit).isEmpty then ((none : Option Int), e :: s) else (power, t.dropWhile Char.isDigit)).2
          <:+ e :: s := by
      intro t power ht
      split
      · exact List.suffix_refl _
      · exact (List.dropWhile_suffix _).trans (ht.trans (List.suffix_cons e s))
    unfold exponent
    dsimp only
    split
    · split
      · exact left _ _ (List.suffix_cons _ _)
      · exact left _ _ (List.suffix_cons _ _)
      · exact left _ _ (List.suffix_refl _)
    · exact List.suffix_refl _

/-- A number is read from the text, and is too long only if the text has such an integer. -/
theorem reads_numeral (s : Text) : Reads s (numeral s) := by
  unfold numeral
  split
  rename_i negative t hst
  have ht : t <:+ s := by
    split at hst
    all_goals
      obtain ⟨-, rfl⟩ := Prod.mk.inj hst
      first | exact List.suffix_cons _ _ | exact List.suffix_refl _
  split
  · exact .malformed _ _
  · rename_i whole r hwhole
    obtain ⟨rfl, hdigits⟩ := wholeDigits_eq_some hwhole
    have hleft : (exponent (fraction r).2).2 <:+ s :=
      (exponent_suffix _).trans ((fraction_suffix r).trans ((List.suffix_append whole r).trans ht))
    dsimp only
    split
    · split
      · exact .ok hleft
      · rename_i hlen
        refine ⟨fun a r h => by simp at h, fun n hn => ?_⟩
        obtain rfl : whole.length = n := Stop.integerTooLong.inj (Except.error.inj hn)
        exact ⟨Nat.lt_of_not_le hlen, whole, (List.prefix_append whole r).isInfix.trans ht.isInfix, rfl, hdigits⟩
    · exact .ok hleft

/-! ## Values -/

theorem reads_scalar (s : Text) : Reads s (scalar s) := by
  rw [scalar]
  split
  · rename_i r hr
    obtain ⟨w, -, hw⟩ := List.exists_of_findSome?_eq_some hr
    obtain ⟨t, ht, rfl⟩ := Option.map_eq_some_iff.1 hw
    exact .ok ⟨w.1, (Text.after?_eq_some_iff.1 ht).symm⟩
  · exact (reads_numeral s).map _

/-- What follows the characters between tokens. -/
theorem suffix_of_skipGap {s r : Text} {c : Char} (h : skipGap s = c :: r) : r <:+ s :=
  (List.suffix_cons c r).trans (h ▸ skipGap_suffix s)

/-- Values, items and members are read one inside another, so that the induction is on how deep they may lie. -/
theorem reads_value (n : Nat) :
    (∀ s, Reads s (value n s)) ∧ (∀ s, Reads s (items n s)) ∧ ∀ s, Reads s (members n s) := by
  induction n with
  | zero => exact ⟨fun _ => .malformed _ _, fun _ => .malformed _ _, fun _ => .malformed _ _⟩
  | succ n ih =>
    obtain ⟨hvalue, hitems, hmembers⟩ := ih
    refine ⟨?_, ?_, ?_⟩
    · intro s
      unfold value
      split
      · exact ((reads_stringTail _ _).map _).mono (List.suffix_cons _ _)
      · refine Reads.mono ?_ (List.suffix_cons _ _)
        split
        · rename_i hgap
          exact .ok (suffix_of_skipGap hgap)
        · exact ((hitems _).map _).mono (skipGap_suffix _)
      · refine Reads.mono ?_ (List.suffix_cons _ _)
        split
        · rename_i hgap
          exact .ok (suffix_of_skipGap hgap)
        · exact ((hmembers _).map _).mono (skipGap_suffix _)
      · exact reads_scalar _
    · intro s
      unfold items
      refine (hvalue s).bind fun v r _ => ?_
      dsimp only
      split
      · rename_i hgap
        exact .ok (suffix_of_skipGap hgap)
      · rename_i hgap
        exact ((hitems _).map _).mono ((skipGap_suffix _).trans (suffix_of_skipGap hgap))
      · exact .malformed _ _
    · intro s
      unfold members
      split
      · refine Reads.mono ((reads_stringTail _ _).bind fun k r _ => ?_) (List.suffix_cons _ _)
        dsimp only
        split
        · rename_i hcolon
          refine Reads.mono ((hvalue _).bind fun v r' _ => ?_) ((skipGap_suffix _).trans (suffix_of_skipGap hcolon))
          dsimp only
          split
          · rename_i hgap
            exact .ok (suffix_of_skipGap hgap)
          · rename_i hgap
            exact ((hmembers _).map _).mono ((skipGap_suffix _).trans (suffix_of_skipGap hgap))
          · exact .malformed _ _
        · exact .malformed _ _
      · exact .malformed _ _

/-- An integer is refused only if its digits stand in the text one after another, and are too many. -/
theorem integerTooLong_of_read {s : Text} {n : Nat} (h : read s = .error (.integerTooLong n)) : HasLongInteger n s := by
  have hdocument : document s = .error (.integerTooLong n) := by
    rw [read] at h
    cases hdoc : document s with
    | ok v =>
      rw [hdoc] at h
      cases h
    | error e =>
      rw [hdoc] at h
      cases e with
      | malformed c l => exact absurd (Except.error.inj h) (by simp [Stop.within])
      | integerTooLong m => exact congrArg _ (congrArg _ (Fault.integerTooLong.inj (Except.error.inj h)))
  rw [document] at hdocument
  split at hdocument
  · exact absurd hdocument (by simp)
  · have hv := (reads_value (2 * s.length + 2)).1 (skipGap s)
    cases hval : value (2 * s.length + 2) (skipGap s) with
    | error e =>
      rw [hval] at hdocument
      rw [Except.error.inj hdocument] at hval
      exact (hv.refused n hval).mono (skipGap_suffix s).isInfix
    | ok y =>
      rw [hval] at hdocument
      simp only [bind, Except.bind] at hdocument
      split at hdocument
      · exact absurd hdocument (by simp)
      · exact absurd (Except.error.inj hdocument) (by simp)

/-! ## Texts of digits -/

/-- A run of too many digits, the first of them no zero, is refused with their number. -/
theorem numeral_digits {c : Char} {ds : Text} (hc : c.isDigit = true) (hzero : c ≠ '0') (hds : ∀ d ∈ ds, d.isDigit = true)
    (hlen : integerDigits < ds.length + 1) : numeral (c :: ds) = .error (.integerTooLong (ds.length + 1)) := by
  have hwhole : wholeDigits (c :: ds) = some (c :: ds, []) := by
    have h := wholeDigits_append (.digits hc hzero hds) (ends_gap gap_nil).noDigit
    rwa [List.append_nil] at h
  have hminus : (c :: ds).head? ≠ some '-' := by simpa using ne_of_isDigit hc (by decide)
  have hparts : Parts (c :: ds) 1 (c :: ds) [] none [] := ⟨[], c :: ds, [], [], .none, rfl, hminus, hwhole, rfl, rfl⟩
  rw [numeral_of_parts hparts, if_pos (by rfl), List.length_cons, if_neg (Nat.not_le.2 hlen)]

/-- A text of digits alone is refused as soon as they are too many. -/
theorem read_digits {c : Char} {ds : Text} (hc : c.isDigit = true) (hzero : c ≠ '0') (hds : ∀ d ∈ ds, d.isDigit = true)
    (hlen : integerDigits < ds.length + 1) : read (c :: ds) = .error (.integerTooLong (ds.length + 1)) := by
  have hgap : skipGap (c :: ds) = c :: ds := skipGap_append_cons gap_nil (by simp [isGap, ne_of_isDigit hc]) ds
  have hnumber : SpellsNumber ⊤ (c :: ds) (.integer (1 * digitsValue (c :: ds))) := .integer .none (.digits hc hzero hds) le_top
  have hword := word?_number hnumber []
  rw [List.append_nil] at hword
  unfold word? at hword
  have hscalar : scalar (c :: ds) = .error (.integerTooLong (ds.length + 1)) := by
    rw [scalar, hword, numeral_digits hc hzero hds hlen]
    rfl
  have hvalue : value (2 * (c :: ds).length + 2) (c :: ds) = .error (.integerTooLong (ds.length + 1)) := by
    rw [value_scalar (ne_of_isDigit hc (by decide)) (ne_of_isDigit hc (by decide)) (ne_of_isDigit hc (by decide)), hscalar]
  have hmark : ¬(c :: ds).head? = some '\uFEFF' := by simpa using ne_of_isDigit hc (by decide)
  rw [read, document, if_neg hmark, hgap, hvalue]
  rfl

end SourceInventory.Json
