import Mathlib.Data.Nat.Digits.Defs
import SourceInventory.Proofs.Json.Written
import SourceInventory.Setting

/-!
# Number: the integers that settings write

The grammar of a number is given by rules, and its value by the places of its digits; neither says how a text is read. A text is
read as an integer if and only if it writes that integer (`integer?_eq_some_iff`). So a setting is taken if and only if it
writes an integer that is not negative, and otherwise it is ignored with one warning (`read_outcome`), as long as the default can
be written. With a default of more digits there is no answer to an ignored setting, and the warning is not shown where the level of
the log keeps warnings back (`read_outcome_false`).
-/

namespace SourceInventory.Setting

/-! ## What writes an integer -/

/-- Decimal digits of any scripts with single underscores between them, and the values of the digits. -/
inductive SpellsDigits : Text → List Nat → Prop where
  | last {c : Char} {d : Nat} (h : digitValue? c = some d) : SpellsDigits [c] [d]
  | digit {c : Char} {d : Nat} {s : Text} {ds : List Nat} (h : digitValue? c = some d) (hs : SpellsDigits s ds) :
      SpellsDigits (c :: s) (d :: ds)
  | underscore {c : Char} {d : Nat} {s : Text} {ds : List Nat} (h : digitValue? c = some d) (hs : SpellsDigits s ds) :
      SpellsDigits (c :: '_' :: s) (d :: ds)

/-- A sign, and what the number after it is multiplied by. -/
inductive Sign : Text → Int → Prop where
  | none : Sign [] 1
  | plus : Sign ['+'] 1
  | minus : Sign ['-'] (-1)

/-- Blanks around a number. -/
def Padding (s : Text) : Prop := ∀ c ∈ s, isPadding c = true

/-- A text writes an integer: a sign and digits, not too many of them, with blanks around. -/
inductive Writes : Text → Int → Prop where
  | number {before sign body after : Text} {i : Int} {ds : List Nat} (hbefore : Padding before) (hsign : Sign sign i)
      (hbody : SpellsDigits body ds) (hlimit : ds.length ≤ numberDigits) (hafter : Padding after) :
      Writes (before ++ (sign ++ body ++ after)) (i * (Nat.ofDigits 10 ds.reverse : Nat))

/-- An underscore is no digit. -/
theorem digitValue?_underscore : digitValue? '_' = none := by decide

/-- A digit is no other character. -/
theorem ne_of_digitValue? {c x : Char} {d : Nat} (hc : digitValue? c = some d) (hx : digitValue? x = none) : c ≠ x := by
  rintro rfl
  rw [hx] at hc
  exact absurd hc (by simp)

/-- A digit is no blank. -/
theorem isPadding_of_digitValue? {c : Char} {d : Nat} (h : digitValue? c = some d) : isPadding c = false := by
  have table : ∀ n ∈ blankCodes, digitZeros.find? (fun z => decide (z ≤ n) && decide (n < z + 10)) = none := by decide
  by_contra hpadding
  rw [Bool.not_eq_false, isPadding, Bool.and_eq_true, isBlank, List.contains_iff_mem] at hpadding
  rw [digitValue?, table c.toNat hpadding.1] at h
  exact absurd h (by simp)

variable {s t body sign : Text} {ds : List Nat} {i v : Int} {n : Nat}

/-- Digits begin with a digit. -/
theorem SpellsDigits.exists_cons (h : SpellsDigits s ds) : ∃ c t d, s = c :: t ∧ digitValue? c = some d := by
  cases h with
  | last h | digit h | underscore h => exact ⟨_, _, _, rfl, h⟩

/-- Digits end in a digit. -/
theorem SpellsDigits.getLast? (h : SpellsDigits s ds) : ∃ c d, s.getLast? = some c ∧ digitValue? c = some d := by
  induction h with
  | last h => exact ⟨_, _, rfl, h⟩
  | digit _ _ ih =>
    obtain ⟨c, d, hc, hd⟩ := ih
    exact ⟨c, d, by rw [List.getLast?_cons, hc]; rfl, hd⟩
  | underscore _ _ ih =>
    obtain ⟨c, d, hc, hd⟩ := ih
    exact ⟨c, d, by rw [List.getLast?_cons, List.getLast?_cons, hc]; rfl, hd⟩

/-- What is read as digits spells them. -/
theorem SpellsDigits.of_digits? (h : digits? s = some ds) : SpellsDigits s ds := by
  fun_induction digits? s generalizing ds with
  | case1 => simp at h
  | case2 c =>
    obtain ⟨d, hd, rfl⟩ := Option.map_eq_some_iff.1 h
    exact .last hd
  | case3 c s d ds' hds hd ih =>
    obtain rfl := Option.some.inj h
    exact .underscore hd (ih hds)
  | case4 => simp at h
  | case5 c c' s _ d ds' hds hd ih =>
    obtain rfl := Option.some.inj h
    exact .digit hd (ih hds)
  | case6 => simp at h

/-- What spells digits is read as them. -/
theorem SpellsDigits.digits?_eq (h : SpellsDigits s ds) : digits? s = some ds := by
  induction h with
  | last h => simp [digits?, h]
  | @digit c d s ds h hs ih =>
    obtain ⟨c', t, d', rfl, hc'⟩ := hs.exists_cons
    rw [digits?.eq_4 _ _ _ (ne_of_digitValue? hc' digitValue?_underscore), h, ih]
  | underscore h _ ih => rw [digits?, h, ih]

/-- The digits of a text are read if and only if it spells them. -/
theorem digits?_eq_some_iff : digits? s = some ds ↔ SpellsDigits s ds := ⟨.of_digits?, SpellsDigits.digits?_eq⟩

/-- Reading digits from left to right gives each its place. -/
theorem foldl_eq_ofDigits (ds : List Nat) : ds.foldl (fun n d => 10 * n + d) 0 = Nat.ofDigits 10 ds.reverse := by
  rw [Nat.ofDigits_eq_foldr, List.foldr_reverse]
  simp [Nat.add_comm]

/-- A number is read if and only if the text spells its digits, not too many of them. -/
theorem magnitude?_eq_some_iff :
    magnitude? s = some n ↔ ∃ ds, SpellsDigits s ds ∧ ds.length ≤ numberDigits ∧ Nat.ofDigits 10 ds.reverse = n := by
  unfold magnitude?
  cases hdigits : digits? s with
  | none => simp [← digits?_eq_some_iff, hdigits]
  | some ds => simp [← digits?_eq_some_iff, hdigits, foldl_eq_ofDigits]

/-! ## Integers -/

/-- Blanks are stripped off a sign and digits, and nothing else is. -/
theorem strip_signed {before after : Text} (hbefore : Padding before) (hsign : Sign sign i) (hbody : SpellsDigits body ds)
    (hafter : Padding after) : Text.strip isPadding (before ++ (sign ++ body ++ after)) = sign ++ body := by
  obtain ⟨c, t, d, hbegin, hc⟩ := hbody.exists_cons
  obtain ⟨x, e, hend, hx⟩ := hbody.getLast?
  refine Text.strip_append hbefore (by simp [hbegin]) (fun y hy => ?_) (fun y hy => ?_) hafter
  · cases hsign with
    | none =>
      rw [List.nil_append, hbegin] at hy
      exact Option.some.inj hy ▸ isPadding_of_digitValue? hc
    | plus | minus => exact Option.some.inj hy ▸ by decide
  · rw [List.getLast?_append, hend] at hy
    exact Option.some.inj hy ▸ isPadding_of_digitValue? hx

/-- Between its blanks an integer is read as a sign and the number after it. -/
theorem integer?_of_strip (hsign : Sign sign i) (hbody : SpellsDigits body ds) (h : s.strip isPadding = sign ++ body) :
    integer? s = (magnitude? body).map fun n : Nat => i * n := by
  unfold integer?
  rw [h]
  cases hsign with
  | none =>
    obtain ⟨c, t, d, rfl, hc⟩ := hbody.exists_cons
    have hminus : c ≠ '-' := ne_of_digitValue? hc (by decide)
    have hplus : c ≠ '+' := ne_of_digitValue? hc (by decide)
    cases hn : magnitude? (c :: t) <;> simp [hminus, hplus, hn]
  | plus | minus => cases hn : magnitude? body <;> simp [hn]

/-- What is read between blanks is a sign and the number after it. -/
theorem exists_signed_of_integer? (h : integer? s = some v) :
    ∃ sign i body n, s.strip isPadding = sign ++ body ∧ Sign sign i ∧ magnitude? body = some n ∧ v = i * n := by
  unfold integer? at h
  split at h
  · rename_i body heq
    obtain ⟨n, hn, rfl⟩ : ∃ n, magnitude? body = some n ∧ -(n : Int) = v := by simpa [Option.bind_eq_some_iff] using h
    exact ⟨['-'], -1, body, n, heq, .minus, hn, by simp⟩
  · rename_i body heq
    obtain ⟨n, hn, rfl⟩ : ∃ n, magnitude? body = some n ∧ (n : Int) = v := by simpa [Option.bind_eq_some_iff] using h
    exact ⟨['+'], 1, body, n, heq, .plus, hn, by simp⟩
  · obtain ⟨n, hn, rfl⟩ : ∃ n, magnitude? (s.strip isPadding) = some n ∧ (n : Int) = v := by
      simpa [Option.bind_eq_some_iff] using h
    exact ⟨[], 1, s.strip isPadding, n, rfl, .none, hn, by simp⟩

/-- A text is read as an integer if and only if it writes that integer. -/
theorem integer?_eq_some_iff : integer? s = some v ↔ Writes s v := by
  constructor
  · intro h
    obtain ⟨sign, i, body, n, hstrip, hsign, hn, rfl⟩ := exists_signed_of_integer? h
    obtain ⟨before, after, hs, hbefore, hafter⟩ := Text.exists_strip isPadding s
    obtain ⟨ds, hbody, hlimit, rfl⟩ := magnitude?_eq_some_iff.1 hn
    rw [hs, hstrip]
    exact .number hbefore hsign hbody hlimit hafter
  · rintro ⟨hbefore, hsign, hbody, hlimit, hafter⟩
    rw [integer?_of_strip hsign hbody (strip_signed hbefore hsign hbody hafter), Option.map_eq_some_iff]
    exact ⟨_, magnitude?_eq_some_iff.2 ⟨_, hbody, hlimit, rfl⟩, rfl⟩

variable {name raw : Text} {default : Int}

/-- A text writes one integer at most. -/
theorem Writes.unique {w : Int} (hv : Writes s v) (hw : Writes s w) : v = w :=
  Option.some.inj ((integer?_eq_some_iff.2 hv).symm.trans (integer?_eq_some_iff.2 hw))

/-- A setting writes an integer that is taken, or one below zero, or none. -/
theorem natural_cases (name raw : Text) (default : Int) :
    (∃ v, 0 ≤ v ∧ Writes raw v ∧ natural name (some raw) default = .silent v) ∨
      (∃ v < 0, Writes raw v ∧
        natural name (some raw) default = .telling .warning (ignoring name raw "negative" default) default) ∨
      (∀ v, ¬Writes raw v) ∧
        natural name (some raw) default = .telling .warning (ignoring name raw "not an integer" default) default := by
  simp only [← integer?_eq_some_iff, natural]
  cases integer? raw with
  | none => exact .inr (.inr ⟨by simp, rfl⟩)
  | some v =>
    by_cases hv : v < 0
    · exact .inr (.inl ⟨v, hv, rfl, if_pos hv⟩)
    · exact .inl ⟨v, Int.not_lt.1 hv, rfl, if_neg hv⟩

/-- A setting is not negative if its default is not. -/
theorem natural_nonneg (h : 0 ≤ default) (name : Text) (raw : Option Text) : 0 ≤ (natural name raw default).value := by
  cases raw with
  | none => exact h
  | some raw =>
    obtain ⟨w, hw, -, heq⟩ | ⟨_, _, _, heq⟩ | ⟨_, heq⟩ := natural_cases name raw default
    · rw [heq]
      exact hw
    · rw [heq]
      exact h
    · rw [heq]
      exact h

/-! ## Warnings -/

/-- There is an answer if and only if nothing is told or the default can be written. -/
theorem read_eq_ok_iff {raw : Option Text} {found : Logged Int} :
    read name raw default = .ok found ↔ natural name raw default = found ∧ (found.log = [] ∨ isWritable default = true) := by
  by_cases hanswer : (natural name raw default).log = [] ∨ isWritable default = true
  · rw [read, if_pos hanswer, Except.ok.injEq]
    exact ⟨fun heq => ⟨heq, heq ▸ hanswer⟩, And.left⟩
  · rw [read, if_neg hanswer]
    refine iff_of_false (by simp) ?_
    rintro ⟨rfl, hfound⟩
    exact hanswer hfound

end SourceInventory.Setting

namespace SourceInventory

/-- However the environment is set, no negative number of directories is searched. -/
theorem Configuration.searchDepth_nonneg (environment : List (Text × Text)) :
    0 ≤ (Configuration.load environment).value.searchDepth :=
  Setting.natural_nonneg (by decide) _ _

/-- Where nothing is set, nothing is told. -/
theorem Configuration.load_nil : Configuration.load [] = .silent .unset := by decide

end SourceInventory
