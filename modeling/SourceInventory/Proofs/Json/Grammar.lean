import Mathlib.Data.ENat.Basic
import SourceInventory.Json.Reader

/-!
# Grammar: the texts that denote a JSON value

The grammar is given by rules and says nothing of how a text is read. A value may be written in many ways: with any characters
between its tokens that are gaps, each character of a string as it is or escaped, a number with an exponent or without. The
number of digits that an integer may have is left open, and may be without a limit (`Denotes`).
-/

namespace SourceInventory.Json

/-- A stretch between tokens. -/
def Gap (g : Text) : Prop := ∀ c ∈ g, isGap c = true

/-! ## Strings -/

/-- How a code point, or one half of a pair, is written inside a string. -/
inductive SpellsPoint : Text → CodePoint → Prop where
  /-- A character as it is. -/
  | char {c : Char} (hquote : c ≠ '"') (hbackslash : c ≠ '\\') (hcontrol : ¬c.toNat < 0x20) :
      SpellsPoint [c] (CodePoint.ofChar c)
  /-- An escape by one letter. -/
  | letter {l : Char} {c : CodePoint} (h : letterEscape? l = some c) : SpellsPoint ['\\', l] c
  /-- An escape by four digits. -/
  | digits {a b c d : Char} {n : Nat} (h : Text.hexNumber? 0 [a, b, c, d] = some n) :
      SpellsPoint ['\\', 'u', a, b, c, d] (CodePoint.ofNat n)

/-- Code points, one after another. -/
inductive SpellsPoints : Text → CodeText → Prop where
  | nil : SpellsPoints [] []
  | cons {u w : Text} {c : CodePoint} {cs : CodeText} (h : SpellsPoint u c) (hs : SpellsPoints w cs) :
      SpellsPoints (u ++ w) (c :: cs)

/-- A string: code points between quotation marks, the two halves of a pair making one. -/
inductive SpellsString : Text → CodeText → Prop where
  | quoted {u : Text} {cs : CodeText} (h : SpellsPoints u cs) : SpellsString ('"' :: (u ++ ['"'])) (joinPairs cs)

/-! ## Numbers -/

/-- Decimal digits. -/
def Digits (ds : Text) : Prop := ∀ c ∈ ds, c.isDigit = true

/-- The digits before the point: a zero alone, or digits that do not begin with zero. -/
inductive Whole : Text → Prop where
  | zero : Whole ['0']
  | digits {c : Char} {ds : Text} (hc : c.isDigit = true) (hzero : c ≠ '0') (hds : Digits ds) : Whole (c :: ds)

/-- What stands before the digits of a number, and what they are multiplied by for it. -/
inductive Sign : Text → Int → Prop where
  | none : Sign [] 1
  | minus : Sign ['-'] (-1)

/-- What stands between the digits of a number and its exponent, and the digits there. -/
inductive Part : Text → Text → Prop where
  | none : Part [] []
  | digits {ds : Text} (hne : ds ≠ []) (hds : Digits ds) : Part ('.' :: ds) ds

/-- What stands at the end of a number, and its exponent. -/
inductive Power : Text → Option Int → Prop where
  | none : Power [] .none
  | unsigned {e : Char} {ds : Text} (he : e = 'e' ∨ e = 'E') (hne : ds ≠ []) (hds : Digits ds) :
      Power (e :: ds) (some (digitsValue ds))
  | plus {e : Char} {ds : Text} (he : e = 'e' ∨ e = 'E') (hne : ds ≠ []) (hds : Digits ds) :
      Power (e :: '+' :: ds) (some (digitsValue ds))
  | minus {e : Char} {ds : Text} (he : e = 'e' ∨ e = 'E') (hne : ds ≠ []) (hds : Digits ds) :
      Power (e :: '-' :: ds) (some (-digitsValue ds))

/-- How a number is written if an integer has at most `limit` digits. -/
inductive SpellsNumber (limit : ℕ∞) : Text → Number → Prop where
  | integer {sign ds : Text} {i : Int} (hsign : Sign sign i) (hwhole : Whole ds) (hlimit : (ds.length : ℕ∞) ≤ limit) :
      SpellsNumber limit (sign ++ ds) (.integer (i * digitsValue ds))
  | decimal {sign ds u part w : Text} {i : Int} {power : Option Int} (hsign : Sign sign i) (hwhole : Whole ds)
      (hpart : Part u part) (hpower : Power w power) (h : part ≠ [] ∨ power ≠ none) :
      SpellsNumber limit (sign ++ (ds ++ (u ++ w))) (.decimal (i * digitsValue (ds ++ part)) (power.getD 0 - part.length))

/-! ## Values -/

/-- How a word or a number is written. -/
inductive SpellsScalar (limit : ℕ∞) : Text → Json → Prop where
  | word {w : Text × Json} (h : w ∈ words) : SpellsScalar limit w.1 w.2
  | number {u : Text} {n : Number} (h : SpellsNumber limit u n) : SpellsScalar limit u (.number n)

mutual

/-- How a value is written if an integer has at most `limit` digits. -/
inductive Spells (limit : ℕ∞) : Text → Json → Prop where
  | scalar {u : Text} {v : Json} (h : SpellsScalar limit u v) : Spells limit u v
  | string {u : Text} {s : CodeText} (h : SpellsString u s) : Spells limit u (.string s)
  | emptyArray {g : Text} (hg : Gap g) : Spells limit ('[' :: (g ++ [']'])) (.array [])
  | array {g u : Text} {vs : List Json} (hg : Gap g) (h : SpellsItems limit u vs) : Spells limit ('[' :: (g ++ u)) (.array vs)
  | emptyObject {g : Text} (hg : Gap g) : Spells limit ('{' :: (g ++ ['}'])) (.object [])
  | object {g u : Text} {ms : List (CodeText × Json)} (hg : Gap g) (h : SpellsMembers limit u ms) :
      Spells limit ('{' :: (g ++ u)) (ofMembers ms)

/-- How the items of an array are written, with the bracket after them. -/
inductive SpellsItems (limit : ℕ∞) : Text → List Json → Prop where
  | last {u g : Text} {v : Json} (hv : Spells limit u v) (hg : Gap g) : SpellsItems limit (u ++ (g ++ [']'])) [v]
  | cons {u g g' w : Text} {v : Json} {vs : List Json} (hv : Spells limit u v) (hg : Gap g) (hg' : Gap g')
      (h : SpellsItems limit w vs) : SpellsItems limit (u ++ (g ++ ',' :: (g' ++ w))) (v :: vs)

/-- How the members of an object are written, with the bracket after them. -/
inductive SpellsMembers (limit : ℕ∞) : Text → List (CodeText × Json) → Prop where
  | last {q g g' u g'' : Text} {k : CodeText} {v : Json} (hk : SpellsString q k) (hg : Gap g) (hg' : Gap g')
      (hv : Spells limit u v) (hg'' : Gap g'') :
      SpellsMembers limit (q ++ (g ++ ':' :: (g' ++ (u ++ (g'' ++ ['}']))))) [(k, v)]
  | cons {q g g' u g'' g₃ w : Text} {k : CodeText} {v : Json} {ms : List (CodeText × Json)} (hk : SpellsString q k)
      (hg : Gap g) (hg' : Gap g') (hv : Spells limit u v) (hg'' : Gap g'') (hg₃ : Gap g₃) (h : SpellsMembers limit w ms) :
      SpellsMembers limit (q ++ (g ++ ':' :: (g' ++ (u ++ (g'' ++ ',' :: (g₃ ++ w)))))) ((k, v) :: ms)

end

/-- A text is a value with nothing around it but gaps, if an integer has at most `limit` digits. -/
inductive Denotes (limit : ℕ∞) : Text → Json → Prop where
  | document {g u g' : Text} {v : Json} (hg : Gap g) (h : Spells limit u v) (hg' : Gap g') :
      Denotes limit (g ++ (u ++ g')) v

/-! ## How a text begins -/

/-- A digit is no other character. -/
theorem ne_of_isDigit {c x : Char} (hc : c.isDigit = true) (hx : x.isDigit = false) : c ≠ x := by
  rintro rfl
  rw [hc] at hx
  exact absurd hx (by decide)

theorem Whole.exists_cons {ds : Text} (h : Whole ds) : ∃ c cs, ds = c :: cs ∧ c.isDigit = true := by
  cases h with
  | zero => exact ⟨_, _, rfl, rfl⟩
  | digits hc => exact ⟨_, _, rfl, hc⟩

/-- A number begins with a digit, or with a minus and a digit. -/
theorem SpellsNumber.exists_sign {limit : ℕ∞} {u : Text} {n : Number} (h : SpellsNumber limit u n) :
    ∃ c cs, c.isDigit = true ∧ (u = c :: cs ∨ u = '-' :: c :: cs) := by
  have sign : ∀ {sign ds : Text} {i : Int}, Sign sign i → Whole ds → ∀ r,
      ∃ c cs, c.isDigit = true ∧ (sign ++ (ds ++ r) = c :: cs ∨ sign ++ (ds ++ r) = '-' :: c :: cs) := by
    intro sign ds i hsign hwhole r
    obtain ⟨c, cs, rfl, hc⟩ := hwhole.exists_cons
    cases hsign with
    | none => exact ⟨c, cs ++ r, hc, Or.inl rfl⟩
    | minus => exact ⟨c, cs ++ r, hc, Or.inr rfl⟩
  cases h with
  | integer hsign hwhole => simpa using sign hsign hwhole []
  | decimal hsign hwhole => exact sign hsign hwhole _

/-- A word or a number begins with no character that stands between tokens or begins anything else. -/
theorem SpellsScalar.exists_cons {limit : ℕ∞} {u : Text} {v : Json} (h : SpellsScalar limit u v) :
    ∃ c cs, u = c :: cs ∧ isGap c = false ∧ ∀ x ∈ ['"', '[', '{', ']', '\uFEFF'], c ≠ x := by
  cases h with
  | @word w h =>
    have table : ∀ w ∈ words.map (·.1), ∃ c ∈ w.head?, isGap c = false ∧ ∀ x ∈ ['"', '[', '{', ']', '\uFEFF'], c ≠ x := by
      simp [words, isGap]
    obtain ⟨c, hc, hfirst⟩ := table w.1 (List.mem_map_of_mem h)
    obtain ⟨cs, hcs⟩ := List.head?_eq_some_iff.1 hc
    exact ⟨c, cs, hcs, hfirst⟩
  | number h =>
    obtain ⟨c, cs, hc, rfl | rfl⟩ := h.exists_sign
    · have hother : ∀ x ∈ ['"', '[', '{', ']', '\uFEFF'], x.isDigit = false := by simp [Char.isDigit]
      exact ⟨c, cs, rfl, by simp [isGap, ne_of_isDigit hc], fun x hx => ne_of_isDigit hc (hother x hx)⟩
    · exact ⟨'-', c :: cs, rfl, by decide, by simp⟩

/-- A value begins with a character that is neither a gap, nor a closing bracket, nor a byte order mark. -/
theorem Spells.exists_cons {limit : ℕ∞} {u : Text} {v : Json} (h : Spells limit u v) :
    ∃ c cs, u = c :: cs ∧ isGap c = false ∧ c ≠ ']' ∧ c ≠ '\uFEFF' := by
  cases h with
  | scalar h =>
    obtain ⟨c, cs, hu, hgap, hother⟩ := h.exists_cons
    exact ⟨c, cs, hu, hgap, hother _ (by simp), hother _ (by simp)⟩
  | string h =>
    cases h
    exact ⟨'"', _, rfl, by decide, by decide, by decide⟩
  | emptyArray | array => exact ⟨'[', _, rfl, by decide, by decide, by decide⟩
  | emptyObject | object => exact ⟨'{', _, rfl, by decide, by decide, by decide⟩

end SourceInventory.Json
