import SourceInventory.Text.Basic

/-!
# Hex: numbers in base sixteen at a fixed width

Escapes write a code point or a byte with a fixed number of digits, in lower case, and are read in either case. Main statement:
what is written at a width that holds the number reads back as that number (`hexNumber?_hex`).
-/

namespace SourceInventory

/-- The lower-case digit of a value below sixteen. -/
def hexDigit (n : Nat) : Char :=
  if n < 10 then Char.ofNat (0x30 + n) else Char.ofNat (0x57 + n)

/-- The value of a digit in base sixteen, in either case. -/
def hexValue? (c : Char) : Option Nat :=
  if '0' ≤ c ∧ c ≤ '9' then some (c.toNat - 0x30)
  else if 'a' ≤ c ∧ c ≤ 'f' then some (c.toNat - 0x57)
  else if 'A' ≤ c ∧ c ≤ 'F' then some (c.toNat - 0x37)
  else none

/-- The last `width` digits of a number in base sixteen. -/
def Text.hex : (width n : Nat) → Text
  | 0, _ => []
  | w + 1, n => hex w (n / 16) ++ [hexDigit (n % 16)]

/-- The number that a text of digits in base sixteen denotes after a number already read. -/
def Text.hexNumber? (read : Nat) : Text → Option Nat
  | [] => some read
  | c :: s => (hexValue? c).bind fun d => hexNumber? (16 * read + d) s

/-- A digit has the value that it is written for. -/
theorem hexValue?_hexDigit {n : Nat} (h : n < 16) : hexValue? (hexDigit n) = some n := by
  have table : ∀ n < 16, hexValue? (hexDigit n) = some n := by decide
  exact table n h

theorem Text.hexNumber?_append (k : Nat) (s t : Text) :
    hexNumber? k (s ++ t) = (hexNumber? k s).bind fun n => hexNumber? n t := by
  induction s generalizing k with
  | nil => rfl
  | cons c s ih => cases h : hexValue? c <;> simp [hexNumber?, h, ih]

/-- A number is written in as many digits as asked for. -/
theorem Text.length_hex (w n : Nat) : (hex w n).length = w := by
  induction w generalizing n with
  | zero => rfl
  | succ w ih => simp [hex, ih]

/-- A number below `16 ^ w` is read back from its text of width `w`. -/
theorem Text.hexNumber?_hex {w n : Nat} (h : n < Nat.pow 16 w) : hexNumber? 0 (hex w n) = some n := by
  induction w generalizing n with
  | zero =>
    obtain rfl : n = 0 := Nat.lt_one_iff.1 h
    rfl
  | succ w ih =>
    have hstep : n < Nat.pow 16 w * 16 := h
    have hn : n / 16 < Nat.pow 16 w := Nat.div_lt_of_lt_mul (by rwa [Nat.mul_comm])
    simp only [hex, hexNumber?_append, ih hn, Option.bind_some, hexNumber?, hexValue?_hexDigit (Nat.mod_lt n (by omega))]
    congr 1
    omega

end SourceInventory
