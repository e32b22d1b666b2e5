import SourceInventory.Json.Writer
import SourceInventory.Text.Case
import Mathlib.Tactic.SplitIfs

/-!
# Search: a word in the text of a JSON value

The text of a value on one line, in lower case, is searched for a word of small letters. Outside of its strings the text
has no letter with which such a word begins, an escape has none either, and a string stands between quotation marks, which
are no letters. So the word occurs in the text if and only if it occurs in one of the strings (`infix_write_iff`).
-/

namespace SourceInventory

/-! ## Words in strings -/

/-- A code point with the capitals of ASCII made small. -/
def CodePoint.foldCase (c : CodePoint) : CodePoint := if 0x41 ≤ c.val ∧ c.val ≤ 0x5A then CodePoint.ofNat (c.val + 0x20) else c

/-- A word occurs in a string, the letters of ASCII compared in any case and every other code point as it is. -/
def CodeText.Mentions (w : Text) (s : CodeText) : Prop := CodeText.ofText w <:+: s.map CodePoint.foldCase

namespace Json

/-- A string stands somewhere in a value, as a value or as a key. -/
inductive Holds : Json → CodeText → Prop where
  | string {s : CodeText} : Holds (.string s) s
  | item {items : List Json} {v : Json} {s : CodeText} : v ∈ items → Holds v s → Holds (.array items) s
  | key {members : List (CodeText × Json)} {k : CodeText} {v : Json} : (k, v) ∈ members → Holds (.object members) k
  | value {members : List (CodeText × Json)} {k : CodeText} {v : Json} {s : CodeText} :
      (k, v) ∈ members → Holds v s → Holds (.object members) s

/-- A word occurs in a string that stands somewhere in a value. -/
def Mentions (w : Text) (v : Json) : Prop := ∃ s, v.Holds s ∧ s.Mentions w

/-- A string mentions what its characters do. -/
theorem mentions_string_iff {w : Text} {s : CodeText} : (Json.string s).Mentions w ↔ s.Mentions w := by
  constructor
  · rintro ⟨_, ⟨⟩, h⟩
    exact h
  · intro h
    exact ⟨s, .string, h⟩

/-- An array mentions what one of its items does. -/
theorem mentions_array_iff {w : Text} {items : List Json} : (Json.array items).Mentions w ↔ ∃ v ∈ items, v.Mentions w := by
  constructor
  · rintro ⟨s, hs, h⟩
    cases hs with
    | item hv hs => exact ⟨_, hv, s, hs, h⟩
  · rintro ⟨v, hv, s, hs, h⟩
    exact ⟨s, .item hv hs, h⟩

/-- An object mentions what one of its keys or of its values does. -/
theorem mentions_object_iff {w : Text} {members : List (CodeText × Json)} :
    (Json.object members).Mentions w ↔ ∃ m ∈ members, m.1.Mentions w ∨ m.2.Mentions w := by
  constructor
  · rintro ⟨s, hs, h⟩
    cases hs with
    | key hm => exact ⟨_, hm, .inl h⟩
    | value hm hs => exact ⟨_, hm, .inr ⟨s, hs, h⟩⟩
  · rintro ⟨⟨k, v⟩, hm, h | ⟨s, hs, h⟩⟩
    · exact ⟨k, .key hm, h⟩
    · exact ⟨s, .value hm hs, h⟩

end Json

/-! ## Words that a text can only have in its strings -/

/-- Letters that no number, no literal and no escape has. -/
def rareLetters : Text := "jmv".toList

/-- A character of ASCII that is none of the rare letters in any case. -/
def isInert (c : Char) : Bool := decide (c.toNat < 0x80) && !rareLetters.contains c.toLower

/-- A word of small letters that begins with a rare one. -/
structure Sought (w : Text) : Prop where
  /-- Its characters are small letters. -/
  letters : ∀ c ∈ w, 'a' ≤ c ∧ c ≤ 'z'
  /-- Its first letter is rare. -/
  head : ∃ c t, w = c :: t ∧ c ∈ rareLetters

/-- What does not have the first character of a word may stand before a text. -/
theorem infix_append_iff {c : Char} {t a : Text} (h : c ∉ a) (b : Text) : c :: t <:+: a ++ b ↔ c :: t <:+: b := by
  induction a with
  | nil => rfl
  | cons x a ih =>
    rw [List.mem_cons, not_or] at h
    rw [List.cons_append, List.infix_cons_iff, List.cons_prefix_cons, ih h.2]
    simp [h.1]

/-- Inert characters may stand before a text. -/
theorem Sought.infix_inert_iff {w : Text} (hw : Sought w) {a : Text} (ha : a.all isInert = true) (b : Text) :
    w <:+: a.lower ++ b ↔ w <:+: b := by
  obtain ⟨c, t, rfl, hc⟩ := hw.head
  refine infix_append_iff ?_ b
  intro hmem
  obtain ⟨x, hx, hcx⟩ := List.mem_flatMap.1 hmem
  have hx' := List.all_eq_true.1 ha x hx
  rw [isInert, Bool.and_eq_true, decide_eq_true_eq] at hx'
  rw [lowerOf_ascii hx'.1, List.mem_singleton] at hcx
  subst hcx
  simp [hc] at hx'

/-! ## Code points -/

namespace CodePoint

/-- The code point of a character has its number. -/
theorem ofChar_val (c : Char) : (ofChar c).val = c.toNat := by
  have h : c.toNat < 0x110000 := by
    have := c.valid
    simp only [UInt32.isValidChar, Nat.isValidChar] at this
    change c.val.toNat < _
    omega
  exact Nat.mod_eq_of_lt h

/-- Different characters have different code points. -/
theorem ofChar_injective {c d : Char} (h : ofChar c = ofChar d) : c = d := by
  have hval := congrArg Fin.val h
  rw [ofChar_val, ofChar_val] at hval
  exact Char.toNat_inj.1 hval

/-- A letter of ASCII, capital or small. -/
def IsLetter (c : CodePoint) : Prop := (0x41 ≤ c.val ∧ c.val ≤ 0x5A) ∨ (0x61 ≤ c.val ∧ c.val ≤ 0x7A)

/-- The lower case of a printable ASCII character is that of ASCII. -/
theorem lower_printable {c : CodePoint} (hc : 0x20 ≤ c.val ∧ c.val ≤ 0x7E) : Text.lower [c.toChar] = [c.toChar.toLower] := by
  have table : ∀ n < 0x7F, Text.lower [Char.ofNat n] = [(Char.ofNat n).toLower] := by decide
  exact table c.val (by omega)

/-- A printable character of ASCII is written in lower case as its code point is folded. -/
theorem ofChar_toLower {c : CodePoint} (hc : 0x20 ≤ c.val ∧ c.val ≤ 0x7E) : ofChar c.toChar.toLower = c.foldCase := by
  have table : ∀ n, ∀ h : n < 0x7F, ofChar (Char.ofNat n).toLower = foldCase ⟨n, Nat.lt_trans h (by decide)⟩ := by decide
  exact table c.val (by omega)

/-- Only a letter folds to a small letter. -/
theorem isLetter_of_foldCase {c : CodePoint} {l : Char} (hl : 'a' ≤ l ∧ l ≤ 'z') (h : ofChar l = c.foldCase) : c.IsLetter := by
  by_cases hc : 0x41 ≤ c.val ∧ c.val ≤ 0x5A
  · exact Or.inl hc
  · right
    rw [foldCase, if_neg hc] at h
    have hval := congrArg Fin.val h
    rw [ofChar_val] at hval
    have h1 : 'a'.toNat ≤ l.toNat := hl.1
    have h2 : l.toNat ≤ 'z'.toNat := hl.2
    simp only [show 'a'.toNat = 97 from rfl, show 'z'.toNat = 122 from rfl] at h1 h2
    omega

end CodePoint

namespace Json

/-- Hexadecimal digits have no rare letter. -/
theorem inert_hex (width n : Nat) : ∀ x ∈ Text.hex width n, isInert x = true := by
  have digit : ∀ n < 16, isInert (hexDigit n) = true := by decide
  induction width generalizing n with
  | zero => intro x hx; exact absurd hx List.not_mem_nil
  | succ width ih =>
    intro x hx
    rcases List.mem_append.1 hx with hx | hx
    · exact ih _ x hx
    · rw [List.mem_singleton.1 hx]
      exact digit _ (Nat.mod_lt n (by decide))

theorem inert_escape (n : Nat) : ∀ x ∈ 'u' :: Text.hex 4 n, isInert x = true := by
  intro x hx
  rcases List.mem_cons.1 hx with rfl | hx
  · rfl
  · exact inert_hex 4 n x hx

/-- What has an escape of its own is no letter, and the letter of the escape is inert. -/
theorem escapeLetter?_eq_some {c : CodePoint} {l : Char} (h : escapeLetter? c = some l) : isInert l = true ∧ ¬ c.IsLetter := by
  unfold escapeLetter? at h
  unfold CodePoint.IsLetter
  split_ifs at h
  all_goals
    obtain rfl := Option.some.inj h
    exact ⟨rfl, by omega⟩

/-- A code point inside a string is written as it is, or it is no letter and is written as a backslash and inert characters. -/
theorem codePoint_oneLine (c : CodePoint) :
    (Style.oneLine.codePoint c = [c.toChar] ∧ 0x20 ≤ c.val ∧ c.val ≤ 0x7E) ∨
      (¬ c.IsLetter ∧ ∃ r, Style.oneLine.codePoint c = '\\' :: r ∧ ∀ x ∈ r, isInert x = true) := by
  cases hl : escapeLetter? c with
  | some l =>
    obtain ⟨hinert, hletter⟩ := escapeLetter?_eq_some hl
    refine Or.inr ⟨hletter, [l], by rw [Style.codePoint, hl], ?_⟩
    intro x hx
    rwa [List.mem_singleton.1 hx]
  | none =>
    have hspell : Style.oneLine.codePoint c = spellAscii c := by rw [Style.codePoint, hl]; rfl
    rw [hspell, spellAscii]
    split_ifs with hprint hshort
    · exact Or.inl ⟨rfl, hprint⟩
    · exact Or.inr ⟨by unfold CodePoint.IsLetter; omega, _, rfl, inert_escape _⟩
    · refine Or.inr ⟨by unfold CodePoint.IsLetter; omega, _, rfl, ?_⟩
      intro x hx
      rcases List.mem_append.1 hx with hx | hx
      · exact inert_escape _ x hx
      · rcases List.mem_cons.1 hx with rfl | hx
        · rfl
        · exact inert_escape _ x hx

/-! ## Strings -/

/-- A word of small letters begins the text of a string if and only if it begins the string: no letter of it can be an
escape, and it cannot go on beyond the closing quotation mark. -/
theorem prefix_codePoints_iff {w : Text} (hw : ∀ l ∈ w, 'a' ≤ l ∧ l ≤ 'z') (s : CodeText) (rest : Text) :
    w <+: Text.lower (s.flatMap Style.oneLine.codePoint) ++ '"' :: rest ↔ CodeText.ofText w <+: s.map CodePoint.foldCase := by
  induction w generalizing s with
  | nil => exact iff_of_true (List.nil_prefix) (List.nil_prefix)
  | cons l w ih =>
    have hl := hw l (by simp)
    have ih := ih fun x hx => hw x (by simp [hx])
    cases s with
    | nil =>
      refine iff_of_false ?_ (fun h => by simp [CodeText.ofText] at h)
      intro h
      obtain ⟨rfl, -⟩ := List.cons_prefix_cons.1 h
      exact absurd hl (by decide)
    | cons c s =>
      rw [List.flatMap_cons, lower_append, List.append_assoc, List.map_cons]
      change _ ↔ CodePoint.ofChar l :: CodeText.ofText w <+: _
      rw [List.cons_prefix_cons]
      rcases codePoint_oneLine c with ⟨hc, hprint⟩ | ⟨hletter, r, hr, -⟩
      · rw [hc, CodePoint.lower_printable hprint, List.singleton_append, List.cons_prefix_cons, ih,
          ← CodePoint.ofChar_toLower hprint]
        exact and_congr_left' ⟨congrArg _, CodePoint.ofChar_injective⟩
      · refine iff_of_false ?_ fun h => hletter (CodePoint.isLetter_of_foldCase hl h.1)
        intro h
        rw [hr] at h
        obtain ⟨rfl, -⟩ := List.cons_prefix_cons.1 h
        exact absurd hl (by decide)

/-- A sought word occurs from inside a string on if it occurs in the rest of the string or after its closing quotation mark. -/
theorem infix_codePoints_iff {w : Text} (hw : Sought w) (s : CodeText) (rest : Text) :
    w <:+: Text.lower (s.flatMap Style.oneLine.codePoint) ++ '"' :: rest ↔ s.Mentions w ∨ w <:+: rest := by
  have hquote : w <:+: '"' :: rest ↔ w <:+: rest := hw.infix_inert_iff (a := ['"']) (by decide) rest
  induction s with
  | nil =>
    obtain ⟨c, t, rfl, -⟩ := hw.head
    rw [List.flatMap_nil]
    change _ <:+: '"' :: rest ↔ _
    rw [hquote, CodeText.Mentions, List.map_nil, List.infix_nil]
    exact (or_iff_right (List.cons_ne_nil _ _)).symm
  | cons c s ih =>
    have hhere := prefix_codePoints_iff hw.letters (c :: s) rest
    rw [List.map_cons] at hhere
    rw [CodeText.Mentions, List.map_cons, List.infix_cons_iff, ← hhere, or_assoc]
    refine Iff.trans ?_ (or_congr_right ih)
    rw [List.flatMap_cons, lower_append, List.append_assoc]
    rcases codePoint_oneLine c with ⟨hc, hprint⟩ | ⟨-, r, hr, hinert⟩
    · rw [hc, CodePoint.lower_printable hprint, List.singleton_append, List.infix_cons_iff]
    · -- an escape has no rare letter, so that the word does not begin at it either
      have hescape : ('\\' :: r).all isInert = true := List.all_eq_true.2 (List.forall_mem_cons.2 ⟨rfl, hinert⟩)
      rw [hr, hw.infix_inert_iff hescape]
      refine (or_iff_right_of_imp ?_).symm
      intro h
      exact (hw.infix_inert_iff hescape _).1 h.isInfix

/-- A sought word occurs from a string on if it occurs in the string or after it. -/
theorem infix_string_iff {w : Text} (hw : Sought w) (s : CodeText) (rest : Text) :
    w <:+: (Style.oneLine.string s).lower ++ rest ↔ s.Mentions w ∨ w <:+: rest := by
  have hparts : (Style.oneLine.string s).lower ++ rest =
      Text.lower ['"'] ++ (Text.lower (s.flatMap Style.oneLine.codePoint) ++ '"' :: rest) := by
    rw [Style.string, ← List.singleton_append, List.append_assoc, lower_append, lower_append, List.append_assoc,
      List.append_assoc]
    rfl
  rw [hparts, hw.infix_inert_iff (by decide), infix_codePoints_iff hw]

/-! ## Values -/

/-- The decimal text of a number has no rare letter. -/
theorem inert_ofNat (n : Nat) : ∀ x ∈ Text.ofNat n, isInert x = true := by
  intro x hx
  have hdigit := Nat.isDigit_of_mem_toDigits (by decide) (by decide) hx
  simp only [Char.isDigit, Bool.and_eq_true, decide_eq_true_eq, ge_iff_le, UInt32.le_iff_toNat_le] at hdigit
  simp only [show '0'.val.toNat = 48 from rfl, show '9'.val.toNat = 57 from rfl] at hdigit
  have table : ∀ n < 58, isInert (Char.ofNat n) = true := by decide
  rw [← Char.ofNat_toNat x]
  exact table x.toNat (Nat.lt_succ_of_le hdigit.2)

theorem inert_ofInt (n : Int) : ∀ x ∈ Text.ofInt n, isInert x = true := by
  cases n with
  | ofNat n => exact inert_ofNat n
  | negSucc n => exact List.forall_mem_cons.2 ⟨rfl, inert_ofNat (n + 1)⟩

/-- A number has no rare letter, however it is written. -/
theorem inert_number (n : Number) : ∀ x ∈ n.write, isInert x = true := by
  cases n with
  | integer n => exact inert_ofInt n
  | decimal m e =>
    intro x hx
    rcases List.mem_append.1 hx with hx | hx
    · exact inert_ofInt m x hx
    · rcases List.mem_cons.1 hx with rfl | hx
      · rfl
      · exact inert_ofInt e x hx
  | infinity negative => cases negative <;> exact List.all_eq_true.1 rfl
  | undefined => exact List.all_eq_true.1 rfl

/-- A value without strings is written in inert characters. -/
theorem infix_inert_value_iff {w : Text} (hw : Sought w) {v : Json} (hv : ∀ s, ¬ v.Holds s) {a : Text}
    (ha : a.all isInert = true) (rest : Text) : w <:+: a.lower ++ rest ↔ v.Mentions w ∨ w <:+: rest := by
  rw [hw.infix_inert_iff ha]
  exact (or_iff_right fun ⟨s, hs, _⟩ => hv s hs).symm

section

variable (level : Nat) (rest : Text)

/-- The lower case of an array, part after part. -/
theorem lower_write_array (v : Json) (vs : List Json) :
    (write .oneLine level (.array (v :: vs))).lower ++ rest =
      Text.lower ['['] ++ ((write .oneLine (level + 1) v).lower ++ ((writeItems .oneLine (level + 1) vs).lower ++
        (Text.lower [']'] ++ rest))) := by
  simp [write, Style.gap, Style.oneLine, Text.lower]

/-- The lower case of an object, part after part. -/
theorem lower_write_object (k : CodeText) (v : Json) (ms : List (CodeText × Json)) :
    (write .oneLine level (.object ((k, v) :: ms))).lower ++ rest =
      Text.lower ['{'] ++ ((Style.oneLine.string k).lower ++ (Text.lower [':', ' '] ++
        ((write .oneLine (level + 1) v).lower ++ ((writeMembers .oneLine (level + 1) ms).lower ++
          (Text.lower ['}'] ++ rest))))) := by
  simp [write, Style.gap, Style.oneLine, Text.lower]

theorem lower_writeItems (v : Json) (vs : List Json) :
    (writeItems .oneLine level (v :: vs)).lower ++ rest =
      Text.lower [',', ' '] ++ ((write .oneLine level v).lower ++ ((writeItems .oneLine level vs).lower ++ rest)) := by
  simp [writeItems, Style.comma, Style.oneLine, Text.lower]

theorem lower_writeMembers (k : CodeText) (v : Json) (ms : List (CodeText × Json)) :
    (writeMembers .oneLine level ((k, v) :: ms)).lower ++ rest =
      Text.lower [',', ' '] ++ ((Style.oneLine.string k).lower ++ (Text.lower [':', ' '] ++
        ((write .oneLine level v).lower ++ ((writeMembers .oneLine level ms).lower ++ rest)))) := by
  simp [writeMembers, Style.comma, Style.oneLine, Text.lower]

end

mutual

/-- A sought word occurs from a value on if it occurs in one of the strings of the value or after it. The induction is on the
value; what follows it is kept general, since the items and the members are passed one after another. -/
theorem infix_write_iff {w : Text} (hw : Sought w) (level : Nat) (rest : Text) :
    (v : Json) → (w <:+: (write .oneLine level v).lower ++ rest ↔ v.Mentions w ∨ w <:+: rest)
  | .null => infix_inert_value_iff hw (by rintro s ⟨⟩) (a := "null".toList) (by decide) rest
  | .bool true => infix_inert_value_iff hw (by rintro s ⟨⟩) (a := "true".toList) (by decide) rest
  | .bool false => infix_inert_value_iff hw (by rintro s ⟨⟩) (a := "false".toList) (by decide) rest
  | .number n => infix_inert_value_iff hw (by rintro s ⟨⟩) (List.all_eq_true.2 (inert_number n)) rest
  | .string s => by
    rw [mentions_string_iff]
    exact infix_string_iff hw s rest
  | .array [] => by
    refine infix_inert_value_iff hw ?_ (a := "[]".toList) (by decide) rest
    rintro s (_ | ⟨hv, _⟩)
    exact absurd hv List.not_mem_nil
  | .array (v :: vs) => by
    rw [lower_write_array, hw.infix_inert_iff (by decide), infix_write_iff hw (level + 1) _ v,
      infix_writeItems_iff hw (level + 1) _ vs, hw.infix_inert_iff (by decide), mentions_array_iff, ← or_assoc]
    simp
  | .object [] => by
    refine infix_inert_value_iff hw ?_ (a := "\x7b\x7d".toList) (by decide) rest
    rintro s (_ | _ | hm | ⟨hm, _⟩)
    · exact absurd hm List.not_mem_nil
    · exact absurd hm List.not_mem_nil
  | .object ((k, v) :: ms) => by
    rw [lower_write_object, hw.infix_inert_iff (by decide), infix_string_iff hw, hw.infix_inert_iff (by decide),
      infix_write_iff hw (level + 1) _ v, infix_writeMembers_iff hw (level + 1) _ ms, hw.infix_inert_iff (by decide),
      mentions_object_iff, ← or_assoc, ← or_assoc]
    simp

/-- The items after the first one. -/
theorem infix_writeItems_iff {w : Text} (hw : Sought w) (level : Nat) (rest : Text) :
    (vs : List Json) → (w <:+: (writeItems .oneLine level vs).lower ++ rest ↔ (∃ v ∈ vs, v.Mentions w) ∨ w <:+: rest)
  | [] => by
    simp [writeItems, Text.lower]
  | v :: vs => by
    rw [lower_writeItems, hw.infix_inert_iff (by decide), infix_write_iff hw level _ v, infix_writeItems_iff hw level rest vs,
      ← or_assoc]
    simp

/-- The members after the first one. -/
theorem infix_writeMembers_iff {w : Text} (hw : Sought w) (level : Nat) (rest : Text) :
    (ms : List (CodeText × Json)) →
      (w <:+: (writeMembers .oneLine level ms).lower ++ rest ↔ (∃ m ∈ ms, m.1.Mentions w ∨ m.2.Mentions w) ∨ w <:+: rest)
  | [] => by
    simp [writeMembers, Text.lower]
  | (k, v) :: ms => by
    rw [lower_writeMembers, hw.infix_inert_iff (by decide), infix_string_iff hw, hw.infix_inert_iff (by decide),
      infix_write_iff hw level _ v, infix_writeMembers_iff hw level rest ms, ← or_assoc, ← or_assoc]
    simp

end

end Json

end SourceInventory
