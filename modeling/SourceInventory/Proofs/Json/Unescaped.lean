import SourceInventory.Proofs.Json.Complete
import SourceInventory.Proofs.Json.Search

/-!
# Unescaped: a string is read back from its text

What the writer makes of a character, as it is or escaped, is one of the ways in which it can be written, and the reader stops at
the quotation mark that the writer puts at the end, whatever follows. So the text of a string determines the string, and where it
ends (`string_append_inj`).
-/

namespace SourceInventory

theorem CodePoint.toChar_ofChar (c : Char) : (ofChar c).toChar = c := by
  rw [toChar, ofChar_val, Char.ofNat_toNat]

namespace Json

/-! ## Escapes -/

/-- The letter of an escape is read as the code point it stands for. -/
theorem letterEscape?_of_escapeLetter? {c : CodePoint} {l : Char} (h : escapeLetter? c = some l) :
    letterEscape? l = some c := by
  have hc : ∀ n, c.val = n → CodePoint.ofNat n = c := by
    rintro _ rfl
    exact Fin.ext (Nat.mod_eq_of_lt c.isLt)
  unfold escapeLetter? at h
  split_ifs at h
  all_goals
    obtain rfl := Option.some.inj h
    exact congrArg some (hc _ (by assumption))

/-- The four digits of an escape are read as the number that was written. -/
theorem exists_hex_four {n : Nat} (h : n < 0x10000) :
    ∃ a b c d, Text.hex 4 n = [a, b, c, d] ∧ Text.hexNumber? 0 [a, b, c, d] = some n := by
  have hread : Text.hexNumber? 0 (Text.hex 4 n) = some n := Text.hexNumber?_hex h
  exact ⟨_, _, _, _, rfl, hread⟩

/-- What is written for a character inside a string is a way to write it. -/
theorem spellsPoint_codePoint (c : Char) : SpellsPoint (Style.indented.codePoint (CodePoint.ofChar c)) (CodePoint.ofChar c) := by
  rw [Style.codePoint]
  cases hl : escapeLetter? (CodePoint.ofChar c) with
  | some l => exact .letter (letterEscape?_of_escapeLetter? hl)
  | none =>
    change SpellsPoint (spellPlain (CodePoint.ofChar c)) _
    rw [spellPlain]
    split
    · rename_i hcontrol
      obtain ⟨a, b, c', d, hhex, hnumber⟩ := exists_hex_four (n := (CodePoint.ofChar c).val) (by omega)
      rw [escape, hhex]
      have hpoint := SpellsPoint.digits hnumber
      rwa [CodePoint.ofChar_val] at hpoint
    · rename_i hplain
      have hquote : c ≠ '"' := by
        rintro rfl
        exact absurd hl (by decide)
      have hbackslash : c ≠ '\\' := by
        rintro rfl
        exact absurd hl (by decide)
      rw [CodePoint.ofChar_val] at hplain
      rw [CodePoint.toChar_ofChar]
      exact .char hquote hbackslash hplain

/-! ## Strings -/

theorem spellsPoints_ofText (s : Text) :
    SpellsPoints ((CodeText.ofText s).flatMap Style.indented.codePoint) (CodeText.ofText s) := by
  induction s with
  | nil => exact .nil
  | cons c s ih => exact .cons (spellsPoint_codePoint c) ih

/-- No character is a high surrogate, so nothing is joined in a text. -/
theorem joinPairs_ofText (s : Text) : joinPairs (CodeText.ofText s) = CodeText.ofText s := by
  have hhigh : ∀ c, isHigh (CodePoint.ofChar c) = false := by
    intro c
    have hvalid : c.toNat < 55296 ∨ 57343 < c.toNat ∧ c.toNat < 1114112 := c.valid
    simp only [isHigh, CodePoint.ofChar_val, Bool.and_eq_false_iff, decide_eq_false_iff_not]
    omega
  induction s with
  | nil => rfl
  | cons c s ih =>
    cases s with
    | nil => rfl
    | cons d s =>
      change joinPairs (CodePoint.ofChar c :: CodePoint.ofChar d :: CodeText.ofText s) = _
      rw [joinPairs, hhigh, Bool.false_and, if_neg Bool.false_ne_true]
      exact congrArg _ ih

/-- The text of a string is a way to write it. -/
theorem spellsString_ofText (s : Text) : SpellsString (Style.indented.string (CodeText.ofText s)) (CodeText.ofText s) := by
  have h := SpellsString.quoted (spellsPoints_ofText s)
  rwa [joinPairs_ofText] at h

/-- A string is read back from its text after the opening quotation mark, and what follows is left. -/
theorem stringTail_ofText (opening s r : Text) :
    stringTail opening ((CodeText.ofText s).flatMap Style.indented.codePoint ++ '"' :: r) = .ok (CodeText.ofText s, r) := by
  rw [stringTail_points (spellsPoints_ofText s), joinPairs_ofText]

theorem ofText_injective {s s' : Text} (h : CodeText.ofText s = CodeText.ofText s') : s = s' :=
  (List.map_inj_right fun _ _ => CodePoint.ofChar_injective).1 h

/-- The text of a string determines the string, and where it ends. -/
theorem string_append_inj {s s' r r' : Text}
    (h : Style.indented.string (CodeText.ofText s) ++ r = Style.indented.string (CodeText.ofText s') ++ r') :
    s = s' ∧ r = r' := by
  simp only [Style.string, List.cons_append, List.append_assoc, List.nil_append, List.cons.injEq, true_and] at h
  have hread := stringTail_ofText [] s r
  rw [h, stringTail_ofText] at hread
  obtain ⟨hs, hr⟩ := Prod.mk.inj (Except.ok.inj hread)
  exact ⟨(ofText_injective hs).symm, hr.symm⟩

/-! ## Members -/

/-- Of members after the first one, a string at the beginning and the text of the others are determined. -/
theorem writeMembers_append_inj {level : Nat} {k : CodeText} {s s' : Text} {ms ms' : List (CodeText × Json)} {r r' : Text}
    (h : writeMembers .indented level ((k, .ofText s) :: ms) ++ r = writeMembers .indented level ((k, .ofText s') :: ms') ++ r') :
    s = s' ∧ writeMembers .indented level ms ++ r = writeMembers .indented level ms' ++ r' := by
  simp only [writeMembers, ofText, write, List.append_assoc] at h
  replace h := List.append_cancel_left (List.append_cancel_left (List.append_cancel_left h))
  exact string_append_inj h

/-- Of an object that begins with a string, the string and the text of the other members are determined. -/
theorem write_object_inj {level : Nat} {k : CodeText} {s s' : Text} {ms ms' : List (CodeText × Json)}
    (h : write .indented level (.object ((k, .ofText s) :: ms)) = write .indented level (.object ((k, .ofText s') :: ms'))) :
    s = s' ∧ ∃ r, writeMembers .indented (level + 1) ms ++ r = writeMembers .indented (level + 1) ms' ++ r := by
  simp only [ofText, write, List.append_assoc, List.cons_append, List.cons.injEq, true_and] at h
  replace h := List.append_cancel_left (List.append_cancel_left h)
  simp only [List.nil_append, List.cons.injEq, true_and] at h
  obtain ⟨hs, hrest⟩ := string_append_inj h
  exact ⟨hs, _, hrest⟩

end Json

end SourceInventory
