/-!
# Text: a list of characters

A text is a list of its characters, so that an index, a length or a window counts code points. A character is a Unicode scalar
value: what holds a surrogate that stands alone is no text, and no function on texts says anything about it. Every scanner of
the library works on what is left of a text, and a place in a text is given by what is left there.

The blanks are the characters of the Unicode property White_Space together with the four information separators U+001C to
U+001F. The zero width space, the byte order mark and the Mongolian vowel separator are no blanks.
-/

namespace SourceInventory

/-- A text, as the list of its characters. -/
abbrev Text : Type := List Char

namespace Text

/-- What follows `t` in a text that begins with `t`. -/
def after? : (t s : Text) → Option Text
  | [], s => some s
  | _ :: _, [] => none
  | a :: t, b :: s => if a = b then after? t s else none

/-- Whether `t` occurs in a text, at any place. -/
def occursIn (t : Text) : (s : Text) → Bool
  | [] => t.isEmpty
  | c :: s => (after? t (c :: s)).isSome || occursIn t s

/-- The text without the characters of a class at either end. -/
def strip (p : Char → Bool) (s : Text) : Text :=
  ((s.dropWhile p).reverse.dropWhile p).reverse

/-- The stretches of a text between the occurrences of a separator: one more than there are separators. -/
def splitOn (sep : Char) : Text → List Text
  | [] => [[]]
  | c :: s => if c = sep then [] :: splitOn sep s else (splitOn sep s).modifyHead (c :: ·)

/-- The lines of a text: what stands between its line feeds, and nothing else ends a line. -/
def lines (s : Text) : List Text := splitOn '\n' s

/-- Texts put together with a separator between each two. -/
def join (sep : Text) (ts : List Text) : Text := (ts.intersperse sep).flatten

/-- The decimal text of a natural number. -/
def ofNat (n : Nat) : Text := Nat.toDigits 10 n

/-- The decimal text of an integer. -/
def ofInt : Int → Text
  | .ofNat n => ofNat n
  | .negSucc n => '-' :: ofNat (n + 1)

/-! ## Lemmas -/

theorem after?_eq_some_iff {t s r : Text} : after? t s = some r ↔ s = t ++ r := by
  fun_induction after? t s with
  | case1 s => simp [eq_comm]
  | case2 a t => simp
  | case3 t a s ih => simp [ih]
  | case4 a t b s h => simp [Ne.symm h]

theorem after?_append (t r : Text) : after? t (t ++ r) = some r := after?_eq_some_iff.2 rfl

/-- `occursIn` says that the text is made of `t` with something before and something after it. -/
theorem occursIn_iff {t s : Text} : occursIn t s = true ↔ ∃ u v, s = u ++ t ++ v := by
  induction s with
  | nil => cases t <;> simp [occursIn]
  | cons c s ih =>
    rw [occursIn, Bool.or_eq_true, ih, Option.isSome_iff_exists]
    constructor
    · rintro (⟨r, hr⟩ | ⟨u, v, rfl⟩)
      · exact ⟨[], r, after?_eq_some_iff.1 hr⟩
      · exact ⟨c :: u, v, rfl⟩
    · rintro ⟨u, v, h⟩
      cases u with
      | nil => exact .inl ⟨v, after?_eq_some_iff.2 h⟩
      | cons d u =>
        simp only [List.cons_append, List.cons.injEq] at h
        exact .inr ⟨u, v, h.2⟩

/-- There is one stretch more than there are separators. -/
theorem length_splitOn (sep : Char) (s : Text) : (splitOn sep s).length = s.count sep + 1 := by
  induction s with
  | nil => rfl
  | cons c s ih => by_cases h : c = sep <;> simp [splitOn, h, ih]

/-! ## What is left between the ends of a text -/

variable {p : Char → Bool}

/-- A text is made of characters of a class, what is left of it without them at either end, and characters of the class. -/
theorem exists_strip (p : Char → Bool) (s : Text) :
    ∃ before after, s = before ++ (s.strip p ++ after) ∧ (∀ c ∈ before, p c = true) ∧ ∀ c ∈ after, p c = true := by
  refine ⟨s.takeWhile p, ((s.dropWhile p).reverse.takeWhile p).reverse, ?_, fun c hc => ?_, fun c hc => ?_⟩
  · rw [strip, ← List.reverse_append, List.takeWhile_append_dropWhile, List.reverse_reverse, List.takeWhile_append_dropWhile]
  · exact List.all_eq_true.1 List.all_takeWhile c hc
  · exact List.all_eq_true.1 List.all_takeWhile c (List.mem_reverse.1 hc)

/-- Where no character of a class begins a text, none is dropped. -/
theorem dropWhile_eq_self {s : Text} (h : ∀ c ∈ s.head?, p c = false) : s.dropWhile p = s := by
  cases s with
  | nil => rfl
  | cons c s => exact List.dropWhile_cons_of_neg (by rw [h c rfl]; decide)

/-- Characters of a class are stripped off a text that neither begins nor ends with one. -/
theorem strip_append {before t after : Text} (hbefore : ∀ c ∈ before, p c = true) (ht : t ≠ [])
    (hhead : ∀ c ∈ t.head?, p c = false) (hlast : ∀ c ∈ t.getLast?, p c = false) (hafter : ∀ c ∈ after, p c = true) :
    strip p (before ++ (t ++ after)) = t := by
  have hbegin : (t ++ after).dropWhile p = t ++ after := by
    refine dropWhile_eq_self fun c hc => hhead c ?_
    obtain ⟨x, r, rfl⟩ := List.exists_cons_of_ne_nil ht
    exact hc
  have hend : t.reverse.dropWhile p = t.reverse := by
    refine dropWhile_eq_self fun c hc => hlast c ?_
    rwa [List.head?_reverse] at hc
  rw [strip, List.dropWhile_append_of_pos hbefore, hbegin, List.reverse_append,
    List.dropWhile_append_of_pos fun c hc => hafter c (List.mem_reverse.1 hc), hend, List.reverse_reverse]

end Text

/-! ## Blanks -/

/-- The code points of the blanks. -/
def blankCodes : List Nat :=
  [0x09, 0x0a, 0x0b, 0x0c, 0x0d, 0x1c, 0x1d, 0x1e, 0x1f, 0x20, 0x85, 0xa0, 0x1680, 0x2000, 0x2001, 0x2002, 0x2003, 0x2004,
   0x2005, 0x2006, 0x2007, 0x2008, 0x2009, 0x200a, 0x2028, 0x2029, 0x202f, 0x205f, 0x3000]

/-- A blank: a character that separates words. -/
def isBlank (c : Char) : Bool := blankCodes.contains c.toNat

/-- A text without the blanks at either end. -/
def Text.trim (s : Text) : Text := s.strip isBlank

/-- The ASCII white space is blank. -/
theorem isBlank_of_isWhitespace {c : Char} (h : c.isWhitespace = true) : isBlank c = true := by
  simp only [Char.isWhitespace, Bool.or_eq_true, decide_eq_true_eq] at h
  rcases h with ((rfl | rfl) | rfl) | rfl <;> decide

end SourceInventory
