import Mathlib.Data.List.TakeWhile
import SourceInventory.Proofs.Pattern.Written

/-!
# Pieces: words and blanks of a written declaration
-/

namespace SourceInventory

/-- A word. -/
structure Word where
  /-- Its characters. -/
  text : Text
  /-- There is one at least. -/
  text_ne_nil : text ≠ [] := by decide
  /-- They are word characters. -/
  isWord_text : ∀ c ∈ text, isWord c = true := by exact List.all_eq_true.1 (by decide)

/-- Any blanks. -/
structure Gap where
  /-- The blanks. -/
  text : Text
  /-- They are blanks. -/
  isBlank_text : ∀ c ∈ text, isBlank c = true := by exact List.all_eq_true.1 (by decide)

/-- One blank at least. -/
structure Blanks where
  /-- The blanks. -/
  text : Text
  /-- There is one at least. -/
  text_ne_nil : text ≠ [] := by decide
  /-- They are blanks. -/
  isBlank_text : ∀ c ∈ text, isBlank c = true := by exact List.all_eq_true.1 (by decide)

/-- No blanks at all. -/
def Gap.none : Gap where
  text := []

/-- Blanks of which there is one at least are any blanks. -/
def Gap.ofBlanks (b : Blanks) : Gap where
  text := b.text
  isBlank_text := b.isBlank_text

/-- One space. -/
def Blanks.space : Blanks where
  text := [' ']

theorem Blanks.eq_of_text_eq {a b : Blanks} (h : a.text = b.text) : a = b := by
  obtain ⟨_, _, _⟩ := a
  obtain ⟨_, _, _⟩ := b
  obtain rfl := h
  rfl

theorem Gap.eq_of_text_eq {a b : Gap} (h : a.text = b.text) : a = b := by
  obtain ⟨_, _⟩ := a
  obtain ⟨_, _⟩ := b
  obtain rfl := h
  rfl

theorem Word.eq_of_text_eq {a b : Word} (h : a.text = b.text) : a = b := by
  obtain ⟨_, _, _⟩ := a
  obtain ⟨_, _, _⟩ := b
  obtain rfl := h
  rfl

/-- A word begins with no blank. -/
theorem Word.solid_head (w : Word) (r : Text) : ∀ c ∈ (w.text ++ r).head?, Pattern.Solid c := by
  obtain ⟨x, t, ht⟩ := List.exists_cons_of_ne_nil w.text_ne_nil
  intro c hc
  rw [ht] at hc
  exact Option.some.inj hc ▸ Pattern.solid_of_isWord (w.isWord_text x (ht ▸ List.mem_cons_self))

/-! ## Blanks around a text -/

/-- A character that is no blank is not lost where the blanks at either end are left out. -/
theorem Text.mem_trim_iff {c : Char} (hc : Pattern.Solid c) {s : Text} : c ∈ s.trim ↔ c ∈ s := by
  have hdrop : ∀ s : Text, c ∈ s.dropWhile isBlank ↔ c ∈ s := by
    intro s
    refine ⟨fun h => (List.dropWhile_suffix _).subset h, fun h => ?_⟩
    rw [← List.takeWhile_append_dropWhile (p := isBlank) (l := s), List.mem_append] at h
    rcases h with h | h
    · exact absurd (List.mem_takeWhile_imp h) (by rw [show isBlank c = false from hc]; decide)
    · exact h
  rw [trim, strip, List.mem_reverse, hdrop, List.mem_reverse, hdrop]

/-- A text is made of blanks, what is left of it without the blanks at either end, and blanks. -/
theorem Text.exists_trim (s : Text) : ∃ g g' : Gap, s = g.text ++ (s.trim ++ g'.text) := by
  obtain ⟨before, after, hs, hbefore, hafter⟩ := exists_strip isBlank s
  exact ⟨⟨before, hbefore⟩, ⟨after, hafter⟩, hs⟩

/-- What is left of a text without the blanks around it stands in the text. -/
theorem Text.trim_isInfix (s : Text) : s.trim <:+: s := by
  obtain ⟨g, g', hs⟩ := exists_trim s
  exact ⟨g.text, g'.text, by rw [List.append_assoc, ← hs]⟩

/-- A text without blanks at either end. -/
def Text.Trimmed (s : Text) : Prop := (∀ c ∈ s.head?, isBlank c = false) ∧ ∀ c ∈ s.getLast?, isBlank c = false

/-- Without the blanks around it a text is trimmed. -/
theorem Text.trimmed_trim (s : Text) : s.trim.Trimmed := by
  have hfirst : ∀ {t : Text}, ∀ c ∈ (t.dropWhile isBlank).head?, isBlank c = false := by
    intro t c hc
    have hnot := List.head?_dropWhile_not isBlank t
    rwa [hc] at hnot
  refine ⟨fun c hc => ?_, fun c hc => ?_⟩
  · -- what the blanks at the end are cut from begins with the same character
    have hbegin : s.trim <+: s.dropWhile isBlank := by
      have hend := List.dropWhile_suffix isBlank (l := (s.dropWhile isBlank).reverse)
      rwa [← List.reverse_prefix, List.reverse_reverse] at hend
    obtain ⟨t, ht⟩ := List.head?_eq_some_iff.1 hc
    obtain ⟨r, hr⟩ := hbegin
    exact hfirst c (by rw [← hr, ht]; rfl)
  · rw [trim, strip, List.getLast?_reverse] at hc
    exact hfirst c hc

/-- Of a word between blanks the word is left. -/
theorem Text.trim_word (g : Gap) (w : Word) (g' : Gap) : Text.trim (g.text ++ (w.text ++ g'.text)) = w.text := by
  have hsolid : ∀ c ∈ w.text, isBlank c = false := fun c hc => Pattern.solid_of_isWord (w.isWord_text c hc)
  exact strip_append g.isBlank_text w.text_ne_nil (fun c hc => hsolid c (List.mem_of_mem_head? hc))
    (fun c hc => hsolid c (List.mem_of_getLast? hc)) g'.isBlank_text

/-- The first character of a text that is no blank. -/
def Text.firstSolid? (s : Text) : Option Char := (s.dropWhile isBlank).head?

/-- The first character that is no blank stands behind blanks only. -/
theorem Text.firstSolid?_eq_some_iff {s : Text} {c : Char} :
    s.firstSolid? = some c ↔ Pattern.Solid c ∧ ∃ (g : Gap) (t : Text), s = g.text ++ c :: t := by
  constructor
  · intro h
    obtain ⟨t, ht⟩ := List.head?_eq_some_iff.1 h
    have hsolid := List.head?_dropWhile_not isBlank s
    rw [ht, List.head?_cons] at hsolid
    refine ⟨hsolid, ⟨s.takeWhile isBlank, fun _ h => List.mem_takeWhile_imp h⟩, t, ?_⟩
    rw [← ht, List.takeWhile_append_dropWhile]
  · rintro ⟨hc, g, t, rfl⟩
    rw [firstSolid?, List.dropWhile_append_of_pos g.isBlank_text,
      List.dropWhile_cons_of_neg (by rw [show isBlank c = false from hc]; decide), List.head?_cons]

/-- A text is cut where a run of a class ends. -/
theorem Text.exists_run (k : Char → Bool) (s : Text) :
    ∃ u v : Text, s = u ++ v ∧ (∀ c ∈ u, k c = true) ∧ ∀ c ∈ v.head?, k c = false := by
  refine ⟨s.takeWhile k, s.dropWhile k, List.takeWhile_append_dropWhile.symm, fun c hc => List.mem_takeWhile_imp hc, fun c hc => ?_⟩
  have hnot := List.head?_dropWhile_not k s
  rw [hc] at hnot
  exact hnot

/-- A run of a class ends before a character that is not in it. -/
theorem Text.cut_run {k : Char → Bool} {u r : Text} (hu : ∀ c ∈ u, k c = true) (hr : ∀ c ∈ r.head?, k c = false) :
    (u ++ r).takeWhile k = u ∧ (u ++ r).dropWhile k = r := by
  rw [List.takeWhile_append_of_pos hu, List.dropWhile_append_of_pos hu]
  cases r with
  | nil => exact ⟨List.append_nil u, rfl⟩
  | cons x r =>
    have hx : ¬k x = true := by rw [hr x rfl]; decide
    rw [List.takeWhile_cons_of_neg hx, List.dropWhile_cons_of_neg hx, List.append_nil]
    exact ⟨rfl, rfl⟩

/-- A beginning of a text that ends before the first of some character is cut off before it. -/
theorem Text.exists_cut {c : Char} {x y g z : Text} (h : x ++ y = g ++ c :: z) (hx : c ∉ x) :
    ∃ g', g = x ++ g' ∧ y = g' ++ c :: z := by
  rcases List.append_eq_append_iff.1 h with ⟨g', rfl, hy⟩ | ⟨k, rfl, hk⟩
  · exact ⟨g', rfl, hy⟩
  · cases k with
    | nil => exact ⟨[], by simp, hk.symm⟩
    | cons d k =>
      obtain rfl : c = d := (List.cons.inj hk).1
      exact absurd (by simp) hx

/-! ## The ends of texts -/

/-- A text ends with a character of a class. -/
def Text.LastIs (q : Char → Prop) (s : Text) : Prop := ∃ u c, s = u ++ [c] ∧ q c

/-- The last character does not depend on what stands before. -/
theorem Text.LastIs.append {q : Char → Prop} {s : Text} (h : LastIs q s) (t : Text) : LastIs q (t ++ s) := by
  obtain ⟨u, c, rfl, hc⟩ := h
  exact ⟨t ++ u, c, (List.append_assoc t u [c]).symm, hc⟩

/-- What is known of a last character implies what follows from it. -/
theorem Text.LastIs.mono {q q' : Char → Prop} {s : Text} (h : LastIs q s) (hq : ∀ c, q c → q' c) : LastIs q' s := by
  obtain ⟨u, c, hs, hc⟩ := h
  exact ⟨u, c, hs, hq c hc⟩

/-- A last character is the one that is found at the end. -/
theorem Text.LastIs.of_getLast? {q : Char → Prop} {s : Text} (h : LastIs q s) : ∀ c ∈ s.getLast?, q c := by
  obtain ⟨u, x, rfl, hx⟩ := h
  intro c hc
  rw [List.getLast?_concat] at hc
  exact Option.some.inj hc ▸ hx

/-- What holds of every character holds of the last one. -/
theorem Text.lastIs_of_forall {q : Char → Prop} {s : Text} (hne : s ≠ []) (h : ∀ c ∈ s, q c) : LastIs q s :=
  ⟨s.dropLast, s.getLast hne, (List.dropLast_concat_getLast hne).symm, h _ (List.getLast_mem hne)⟩

/-- Blanks at the end of a text are no exception in a class that has all blanks. -/
theorem Text.LastIs.append_gap {q : Char → Prop} {s : Text} (h : LastIs q s) (g : Gap) (hq : ∀ c, isBlank c = true → q c) :
    LastIs q (s ++ g.text) := by
  by_cases hg : g.text = []
  · rwa [hg, List.append_nil]
  · exact (lastIs_of_forall hg fun c hc => hq c (g.isBlank_text c hc)).append s

/-- A word ends in a word character. -/
theorem Word.lastIs_text (w : Word) : Text.LastIs (isWord · = true) w.text := Text.lastIs_of_forall w.text_ne_nil w.isWord_text

/-- Blanks end in a blank. -/
theorem Blanks.lastIs_text (b : Blanks) : Text.LastIs (isBlank · = true) b.text := Text.lastIs_of_forall b.text_ne_nil b.isBlank_text

/-- If a run of a class at the end of a text is cut off, and another one at the end of another text, what is left of the first text
is at the end of what is left of the second one. -/
theorem Text.suffix_of_run {k : Char → Bool} {a p u v : Text} (h : a ++ u <:+ p ++ v) (hu : ∀ c ∈ u, k c = true)
    (hv : ∀ c ∈ v, k c = true) (ha : LastIs (k · = false) a) (hp : LastIs (k · = false) p) : u = v ∧ a <:+ p := by
  obtain ⟨r, hr⟩ := h
  obtain ⟨a, x, rfl, hx⟩ := ha
  obtain ⟨p, y, rfl, hy⟩ := hp
  have hreverse : u.reverse ++ x :: (r ++ a).reverse = v.reverse ++ y :: p.reverse := by
    have := congrArg List.reverse hr
    simpa using this
  have hhead : ∀ {x : Char} {t : Text}, k x = false → ∀ c ∈ (x :: t).head?, k c = false := fun hx _ hc => Option.some.inj hc ▸ hx
  obtain ⟨huv, hap⟩ := Pattern.run_split_unique hreverse (fun c hc => hu c (List.mem_reverse.1 hc)) (fun c hc => hv c (List.mem_reverse.1 hc))
    (hhead hx) (hhead hy)
  obtain ⟨rfl, hbefore⟩ := List.cons.inj hap
  refine ⟨List.reverse_inj.1 huv, r, ?_⟩
  rw [← List.append_assoc, List.reverse_inj.1 hbefore]

/-- A text and an end of it have one last character. -/
theorem Text.LastIs.of_suffix {q q' : Char → Prop} {a p : Text} (ha : LastIs q a) (hp : LastIs q' p) (h : a <:+ p) :
    ∃ c, q c ∧ q' c := by
  obtain ⟨r, rfl⟩ := h
  obtain ⟨u, c, rfl, hc⟩ := ha
  exact ⟨c, hc, hp.of_getLast? c (by rw [← List.append_assoc, List.getLast?_concat]; rfl)⟩

namespace Pattern

theorem reads_word (w : Word) : Reads word w.text [] := reads_nonemptyRun w.text_ne_nil w.isWord_text

theorem reads_gap (g : Gap) : Reads gap g.text [] := reads_run g.isBlank_text

theorem reads_blanks (b : Blanks) : Reads blanks b.text [] := reads_nonemptyRun b.text_ne_nil b.isBlank_text

/-- A keyword is read with any blanks behind it. -/
theorem reads_keyword (w : String) (b : Blanks) : Reads (keyword w) (w.toList ++ b.text) [] :=
  (reads_lit w).append (reads_blanks b)

end Pattern

end SourceInventory
