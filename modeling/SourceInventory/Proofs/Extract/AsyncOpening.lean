import SourceInventory.Proofs.Extract.AsyncWindow
import SourceInventory.Proofs.Extract.Hit

/-!
# The opening of an asynchronous function

A function that is declared asynchronous has the asynchronous word behind an opening: the words before it, the blanks between
them and, for an arrow function, its name. Of the opening only the name of an arrow function can hold the asynchronous word as
well. So the lengths of the pieces of the opening, and the places of the word in the name of an arrow function, decide whether the
window shows the word (`asyncWithin_append_text`), and with it the flag of the symbol (`symbols_async_iff`).
-/

namespace SourceInventory

open Pattern

/-! ## The asynchronous word in a window -/

namespace Text

/-- A word at a place of two texts put together, the second of which begins with no character of the word and does not hold it,
stands in the first. -/
theorem prefix_drop_append_iff {w u v : Text} (hw : w ≠ []) (hv : ∀ c ∈ v.head?, c ∉ w) (hno : ¬ w <:+: v) (k : Nat) :
    w <+: (u ++ v).drop k ↔ w <+: u.drop k := by
  constructor
  · intro h
    rcases Nat.le_total k u.length with hk | hk
    · rw [List.drop_append_of_le_length hk] at h
      exact prefix_of_prefix_append_of_head h hv
    · rw [List.drop_append, List.drop_eq_nil_of_le hk, List.nil_append] at h
      exact absurd (h.isInfix.trans (List.drop_suffix _ _).isInfix) hno
  · intro h
    rcases Nat.le_total k u.length with hk | hk
    · rw [List.drop_append_of_le_length hk]
      exact h.trans (List.prefix_append _ _)
    · rw [List.drop_eq_nil_of_le hk, List.prefix_nil] at h
      exact absurd h hw

end Text

namespace Braced

/-- A window shows the asynchronous word if the word stands at a place from which it does not reach beyond the window. -/
theorem asyncWithin_iff {window : Nat} {s : Text} :
    asyncWithin window s = true ↔ ∃ k, asyncWord <+: s.drop k ∧ k + asyncWord.length ≤ window := by
  rw [asyncWithin, Text.occursIn_iff]
  constructor
  · rintro ⟨u, v, h⟩
    have hlen := congrArg List.length h
    simp only [List.length_append, List.length_take] at hlen
    refine ⟨u.length, ?_, by omega⟩
    have hs : s = u ++ asyncWord ++ (v ++ s.drop window) := by
      rw [← List.append_assoc, ← h, List.take_append_drop]
    rw [hs, List.append_assoc, List.drop_left]
    exact List.prefix_append _ _
  · rintro ⟨k, ⟨t, ht⟩, hk⟩
    refine ⟨s.take k, t.take (window - (k + asyncWord.length)), ?_⟩
    have hs : s = s.take k ++ asyncWord ++ t := by
      rw [List.append_assoc, ht, List.take_append_drop]
    have hlt : k < s.length := by
      by_contra hge
      rw [List.drop_eq_nil_of_le (Nat.le_of_not_lt hge)] at ht
      exact absurd ht (by simp [asyncWord])
    have hlen : (s.take k ++ asyncWord).length = k + asyncWord.length := by
      rw [List.length_append, List.length_take_of_le (Nat.le_of_lt hlt)]
    conv_lhs => rw [hs]
    rw [List.take_append, hlen, List.take_of_length_le (by omega)]

/-- No window shows the word in a text that does not hold it. -/
theorem asyncWithin_eq_false_of_not_infix {u : Text} (h : ¬ asyncWord <:+: u) (window : Nat) : asyncWithin window u = false := by
  refine Bool.eq_false_iff.2 fun hshown => h ?_
  obtain ⟨k, hk, -⟩ := asyncWithin_iff.1 hshown
  exact hk.isInfix.trans (List.drop_suffix k u).isInfix

/-- Where the word follows at once it is shown if there is room for it. -/
theorem asyncWithin_asyncWord_append (room : Nat) (t : Text) :
    asyncWithin room (asyncWord ++ t) = true ↔ asyncWord.length ≤ room := by
  constructor
  · intro h
    obtain ⟨k, -, hk⟩ := asyncWithin_iff.1 h
    omega
  · intro h
    exact asyncWithin_iff.2 ⟨0, List.prefix_append _ _, by omega⟩

/-- The word for asynchronous functions does not stand in a text without its first letter. -/
theorem not_infix_of_not_mem {u : Text} (h : 'a' ∉ u) : ¬ asyncWord <:+: u :=
  fun hmem => h (hmem.subset (by decide))

end Braced

/-! ## Openings -/

/-- What an asynchronous function has before the word for it. -/
inductive AsyncOpening where
  /-- The opening of a function that is exported under its name. -/
  | named (afterExport : Blanks)
  /-- The opening of an arrow function. -/
  | arrow (afterExport afterConst : Blanks) (name : Word) (beforeEquals afterEquals : Gap)
  /-- The opening of a default function. -/
  | default (afterExport afterDefault : Blanks)

namespace AsyncOpening

/-- The pass over functions with this opening. -/
def pass : AsyncOpening → ExportPass
  | .named _ => .namedFunction
  | .arrow .. => .arrowFunction
  | .default .. => .defaultFunction

/-- The opening as it is written. -/
def text : AsyncOpening → Text
  | .named afterExport => "export".toList ++ afterExport.text
  | .arrow afterExport afterConst name beforeEquals afterEquals =>
    "export".toList ++ afterExport.text ++ "const".toList ++ afterConst.text ++
      (name.text ++ (beforeEquals.text ++ "=".toList ++ afterEquals.text))
  | .default afterExport afterDefault => "export".toList ++ afterExport.text ++ "default".toList ++ afterDefault.text

theorem text_named (afterExport : Blanks) : (named afterExport).text = "export".toList ++ afterExport.text := rfl

theorem text_arrow (afterExport afterConst : Blanks) (name : Word) (beforeEquals afterEquals : Gap) :
    (arrow afterExport afterConst name beforeEquals afterEquals).text =
      "export".toList ++ afterExport.text ++ "const".toList ++ afterConst.text ++
        (name.text ++ (beforeEquals.text ++ "=".toList ++ afterEquals.text)) := rfl

theorem text_default (afterExport afterDefault : Blanks) :
    (default afterExport afterDefault).text =
      "export".toList ++ afterExport.text ++ "default".toList ++ afterDefault.text := rfl

/-- The name in the opening. -/
def name? : AsyncOpening → Option Word
  | .arrow _ _ name _ _ => some name
  | .named _ | .default .. => none

/-- The pieces of the opening are so short that the window shows the asynchronous word, behind the opening or in its name. -/
def Shown : AsyncOpening → Prop
  | .named afterExport => afterExport.text.length ≤ 14
  | .arrow afterExport afterConst name beforeEquals afterEquals =>
    name.text.length + afterExport.text.length + afterConst.text.length + beforeEquals.text.length + afterEquals.text.length ≤ 28 ∨
      ∃ q, Braced.asyncWord <+: name.text.drop q ∧ q + afterExport.text.length + afterConst.text.length ≤ 29
  | .default afterExport afterDefault => afterExport.text.length + afterDefault.text.length ≤ 17

/-- An occurrence begins with the opening, and behind it comes the modifier that was recorded. -/
def Opens (x : AsyncOpening) (o : Occurrence) : Prop := ∃ sp, o.span? .modifier = some sp ∧ o.start = x.text ++ sp.start

/-! ## What the window shows -/

/-- The word for asynchronous functions has no blank. -/
theorem not_mem_asyncWord_of_isBlank {c : Char} (h : isBlank c = true) : c ∉ Braced.asyncWord := by
  have hsolid : ∀ c ∈ Braced.asyncWord, (!isBlank c) = true := List.all_eq_true.1 (by decide)
  intro hmem
  have hno := hsolid c hmem
  rw [h] at hno
  exact absurd hno (by decide)

/-- Blanks have none of its letters. -/
theorem a_not_mem_of_isBlank {b : Text} (h : ∀ c ∈ b, isBlank c = true) : 'a' ∉ b :=
  fun hmem => absurd (h 'a' hmem) (by decide)

/-- Blanks at the end of a text keep it apart from the asynchronous word. -/
theorem getLast?_append_blanks {u b : Text} (hb : ∀ c ∈ b, isBlank c = true)
    (hu : b = [] → ∀ c ∈ u.getLast?, c ∉ Braced.asyncWord) : ∀ c ∈ (u ++ b).getLast?, c ∉ Braced.asyncWord := by
  rcases List.eq_nil_or_concat' b with rfl | ⟨b, x, rfl⟩
  · rw [List.append_nil]
    exact hu rfl
  · intro c hc
    rw [← List.append_assoc, List.getLast?_concat] at hc
    exact Option.some.inj hc ▸ not_mem_asyncWord_of_isBlank (hb x (by simp))

/-- An opening does not end with a character of the asynchronous word. -/
theorem not_mem_asyncWord_of_getLast? (x : AsyncOpening) : ∀ c ∈ x.text.getLast?, c ∉ Braced.asyncWord := by
  cases x with
  | named afterExport =>
    rw [text_named]
    exact getLast?_append_blanks afterExport.isBlank_text fun h => absurd h afterExport.text_ne_nil
  | arrow afterExport afterConst name beforeEquals afterEquals =>
    have hequals : '=' ∉ Braced.asyncWord := by decide
    rw [text_arrow, ← List.append_assoc, ← List.append_assoc, ← List.append_assoc]
    refine getLast?_append_blanks afterEquals.isBlank_text fun _ c hc => ?_
    rw [show "=".toList = ['='] from rfl, List.getLast?_concat] at hc
    exact Option.some.inj hc ▸ hequals
  | default afterExport afterDefault =>
    rw [text_default]
    exact getLast?_append_blanks afterDefault.isBlank_text fun h => absurd h afterDefault.text_ne_nil

/-- Of the opening of an arrow function the window shows the asynchronous word in the name alone. -/
theorem asyncWithin_arrow (afterExport afterConst : Blanks) (name : Word) (beforeEquals afterEquals : Gap) (window : Nat) :
    Braced.asyncWithin window (arrow afterExport afterConst name beforeEquals afterEquals).text = true ↔
      ∃ q, Braced.asyncWord <+: name.text.drop q ∧
        q + Braced.asyncWord.length ≤ window - (11 + afterExport.text.length + afterConst.text.length) := by
  have hwords : 'a' ∉ "export".toList ∧ 'a' ∉ "const".toList ∧ 'a' ∉ "=".toList ∧ '=' ∉ Braced.asyncWord := by decide
  have hbefore : 'a' ∉ "export".toList ++ afterExport.text ++ "const".toList ++ afterConst.text := by
    simp only [List.mem_append, not_or]
    exact ⟨⟨⟨hwords.1, a_not_mem_of_isBlank afterExport.isBlank_text⟩, hwords.2.1⟩,
      a_not_mem_of_isBlank afterConst.isBlank_text⟩
  have hlast : ∀ c ∈ ("export".toList ++ afterExport.text ++ "const".toList ++ afterConst.text).getLast?, c ∉ Braced.asyncWord :=
    getLast?_append_blanks afterConst.isBlank_text fun h => absurd h afterConst.text_ne_nil
  have hbehind : 'a' ∉ beforeEquals.text ++ "=".toList ++ afterEquals.text := by
    simp only [List.mem_append, not_or]
    exact ⟨⟨a_not_mem_of_isBlank beforeEquals.isBlank_text, hwords.2.2.1⟩, a_not_mem_of_isBlank afterEquals.isBlank_text⟩
  have hhead : ∀ c ∈ (beforeEquals.text ++ "=".toList ++ afterEquals.text).head?, c ∉ Braced.asyncWord := by
    cases hgap : beforeEquals.text with
    | nil => exact fun c hc => Option.some.inj hc ▸ hwords.2.2.2
    | cons b g =>
      intro c hc
      exact Option.some.inj hc ▸ not_mem_asyncWord_of_isBlank (beforeEquals.isBlank_text b (hgap ▸ List.mem_cons_self))
  have hlength : ("export".toList ++ afterExport.text ++ "const".toList ++ afterConst.text).length =
      11 + afterExport.text.length + afterConst.text.length := by
    have hletters : "export".toList.length = 6 ∧ "const".toList.length = 5 := by decide
    simp only [List.length_append, hletters]
    omega
  rw [text_arrow, Braced.asyncWithin_append hlast,
    Braced.asyncWithin_eq_false_of_not_infix (Braced.not_infix_of_not_mem hbefore), Bool.false_or, hlength, Braced.asyncWithin_iff]
  exact exists_congr fun q => and_congr_left fun _ =>
    Text.prefix_drop_append_iff (by decide) hhead (Braced.not_infix_of_not_mem hbehind) q

/-- Of the opening of a default function the window shows the asynchronous word nowhere. -/
theorem asyncWithin_default (afterExport afterDefault : Blanks) (window : Nat) :
    Braced.asyncWithin window (default afterExport afterDefault).text = false := by
  have hexport : 'a' ∉ "export".toList ++ afterExport.text :=
    List.not_mem_append (by decide) (a_not_mem_of_isBlank afterExport.isBlank_text)
  have hlast : ∀ c ∈ ("export".toList ++ afterExport.text).getLast?, c ∉ Braced.asyncWord :=
    getLast?_append_blanks afterExport.isBlank_text fun h => absurd h afterExport.text_ne_nil
  -- this word has the first letter of the asynchronous word, but not the next one after it
  have hdefault : ¬ Braced.asyncWord <:+: "default".toList := by decide
  have hlast' : ∀ c ∈ "default".toList.getLast?, c ∉ Braced.asyncWord :=
    fun c hc => (Option.some.inj hc : 't' = c) ▸ by decide
  rw [text_default, List.append_assoc, Braced.asyncWithin_append hlast, Braced.asyncWithin_append hlast',
    Braced.asyncWithin_eq_false_of_not_infix (Braced.not_infix_of_not_mem hexport),
    Braced.asyncWithin_eq_false_of_not_infix hdefault,
    Braced.asyncWithin_eq_false_of_not_infix (Braced.not_infix_of_not_mem (a_not_mem_of_isBlank afterDefault.isBlank_text))]
  rfl

/-- The window shows the asynchronous word of a declaration exactly if the pieces of its opening are short enough. -/
theorem asyncWithin_append_text {window : Nat} (x : AsyncOpening) (hwindow : x.pass.window? = some window) (t : Text) :
    Braced.asyncWithin window (x.text ++ (Braced.asyncWord ++ t)) = true ↔ x.Shown := by
  have hword : Braced.asyncWord.length = 5 := rfl
  have hletters : "export".toList.length = 6 ∧ "const".toList.length = 5 ∧ "=".toList.length = 1 ∧
      "default".toList.length = 7 := by decide
  rw [Braced.asyncWithin_append x.not_mem_asyncWord_of_getLast?, Bool.or_eq_true, Braced.asyncWithin_asyncWord_append, hword]
  cases x with
  | named afterExport =>
    obtain rfl : 25 = window := Option.some.inj hwindow
    have hnone : 'a' ∉ "export".toList ++ afterExport.text :=
      List.not_mem_append (by decide) (a_not_mem_of_isBlank afterExport.isBlank_text)
    rw [text_named, Braced.asyncWithin_eq_false_of_not_infix (Braced.not_infix_of_not_mem hnone), List.length_append, hletters.1,
      Shown]
    simp only [Bool.false_eq_true, false_or]
    omega
  | arrow afterExport afterConst name beforeEquals afterEquals =>
    obtain rfl : 45 = window := Option.some.inj hwindow
    rw [asyncWithin_arrow, text_arrow, Shown, hword, or_comm]
    simp only [List.length_append, hletters]
    refine or_congr (by omega) (exists_congr fun q => and_congr_right fun _ => by omega)
  | default afterExport afterDefault =>
    obtain rfl : 35 = window := Option.some.inj hwindow
    rw [asyncWithin_default, text_default, Shown]
    simp only [List.length_append, hletters, Bool.false_eq_true, false_or]
    omega

/-! ## One opening -/

/-- A text has one opening of a function for each pass at most. -/
theorem eq_of_text_eq {x y : AsyncOpening} (hpass : x.pass = y.pass) (h : x.text = y.text) : x = y := by
  have hblanks : ∀ {a b : Blanks} {r t : Text}, a.text ++ r = b.text ++ t → (∀ c ∈ r.head?, isBlank c = false) →
      (∀ c ∈ t.head?, isBlank c = false) → a = b ∧ r = t := by
    intro a b r t hcut hr ht
    obtain ⟨htext, hrest⟩ := run_split_unique hcut a.isBlank_text b.isBlank_text hr ht
    exact ⟨Blanks.eq_of_text_eq htext, hrest⟩
  cases x with
  | named a =>
    cases y with
    | named b =>
      obtain rfl := Blanks.eq_of_text_eq (List.append_cancel_left h)
      rfl
    | arrow | default => cases hpass
  | arrow a b w g g' =>
    cases y with
    | arrow a' b' w' k k' =>
      have hword : ∀ (m : Gap) (r : Text), ∀ c ∈ (m.text ++ ("=".toList ++ r)).head?, isWord c = false := by
        intro m r
        exact Method.outsideWords_head m.isBlank_text fun _ c hc => Option.some.inj hc ▸ rfl
      rw [text_arrow, text_arrow] at h
      simp only [List.append_assoc] at h
      obtain ⟨ha, hconst⟩ := hblanks (List.append_cancel_left h) (fun c hc => Option.some.inj hc ▸ rfl)
        fun c hc => Option.some.inj hc ▸ rfl
      obtain ⟨hb, hname⟩ := hblanks (List.append_cancel_left hconst) (w.solid_head _) (w'.solid_head _)
      obtain ⟨hw, hequals⟩ := run_split_unique hname w.isWord_text w'.isWord_text (hword g _) (hword k _)
      obtain ⟨hg, hend⟩ := run_split_unique hequals g.isBlank_text k.isBlank_text (fun c hc => Option.some.inj hc ▸ rfl)
        fun c hc => Option.some.inj hc ▸ rfl
      rw [ha, hb, Word.eq_of_text_eq hw, Gap.eq_of_text_eq hg, Gap.eq_of_text_eq (List.append_cancel_left hend)]
    | named | default => cases hpass
  | default a b =>
    cases y with
    | default a' b' =>
      rw [text_default, text_default] at h
      simp only [List.append_assoc] at h
      obtain ⟨ha, hdefault⟩ := hblanks (List.append_cancel_left h) (fun c hc => Option.some.inj hc ▸ rfl)
        fun c hc => Option.some.inj hc ▸ rfl
      rw [ha, Blanks.eq_of_text_eq (List.append_cancel_left hdefault)]
    | named | arrow => cases hpass

end AsyncOpening

/-! ## Reading an opening -/

namespace Pattern

/-- A modifier that was recorded at its only place was read there. -/
theorem exists_of_isSome_modifier {a b c : Pattern} {s : Text} {d : Derivation} (ha : .modifier ∉ a.recorded)
    (hc : .modifier ∉ c.recorded) (h : Derives (a ++ (.optional (.field .modifier b) ++ c)) s d)
    (hmodifier : (d.get? .modifier).isSome = true) :
    ∃ x y z, Derives a s x ∧ Derives b x.rest y ∧ d = x.andThen z ∧ d.span? .modifier = some ⟨x.rest, y.length⟩ := by
  obtain ⟨x, _, hx, hrest, rfl⟩ := derives_append_iff.1 h
  obtain ⟨y, z, hy, hz, rfl⟩ := derives_append_iff.1 hrest
  have hspan : ∀ e : Derivation, (x.andThen (e.andThen z)).span? .modifier = e.span? .modifier := by
    intro e
    rw [Derivation.span?_andThen, Derivation.span?_andThen, span?_eq_none hx ha, span?_eq_none hz hc, Option.none_or,
      Option.or_none]
  rcases derives_optional_iff.1 hy with hy | rfl
  · obtain ⟨y, hy', rfl⟩ := derives_field_iff.1 hy
    exact ⟨x, y, _, hx, hy', rfl, hspan _⟩
  · rw [Derivation.get?, hspan] at hmodifier
    exact absurd hmodifier Bool.false_ne_true

end Pattern

namespace ExportPass

variable {pass : ExportPass} {window : Nat}

/-- An asynchronous function begins with an opening and the asynchronous word, and the name in the opening is its name. -/
theorem exists_asyncOpening (hpass : pass.window? = some window) {s : Text} {d : Derivation} (hd : Derives pass.pattern s d)
    (hmodifier : (d.get? .modifier).isSome = true) :
    ∃ x : AsyncOpening, x.pass = pass ∧
      (∃ sp t, d.span? .modifier = some sp ∧ s = x.text ++ sp.start ∧ sp.start = Braced.asyncWord ++ t) ∧
      ∀ w ∈ x.name?, d.get .name = w.text := by
  have hword : ∀ {b : Pattern} {r : Text} {y : Derivation}, Derives (lit "async" ++ b) r y → ∃ t, r = Braced.asyncWord ++ t := by
    intro b r y hy
    obtain ⟨t, ht⟩ := (opensWith_lit "async").append hy
    exact ⟨t, ht.symm⟩
  cases pass with
  | namedFunction =>
    obtain ⟨x, y, z, hx, hy, rfl, hspan⟩ := exists_of_isSome_modifier (by decide) (by decide)
      (derives_append_assoc.1 (derives_append_assoc.1 (derives_append_assoc.1 (derives_append_assoc.1 hd)))) hmodifier
    obtain ⟨_, hs, ⟨afterExport, rfl⟩, -⟩ := takes_keyword "export" hx
    obtain ⟨t, ht⟩ := hword hy
    exact ⟨.named afterExport, rfl, ⟨_, t, hspan, hs, ht⟩, fun w hw => absurd hw (Option.not_mem_none w)⟩
  | arrowFunction =>
    obtain ⟨x, y, z, hx, hy, rfl, hspan⟩ := exists_of_isSome_modifier (by decide) (by decide)
      (derives_append_assoc.1 (derives_append_assoc.1 (derives_append_assoc.1 hd))) hmodifier
    obtain ⟨_, hs, htaken⟩ := ((((((takes_keyword "export").append (takes_keyword "const")).append
      (takes_word.field .name)).append takes_gap).append (takes_lit "=")).append takes_gap) hx
    obtain ⟨t, ht⟩ := hword hy
    have hname := Derivation.get?_eq_lookup x .name
    generalize x.captures = cs at htaken hname
    obtain ⟨⟨⟨⟨⟨⟨⟨afterExport, rfl⟩, rfl⟩, ⟨⟨afterConst, rfl⟩, rfl⟩⟩, ⟨_, ⟨⟨name, rfl⟩, rfl⟩, rfl⟩⟩, ⟨⟨beforeEquals, rfl⟩, rfl⟩⟩,
      ⟨rfl, rfl⟩⟩, ⟨⟨afterEquals, rfl⟩, rfl⟩⟩ := htaken
    refine ⟨.arrow afterExport afterConst name beforeEquals afterEquals, rfl, ⟨_, t, hspan, ?_, ht⟩, fun w hw => ?_⟩
    · rw [hs, AsyncOpening.text_arrow]
      simp only [List.append_assoc]
    · obtain rfl := Option.some.inj hw
      rw [Derivation.get, Derivation.get?_andThen, hname]
      rfl
  | defaultFunction =>
    obtain ⟨x, y, z, hx, hy, rfl, hspan⟩ := exists_of_isSome_modifier (by decide) (by decide)
      (derives_append_assoc.1 (derives_append_assoc.1 (derives_append_assoc.1 (derives_append_assoc.1
        (derives_append_assoc.1 hd))))) hmodifier
    obtain ⟨_, hs, htaken⟩ := ((takes_keyword "export").append (takes_keyword "default")) hx
    obtain ⟨t, ht⟩ := hword hy
    generalize x.captures = cs at htaken
    obtain ⟨⟨⟨afterExport, rfl⟩, rfl⟩, ⟨⟨afterDefault, rfl⟩, rfl⟩⟩ := htaken
    refine ⟨.default afterExport afterDefault, rfl, ⟨_, t, hspan, ?_, ht⟩, fun w hw => absurd hw (Option.not_mem_none w)⟩
    rw [hs, AsyncOpening.text_default]
    simp only [List.append_assoc]
  | classDeclaration | functionDefinition | classDefinition => exact absurd hpass (by simp [window?])

/-- A function gives a symbol whose flag says what the window shows. -/
theorem exists_symbol? (hpass : pass.window? = some window) (o : Occurrence) :
    ∃ s, pass.symbol? o = some s ∧ (o.get .name ≠ [] → s.name = o.get .name) ∧
      s.isAsync = Braced.asyncWithin window o.start := by
  cases pass with
  | namedFunction | arrowFunction =>
    obtain rfl := Option.some.inj hpass
    exact ⟨_, rfl, fun _ => rfl, rfl⟩
  | defaultFunction =>
    obtain rfl := Option.some.inj hpass
    exact ⟨_, rfl, fun h => if_neg (by simpa using h), rfl⟩
  | classDeclaration | functionDefinition | classDefinition => exact absurd hpass (by simp [window?])

end ExportPass

/-- A function of a braced source with the asynchronous word in front of its list has one opening, and its name, if it stands in
the opening, is the name of the symbol. The symbol is asynchronous exactly if the pieces of the opening are short enough. -/
theorem symbols_async_iff (pass : ExportPass) {window : Nat} (hpass : pass.window? = some window) (source : Text) {i : Nat}
    {o : Occurrence} (ho : (pass.occurrences source)[i]? = some o) (hmodifier : (o.get? .modifier).isSome = true) :
    ∃ x : AsyncOpening, (∀ y : AsyncOpening, y.pass = pass ∧ y.Opens o ↔ y = x) ∧
      ∃ s, (pass.symbols source)[i]? = some s ∧ (∀ w ∈ x.name?, s.name = w.text) ∧ (s.isAsync = true ↔ x.Shown) := by
  have hderives : Derives pass.pattern o.start o.toDerivation := derives_of_first? (first?_of_mem_scanFrom (List.mem_of_getElem? ho))
  obtain ⟨x, hx, ⟨sp, t, hspan, hstart, hword⟩, hname⟩ := ExportPass.exists_asyncOpening hpass hderives hmodifier
  obtain ⟨s, hs, hsname, hflag⟩ := ExportPass.exists_symbol? hpass o
  refine ⟨x, fun y => ⟨?_, ?_⟩, s, ?_, ?_, ?_⟩
  · rintro ⟨hy, sp', hspan', hstart'⟩
    obtain rfl := Option.some.inj (hspan.symm.trans hspan')
    exact AsyncOpening.eq_of_text_eq (hy.trans hx.symm) (List.append_cancel_right (hstart'.symm.trans hstart))
  · rintro rfl
    exact ⟨hx, sp, hspan, hstart⟩
  · rw [ExportPass.getElem?_symbols hpass, ho, Option.bind_some, hs]
  · intro w hw
    have hw' := hname w hw
    rw [hsname (hw' ▸ w.text_ne_nil), hw']
  · rw [hflag, hstart, hword]
    exact x.asyncWithin_append_text (hx ▸ hpass) t

/-- An arrow function whose name is so long that the window ends before the asynchronous word, but shows it in the name. -/
def longNameSource : Text := "export const asyncLoaderOfTheRemoteConfiguration = async (path) => path".toList

/-- An arrow function with a long name that has the word in it. -/
theorem symbols_async_longName :
    ExportPass.window? .arrowFunction = some 45 ∧
    ∃ o s, (ExportPass.occurrences .arrowFunction longNameSource)[0]? = some o ∧ (o.get? .modifier).isSome = true ∧
      (ExportPass.symbols .arrowFunction longNameSource)[0]? = some s ∧ s.isAsync = true := by
  have hsome : (ExportPass.occurrences .arrowFunction longNameSource)[0]?.isSome = true := by decide +kernel
  obtain ⟨o, ho⟩ := Option.isSome_iff_exists.1 hsome
  have hopening : (ExportPass.occurrences .arrowFunction longNameSource)[0]?.bind (fun o => (o.span? .modifier).map fun sp =>
      (AsyncOpening.text (.arrow .space .space { text := "asyncLoaderOfTheRemoteConfiguration".toList } { text := [' '] }
        { text := [' '] }) ++ sp.start, o.start)) = some (longNameSource, longNameSource) := by decide +kernel
  rw [ho, Option.bind_some] at hopening
  obtain ⟨sp, hspan, htexts⟩ := Option.map_eq_some_iff.1 hopening
  obtain ⟨htext, hstart⟩ := Prod.mk.inj htexts
  have hmodifier : (o.get? .modifier).isSome = true := by
    rw [Derivation.get?, hspan]
    rfl
  obtain ⟨x, hx, s, hs, -, hflag⟩ := symbols_async_iff .arrowFunction rfl longNameSource ho hmodifier
  obtain rfl := (hx _).1 ⟨rfl, sp, hspan, hstart.trans htext.symm⟩
  exact ⟨rfl, o, s, ho, hmodifier, hs, hflag.2 (Or.inr ⟨0, by decide, by decide⟩)⟩

end SourceInventory
