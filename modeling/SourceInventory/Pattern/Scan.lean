import SourceInventory.Pattern.Basic
import SourceInventory.Text.Word

/-!
# Scan: the occurrences of a pattern in a text

A scan goes through a text from left to right. At each place where the pattern may begin it takes the preferred reading, if
there is one, and goes on after it; otherwise it goes on at the next character. So the occurrences do not overlap, each begins
at the first possible place after the one before it, and no reading begins in a gap. A pattern that is anchored begins only at
the start of a line: at the start of the text, or right after a line feed. The pieces that the patterns of declarations share,
words and the blanks and lists between them, stand at the end.
-/

namespace SourceInventory

/-- Where in a text a pattern may begin. -/
inductive Anchor where
  /-- At any character. -/
  | anywhere
  /-- At the start of the text and right after a line feed. -/
  | lineStart
deriving DecidableEq, Repr

/-- Whether a pattern may begin after the given character, `none` standing for the start of the text. -/
def Anchor.admits : Anchor → Option Char → Bool
  | .anywhere, _ => true
  | .lineStart, none => true
  | .lineStart, some c => c == '\n'

/-- An occurrence: the text from its start on and how it was read. -/
structure Occurrence extends Derivation where
  /-- What is left of the text where the occurrence starts. -/
  start : Text
deriving DecidableEq, Repr

namespace Pattern

/-- The occurrences in what is left of a text after `before`, once `skip` more characters have been passed over. -/
def scanFrom (p : Pattern) (anchor : Anchor) (before : Option Char) : (skip : Nat) → Text → List Occurrence
  | _, [] => []
  | skip + 1, c :: s => scanFrom p anchor (some c) skip s
  | 0, c :: s =>
    match if anchor.admits before then p.first? (c :: s) else none with
    | some d => ⟨d, c :: s⟩ :: scanFrom p anchor (some c) (d.length - 1) s
    | none => scanFrom p anchor (some c) 0 s

/-- The occurrences of a pattern in a text, from left to right. -/
def occurrences (p : Pattern) (anchor : Anchor) (source : Text) : List Occurrence := p.scanFrom anchor none 0 source

/-- The character that stands before a place, one character of the text further on. -/
theorem getLast?_cons_or (c : Char) (s : Text) (before : Option Char) :
    (c :: s).getLast?.or before = s.getLast?.or (some c) := by
  rw [List.getLast?_cons]
  cases s.getLast? <;> rfl

/-- Passing over characters is scanning what is left after them. -/
theorem scanFrom_skip (p : Pattern) (anchor : Anchor) (before : Option Char) (u s : Text) :
    p.scanFrom anchor before u.length (u ++ s) = p.scanFrom anchor (u.getLast?.or before) 0 s := by
  induction u generalizing before with
  | nil => rfl
  | cons c u ih =>
    rw [List.length_cons, List.cons_append, scanFrom, ih, getLast?_cons_or]

/-- Where no reading is preferred the scan goes on at the next character. -/
theorem scanFrom_none {p : Pattern} {anchor : Anchor} {before : Option Char} {c : Char} {s : Text}
    (h : (if anchor.admits before then p.first? (c :: s) else none) = none) :
    p.scanFrom anchor before 0 (c :: s) = p.scanFrom anchor (some c) 0 s := by
  rw [scanFrom, h]

/-- An occurrence is followed by the occurrences in what it leaves. -/
theorem scanFrom_some {p : Pattern} {anchor : Anchor} {before : Option Char} {c : Char} {u s : Text} {d : Derivation}
    (h : (if anchor.admits before then p.first? (c :: u ++ s) else none) = some d) (hr : d.rest = s)
    (hl : d.length = u.length + 1) :
    p.scanFrom anchor before 0 (c :: u ++ s) =
      ⟨d, c :: u ++ s⟩ :: p.scanFrom anchor ((c :: u).getLast?) 0 d.rest := by
  rw [List.cons_append] at h ⊢
  rw [scanFrom, h, List.getLast?_cons]
  simp only [hl, Nat.add_sub_cancel, scanFrom_skip, hr]
  cases u.getLast? <;> rfl

/-! ## Tokens -/

/-- A word of the language, or a mark of punctuation, as it stands. -/
def lit (s : String) : Pattern := .text s.toList

/-- One blank at least. -/
def blanks : Pattern := nonemptyRun isBlank

/-- Any blanks. -/
def gap : Pattern := .run isBlank

/-- A name: a run of word characters. -/
def word : Pattern := nonemptyRun isWord

/-- Everything up to a character that does not stand in it. -/
def upTo (c : Char) : Pattern := .run (· ≠ c)

/-- A list between parentheses, recorded as a field; it ends at the first closing parenthesis. -/
def parenthesised (f : Field) : Pattern := lit "(" ++ .field f (upTo ')') ++ lit ")"

/-- A word followed by blanks. -/
def keyword (s : String) : Pattern := lit s ++ blanks

end Pattern

end SourceInventory
