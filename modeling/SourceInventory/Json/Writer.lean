import SourceInventory.Json.Basic
import SourceInventory.Text.Hex

/-!
# Writer: the text of a JSON value

A value is written on one line or with an indentation, and its strings in ASCII alone or with every printable character as it
is. The quotation mark, the backslash and the five control characters with a letter of their own are escaped by a backslash and
one character in both spellings; other code points are escaped by four hexadecimal digits, and by a surrogate pair where four
do not suffice. An empty array or object is written without a gap.
-/

namespace SourceInventory.Json

/-- How a value is spelled. -/
structure Style where
  /-- A code point without an escape of its own inside a string. -/
  spell : CodePoint → Text
  /-- The width of a level of indentation, or one line. -/
  indent : Option Nat

/-- An escape by four hexadecimal digits. -/
def escape (n : Nat) : Text := '\\' :: 'u' :: Text.hex 4 n

/-- A code point in ASCII. -/
def spellAscii (c : CodePoint) : Text :=
  if 0x20 ≤ c.val ∧ c.val ≤ 0x7E then [c.toChar]
  else if c.val < 0x10000 then escape c.val
  else escape (0xD800 + (c.val - 0x10000) / 0x400) ++ escape (0xDC00 + (c.val - 0x10000) % 0x400)

/-- A code point as it is, unless it is a control character. -/
def spellPlain (c : CodePoint) : Text := if c.val < 0x20 then escape c.val else [c.toChar]

/-- One line of ASCII. -/
def Style.oneLine : Style := ⟨spellAscii, none⟩

/-- Two blanks for each level, characters as they are. -/
def Style.indented : Style := ⟨spellPlain, some 2⟩

/-- The letter that escapes a code point, if it has one. -/
def escapeLetter? (c : CodePoint) : Option Char :=
  if c.val = 0x22 then some '"'
  else if c.val = 0x5C then some '\\'
  else if c.val = 0x0A then some 'n'
  else if c.val = 0x0D then some 'r'
  else if c.val = 0x09 then some 't'
  else if c.val = 0x0C then some 'f'
  else if c.val = 0x08 then some 'b'
  else none

/-- A code point inside a string. -/
def Style.codePoint (st : Style) (c : CodePoint) : Text :=
  match escapeLetter? c with
  | some l => ['\\', l]
  | none => st.spell c

/-- A string with its quotation marks. -/
def Style.string (st : Style) (s : CodeText) : Text := '"' :: s.flatMap st.codePoint ++ ['"']

/-- The gap before a value at a level of nesting. -/
def Style.gap (st : Style) (level : Nat) : Text :=
  match st.indent with
  | some n => '\n' :: List.replicate (n * level) ' '
  | none => []

/-- What separates two values at a level of nesting. -/
def Style.comma (st : Style) (level : Nat) : Text :=
  match st.indent with
  | some _ => ',' :: st.gap level
  | none => [',', ' ']

/-- The text of a number. An integer is written with its digits. A number with a fraction or an exponent is written by its mantissa
and exponent: it is not rounded to a binary fraction first, as a program that keeps such numbers rounded would write it. -/
def Number.write : Number → Text
  | .integer n => Text.ofInt n
  | .decimal m e => Text.ofInt m ++ 'e' :: Text.ofInt e
  | .infinity false => "Infinity".toList
  | .infinity true => "-Infinity".toList
  | .undefined => "NaN".toList

mutual

/-- The text of a value at a level of nesting. -/
def write (st : Style) (level : Nat) : Json → Text
  | .null => "null".toList
  | .bool true => "true".toList
  | .bool false => "false".toList
  | .number n => n.write
  | .string s => st.string s
  | .array [] => "[]".toList
  | .array (v :: vs) =>
    '[' :: st.gap (level + 1) ++ write st (level + 1) v ++ writeItems st (level + 1) vs ++ st.gap level ++ [']']
  | .object [] => "\x7b\x7d".toList
  | .object ((k, v) :: ms) =>
    '{' :: st.gap (level + 1) ++ st.string k ++ [':', ' '] ++ write st (level + 1) v ++ writeMembers st (level + 1) ms
      ++ st.gap level ++ ['}']

/-- The items after the first one. -/
def writeItems (st : Style) (level : Nat) : List Json → Text
  | [] => []
  | v :: vs => st.comma level ++ write st level v ++ writeItems st level vs

/-- The members after the first one. -/
def writeMembers (st : Style) (level : Nat) : List (CodeText × Json) → Text
  | [] => []
  | (k, v) :: ms => st.comma level ++ st.string k ++ [':', ' '] ++ write st level v ++ writeMembers st level ms

end

/-- The value on one line of ASCII. -/
def oneLine (v : Json) : Text := write .oneLine 0 v

/-- The value with two blanks for each level. -/
def indented (v : Json) : Text := write .indented 0 v

end SourceInventory.Json
