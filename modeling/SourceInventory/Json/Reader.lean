import SourceInventory.Json.Basic
import SourceInventory.Text.Hex

/-!
# Reader: the value that a JSON text denotes

A text is read from left to right and reading stops at the first fault, whose place is given by what is left of the text there.
The grammar is that of JSON with these points settled: only space, tab, line feed and carriage return separate tokens; `NaN`,
`Infinity` and `-Infinity` are numbers; a surrogate that stands alone may be escaped, and two escapes that make a pair are one
code point; the last of the members with one key counts. An integer of more than 4300 digits is refused by itself, as no fault
of the text. A text that begins with a byte order mark is refused as a whole. Arrays and objects are read at any depth: a limit
that the stack of a machine sets to nesting is left out.
-/

namespace SourceInventory.Json

/-- What is wrong with a text. -/
inductive Cause where
  /-- The text begins with a byte order mark. -/
  | byteOrderMark
  /-- A value should begin here. -/
  | value
  /-- The key of a member should begin here. -/
  | propertyName
  /-- The colon of a member should stand here. -/
  | colon
  /-- A comma or the closing bracket should stand here. -/
  | comma
  /-- The value has ended before this. -/
  | extraData
  /-- The string that begins here does not end. -/
  | unterminatedString
  /-- A control character in a string. -/
  | controlCharacter
  /-- A backslash without an escape. -/
  | invalidEscape
  /-- An escape without its four digits. -/
  | invalidUnicodeEscape
deriving DecidableEq, Repr

/-- Why reading stopped, the place given by what is left of the text. -/
inductive Stop where
  /-- The text is at fault at a place. -/
  | malformed (cause : Cause) (left : Text)
  /-- An integer has too many digits. -/
  | integerTooLong (digits : Nat)
deriving DecidableEq, Repr

/-- Why a text has no value. -/
inductive Fault where
  /-- The text is at fault after a stretch that is not. -/
  | malformed (cause : Cause) (before : Text)
  /-- An integer has too many digits. -/
  | integerTooLong (digits : Nat)
deriving DecidableEq, Repr

/-- The most digits of an integer. -/
def integerDigits : Nat := 4300

/-- The characters between tokens. -/
def isGap (c : Char) : Bool := c == ' ' || c == '\t' || c == '\n' || c == '\r'

/-- What is left after the characters between tokens. -/
def skipGap (s : Text) : Text := s.dropWhile isGap

/-! ## Strings -/

/-- The code point of an escape by one letter. -/
def letterEscape? (c : Char) : Option CodePoint :=
  if c = '"' ∨ c = '\\' ∨ c = '/' then some (CodePoint.ofChar c)
  else if c = 'b' then some (CodePoint.ofNat 0x08)
  else if c = 'f' then some (CodePoint.ofNat 0x0C)
  else if c = 'n' then some (CodePoint.ofNat 0x0A)
  else if c = 'r' then some (CodePoint.ofNat 0x0D)
  else if c = 't' then some (CodePoint.ofNat 0x09)
  else none

/-- The code points of a string after its opening quotation mark, each escape for itself, and what is left after the closing
one; `opening` is the text from the opening one on. An escape by digits must not be the end of the text. -/
def codePoints (opening : Text) : Text → Except Stop (CodeText × Text)
  | [] => .error (.malformed .unterminatedString opening)
  | ['\\'] => .error (.malformed .unterminatedString opening)
  | '\\' :: 'u' :: a :: b :: c :: d :: e :: s =>
    match Text.hexNumber? 0 [a, b, c, d] with
    | some n => (codePoints opening (e :: s)).map fun r => (CodePoint.ofNat n :: r.1, r.2)
    | none => .error (.malformed .invalidUnicodeEscape ('u' :: a :: b :: c :: d :: e :: s))
  | '\\' :: c :: s =>
    if c = 'u' then .error (.malformed .invalidUnicodeEscape (c :: s))
    else
      match letterEscape? c with
      | some n => (codePoints opening s).map fun r => (n :: r.1, r.2)
      | none => .error (.malformed .invalidEscape ('\\' :: c :: s))
  | c :: s =>
    if c = '"' then .ok ([], s)
    else if c.toNat < 0x20 then .error (.malformed .controlCharacter (c :: s))
    else (codePoints opening s).map fun r => (CodePoint.ofChar c :: r.1, r.2)

/-- A high surrogate. -/
def isHigh (c : CodePoint) : Bool := decide (0xD800 ≤ c.val) && decide (c.val < 0xDC00)

/-- A low surrogate. -/
def isLow (c : CodePoint) : Bool := decide (0xDC00 ≤ c.val) && decide (c.val < 0xE000)

/-- The code points of a text in which a high surrogate and the low one after it are one code point. -/
def joinPairs : CodeText → CodeText
  | [] => []
  | [c] => [c]
  | h :: l :: s =>
    if isHigh h && isLow l then
      CodePoint.ofNat (0x10000 + 0x400 * (h.val - 0xD800) + (l.val - 0xDC00)) :: joinPairs s
    else h :: joinPairs (l :: s)

/-- A string after its opening quotation mark. -/
def stringTail (opening s : Text) : Except Stop (CodeText × Text) :=
  (codePoints opening s).map fun r => (joinPairs r.1, r.2)

/-! ## Numbers -/

/-- The value of a text of decimal digits. -/
def digitsValue (ds : Text) : Nat := ds.foldl (fun n d => 10 * n + (d.toNat - 0x30)) 0

/-- The digits before the point and what is left after them: a zero alone, or digits that do not begin with zero. -/
def wholeDigits : Text → Option (Text × Text)
  | [] => none
  | c :: s =>
    if c = '0' then some (['0'], s)
    else if c.isDigit then some (c :: s.takeWhile Char.isDigit, s.dropWhile Char.isDigit)
    else none

/-- The digits after a point, if there is a point with a digit after it, and what is left. -/
def fraction : Text → Text × Text
  | '.' :: s => if (s.takeWhile Char.isDigit).isEmpty then ([], '.' :: s) else (s.takeWhile Char.isDigit, s.dropWhile Char.isDigit)
  | s => ([], s)

/-- The exponent, if there is one with a digit, and what is left. -/
def exponent : Text → Option Int × Text
  | [] => (none, [])
  | e :: s =>
    if e = 'e' ∨ e = 'E' then
      let (negative, t) :=
        match s with
        | '-' :: t => (true, t)
        | '+' :: t => (false, t)
        | t => (false, t)
      let ds := t.takeWhile Char.isDigit
      if ds.isEmpty then (none, e :: s)
      else (some (if negative then -(digitsValue ds : Int) else digitsValue ds), t.dropWhile Char.isDigit)
    else (none, e :: s)

/-- A number, where a value should begin. -/
def numeral (s : Text) : Except Stop (Number × Text) :=
  let (negative, t) :=
    match s with
    | '-' :: t => (true, t)
    | t => (false, t)
  match wholeDigits t with
  | none => .error (.malformed .value s)
  | some (whole, r) =>
    let (part, r) := fraction r
    let (power, r) := exponent r
    let sign : Int := if negative then -1 else 1
    if part.isEmpty && power.isNone then
      if whole.length ≤ integerDigits then .ok (.integer (sign * digitsValue whole), r)
      else .error (.integerTooLong whole.length)
    else .ok (.decimal (sign * digitsValue (whole ++ part)) (power.getD 0 - part.length), r)

/-! ## Values -/

/-- The values that are written as words. -/
def words : List (Text × Json) :=
  [("null".toList, .null), ("true".toList, .bool true), ("false".toList, .bool false),
   ("NaN".toList, .number .undefined), ("Infinity".toList, .number (.infinity false)),
   ("-Infinity".toList, .number (.infinity true))]

/-- A value that is neither a string nor an array nor an object. -/
def scalar (s : Text) : Except Stop (Json × Text) :=
  match words.findSome? fun w => (Text.after? w.1 s).map (w.2, ·) with
  | some r => .ok r
  | none => (numeral s).map fun r => (.number r.1, r.2)

mutual

/-- The value that a text begins with and what is left after it, with at most `n` values, items and members inside one
another. -/
def value : (n : Nat) → Text → Except Stop (Json × Text)
  | 0, s => .error (.malformed .value s)
  | n + 1, s =>
    match s with
    | '"' :: t => (stringTail s t).map fun r => (.string r.1, r.2)
    | '[' :: t =>
      match skipGap t with
      | ']' :: r => .ok (.array [], r)
      | u => (items n u).map fun r => (.array r.1, r.2)
    | '{' :: t =>
      match skipGap t with
      | '}' :: r => .ok (.object [], r)
      | u => (members n u).map fun r => (ofMembers r.1, r.2)
    | s => scalar s

/-- The items of an array from one of them on and what is left after the closing bracket. -/
def items : (n : Nat) → Text → Except Stop (List Json × Text)
  | 0, s => .error (.malformed .value s)
  | n + 1, s => do
    let (v, r) ← value n s
    match skipGap r with
    | ']' :: r => .ok ([v], r)
    | ',' :: r => (items n (skipGap r)).map fun vs => (v :: vs.1, vs.2)
    | r => .error (.malformed .comma r)

/-- The members of an object from one of them on, repeated keys included, and what is left after the closing bracket. -/
def members : (n : Nat) → Text → Except Stop (List (CodeText × Json) × Text)
  | 0, s => .error (.malformed .propertyName s)
  | n + 1, s =>
    match s with
    | '"' :: t => do
      let (k, r) ← stringTail s t
      match skipGap r with
      | ':' :: r =>
        let (v, r) ← value n (skipGap r)
        match skipGap r with
        | '}' :: r => .ok ([(k, v)], r)
        | ',' :: r => (members n (skipGap r)).map fun ms => ((k, v) :: ms.1, ms.2)
        | r => .error (.malformed .comma r)
      | r => .error (.malformed .colon r)
    | s => .error (.malformed .propertyName s)

end

/-- The whole value of a text, stopping at what is left of it. A value, an item and a member each take a character of their
own, or begin with one that does, so twice the length bounds how deep they lie inside one another. -/
def document (s : Text) : Except Stop Json := do
  if s.head? = some '\uFEFF' then .error (.malformed .byteOrderMark s)
  else
    let (v, r) ← value (2 * s.length + 2) (skipGap s)
    match skipGap r with
    | [] => .ok v
    | r => .error (.malformed .extraData r)

/-- A stop with its place counted from the start of the text. -/
def Stop.within (s : Text) : Stop → Fault
  | .malformed c left => .malformed c (s.take (s.length - left.length))
  | .integerTooLong n => .integerTooLong n

/-- The value of a text. -/
def read (s : Text) : Except Fault Json := (document s).mapError (·.within s)

/-! ## Wording -/

/-- The wording of a cause. -/
def Cause.message : Cause → Text
  | .byteOrderMark => "Unexpected UTF-8 BOM (decode using utf-8-sig)".toList
  | .value => "Expecting value".toList
  | .propertyName => "Expecting property name enclosed in double quotes".toList
  | .colon => "Expecting ':' delimiter".toList
  | .comma => "Expecting ',' delimiter".toList
  | .extraData => "Extra data".toList
  | .unterminatedString => "Unterminated string starting at".toList
  | .controlCharacter => "Invalid control character at".toList
  | .invalidEscape => "Invalid \\escape".toList
  | .invalidUnicodeEscape => "Invalid \\uXXXX escape".toList

/-- The wording of a fault after `before`: the line and the column count from one, the character from zero. -/
def Cause.messageAfter (c : Cause) (before : Text) : Text :=
  c.message ++ ": line ".toList ++ Text.ofNat (before.count '\n' + 1)
    ++ " column ".toList ++ Text.ofNat ((before.reverse.takeWhile (· ≠ '\n')).length + 1)
    ++ " (char ".toList ++ Text.ofNat before.length ++ ")".toList

/-- The wording of the refusal of an integer. -/
def integerTooLongMessage (digits : Nat) : Text :=
  "Exceeds the limit (".toList ++ Text.ofNat integerDigits
    ++ " digits) for integer string conversion: value has ".toList ++ Text.ofNat digits
    ++ " digits; use sys.set_int_max_str_digits() to increase the limit".toList

end SourceInventory.Json
