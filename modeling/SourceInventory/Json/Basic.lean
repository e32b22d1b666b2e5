import SourceInventory.Text.Basic

/-!
# Json: values, with the order of the members kept

A JSON string may hold a surrogate that stands alone, which no character is, so strings are lists of code points. An object
keeps its members in the order in which their keys first appear; a key that appears again replaces the value and not the place.
Numbers keep the digits they were written with: an integer of any size, or a decimal mantissa and exponent.
-/

namespace SourceInventory

/-- A code point, surrogates included. -/
abbrev CodePoint : Type := Fin 0x110000

/-- The text of a JSON string. -/
abbrev CodeText : Type := List CodePoint

/-- The code point of a number, which is its remainder if it is too large. -/
def CodePoint.ofNat (n : Nat) : CodePoint := Fin.ofNat 0x110000 n

/-- The code point of a character. -/
def CodePoint.ofChar (c : Char) : CodePoint := CodePoint.ofNat c.toNat

/-- The code points of a text. -/
def CodeText.ofText (s : Text) : CodeText := s.map CodePoint.ofChar

/-- The character of a code point. A surrogate has none: a string with a surrogate that stands alone is no text, and the null
character in its place has no meaning. -/
def CodePoint.toChar (n : CodePoint) : Char := Char.ofNat n.val

namespace Json

/-- A JSON number. -/
inductive Number where
  /-- An integer. -/
  | integer (n : Int)
  /-- A number with a fraction or an exponent: `mantissa · 10 ^ exponent`. -/
  | decimal (mantissa exponent : Int)
  /-- An infinity. -/
  | infinity (negative : Bool)
  /-- No number. -/
  | undefined
deriving DecidableEq, Repr

end Json

/-- A JSON value. -/
inductive Json where
  | null
  | bool (b : Bool)
  | number (n : Json.Number)
  | string (s : CodeText)
  | array (items : List Json)
  | object (members : List (CodeText × Json))
deriving Repr

namespace Json

instance : Inhabited Json := ⟨.null⟩

/-- A string. -/
def ofText (s : Text) : Json := .string (CodeText.ofText s)

/-- A natural number. -/
def ofNat (n : Nat) : Json := .number (.integer n)

/-- A string, or null. -/
def ofText? : Option Text → Json
  | some s => ofText s
  | none => .null

/-- An object with the given members. -/
def record (members : List (String × Json)) : Json :=
  .object (members.map fun m => (CodeText.ofText m.1.toList, m.2))

/-- The members with a value put under a key: in the place of the key if there is one, at the end otherwise. -/
def put (k : CodeText) (v : Json) : List (CodeText × Json) → List (CodeText × Json)
  | [] => [(k, v)]
  | m :: ms => if m.1 = k then (k, v) :: ms else m :: put k v ms

/-- The object that members in the order of a document make. -/
def ofMembers (ms : List (CodeText × Json)) : Json := .object (ms.foldl (fun o m => put m.1 m.2 o) [])

/-- The value under a key. -/
def member? (k : CodeText) (ms : List (CodeText × Json)) : Option Json := (ms.find? (·.1 = k)).map (·.2)

end Json

end SourceInventory
