import SourceInventory.Pattern.Scan
import SourceInventory.Symbol

/-!
# Class bodies: the methods between the braces of a class

The body of a class is what stands between the first opening brace after its declaration and the brace that closes it, or the
end of the text if none does. Strings and comments are text like any other. In the body, a name with a parenthesised list before
an opening brace is a method, after any number of modifiers and with an optional return type of one word, unless the name is a
word that begins a statement.
-/

namespace SourceInventory

/-- What stands before the brace that closes `depth + 1` braces, or all of the text if none does. -/
def beforeClosing : (depth : Nat) → Text → Text
  | _, [] => []
  | n, c :: s =>
    if c = '{' then c :: beforeClosing (n + 1) s
    else if c = '}' then
      match n with
      | 0 => []
      | n + 1 => c :: beforeClosing n s
    else c :: beforeClosing n s

/-- The body of the class that is declared at the start of a text. -/
def classBody? (declaration : Text) : Option Text :=
  match declaration.dropWhile (· ≠ '{') with
  | [] => none
  | _ :: s => some (beforeClosing 0 s)

namespace Method

/-- The words that may stand before the name of a method. -/
def modifiers : Pattern :=
  .many (.either (.keyword "async") (.either (.keyword "static") (.either (.keyword "get") (.either (.keyword "set")
    (.either (.keyword "public") (.either (.keyword "private") (.keyword "protected")))))))

/-- The head of a method from its name to its opening brace. -/
def head : Pattern :=
  .field .name .word ++ .gap ++ .parenthesised .params ++ .gap ++ .optional (.lit ":" ++ .gap ++ .word ++ .gap) ++ .lit "\x7b"

/-- A method up to its opening brace. -/
def pattern : Pattern := modifiers ++ head

/-- The words that begin a statement and look like the name of a method. -/
def statementWords : List Text := ["catch".toList, "for".toList, "if".toList, "switch".toList, "while".toList]

/-- The method of an occurrence, unless it is a statement. -/
def ofOccurrence? (d : Derivation) : Option Method :=
  if d.get .name ∈ statementWords then none
  else some ⟨d.get .name, callSignature (d.get .name) (d.get .params).trim⟩

/-- The methods in the body of a class. -/
def ofBody (body : Text) : List Method :=
  (pattern.occurrences .anywhere body).filterMap fun o => ofOccurrence? o.toDerivation

/-- The methods of the class that is declared at the start of a text. -/
def ofDeclaration (declaration : Text) : List Method := ((classBody? declaration).map ofBody).getD []

/-- The methods of the class that is declared at a place of a source; a negative place counts from the end. -/
def ofSource (source : Text) (place : Int) : List Method :=
  ofDeclaration (source.drop (if place < 0 then place + source.length else place).toNat)

end Method

end SourceInventory
