import SourceInventory.Extract.Braced
import SourceInventory.Language

/-!
# Extract: what a source of a language exports and imports

The sources of a language are braced or indented; those with braces have a module of their own.

In an indented source a declaration counts if its first word stands at the start of a line. One pass reads the functions, another
the classes. A function whose name begins with an underscore is private. The methods of a class are not read.
-/

namespace SourceInventory.Indented

open Pattern

/-- A function, asynchronous or not. -/
def functionDefinition : Pattern :=
  .optional (.field .modifier (keyword "async")) ++ keyword "def" ++ .field .name word ++ gap ++ parenthesised .params

/-- A class, with or without a list of what it is derived from. -/
def classDefinition : Pattern := keyword "class" ++ .field .name word ++ .optional (parenthesised .base) ++ lit ":"

/-- Whether a character stands in the dotted name of a module. -/
def isDotted (c : Char) : Bool := isWord c || c == '.'

/-- The dotted name of a module. -/
def dottedName : Pattern := .field .specifier (nonemptyRun isDotted)

/-- An import of a module, or of names from it. -/
def importStatement : Pattern :=
  .either (keyword "from" ++ dottedName ++ blanks ++ lit "import") (keyword "import" ++ dottedName)

/-- The symbol of a function definition, unless it is private. -/
def functionSymbol? (o : Occurrence) : Option Symbol :=
  if (o.get .name).head? = some '_' then none
  else
    some
      { kind := .function
        name := o.get .name
        signature := callSignature (o.get .name) (o.get .params).trim
        isAsync := (o.get? .modifier).isSome }

/-- The symbol of a class definition; an empty list of bases is none. -/
def classSymbol (o : Occurrence) : Symbol :=
  let base := (o.get? .base).filter fun b => !b.isEmpty
  { kind := .classType
    name := o.get .name
    signature :=
      match base with
      | some b => "class ".toList ++ callSignature (o.get .name) b
      | none => "class ".toList ++ o.get .name
    base := base }

/-- The functions that are not private. -/
def functionPass (source : Text) : List Symbol :=
  (functionDefinition.occurrences .lineStart source).filterMap functionSymbol?

/-- The classes. -/
def classPass (source : Text) : List Symbol := (classDefinition.occurrences .lineStart source).map classSymbol

/-- What an indented source exports. -/
def exports (source : Text) : List Symbol := functionPass source ++ classPass source

/-- The modules that an indented source imports. -/
def imports (source : Text) : List Text :=
  (importStatement.occurrences .lineStart source).map fun o => o.get .specifier

end SourceInventory.Indented

namespace SourceInventory.Language

/-- What a source of a language exports. -/
def exports : Language → Text → List Symbol
  | .python, source => Indented.exports source
  | _, source => Braced.exports source

/-- The modules that a source of a language imports. -/
def imports : Language → Text → List Text
  | .python, source => Indented.imports source
  | _, source => Braced.imports source

end SourceInventory.Language
