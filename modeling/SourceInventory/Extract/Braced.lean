import SourceInventory.Extract.ClassBody

/-!
# Braced sources: what a file with marked exports offers and what it imports

A braced source marks what it exports by a word. Four passes read the source one after another, for named functions, constants
that are arrow functions, classes and default functions, and their symbols are put together in this order. A pass looks at the
words alone: strings, comments and types are text like any other. A function counts as asynchronous if the word for it occurs
within a window of characters from the start of the declaration, whatever it stands for there.
-/

namespace SourceInventory.Braced

open Pattern

/-! ## Declarations -/

/-- The word that makes a function asynchronous. -/
def asyncWord : Text := "async".toList

/-- A function exported under its name. -/
def namedFunction : Pattern :=
  keyword "export" ++ .optional (.field .modifier (keyword "async")) ++ keyword "function" ++ .field .name word ++ gap
    ++ parenthesised .params

/-- An exported constant that is an arrow function with a parenthesised list. -/
def arrowFunction : Pattern :=
  keyword "export" ++ keyword "const" ++ .field .name word ++ gap ++ lit "=" ++ gap
    ++ .optional (.field .modifier (lit "async" ++ gap)) ++ parenthesised .params ++ gap ++ lit "=>"

/-- An exported class, with what it is derived from. -/
def classDeclaration : Pattern :=
  keyword "export" ++ .optional (keyword "default") ++ keyword "class" ++ .field .name word
    ++ .optional (blanks ++ keyword "extends" ++ .field .base word)

/-- A function exported as the default, with or without a name. -/
def defaultFunction : Pattern :=
  keyword "export" ++ keyword "default" ++ .optional (.field .modifier (keyword "async")) ++ lit "function" ++ gap
    ++ .field .name (.run isWord) ++ gap ++ parenthesised .params

/-- The window of a named function. -/
def namedWindow : Nat := 25

/-- The window of an arrow function. -/
def arrowWindow : Nat := 45

/-- The window of a default function. -/
def defaultWindow : Nat := 35

/-- The name of a default function without one. -/
def defaultName : Text := "default".toList

/-- Whether the word for asynchronous functions occurs in the first characters of a text. -/
def asyncWithin (window : Nat) (s : Text) : Bool := Text.occursIn asyncWord (s.take window)

/-! ## Passes -/

/-- The symbol of a function declaration. -/
def functionSymbol (window : Nat) (o : Occurrence) : Symbol where
  kind := .function
  name := o.get .name
  signature := callSignature (o.get .name) (o.get .params).trim
  isAsync := asyncWithin window o.start

/-- The symbol of a class declaration. -/
def classSymbol (o : Occurrence) : Symbol where
  kind := .classType
  name := o.get .name
  signature :=
    match o.get? .base with
    | some b => "class ".toList ++ o.get .name ++ " extends ".toList ++ b
    | none => "class ".toList ++ o.get .name
  base := o.get? .base
  methods := Method.ofDeclaration o.start

/-- The symbol of a default function. -/
def defaultSymbol (o : Occurrence) : Symbol :=
  let name := if (o.get .name).isEmpty then defaultName else o.get .name
  { kind := .function
    name := name
    signature := callSignature name (o.get .params).trim
    isAsync := asyncWithin defaultWindow o.start
    isDefault := true }

/-- The functions exported under their names. -/
def namedPass (source : Text) : List Symbol :=
  (namedFunction.occurrences .anywhere source).map (functionSymbol namedWindow)

/-- The arrow functions. -/
def arrowPass (source : Text) : List Symbol :=
  (arrowFunction.occurrences .anywhere source).map (functionSymbol arrowWindow)

/-- The classes. -/
def classPass (source : Text) : List Symbol := (classDeclaration.occurrences .anywhere source).map classSymbol

/-- The default functions. -/
def defaultPass (source : Text) : List Symbol := (defaultFunction.occurrences .anywhere source).map defaultSymbol

/-- What a braced source exports. -/
def exports (source : Text) : List Symbol := namedPass source ++ arrowPass source ++ classPass source ++ defaultPass source

/-! ## Imports -/

/-- A list of bindings between braces. -/
def bindings : Pattern := lit "\x7b" ++ upTo '}' ++ lit "\x7d"

/-- What an import may begin with: bindings, a namespace or a name. -/
def importHead : Pattern := .either bindings (.either (lit "*" ++ blanks ++ keyword "as" ++ word) word)

/-- What an import may go on with after a comma: bindings or a name. -/
def importItem : Pattern := gap ++ lit "," ++ gap ++ .either bindings word

/-- Whether a character is a quotation mark of a module's name. -/
def isQuote (c : Char) : Bool := c == '\'' || c == '"'

/-- An import of a module, for its names or for its effect. -/
def importStatement : Pattern :=
  keyword "import" ++ .optional (importHead ++ .many importItem ++ blanks ++ keyword "from") ++ .char isQuote
    ++ .field .specifier (nonemptyRun fun c => !isQuote c) ++ .char isQuote

/-- The modules that a braced source imports. -/
def imports (source : Text) : List Text :=
  (importStatement.occurrences .anywhere source).map fun o => o.get .specifier

end SourceInventory.Braced
