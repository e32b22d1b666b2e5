import SourceInventory.Json.Basic

/-!
# Symbols: what a source file offers to others

A symbol is an exported function or class. The record is the same for both: what has no meaning for one of them has its plain
value there (no function has methods, no class is asynchronous) when the symbol comes from an extraction.
-/

namespace SourceInventory

/-- What a symbol is. -/
inductive SymbolKind where
  | function | classType
deriving DecidableEq, Repr

/-- The name of a kind. -/
def SymbolKind.name : SymbolKind → Text
  | .function => "function".toList
  | .classType => "class".toList

/-- A method of a class. -/
structure Method where
  /-- Its name. -/
  name : Text
  /-- Its name and its parameters. -/
  signature : Text
deriving DecidableEq, Repr

/-- An exported function or class. -/
structure Symbol where
  /-- What it is. -/
  kind : SymbolKind
  /-- Its name. -/
  name : Text
  /-- How it is called or declared. -/
  signature : Text
  /-- Whether it is an asynchronous function. -/
  isAsync : Bool := false
  /-- Whether it is the default export. -/
  isDefault : Bool := false
  /-- What a class is derived from. -/
  base : Option Text := none
  /-- The methods of a class. -/
  methods : List Method := []
deriving DecidableEq, Repr

/-- A name with its parameters, without the blanks around them. -/
def callSignature (name params : Text) : Text := name ++ ['('] ++ params ++ [')']

/-- The record of a method. -/
def Method.toJson (m : Method) : Json := .record [("name", .ofText m.name), ("signature", .ofText m.signature)]

/-- The record of a symbol. -/
def Symbol.toJson (s : Symbol) : Json :=
  .record
    [("kind", .ofText s.kind.name), ("name", .ofText s.name), ("signature", .ofText s.signature),
     ("is_async", .bool s.isAsync), ("is_default", .bool s.isDefault), ("base_name", .ofText? s.base),
     ("methods", .array (s.methods.map Method.toJson))]

end SourceInventory
