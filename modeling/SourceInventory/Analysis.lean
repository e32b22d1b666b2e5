import SourceInventory.Extract
import SourceInventory.Framework
import SourceInventory.Json.Writer
import SourceInventory.Locate

/-!
# Analyses: the record of one source file

An analysis puts together the language of a file, the framework of its project, its text, and what it exports and imports. It is
made in this order, and the first thing that fails decides: the language by the suffix, the text, the framework (unless one is
given), which is that of the language where none is known. A record is shown as JSON, with every field, or as a short inventory
in lines of text.
-/

namespace SourceInventory

/-- The record of a source file. -/
structure Analysis where
  /-- The path, as it was given. -/
  file : Text
  /-- The language. -/
  language : Language
  /-- The framework to write tests for. -/
  framework : Framework
  /-- The text of the file. -/
  source : Text
  /-- What it exports. -/
  exports : List Symbol := []
  /-- The modules it imports. -/
  imports : List Text := []
deriving DecidableEq, Repr

/-- Why a file has no record. -/
inductive AnalysisError where
  /-- The suffix is that of no language. -/
  | unsupported (suffix : Text)
  /-- The file cannot be read. -/
  | unreadable (file : Text) (cause : Unreadable)
  /-- A path or a manifest ends the search for the framework. -/
  | interrupted (cause : Interruption)
deriving DecidableEq, Repr

/-- The wording of an error. -/
def AnalysisError.message : AnalysisError → Text
  | .unsupported suffix => "Unsupported file type: ".toList ++ suffix
  | .unreadable file cause => "Cannot read ".toList ++ file ++ ": ".toList ++ cause.message file
  | .interrupted cause => cause.message

namespace Analysis

/-- The number of lines of the source. -/
def lineCount (a : Analysis) : Nat := (Text.lines a.source).length

/-- The number of functions it exports. -/
def functionCount (a : Analysis) : Nat := a.exports.countP (·.kind = .function)

/-- The number of classes it exports. -/
def classCount (a : Analysis) : Nat := a.exports.countP (·.kind = .classType)

/-- The record as JSON. -/
def toJson (a : Analysis) : Json :=
  .record
    [("file_path", .ofText a.file), ("language", .ofText a.language.name), ("framework", .ofText a.framework.name),
     ("source", .ofText a.source), ("exports", .array (a.exports.map Symbol.toJson)),
     ("imports", .array (a.imports.map .ofText)), ("line_count", .ofNat a.lineCount),
     ("function_count", .ofNat a.functionCount), ("class_count", .ofNat a.classCount)]

/-- What the inventory says of a symbol: a function in one entry, a class with its methods below it. -/
def symbolLines (s : Symbol) : List Text :=
  match s.kind with
  | .function => ["- ".toList ++ (if s.isAsync then "async ".toList else []) ++ "function ".toList ++ s.signature]
  | .classType =>
    ("- ".toList ++ s.signature)
      :: if s.methods.isEmpty then [] else "  Methods:".toList :: s.methods.map fun m => "    - ".toList ++ m.signature

/-- The entries of the inventory. -/
def textLines (a : Analysis) : List Text :=
  [(Path.ofText a.file).name ++ " (".toList ++ a.language.name ++ ", ".toList ++ a.framework.name ++ ")".toList,
   Text.ofNat a.lineCount ++ " lines, ".toList ++ Text.ofNat a.functionCount ++ " functions, ".toList
     ++ Text.ofNat a.classCount ++ " classes".toList]
    ++ a.exports.flatMap symbolLines
    ++ if a.imports.isEmpty then [] else ["Imports: ".toList ++ Text.join ", ".toList a.imports]

/-- The inventory, its entries separated by line feeds. -/
def toText (a : Analysis) : Text := Text.join ['\n'] a.textLines

/-- The entry that tells of a record. -/
def summary (a : Analysis) : Text :=
  "Analyzed ".toList ++ a.file ++ ": ".toList ++ Text.ofNat a.functionCount ++ " functions, ".toList
    ++ Text.ofNat a.classCount ++ " classes, ".toList ++ Text.ofNat a.imports.length ++ " imports (".toList
    ++ a.framework.name ++ ")".toList

/-- The record of a source in a language, for a framework. -/
def ofSource (file : Text) (language : Language) (framework : Framework) (source : Text) : Analysis where
  file := file
  language := language
  framework := framework.orDefault language
  source := source
  exports := language.exports source
  imports := language.imports source

end Analysis

/-- The framework that is given, or that of the file's project. -/
def givenOrLocated (t : FileTree) (cwd : Location) (file : Text) (given : Option Framework) (parents : Int) :
    Logged (Except Interruption Framework) :=
  match given with
  | some f => .silent (.ok f)
  | none => locate t cwd (Path.ofText file) parents

/-- The record of a file, for a framework if one is given. Otherwise the project is looked for in the directories up to `parents`
above the file's own, as many as the settings say. -/
def analyze (t : FileTree) (cwd : Location) (file : Text) (given : Option Framework)
    (parents : Int := Locate.defaultParents) : Logged (Except AnalysisError Analysis) :=
  match Language.ofPath? (Path.ofText file) with
  | none => .silent (.error (.unsupported (Path.ofText file).suffix))
  | some language =>
    match t.read cwd file with
    | .error .nullInPath => .silent (.error (.interrupted .nullInPath))
    | .error (.unreadable cause) => .silent (.error (.unreadable file cause))
    | .ok source =>
      (givenOrLocated t cwd file given parents).andThen fun found =>
        match found with
        | .error i => .silent (.error (.interrupted i))
        | .ok framework =>
          let record := Analysis.ofSource file language framework source
          .telling .info record.summary (.ok record)

end SourceInventory
