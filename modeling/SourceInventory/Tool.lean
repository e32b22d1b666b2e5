import SourceInventory.Analysis
import SourceInventory.Setting

/-!
# Tools: the three questions that can be asked by name

A tool is called by its name with named arguments and always answers one text; what goes wrong is answered as a text that begins
with `Error:`. An unknown tool is refused first. The framework asked for is checked before the file is looked for among the
arguments. Errors other than an unknown tool and a missing argument are also told in the log. How far the framework of a project
is looked for is a setting of the run.
-/

namespace SourceInventory

/-- A question that can be asked. -/
inductive Tool where
  /-- The record of a file. -/
  | analyze
  /-- The language of a file. -/
  | detectLanguage
  /-- The framework of the project of a file. -/
  | detectFramework
deriving DecidableEq, Repr

/-- What a tool is asked about. -/
structure Arguments where
  /-- The file. -/
  file : Option Text := none
  /-- The name of the framework to write tests for. -/
  framework : Option Text := none
  /-- The form of the answer. -/
  format : Option Text := none
deriving DecidableEq, Repr

namespace Arguments

/-- The text under a key of an object. Arguments are texts: a string with a surrogate that stands alone is none, and what is
answered to it is left open. -/
def text? (key : String) (members : List (CodeText × Json)) : Option Text :=
  match Json.member? (CodeText.ofText key.toList) members with
  | some (.string s) => some (s.map CodePoint.toChar)
  | _ => none

/-- The arguments that a JSON value gives: the texts of an object, and none for any other value. -/
def ofJson : Json → Arguments
  | .object ms => ⟨text? "file" ms, text? "framework" ms, text? "format" ms⟩
  | _ => {}

end Arguments

/-- Why a tool has no other answer. -/
inductive ToolError where
  /-- No tool has the name. -/
  | unknownTool (name : Text)
  /-- An argument that is needed is not given. -/
  | missingArgument (name : Text)
  /-- No framework has the name. -/
  | unknownFramework (name : Text)
  /-- The file has no record, or its project no framework. -/
  | analysis (error : AnalysisError)
deriving DecidableEq, Repr

namespace ToolError

/-- The wording of an error. -/
def message : ToolError → Text
  | .unknownTool name => "Unknown tool: ".toList ++ name
  | .missingArgument name => "Missing argument: ".toList ++ name
  | .unknownFramework name => "Unknown framework: ".toList ++ name
  | .analysis e => e.message

/-- Whether an error is told in the log. -/
def isTold : ToolError → Bool
  | .unknownTool _ | .missingArgument _ => false
  | .unknownFramework _ | .analysis _ => true

end ToolError

namespace Tool

/-- The name of a tool. -/
def name : Tool → Text
  | .analyze => "testscout_analyze".toList
  | .detectLanguage => "testscout_detect_language".toList
  | .detectFramework => "testscout_detect_framework".toList

/-- The tools, in order. -/
def all : List Tool := [.analyze, .detectLanguage, .detectFramework]

/-- The tool of a name. -/
def ofName? (s : Text) : Option Tool := all.find? (·.name = s)

/-- What a tool is for. -/
def description : Tool → Text
  | .analyze => "Analyze a JS/TS/Python source file: exports, class methods, imports and test framework".toList
  | .detectLanguage => "Detect the source language of a file from its extension".toList
  | .detectFramework =>
    "Detect the test framework by searching package.json, pyproject.toml and config files".toList

/-- The schema of an argument that is a text. -/
def textSchema (description : String) (choices : Option (List Text)) : Json :=
  .record <|
    [("type", .ofText "string".toList)]
      ++ (match choices with
          | some cs => [("enum", .array (cs.map .ofText))]
          | none => [])
      ++ [("description", .ofText description.toList)]

/-- The schema of the arguments of a tool. -/
def inputSchema (tool : Tool) : Json :=
  let file := ("file", textSchema "Path to the source file" none)
  let properties :=
    match tool with
    | .analyze =>
      [file, ("framework", textSchema "Override the detected test framework" (some (Framework.choices.map (·.name)))),
       ("format", textSchema "Output format (default: json)" (some ["json".toList, "text".toList]))]
    | _ => [file]
  .record
    [("type", .ofText "object".toList), ("properties", .record properties),
     ("required", .array [.ofText "file".toList])]

/-- The definition of a tool. -/
def definition (tool : Tool) : Json :=
  .record [("name", .ofText tool.name), ("description", .ofText tool.description), ("inputSchema", tool.inputSchema)]

/-- The framework that is asked for: none if no name or the empty one is given. -/
def requested : Option Text → Except ToolError (Option Framework)
  | none => .ok none
  | some [] => .ok none
  | some name =>
    match Framework.chosen? name with
    | some f => .ok (some f)
    | none => .error (.unknownFramework name)

/-- The file that is asked about. -/
def required (args : Arguments) : Except ToolError Text :=
  match args.file with
  | some file => .ok file
  | none => .error (.missingArgument "file".toList)

/-- The form of a record that is asked for: the inventory on request, otherwise JSON. -/
def rendered (format : Option Text) (a : Analysis) : Text :=
  if format = some "text".toList then a.toText else a.toJson.indented

/-- What a tool answers, or what goes wrong. -/
def answer (t : FileTree) (cwd : Location) (args : Arguments) (settings : Configuration) :
    Tool → Logged (Except ToolError Text)
  | .analyze =>
    match requested args.framework with
    | .error e => .silent (.error e)
    | .ok given =>
      match required args with
      | .error e => .silent (.error e)
      | .ok file =>
        (SourceInventory.analyze t cwd file given settings.searchDepth).andThen fun r =>
          .silent ((r.map (rendered args.format)).mapError .analysis)
  | .detectLanguage =>
    .silent <| (required args).map fun file =>
      match Language.ofPath? (Path.ofText file) with
      | some l => l.name
      | none => "unsupported".toList
  | .detectFramework =>
    match required args with
    | .error e => .silent (.error e)
    | .ok file =>
      (locate t cwd (Path.ofText file) settings.searchDepth).andThen fun r =>
        .silent ((r.map (·.name)).mapError fun i => .analysis (.interrupted i))

/-- The text that is answered to a call of a tool by its name, in a run with some settings. -/
def call (t : FileTree) (cwd : Location) (name : Text) (args : Arguments) (settings : Configuration := .unset) :
    Logged Text :=
  match ofName? name with
  | none => .silent ("Error: ".toList ++ (ToolError.unknownTool name).message)
  | some tool =>
    (tool.answer t cwd args settings).andThen fun r =>
      match r with
      | .ok s => .silent s
      | .error e =>
        let text := "Error: ".toList ++ e.message
        if e.isTold then .telling .error (name ++ " failed: ".toList ++ e.message) text else .silent text

end Tool

end SourceInventory
