import SourceInventory.FileTree
import SourceInventory.Log
import SourceInventory.Manifest

/-!
# Locate: the framework of the project that a file belongs to

The directories from the file's own upwards are searched one after another, and the first signal wins. In a directory the
dependency manifest comes first, then the project file, then the configuration files of the frameworks. A manifest that cannot
be read, that is no JSON text or whose value is no object gives no signal, and the search goes on. Two things end it without an
answer: a path with a null character, and an integer with too many digits in a manifest. A manifest nested too deep for the
stack of a machine is left out here, as it is by the reader.
-/

namespace SourceInventory

/-- What ends a search without an answer. -/
inductive Interruption where
  /-- A path contains a null character. -/
  | nullInPath
  /-- An integer in a manifest has too many digits. -/
  | integerTooLong (digits : Nat)
deriving DecidableEq, Repr

/-- The wording of an interruption. -/
def Interruption.message : Interruption → Text
  | .nullInPath => "embedded null byte".toList
  | .integerTooLong n => Json.integerTooLongMessage n

/-- What one place says about the framework, and what is told about it. -/
abbrev Probe : Type := Logged (Except Interruption (Option Framework))

namespace Probe

/-- No signal. -/
def none : Probe := .silent (.ok .none)

/-- The signal of the first place that gives one or ends the search; the second is not visited if the first does. -/
def orElse (p q : Probe) : Probe :=
  match p.value with
  | .ok .none => ⟨q.value, p.log ++ q.log⟩
  | _ => p

end Probe

namespace Locate

/-- How many directories above a file's own are searched if nothing else is said. -/
def defaultParents : Nat := 4

/-- The name of the dependency manifest. -/
def manifestName : Text := "package.json".toList

/-- The name of the project file. -/
def projectName : Text := "pyproject.toml".toList

/-- The configuration files of each framework, in the order in which they are looked for. -/
def configFiles : List (Framework × List Text) :=
  [(.jest, ["jest.config.js".toList, "jest.config.ts".toList, "jest.config.mjs".toList, "jest.config.cjs".toList]),
   (.vitest, ["vitest.config.js".toList, "vitest.config.ts".toList, "vitest.config.mts".toList]),
   (.mocha, [".mocharc.js".toList, ".mocharc.cjs".toList, ".mocharc.yaml".toList, ".mocharc.yml".toList,
     ".mocharc.json".toList]),
   (.pytest, ["pytest.ini".toList, "conftest.py".toList])]

/-- What a file says, if it can be read. -/
def probeFile (t : FileTree) (cwd : Location) (file : Path) (probe : Text → Probe) : Probe :=
  match t.read cwd file.toText with
  | .ok s => probe s
  | .error .nullInPath => .silent (.error .nullInPath)
  | .error (.unreadable u) =>
    .telling .debug ("Skipping ".toList ++ file.toText ++ ": ".toList ++ u.message file.toText) (.ok none)

/-- What the dependency manifest of a directory says. -/
def probeManifest (t : FileTree) (cwd : Location) (dir : Path) : Probe :=
  probeFile t cwd (dir.child manifestName) fun s =>
    match Json.read s with
    | .ok v => .silent (.ok (Manifest.framework? v))
    | .error (.integerTooLong n) => .silent (.error (.integerTooLong n))
    | .error (.malformed c before) =>
      .telling .debug ("Invalid ".toList ++ manifestName ++ " in ".toList ++ dir.toText ++ ": ".toList ++ c.messageAfter before)
        (.ok none)

/-- What the project file of a directory says. -/
def probeProject (t : FileTree) (cwd : Location) (dir : Path) : Probe :=
  probeFile t cwd (dir.child projectName) fun s => .silent (.ok (Manifest.projectFramework? s))

/-- The first framework with a configuration file in a directory. -/
def configured? (t : FileTree) (cwd : Location) (dir : Path) : Option Framework :=
  (configFiles.find? fun f => f.2.any fun n => t.has cwd (dir.child n).toText).map (·.1)

/-- What a directory says, without the entry about a signal found. -/
def signal (t : FileTree) (cwd : Location) (dir : Path) : Probe :=
  ((probeManifest t cwd dir).orElse (probeProject t cwd dir)).orElse (.silent (.ok (configured? t cwd dir)))

/-- What a directory says. -/
def probeDirectory (t : FileTree) (cwd : Location) (dir : Path) : Probe :=
  (signal t cwd dir).andThen fun r =>
    match r with
    | .ok (some f) => .telling .debug ("Detected ".toList ++ f.name ++ " in ".toList ++ dir.toText) r
    | _ => .silent r

/-- What the first of some directories that says anything says. -/
def probeAll (t : FileTree) (cwd : Location) (dirs : List Path) : Probe :=
  dirs.foldr (fun dir rest => (probeDirectory t cwd dir).orElse rest) .none

end Locate

/-- The framework of the project that a file belongs to, unknown if no directory up to `parents` above its own gives a
signal. -/
def locate (t : FileTree) (cwd : Location) (file : Path) (parents : Int) : Logged (Except Interruption Framework) :=
  let found := Locate.probeAll t cwd (file.searched parents)
  ⟨found.value.map (·.getD .unknown), found.log⟩

end SourceInventory
