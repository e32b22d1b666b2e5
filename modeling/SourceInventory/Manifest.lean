import SourceInventory.Framework
import SourceInventory.Json.Reader
import SourceInventory.Json.Writer

/-!
# Manifests: the frameworks that a project's manifests name

A dependency manifest is a JSON object. Of its sections that are objects or arrays, all that is written in them counts, keys and
values at any depth, in any case: the sections are written out as one line of ASCII in lower case, and the first framework in
the order of priority whose name occurs in that line is the one the manifest names. A project file names a framework if one of
the markers occurs anywhere in its text.
-/

namespace SourceInventory.Manifest

/-- The frameworks a dependency manifest may name, the first that occurs preferred. -/
def priority : List Framework := [.vitest, .jest, .mocha]

/-- The sections of a dependency manifest that are searched. -/
def sectionNames : List Text := ["dependencies".toList, "devDependencies".toList, "scripts".toList]

/-- The texts in a project file that name a framework. -/
def projectMarkers : List Text := ["[tool.pytest".toList, "pytest".toList]

/-- Whether a value is a section: an object or an array. -/
def isSection : Json → Bool
  | .object _ | .array _ => true
  | _ => false

/-- The sections of a manifest that are searched, in the order of their names. -/
def sections (members : List (CodeText × Json)) : List Json :=
  sectionNames.filterMap fun n => (Json.member? (CodeText.ofText n) members).filter isSection

/-- All that is written in sections, in lower case. -/
def written (ss : List Json) : Text := (Json.array ss).oneLine.lower

/-- The framework that a dependency manifest names. -/
def framework? : Json → Option Framework
  | .object ms => priority.find? fun f => Text.occursIn f.name (written (sections ms))
  | _ => none

/-- The framework that a project file names. -/
def projectFramework? (s : Text) : Option Framework :=
  if projectMarkers.any (Text.occursIn · s) then some .pytest else none

end SourceInventory.Manifest
