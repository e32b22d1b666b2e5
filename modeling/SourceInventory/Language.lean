import SourceInventory.Path
import SourceInventory.Text.Case

/-!
# Languages: what a file is written in, by its suffix

The language of a file is decided by the lower case of its suffix alone; nothing is read.
-/

namespace SourceInventory

/-- A language whose declarations can be extracted. -/
inductive Language where
  | javascript | typescript | python
deriving DecidableEq, Repr

namespace Language

/-- The name of a language. -/
def name : Language → Text
  | .javascript => "javascript".toList
  | .typescript => "typescript".toList
  | .python => "python".toList

/-- The languages, in order. -/
def all : List Language := [.javascript, .typescript, .python]

/-- The language of a name. -/
def ofName? (s : Text) : Option Language := all.find? (·.name = s)

/-- Whether a language delimits its blocks by braces and marks what it exports by a word. -/
def isJavascriptFamily : Language → Bool
  | .javascript | .typescript => true
  | .python => false

/-- The suffix of each kind of source file. -/
def suffixes : List (Text × Language) :=
  [(".js".toList, .javascript), (".jsx".toList, .javascript), (".mjs".toList, .javascript), (".cjs".toList, .javascript),
   (".ts".toList, .typescript), (".tsx".toList, .typescript), (".mts".toList, .typescript), (".py".toList, .python)]

/-- The language of a file, by its path. -/
def ofPath? (file : Path) : Option Language := suffixes.lookup file.suffix.lower

theorem name_injective {l l' : Language} (h : l.name = l'.name) : l = l' := by
  cases l <;> cases l' <;> first | rfl | exact absurd h (by decide)

end Language

end SourceInventory
