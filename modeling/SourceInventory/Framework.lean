import SourceInventory.Language

/-!
# Frameworks: the test runners a project may use
-/

namespace SourceInventory

/-- A test runner, or that none is known. -/
inductive Framework where
  | jest | vitest | mocha | pytest | unknown
deriving DecidableEq, Repr

namespace Framework

/-- The name of a framework. -/
def name : Framework → Text
  | .jest => "jest".toList
  | .vitest => "vitest".toList
  | .mocha => "mocha".toList
  | .pytest => "pytest".toList
  | .unknown => "unknown".toList

/-- The frameworks that can be asked for, in order. -/
def choices : List Framework := [.jest, .vitest, .mocha, .pytest]

/-- The framework of a name as it is written in a record. -/
def ofName? (s : Text) : Option Framework := (choices ++ [Framework.unknown]).find? (·.name = s)

/-- The framework that is asked for by a name in any case. -/
def chosen? (s : Text) : Option Framework := choices.find? (·.name = s.lower)

/-- The framework of a language where none is known. -/
def default : Language → Framework
  | .javascript => .jest
  | .typescript => .jest
  | .python => .pytest

/-- The framework, or that of the language if none is known. -/
def orDefault (l : Language) : Framework → Framework
  | .unknown => default l
  | f => f

/-- Frameworks are told apart by their names. -/
theorem name_injective {f f' : Framework} (h : f.name = f'.name) : f = f' := by
  cases f <;> cases f' <;> first | rfl | exact absurd h (by decide)

end Framework

end SourceInventory
