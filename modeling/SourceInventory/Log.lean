import SourceInventory.Text.Basic

/-!
# Log: what is told beside a result

A computation that tells something returns its entries beside its value, in the order in which they were told. Which of them are
shown is decided afterwards, by their level.
-/

namespace SourceInventory

/-- How much an entry matters. -/
inductive Level where
  | debug | info | warning | error
deriving DecidableEq, Repr

namespace Level

/-- The name of a level. -/
def name : Level → Text
  | .debug => "debug".toList
  | .info => "info".toList
  | .warning => "warning".toList
  | .error => "error".toList

/-- The number of a level: the greater, the more it matters. -/
def number : Level → Nat
  | .debug => 10
  | .info => 20
  | .warning => 30
  | .error => 40

end Level

/-- An entry of a log. -/
structure Entry where
  /-- How much it matters. -/
  level : Level
  /-- What it says. -/
  message : Text
deriving DecidableEq, Repr

/-- The entries that matter at least as much as a number says. -/
def Entry.shown (least : Nat) (log : List Entry) : List Entry := log.filter fun e => least ≤ e.level.number

/-- A value and what was told while it was found. -/
structure Logged (α : Type) where
  /-- What was found. -/
  value : α
  /-- What was told. -/
  log : List Entry
deriving DecidableEq, Repr

namespace Logged

/-- A value about which nothing is told. -/
def silent {α : Type} (a : α) : Logged α := ⟨a, []⟩

/-- A value with one entry. -/
def telling {α : Type} (level : Level) (message : Text) (a : α) : Logged α := ⟨a, [⟨level, message⟩]⟩

/-- What is told about the next value is told after what was told about this one. -/
def andThen {α β : Type} (a : Logged α) (f : α → Logged β) : Logged β := ⟨(f a.value).value, a.log ++ (f a.value).log⟩

end Logged

end SourceInventory
