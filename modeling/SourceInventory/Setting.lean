import SourceInventory.Locate
import SourceInventory.Text.Case
import SourceInventory.Text.DecimalDigit
import SourceInventory.Text.Quoted

/-!
# Settings: numbers and levels given from outside

A number is written as an optional sign and decimal digits of any script, with single underscores between digits, and blanks
around the whole; the four information separators are no blanks here, and more than 4300 digits are refused. A setting that is no
such number, or is below zero, is ignored with a warning. The warning names the default, and a default of more than 4300 digits
cannot be written: then there is no answer. The level of the log is given by name, in any case.
-/

namespace SourceInventory

namespace Setting

/-- The blanks around a number: white space without the four information separators. -/
def isPadding (c : Char) : Bool := isBlank c && !(decide (0x1C ≤ c.toNat) && decide (c.toNat ≤ 0x1F))

/-- The most digits of a number. -/
def numberDigits : Nat := 4300

/-- The values of digits with single underscores between them, at least one of them. -/
def digits? : Text → Option (List Nat)
  | [] => none
  | [c] => (digitValue? c).map ([·])
  | c :: '_' :: s =>
    match digitValue? c, digits? s with
    | some d, some ds => some (d :: ds)
    | _, _ => none
  | c :: c' :: s =>
    match digitValue? c, digits? (c' :: s) with
    | some d, some ds => some (d :: ds)
    | _, _ => none

/-- The number of digits without a sign, at most 4300 of them. -/
def magnitude? (s : Text) : Option Nat :=
  match digits? s with
  | some ds => if ds.length ≤ numberDigits then some (ds.foldl (fun n d => 10 * n + d) 0) else none
  | none => none

/-- The integer that a text writes. -/
def integer? (s : Text) : Option Int :=
  match s.strip isPadding with
  | '-' :: t => (magnitude? t).map fun n => -(n : Int)
  | '+' :: t => (magnitude? t).map fun n => (n : Int)
  | t => (magnitude? t).map fun n => (n : Int)

/-- The warning that a setting is ignored. -/
def ignoring (name raw : Text) (why : String) (default : Int) : Text :=
  "Ignoring ".toList ++ name ++ "=".toList ++ raw.quoted ++ ": ".toList ++ why.toList ++ ", using ".toList ++ Text.ofInt default

/-- The number that a setting gives, or the default if it is not set or is ignored, and the warning that it is ignored, as it is
where the default can be written. -/
def natural (name : Text) (raw : Option Text) (default : Int) : Logged Int :=
  match raw with
  | none => .silent default
  | some raw =>
    match integer? raw with
    | none => .telling .warning (ignoring name raw "not an integer" default) default
    | some n => if n < 0 then .telling .warning (ignoring name raw "negative" default) default else .silent n

/-- Whether a number can be written: it has no more digits than a number may have that is read. -/
def isWritable (n : Int) : Bool := decide ((Text.ofNat n.natAbs).length ≤ numberDigits)

/-- What ends the look at a setting without an answer. -/
inductive Failure where
  /-- The default in the warning has too many digits to be written. -/
  | defaultTooLong
deriving DecidableEq, Repr

/-- The wording of a failure. -/
def Failure.message : Failure → Text
  | .defaultTooLong =>
    "Exceeds the limit (".toList ++ Text.ofNat numberDigits ++ " digits) for integer string conversion; ".toList
      ++ "use sys.set_int_max_str_digits() to increase the limit".toList

/-- What a setting gives, if a warning can be written where there is one. -/
def read (name : Text) (raw : Option Text) (default : Int) : Except Failure (Logged Int) :=
  let found := natural name raw default
  if found.log = [] ∨ isWritable default = true then .ok found else .error .defaultTooLong

/-- The numbers of the levels of the log, by name. -/
def levelNumbers : List (Text × Nat) :=
  [("DEBUG".toList, 10), ("INFO".toList, 20), ("WARN".toList, 30), ("WARNING".toList, 30), ("ERROR".toList, 40),
   ("CRITICAL".toList, 50), ("FATAL".toList, 50), ("NOTSET".toList, 0)]

/-- The number of a level, that of `INFO` for any other name. -/
def levelNumber (name : Text) : Nat := (levelNumbers.lookup name).getD 20

/-- The variable that gives the level of the log. -/
def levelVariable : Text := "TESTSCOUT_LOG_LEVEL".toList

/-- The variable that gives how many directories above a file's own are searched. -/
def depthVariable : Text := "TESTSCOUT_SEARCH_DEPTH".toList

end Setting

/-- The settings of a run. -/
structure Configuration where
  /-- The name of the level of the log, in upper case. -/
  logLevel : Text
  /-- The number of that level: entries below it are not shown. -/
  level : Nat
  /-- How many directories above a file's own are searched. -/
  searchDepth : Int
deriving DecidableEq, Repr

/-- The settings of a run in an environment where nothing is set. -/
def Configuration.unset : Configuration := ⟨"INFO".toList, 20, Locate.defaultParents⟩

/-- The settings that the named texts of an environment give, and the entries that the level lets through. The default of the depth
can be written, so that the depth is always there. -/
def Configuration.load (environment : List (Text × Text)) : Logged Configuration :=
  let logLevel := ((environment.lookup Setting.levelVariable).getD "INFO".toList).upper
  let level := Setting.levelNumber logLevel
  let depth := Setting.natural Setting.depthVariable (environment.lookup Setting.depthVariable) Locate.defaultParents
  ⟨⟨logLevel, level, depth.value⟩, Entry.shown level depth.log⟩

/-- The version of the service. -/
def version : Text := "1.0.0".toList

end SourceInventory
