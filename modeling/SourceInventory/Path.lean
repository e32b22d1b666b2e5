import SourceInventory.Text.Basic

/-!
# Paths: names under a root, taken as written

A path is taken apart without a look at any file. Its root is none, one slash, or two: exactly two leading slashes are a root of
their own, any other number counts as one. Its names are what stands between the slashes, without the empty ones and the single
dots; two dots are a name like any other. So the parent of a path is the path without its last name, and a path without names is
its own parent.
-/

namespace SourceInventory

/-- Where a path begins. -/
inductive Root where
  /-- At the current directory. -/
  | here
  /-- At the root of the tree. -/
  | slash
  /-- At the root that two slashes name. -/
  | doubleSlash
deriving DecidableEq, Repr

/-- The slashes of a root. -/
def Root.text : Root → Text
  | .here => []
  | .slash => ['/']
  | .doubleSlash => ['/', '/']

/-- The root that a number of leading slashes names. -/
def Root.ofSlashes : Nat → Root
  | 0 => .here
  | 2 => .doubleSlash
  | _ => .slash

/-- A path: a root and the names under it. -/
structure Path where
  /-- Where the path begins. -/
  root : Root
  /-- The names, none of them empty or a single dot. -/
  names : List Text
deriving DecidableEq, Repr

namespace Path

/-- The path that a text writes. -/
def ofText (s : Text) : Path where
  root := Root.ofSlashes (s.takeWhile (· = '/')).length
  names := (Text.splitOn '/' s).filter fun n => n ≠ [] && n ≠ ['.']

/-- The normal text of a path: a single dot for the current directory. -/
def toText (p : Path) : Text :=
  match p.root, p.names with
  | .here, [] => ['.']
  | r, ns => r.text ++ Text.join ['/'] ns

/-- The path without its last name. -/
def parent (p : Path) : Path := { p with names := p.names.dropLast }

/-- The path with one more name. -/
def child (p : Path) (name : Text) : Path := { p with names := p.names ++ [name] }

/-- The last name, empty if there is none. -/
def name (p : Path) : Text := p.names.getLast?.getD []

/-- The suffix of a path: from the last dot of its last name on, unless that dot is the first or the last character. -/
def suffix (p : Path) : Text :=
  let ending := (p.name.reverse.takeWhile (· ≠ '.')).reverse
  let stem := p.name.take (p.name.length - ending.length - 1)
  if ending.isEmpty || stem.isEmpty then [] else '.' :: ending

/-- A path and the parents above it, at most `more` of them, ending at the first path that is its own parent. -/
def upwards : (more : Nat) → Path → List Path
  | 0, p => [p]
  | n + 1, p => if p.parent = p then [p] else p :: upwards n p.parent

/-- The directories searched for a file: its own and at most `parents` above it, a negative number counting as zero. -/
def searched (file : Path) (parents : Int) : List Path := upwards parents.toNat file.parent

end Path

end SourceInventory
