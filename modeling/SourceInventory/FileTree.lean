import SourceInventory.Path
import SourceInventory.Text.Quoted
import SourceInventory.Text.Utf8

/-!
# File trees: what stands where, and how a path is opened

A location is the list of names from the root of the tree. A tree says of each location whether nothing stands there, a
directory, or a file with its bytes. A path is followed from the current directory one name at a time, as written: two dots go
back up, a single dot or an empty name stays, and each needs a directory to stand on. Opening fails at the first name that does
not lead on. A name of more than 255 bytes and a path of more than 4095 bytes are refused.

Writing creates the directories above a file, and refuses to put a file in the place of a directory, a directory in that of a
file, or anything below a file. Removing takes away everything below.
-/

namespace SourceInventory

/-- The names that lead from the root of a tree to a place. -/
abbrev Location : Type := List Text

/-- What stands at a location. -/
inductive Node where
  /-- A directory. -/
  | directory
  /-- A file with its bytes. -/
  | file (bytes : List UInt8)
deriving DecidableEq, Repr

/-- Whether a node is a file. -/
def Node.isFile : Node → Bool
  | .directory => false
  | .file _ => true

/-- A tree of files. -/
structure FileTree where
  /-- What stands at each location other than the root. -/
  below : Location → Option Node

/-- Why a path cannot be opened. -/
inductive OpenFault where
  /-- Nothing stands there. -/
  | missing
  /-- A name before the last is that of a file. -/
  | notDirectory
  /-- A directory stands there. -/
  | isDirectory
  /-- A name, or the whole path, is too long. -/
  | nameTooLong
deriving DecidableEq, Repr

/-- Why a file cannot be read as text. -/
inductive Unreadable where
  /-- The path cannot be opened. -/
  | opening (fault : OpenFault)
  /-- The bytes are no text. -/
  | decoding (fault : Utf8.Fault)
deriving DecidableEq, Repr

/-- Why a path gives no text. -/
inductive ReadFault where
  /-- The path contains a null character, so it names nothing at all. -/
  | nullInPath
  /-- The file cannot be read. -/
  | unreadable (cause : Unreadable)
deriving DecidableEq, Repr

namespace FileTree

/-- The tree with nothing but its root. -/
def empty : FileTree := ⟨fun _ => none⟩

/-- What stands at a location; the root is a directory. -/
def node? (t : FileTree) : Location → Option Node
  | [] => some .directory
  | n :: l => t.below (n :: l)

/-- The locations strictly above a location. -/
def above (l : Location) : List Location := (List.range l.length).map l.take

/-- Whether a node cannot be put at a location: below a file, or in the place of a node of the other kind. -/
def refuses (t : FileTree) (l : Location) (node : Node) : Bool :=
  (above l).any (fun k => (t.node? k).any Node.isFile) || (t.node? l).any fun old => old.isFile != node.isFile

/-- The tree with a node put at a location, and directories above it; nothing if something stands in the way. -/
def write? (t : FileTree) (l : Location) (node : Node) : Option FileTree :=
  if t.refuses l node then none
  else some ⟨fun k => if k = l then some node else if k ∈ above l then some .directory else t.below k⟩

/-- The tree without a location and everything below it; nothing if it is the root or nothing stands there. -/
def remove? (t : FileTree) (l : Location) : Option FileTree :=
  if l = [] ∨ t.node? l = none then none
  else some ⟨fun k => if l.isPrefixOf k then none else t.below k⟩

/-- Every location starts with those above it. -/
theorem mem_above_iff {k l : Location} : k ∈ above l ↔ k <+: l ∧ k.length < l.length := by
  simp only [above, List.mem_map, List.mem_range]
  constructor
  · rintro ⟨n, hn, rfl⟩
    exact ⟨List.take_prefix n l, by rw [List.length_take]; omega⟩
  · rintro ⟨h, hlt⟩
    exact ⟨k.length, hlt, (List.prefix_iff_eq_take.1 h).symm⟩

/-- After a write the node stands at its location, directories stand above it, and everything else is as it was. -/
theorem node?_write? {t t' : FileTree} {l k : Location} {node : Node} (h : t.write? l node = some t') (hk : k ≠ []) :
    t'.node? k = if k = l then some node else if k ∈ above l then some .directory else t.node? k := by
  obtain ⟨n, k, rfl⟩ := List.exists_cons_of_ne_nil hk
  simp only [write?] at h
  split at h
  · exact absurd h (by simp)
  · rw [← Option.some.inj h]
    rfl

/-- After a removal nothing stands at the location and below it, and everything else is as it was. -/
theorem node?_remove? {t t' : FileTree} {l k : Location} (h : t.remove? l = some t') (hk : k ≠ []) :
    t'.node? k = if l <+: k then none else t.node? k := by
  obtain ⟨n, k, rfl⟩ := List.exists_cons_of_ne_nil hk
  simp only [remove?] at h
  split at h
  · exact absurd h (by simp)
  · rw [← Option.some.inj h]
    simp only [node?, List.isPrefixOf_iff_prefix]

/-- The most bytes of a name. -/
def nameBytes : Nat := 255

/-- The most bytes of a path. -/
def pathBytes : Nat := 4095

/-- Where names lead from a location. -/
def follow (t : FileTree) (l : Location) : List Text → Except OpenFault Location
  | [] => .ok l
  | n :: ns =>
    match t.node? l with
    | some (.file _) => .error .notDirectory
    | _ =>
      if n = [] ∨ n = ['.'] then follow t l ns
      else if n = ['.', '.'] then follow t l.dropLast ns
      else if nameBytes < Utf8.size n then .error .nameTooLong
      else if (t.node? (l ++ [n])).isNone then .error .missing
      else follow t (l ++ [n]) ns

/-- Where a path leads from the current directory. -/
def resolve (t : FileTree) (cwd : Location) (path : Text) : Except OpenFault Location :=
  if path = [] then .error .missing
  else if pathBytes < Utf8.size path then .error .nameTooLong
  else t.follow (if path.head? = some '/' then [] else cwd) (Text.splitOn '/' path)

/-- The bytes of the file that a path leads to. -/
def bytes (t : FileTree) (cwd : Location) (path : Text) : Except OpenFault (List UInt8) :=
  match t.resolve cwd path with
  | .error e => .error e
  | .ok l =>
    match t.node? l with
    | none => .error .missing
    | some .directory => .error .isDirectory
    | some (.file bs) => .ok bs

/-- The text of the file that a path leads to. -/
def read (t : FileTree) (cwd : Location) (path : Text) : Except ReadFault Text :=
  if path.contains '\x00' then .error .nullInPath
  else
    match t.bytes cwd path with
    | .error e => .error (.unreadable (.opening e))
    | .ok bs =>
      match Utf8.decode bs with
      | .error e => .error (.unreadable (.decoding e))
      | .ok s => .ok s

/-- Whether a path leads to a file or a directory. -/
def has (t : FileTree) (cwd : Location) (path : Text) : Bool :=
  !path.contains '\x00' &&
    match t.resolve cwd path with
    | .error _ => false
    | .ok l => (t.node? l).isSome

end FileTree

/-- The number and the wording of a fault. -/
def OpenFault.wording : OpenFault → Text
  | .missing => "[Errno 2] No such file or directory".toList
  | .notDirectory => "[Errno 20] Not a directory".toList
  | .isDirectory => "[Errno 21] Is a directory".toList
  | .nameTooLong => "[Errno 36] File name too long".toList

/-- Why the file at a path cannot be read. -/
def Unreadable.message (path : Text) : Unreadable → Text
  | .opening f => f.wording ++ ": ".toList ++ path.quoted
  | .decoding f => f.message

end SourceInventory
