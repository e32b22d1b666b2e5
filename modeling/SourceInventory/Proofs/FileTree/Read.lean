import SourceInventory.FileTree
import SourceInventory.Proofs.Path.Names
import SourceInventory.Proofs.Text.Utf8

/-!
# Read: what is opened under a path

A path is followed through the tree name by name, and where it leads is decided by its names alone: two dots take back the name
before them (`FileTree.resolve_eq_ok`). What the tree holds decides only whether the path can be followed to its end. A text is
read exactly if the file there has its bytes (`FileTree.read_eq_ok_iff`).
-/

namespace SourceInventory

/-! ## Texts of ASCII in files -/

/-- Whether a text is of ASCII alone. -/
def Text.isAscii (s : Text) : Bool := s.all fun c => c.toNat < 0x80

/-- The bytes of a text of ASCII. -/
def Text.asciiBytes (s : Text) : List UInt8 := s.map fun c => UInt8.ofNat c.toNat

namespace Utf8

/-- A character of ASCII is one byte, so a text of ASCII has the bytes of its characters. -/
theorem encode_of_isAscii {s : Text} (hs : s.isAscii = true) : encode s = s.asciiBytes := by
  induction s with
  | nil => rfl
  | cons c s ih =>
    rw [Text.isAscii, List.all_cons, Bool.and_eq_true, decide_eq_true_eq] at hs
    have hc : String.utf8EncodeChar c = [.ofNat c.toNat] := (sequence_encodeChar c).unique (.one hs.1)
    change String.utf8EncodeChar c ++ encode s = _
    rw [hc, ih hs.2]
    rfl

/-- A text of ASCII is read from its bytes. -/
theorem decode_asciiBytes {s : Text} (hs : s.isAscii = true) : decode s.asciiBytes = .ok s :=
  decode_eq_ok_iff.2 (encode_of_isAscii hs).symm

end Utf8

/-! ## Where names lead -/

/-- Where a name leads from a location: two dots take the last name away. -/
def Location.descend (l : Location) (n : Text) : Location := if n = ['.', '.'] then l.dropLast else l ++ [n]

/-- Where the names of a path start: at the current directory or at the root. -/
def Path.start (cwd : Location) (p : Path) : Location :=
  match p.root with
  | .here => cwd
  | .slash | .doubleSlash => []

/-- Where a path leads from the current directory, two dots taking back the name before them. -/
def Path.resolved (cwd : Location) (p : Path) : Location := p.names.foldl Location.descend (p.start cwd)

namespace FileTree

variable {t : FileTree} {cwd base k l : Location} {n : Text} {ns : List Text}

/-- Where one name leads from a location, which may not be a file. -/
inductive Leads (t : FileTree) (base : Location) (n : Text) : Location → Prop where
  /-- An empty name and a single dot stay. -/
  | stay (hbase : ∀ bs, t.node? base ≠ some (.file bs)) (hn : n = [] ∨ n = ['.']) : Leads t base n base
  /-- Two dots lead up. -/
  | up (hbase : ∀ bs, t.node? base ≠ some (.file bs)) (hn : n = ['.', '.']) : Leads t base n base.dropLast
  /-- Any other name leads down to what stands there. -/
  | down (hbase : ∀ bs, t.node? base ≠ some (.file bs)) (hn : ¬(n = [] ∨ n = ['.'])) (hup : n ≠ ['.', '.'])
      (hshort : Utf8.size n ≤ nameBytes) (hnode : t.node? (base ++ [n]) ≠ none) : Leads t base n (base ++ [n])

/-- Names are followed one after another. -/
theorem follow_cons_eq_ok_iff : t.follow base (n :: ns) = .ok k ↔ ∃ next, t.Leads base n next ∧ t.follow next ns = .ok k := by
  rw [follow]
  split
  · rename_i bs hfile
    refine iff_of_false (by simp) ?_
    rintro ⟨next, hleads, -⟩
    cases hleads with
    | stay hbase | up hbase | down hbase => exact hbase bs hfile
  · rename_i hbase
    have hbase : ∀ bs, t.node? base ≠ some (.file bs) := fun bs hfile => hbase bs hfile
    constructor
    · intro h
      split at h
      · rename_i hn
        exact ⟨_, .stay hbase hn, h⟩
      · rename_i hn
        split at h
        · rename_i hup
          exact ⟨_, .up hbase hup, h⟩
        · rename_i hup
          split at h
          · exact absurd h (by simp)
          · rename_i hshort
            split at h
            · exact absurd h (by simp)
            · rename_i hnode
              exact ⟨_, .down hbase hn hup (Nat.le_of_not_lt hshort) (by simpa using hnode), h⟩
    · rintro ⟨next, hleads, h⟩
      cases hleads with
      | stay _ hn => rwa [if_pos hn]
      | up _ hn => rwa [if_neg (by simp [hn]), if_pos hn]
      | down _ hn hup hshort hnode =>
        rwa [if_neg hn, if_neg hup, if_neg (Nat.not_lt_of_le hshort), if_neg (by simpa using hnode)]

/-- The names that are followed are those that a path keeps. -/
theorem follow_eq_ok (h : t.follow base ns = .ok l) :
    l = (ns.filter fun n => n ≠ [] && n ≠ ['.']).foldl Location.descend base := by
  induction ns generalizing base with
  | nil => exact (Except.ok.inj h).symm
  | cons n ns ih =>
    obtain ⟨next, hleads, h⟩ := follow_cons_eq_ok_iff.1 h
    cases hleads with
    | stay _ hskip =>
      rw [List.filter_cons_of_neg (by rcases hskip with rfl | rfl <;> simp)]
      exact ih h
    | up _ hup =>
      rw [List.filter_cons_of_pos (by simp [hup]), List.foldl_cons, Location.descend, if_pos hup]
      exact ih h
    | down _ hskip hup =>
      rw [not_or] at hskip
      rw [List.filter_cons_of_pos (by simp [hskip.1, hskip.2]), List.foldl_cons, Location.descend, if_neg hup]
      exact ih h

/-- A text that begins with a slash starts at the root, any other at the current directory. -/
theorem start_ofText {path : Text} : (if path.head? = some '/' then [] else cwd) = (Path.ofText path).start cwd := by
  cases path with
  | nil => rfl
  | cons c s =>
    by_cases hc : c = '/'
    · subst hc
      have hroot : ∀ n, Root.ofSlashes (n + 1) ≠ .here := by
        intro n
        rcases n with _ | _ | n <;> simp [Root.ofSlashes]
      have hne := hroot (s.takeWhile (· = '/')).length
      have hof : (Path.ofText ('/' :: s)).root = Root.ofSlashes ((s.takeWhile (· = '/')).length + 1) := rfl
      rw [Path.start, hof]
      cases hr : Root.ofSlashes ((s.takeWhile (· = '/')).length + 1) with
      | here => exact absurd hr hne
      | slash | doubleSlash => rfl
    · have hof : (Path.ofText (c :: s)).root = .here := by simp [Path.ofText, hc, Root.ofSlashes]
      rw [Path.start, hof, if_neg (by simpa using hc)]

/-- If a path can be followed, it leads where its names say. -/
theorem resolve_eq_ok {path : Text} (h : t.resolve cwd path = .ok l) : l = (Path.ofText path).resolved cwd := by
  rw [resolve] at h
  split at h
  · exact absurd h (by simp)
  · split at h
    · exact absurd h (by simp)
    · rw [start_ofText] at h
      exact follow_eq_ok h

theorem resolve_toText_eq_ok {p : Path} (hp : p.Normal) (h : t.resolve cwd p.toText = .ok l) : l = p.resolved cwd := by
  rw [resolve_eq_ok h, Path.ofText_toText hp]

/-- What is opened under a name in a directory lies where the names of the directory lead. -/
theorem resolve_child_eq_ok {dir : Path} (hdir : dir.Normal) {n : Text} (hn : Path.NormalName n) (hup : n ≠ ['.', '.'])
    (h : t.resolve cwd (dir.child n).toText = .ok l) : l = dir.resolved cwd ++ [n] := by
  have hchild : (dir.child n).resolved cwd = (dir.resolved cwd).descend n := by
    simp only [Path.resolved, Path.child, List.foldl_append, List.foldl_cons, List.foldl_nil]
    rfl
  rw [resolve_toText_eq_ok (hdir.child hn) h, hchild, Location.descend, if_neg hup]

/-! ## Reading -/

variable {path : Text}

/-- A path leads to a file, and its bytes are those of a text. -/
def Holds (t : FileTree) (cwd : Location) (path s : Text) : Prop :=
  ∃ l, t.resolve cwd path = .ok l ∧ t.node? l = some (.file (Utf8.encode s))

/-- The bytes that are opened under a path are those of the file it leads to. -/
theorem bytes_eq_ok_iff {bs : List UInt8} :
    t.bytes cwd path = .ok bs ↔ ∃ l, t.resolve cwd path = .ok l ∧ t.node? l = some (.file bs) := by
  rw [bytes]
  cases hl : t.resolve cwd path with
  | error e => simp
  | ok l =>
    cases hnode : t.node? l with
    | none => simp [hnode]
    | some node => cases node <;> simp [hnode]

/-- Reading is interrupted exactly if the path has a null character. -/
theorem read_eq_nullInPath_iff : t.read cwd path = .error .nullInPath ↔ '\x00' ∈ path := by
  rw [read]
  split
  · rename_i h
    simpa using h
  · rename_i h
    refine iff_of_false (fun hread => ?_) (by simpa using h)
    split at hread
    · exact absurd hread (by simp)
    · split at hread <;> exact absurd hread (by simp)

/-- A text is read under a path without a null character exactly if the file there has its bytes. -/
theorem read_eq_ok_iff {s : Text} : t.read cwd path = .ok s ↔ '\x00' ∉ path ∧ t.Holds cwd path s := by
  have hbytes : t.Holds cwd path s ↔ t.bytes cwd path = .ok (Utf8.encode s) := bytes_eq_ok_iff.symm
  rw [hbytes, read]
  split
  · rename_i h
    simpa using fun hpath => absurd (by simpa using h) hpath
  · rename_i h
    rw [and_iff_right (by simpa using h)]
    cases t.bytes cwd path with
    | error e => simp
    | ok bs =>
      dsimp only
      rw [Except.ok.injEq, ← Utf8.decode_eq_ok_iff]
      cases Utf8.decode bs <;> simp

/-- A path without a null character cannot be read exactly if it leads to no file with the bytes of a text. -/
theorem exists_read_eq_unreadable_iff :
    (∃ cause, t.read cwd path = .error (.unreadable cause)) ↔ '\x00' ∉ path ∧ ¬∃ s, t.Holds cwd path s := by
  cases h : t.read cwd path with
  | ok s =>
    obtain ⟨hpath, hs⟩ := read_eq_ok_iff.1 h
    have hex : ∃ s, t.Holds cwd path s := ⟨s, hs⟩
    simp [hpath, hex]
  | error e =>
    cases e with
    | nullInPath => simp [read_eq_nullInPath_iff.1 h]
    | unreadable cause =>
      have hpath : '\x00' ∉ path := fun hmem => absurd ((read_eq_nullInPath_iff.2 hmem).symm.trans h) (by simp)
      have hnone : ¬∃ s, t.Holds cwd path s := by
        rintro ⟨s, hs⟩
        exact absurd ((read_eq_ok_iff.2 ⟨hpath, hs⟩).symm.trans h) (by simp)
      simp [hpath, hnone]

/-- A file that is there and decodes is read. -/
theorem read_eq_ok {s : Text} {bs : List UInt8} (hpath : '\x00' ∉ path) (hl : t.resolve cwd path = .ok l)
    (hbs : t.node? l = some (.file bs)) (hs : Utf8.decode bs = .ok s) : t.read cwd path = .ok s :=
  read_eq_ok_iff.2 ⟨hpath, l, hl, Utf8.decode_eq_ok_iff.1 hs ▸ hbs⟩

/-- Only a null character in the path itself is no matter of the file. -/
theorem read_ne_nullInPath (hpath : '\x00' ∉ path) : t.read cwd path ≠ .error .nullInPath :=
  fun h => hpath (read_eq_nullInPath_iff.1 h)

/-- The tree with one file, of a text of ASCII, and the directories above it. -/
def ofFile (l : Location) (s : Text) : FileTree :=
  ⟨fun k => if k = l then some (.file s.asciiBytes) else if k.isPrefixOf l then some .directory else none⟩

theorem node?_ofFile {l : Location} (hl : l ≠ []) (s : Text) : (ofFile l s).node? l = some (.file s.asciiBytes) := by
  obtain ⟨n, l, rfl⟩ := List.exists_cons_of_ne_nil hl
  exact if_pos rfl

/-- The text of the one file is read under every path that leads to it. -/
theorem read_ofFile {s : Text} (hl : l ≠ []) (hs : s.isAscii = true) (hpath : '\x00' ∉ path)
    (h : (ofFile l s).resolve cwd path = .ok l) : (ofFile l s).read cwd path = .ok s :=
  read_eq_ok hpath h (node?_ofFile hl s) (Utf8.decode_asciiBytes hs)

end FileTree

end SourceInventory
