import SourceInventory.Proofs.Analysis.Outcome
import SourceInventory.Proofs.Text.WellFormed

/-!
# Source: the bytes of a file in its record

A file is kept in its record as it is, or it is refused. The source of a record has exactly the bytes of the file, so nothing is
translated and no mark is dropped; a file is refused if its bytes are not well formed, and then the place that the error names is
where its longest well-formed beginning ends. Main statement: `analyze_source_iff`.
-/

namespace SourceInventory

/-- The wording of a fault names its place. -/
theorem Utf8.Fault.message_eq (f : Fault) :
    ∃ before after, f.message = before ++ " in position ".toList ++ Text.ofNat f.position ++ after ∧
      (after.head? = some ':' ∨ after.head? = some '-') := by
  by_cases hcount : f.count ≤ 1
  · have hmessage : f.message = "'utf-8' codec can't decode ".toList ++ ("byte 0x".toList ++ Text.hex 2 f.byte.toNat)
        ++ " in position ".toList ++ Text.ofNat f.position ++ (": ".toList ++ f.cause.message) := by
      unfold message
      rw [if_pos hcount]
      simp only [List.append_assoc]
    exact ⟨_, _, hmessage, Or.inl rfl⟩
  · have hwords : "bytes in position ".toList = "bytes".toList ++ " in position ".toList := by decide
    have hmessage : f.message = "'utf-8' codec can't decode ".toList ++ "bytes".toList ++ " in position ".toList
        ++ Text.ofNat f.position ++ ("-".toList ++ Text.ofNat (f.position + f.count - 1) ++ (": ".toList ++ f.cause.message)) := by
      unfold message
      rw [if_neg hcount, hwords]
      simp only [List.append_assoc]
    exact ⟨_, _, hmessage, Or.inr rfl⟩

theorem Analysis.lineCount_eq (a : Analysis) : a.lineCount = (Utf8.encode a.source).count 0x0A + 1 := by
  rw [lineCount, Text.lines, Text.length_splitOn, Utf8.count_lineFeed_encode]

variable {t : FileTree} {cwd : Location} {file : Text} {bs : List UInt8}

/-- What is opened under a path without a null character is read as its bytes are decoded. -/
theorem FileTree.read_eq_unreadable_iff (hfile : '\x00' ∉ file) (hbytes : t.bytes cwd file = .ok bs) {cause : Unreadable} :
    t.read cwd file = .error (.unreadable cause) ↔ ∃ fault, Utf8.decode bs = .error fault ∧ cause = .decoding fault := by
  rw [FileTree.read, if_neg (by simpa using hfile), hbytes]
  dsimp only
  cases Utf8.decode bs with
  | ok s => simp
  | error fault => simp [eq_comm]

/-- A file of some language that can be opened is refused, for whatever framework, exactly if its bytes are not well formed. The
place that the error names is then where the longest well-formed beginning of the bytes ends. Otherwise there is a record whose
source has exactly these bytes, and it has one line more than they have line feeds. -/
theorem analyze_source_iff {language : Language} (hlanguage : Language.ofPath? (Path.ofText file) = some language)
    (hfile : '\x00' ∉ file) (hbytes : t.bytes cwd file = .ok bs) (f : Framework) (parents : Int) :
    ((∃ path cause, (analyze t cwd file (some f) parents).value = .error (.unreadable path cause)) ↔ ¬Utf8.WellFormed bs) ∧
    (∀ path cause, (analyze t cwd file (some f) parents).value = .error (.unreadable path cause) →
      ∃ position, position < bs.length ∧ Utf8.WellFormed (bs.take position) ∧
        (∀ u, u <+: bs → Utf8.WellFormed u → u.length ≤ position) ∧
        ∃ before after, (AnalysisError.unreadable path cause).message =
            before ++ " in position ".toList ++ Text.ofNat position ++ after ∧
          (after.head? = some ':' ∨ after.head? = some '-')) ∧
    (Utf8.WellFormed bs →
      ∃ a, (analyze t cwd file (some f) parents).value = .ok a ∧ Utf8.encode a.source = bs ∧ a.lineCount = bs.count 0x0A + 1) := by
  have hrefused : ∀ path cause, (analyze t cwd file (some f) parents).value = .error (.unreadable path cause) ↔
      path = file ∧ ∃ fault, Utf8.decode bs = .error fault ∧ cause = .decoding fault := by
    intro path cause
    rw [analyze_eq_unreadable_iff, FileTree.read_eq_unreadable_iff hfile hbytes]
    simp [hlanguage]
  refine ⟨?_, ?_, ?_⟩
  · constructor
    · rintro ⟨path, cause, h⟩ hbs
      obtain ⟨-, fault, hfault, -⟩ := (hrefused path cause).1 h
      obtain ⟨s, hs⟩ := Utf8.wellFormed_iff_decode.1 hbs
      exact absurd (hfault.symm.trans hs) (by simp)
    · intro hbs
      cases hdecode : Utf8.decode bs with
      | ok s => exact absurd (Utf8.wellFormed_iff_decode.2 ⟨s, hdecode⟩) hbs
      | error fault => exact ⟨file, .decoding fault, (hrefused _ _).2 ⟨rfl, fault, hdecode, rfl⟩⟩
  · intro path cause h
    obtain ⟨-, fault, hfault, rfl⟩ := (hrefused path cause).1 h
    obtain ⟨hlt, hbeginning, hlongest⟩ := Utf8.longest_of_decode_eq_error hfault
    obtain ⟨before, after, hmessage, hafter⟩ := fault.message_eq
    have herror : (AnalysisError.unreadable path (.decoding fault)).message =
        "Cannot read ".toList ++ path ++ ": ".toList ++ before ++ " in position ".toList ++ Text.ofNat fault.position
          ++ after := by
      unfold AnalysisError.message Unreadable.message
      simp only [hmessage, List.append_assoc]
    exact ⟨fault.position, hlt, hbeginning, hlongest, _, after, herror, hafter⟩
  · intro hbs
    obtain ⟨s, hs⟩ := Utf8.wellFormed_iff.1 hbs
    have hread : t.read cwd file = .ok s :=
      FileTree.read_eq_ok_iff.2 ⟨hfile, FileTree.bytes_eq_ok_iff.1 (hs ▸ hbytes)⟩
    refine ⟨Analysis.ofSource file language f s, analyze_eq_ok_iff.2 ⟨language, s, f, hlanguage, hread, rfl, rfl⟩, hs.symm, ?_⟩
    rw [Analysis.lineCount_eq, hs]
    rfl

/-- Bytes of a text with a byte order mark and a carriage return, and then those of a surrogate. -/
def surrogateBytes : List UInt8 := [0xEF, 0xBB, 0xBF, 0x61, 0x0D, 0x0A, 0xED, 0xA0, 0x80, 0x62]

/-- A tree of one file with these bytes. -/
def surrogateTree : FileTree := ⟨fun l => if l = ["a.py".toList] then some (.file surrogateBytes) else none⟩

theorem analyze_source_surrogate :
    Language.ofPath? (Path.ofText "a.py".toList) = some .python ∧ '\x00' ∉ "a.py".toList ∧
    surrogateTree.bytes [] "a.py".toList = .ok surrogateBytes ∧
    ∃ path cause, (analyze surrogateTree [] "a.py".toList (some .pytest)).value = .error (.unreadable path cause) := by
  have hlanguage : Language.ofPath? (Path.ofText "a.py".toList) = some .python := by decide
  have hbytes : surrogateTree.bytes [] "a.py".toList = .ok surrogateBytes := rfl
  have hill : ¬Utf8.WellFormed surrogateBytes := by
    rw [Utf8.wellFormed_iff_decode]
    rintro ⟨s, hs⟩
    have hfault : Utf8.decode surrogateBytes = .error ⟨6, 0xED, 1, .invalidContinuation⟩ := rfl
    exact absurd (hfault.symm.trans hs) (by simp)
  exact ⟨hlanguage, by decide, hbytes, (analyze_source_iff hlanguage (by decide) hbytes .pytest Locate.defaultParents).1.2 hill⟩

end SourceInventory
