import SourceInventory.Proofs.Analysis.Suited
import SourceInventory.Proofs.Locate.Interruption

/-!
# Override: a framework that is asked for

A framework that is asked for takes the place of the one that a search would find. No search is made then, so that the file is
analysed even where a search would be interrupted, and of the tree nothing matters but what is read under the path of the file.
Everything else in the record is as it would be without it. Main statement: `analyze_override`.
-/

namespace SourceInventory

variable {t t' : FileTree} {cwd cwd' : Location} {file : Text} {parents : Int}

/-- A framework that is asked for changes the framework of a record alone. -/
theorem analyze_some_of_analyze_none {a : Analysis} (h : (analyze t cwd file none parents).value = .ok a) (f : Framework) :
    (analyze t cwd file (some f) parents).value =
      .ok { a with framework := if f = .unknown then .default a.language else f } := by
  obtain ⟨language, source, found, hlanguage, hread, -, rfl⟩ := analyze_eq_ok_iff.1 h
  refine analyze_eq_ok_iff.2 ⟨language, source, f, hlanguage, hread, rfl, ?_⟩
  rw [← Framework.orDefault_eq]
  rfl

/-- For a framework that is asked for only what is read under the path of the file matters. -/
theorem analyze_some_congr {parents' : Int} (h : t'.read cwd' file = t.read cwd file) (f : Framework) :
    analyze t' cwd' file (some f) parents' = analyze t cwd file (some f) parents := by
  simp only [analyze, givenOrLocated, h]

/-- A framework that is asked for keeps every failure but that of the search. -/
theorem analyze_some_of_error {e : AnalysisError} (h : (analyze t cwd file none parents).value = .error e) (f : Framework) :
    (analyze t cwd file (some f) parents).value = .error e ∨
      ∃ i a, (locate t cwd (Path.ofText file) parents).value = .error i ∧ e = .interrupted i ∧
        (analyze t cwd file (some f) parents).value = .ok a := by
  have houtcome := outcome_analyze t cwd file none parents
  generalize analyze t cwd file none parents = r at houtcome h
  cases houtcome with
  | unsupported hlanguage =>
    obtain rfl := Except.error.inj h
    exact Or.inl (by rw [analyze_of_unsupported hlanguage]; rfl)
  | nullInPath hlanguage hfile =>
    obtain rfl := Except.error.inj h
    exact Or.inl (by rw [analyze_of_nullInPath hlanguage hfile]; rfl)
  | unreadable hlanguage hread =>
    obtain rfl := Except.error.inj h
    exact Or.inl (by rw [analyze_of_unreadable hlanguage hread]; rfl)
  | interrupted hlanguage hread hfound =>
    obtain rfl := Except.error.inj h
    exact Or.inr ⟨_, _, hfound, rfl, analyze_eq_ok_iff.2 ⟨_, _, f, hlanguage, hread, rfl, rfl⟩⟩
  | record => exact absurd h (by simp)

/-- If a file has a record without a framework being asked for, then for every framework it has the same record but for the
framework, which is the one that is asked for, or that of the language where this is "unknown". If it has none, the failure stays
the same, except that a search which is interrupted is not made: then there is a record. Whatever else two trees hold and however
far a search would go, for a framework that is asked for the file comes to the same in both, a record or a failure, if the same
is read under its path. -/
theorem analyze_override (t : FileTree) (cwd : Location) (file : Text) (f : Framework) (parents : Int) :
    (∀ a, (analyze t cwd file none parents).value = .ok a →
      (analyze t cwd file (some f) parents).value =
        .ok { a with framework := if f = .unknown then .default a.language else f }) ∧
    (∀ e, (analyze t cwd file none parents).value = .error e →
      (analyze t cwd file (some f) parents).value = .error e ∨
        ∃ i a, (locate t cwd (Path.ofText file) parents).value = .error i ∧ e = .interrupted i ∧
          (analyze t cwd file (some f) parents).value = .ok a) ∧
    ∀ (t' : FileTree) (cwd' : Location) (parents' : Int), t'.read cwd' file = t.read cwd file →
      analyze t' cwd' file (some f) parents' = analyze t cwd file (some f) parents :=
  ⟨fun _ h => analyze_some_of_analyze_none h f, fun _ h => analyze_some_of_error h f, fun _ _ _ h => analyze_some_congr h f⟩

/-- The mixed project with a dependency manifest of ones. -/
def interruptedProject (n : Nat) : FileTree :=
  ⟨fun l => if l = [Locate.manifestName] then some (.file (Text.asciiBytes ('1' :: List.replicate n '1'))) else
    mixedProject.below l⟩

/-- The ones of its manifest interrupt a search as soon as they are too many. -/
theorem locate_interruptedProject {n : Nat} (hn : Json.integerDigits < n + 1) :
    (locate (interruptedProject n) [] (Path.ofText "app.js".toList) Locate.defaultParents).value =
      .error (.integerTooLong (n + 1)) := by
  have hones : ∀ d ∈ List.replicate n '1', d = '1' := fun d hd => List.eq_of_mem_replicate hd
  have hascii : Text.isAscii ('1' :: List.replicate n '1') = true := by
    rw [Text.isAscii, List.all_cons, List.all_replicate]
    simp
  have hnode : (interruptedProject n).node? [Locate.manifestName] =
      some (.file (Text.asciiBytes ('1' :: List.replicate n '1'))) := by
    simp [FileTree.node?, interruptedProject]
  have hread : (interruptedProject n).read [] (Path.child ⟨.here, []⟩ Locate.manifestName).toText =
      .ok ('1' :: List.replicate n '1') :=
    FileTree.read_eq_ok (by decide) rfl hnode (Utf8.decode_asciiBytes hascii)
  have hjson := Json.read_digits (c := '1') rfl (by decide) (fun d hd => (hones d hd).symm ▸ rfl)
    (by rwa [List.length_replicate])
  rw [List.length_replicate] at hjson
  exact (locate_eq_error_iff (by decide)).2 ⟨[], ⟨.here, []⟩, [], _, n + 1, rfl, by simp, hread, hjson, rfl⟩

theorem read_interruptedProject (n : Nat) :
    (interruptedProject n).read [] "app.js".toList = mixedProject.read [] "app.js".toList := rfl

theorem analyze_interruptedProject {n : Nat} (hn : Json.integerDigits < n + 1) :
    (analyze (interruptedProject n) [] "app.js".toList none).value = .error (.interrupted (.integerTooLong (n + 1))) := by
  have hlanguage : Language.ofPath? (Path.ofText "app.js".toList) = some .javascript := by decide
  have hread : (interruptedProject n).read [] "app.js".toList = .ok [] := rfl
  rw [analyze_of_read hlanguage hread]
  simp only [givenOrLocated, locate_interruptedProject hn]

/-- The file beside the one of pytest is analysed for jest if "unknown" is asked for, also where a manifest would interrupt the
search. -/
theorem analyze_override_mixedProject :
    (analyze mixedProject [] "app.js".toList none).value = .ok (.ofSource "app.js".toList .javascript .pytest []) ∧
    (analyze mixedProject [] "app.js".toList (some .unknown)).value = .ok (.ofSource "app.js".toList .javascript .jest []) ∧
    (analyze (interruptedProject 4300) [] "app.js".toList none).value = .error (.interrupted (.integerTooLong 4301)) ∧
    (interruptedProject 4300).read [] "app.js".toList = mixedProject.read [] "app.js".toList ∧
    analyze (interruptedProject 4300) [] "app.js".toList (some .unknown) =
      analyze mixedProject [] "app.js".toList (some .unknown) := by
  obtain ⟨hrecord, -, hframe⟩ := analyze_override mixedProject [] "app.js".toList .unknown Locate.defaultParents
  have hread := read_interruptedProject 4300
  exact ⟨analyze_mixedProject, hrecord _ analyze_mixedProject, analyze_interruptedProject (by decide), hread,
    hframe _ _ _ hread⟩

end SourceInventory
