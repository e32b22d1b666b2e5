import SourceInventory.Proofs.Extract.BodyCut
import SourceInventory.Proofs.Extract.TypeClause

/-!
# Statement headers: what a method has in its body

In the body of a method stand statements with a list in parentheses before an opening brace, at any depth, and functions without a
name. Each of them looks like a method (`Header.head`), and what looks like one is left out by the word right before its list
alone. So a loop that awaits, a `with` statement and a function without a name are taken for methods behind the one whose body they
stand in; all other headers are left out, and no method behind them is lost (`ofSource_statements_iff`).
-/

namespace SourceInventory

open Pattern

namespace Method

/-! ## Headers -/

/-- What opens a block behind a list in parentheses and is no method. -/
inductive HeaderKind where
  /-- A condition. -/
  | conditional
  /-- A loop. -/
  | loop
  /-- A loop that awaits, with the blanks between its two words. -/
  | awaitingLoop (between : Blanks)
  /-- A loop on a condition. -/
  | whileLoop
  /-- A choice among cases. -/
  | switch
  /-- What is done about an error. -/
  | catchClause
  /-- A statement with the names of an object. -/
  | withStatement
  /-- A function without a name. -/
  | functionExpression

namespace HeaderKind

/-- The word right before the list. -/
def word : HeaderKind → Word
  | .conditional => { text := "if".toList }
  | .loop => { text := "for".toList }
  | .awaitingLoop _ => { text := "await".toList }
  | .whileLoop => { text := "while".toList }
  | .switch => { text := "switch".toList }
  | .catchClause => { text := "catch".toList }
  | .withStatement => { text := "with".toList }
  | .functionExpression => { text := "function".toList }

/-- What stands before this word. -/
def lead : HeaderKind → Text
  | .awaitingLoop between => "for".toList ++ between.text
  | _ => []

/-- Whether a header is taken for a method. -/
def reported : HeaderKind → Bool
  | .awaitingLoop _ | .withStatement | .functionExpression => true
  | _ => false

/-- A header is taken for a method if the word right before its list is none that begins a statement. -/
theorem contains_word (k : HeaderKind) : statementWords.contains k.word.text = !k.reported := by
  cases k <;> rfl

/-- Words before the last one have blanks behind them. -/
theorem lead_eq_nil_or_lastIs (k : HeaderKind) : k.lead = [] ∨ k.lead.LastIs (isBlank · = true) := by
  cases k with
  | awaitingLoop between => exact Or.inr (between.lastIs_text.append _)
  | _ => exact Or.inl rfl

theorem not_mem_lead (k : HeaderKind) : '(' ∉ k.lead := by
  cases k with
  | awaitingLoop between =>
    refine not_mem_of_words (List.forall_mem_append.2 ⟨?_, fun c hc => Or.inr (between.isBlank_text c hc)⟩)
    exact fun c hc => Or.inl (List.all_eq_true.1 (by decide : "for".toList.all isWord = true) c hc)
  | _ => exact List.not_mem_nil

end HeaderKind

/-- A header with the list behind its words. -/
structure Header where
  /-- What it opens. -/
  kind : HeaderKind
  /-- The blanks before the list. -/
  beforeList : Gap := .ofBlanks .space
  /-- What stands between the parentheses. -/
  condition : Text := []
  /-- The blanks behind the list. -/
  afterList : Gap := .ofBlanks .space
  /-- The list ends at the closing parenthesis. -/
  condition_open : ')' ∉ condition := by decide

namespace Header

/-- A header from the word right before its list to its opening brace. -/
def opening (h : Header) : Text :=
  h.kind.word.text ++ h.beforeList.text ++ '(' :: (h.condition ++ [')']) ++ h.afterList.text ++ ['{']

/-- The method that a header is taken for, or none. -/
def methods (h : Header) : List Method :=
  if h.kind.reported then [⟨h.kind.word.text, callSignature h.kind.word.text h.condition.trim⟩] else []

/-- A header looks like a method. -/
theorem head (h : Header) : Head h.opening h.kind.word.text h.condition := by
  have hhead := Head.intro h.kind.word h.beforeList h.condition_open h.afterList none
  rwa [Option.elim_none, List.append_nil] at hhead

/-- The heading of a statement gives the methods that are reported of it. -/
theorem toList_ofHeading? (h : Header) : (ofHeading? (h.kind.word.text, h.condition)).toList = h.methods := by
  rw [ofHeading?, methods, h.kind.contains_word]
  cases h.kind.reported <;> rfl

end Header

/-! ## Bodies with headers -/

/-- What stands in a body up to the opening brace of a header. -/
structure Passage where
  /-- What stands before the header. -/
  before : Text := []
  /-- The header. -/
  header : Header
  /-- No parenthesis opens before the header. -/
  before_plain : '(' ∉ before := by decide
  /-- The header does not begin inside a word. -/
  before_apart : before.getLast?.any isWord = false := by decide

/-- A passage as it is written. -/
def Passage.text (p : Passage) : Text := p.before ++ (p.header.kind.lead ++ p.header.opening)

/-- What stands in the body of a method: any text in which parentheses open in headers only. The braces of the headers are closed
somewhere in it, so that blocks may stand in blocks to any depth. -/
structure Statements where
  /-- What stands in it up to the last header. -/
  passages : List Passage := []
  /-- What stands behind. -/
  ending : Text := []
  /-- No parenthesis opens behind the last header. -/
  ending_plain : '(' ∉ ending := by decide
  /-- The braces match. -/
  balanced : BracesBalanced (passages.flatMap Passage.text ++ ending) := by decide

namespace Statements

/-- Statements as they are written. -/
def text (s : Statements) : Text := s.passages.flatMap Passage.text ++ s.ending

/-- The methods that the headers in them are taken for. -/
def methods (s : Statements) : List Method := s.passages.flatMap (·.header.methods)

end Statements

/-! ## What is found in a body -/

/-- What stands where nothing looks like a method does not count. -/
theorem ofBody_append_of_beginsNowhereIn_head {u s : Text} (h : BeginsNowhereIn Method.head u s) : ofBody (u ++ s) = ofBody s := by
  rw [ofBody_eq_filterMap, headings, occurrences_of_beginsNowhereIn h, ← headings, ← ofBody_eq_filterMap]

/-- What looks like a method at the beginning of a text is taken first, or left out. -/
theorem ofBody_head_append {t name params : Text} (h : Head t name params) (s : Text) :
    ofBody (t ++ s) = (ofHeading? (name, params)).toList ++ ofBody s := by
  have hne : t ≠ [] := by
    rintro rfl
    exact absurd h.getLast?_eq (by simp)
  obtain ⟨d, hocc, hcaptures⟩ := h.reads.occurrences_eq_cons unambiguous_head hne s
  let hit : Hit := ⟨0, t, name, params⟩
  have hheading : heading d = hit.heading := heading_of_captures hcaptures
  rw [ofBody_eq_filterMap, headings, hocc, List.map_cons, hheading, ← headings, ofBody_eq_filterMap]
  cases hmethod : ofHeading? (name, params) with
  | none => exact List.filterMap_cons_none hmethod
  | some m => exact List.filterMap_cons_some hmethod

/-- A passage adds what its header is taken for, and everything behind it is found as it would be without it. -/
theorem ofBody_passage_append (p : Passage) (s : Text) : ofBody (p.text ++ s) = p.header.methods ++ ofBody s := by
  have hparen : '(' ∉ p.before ++ p.header.kind.lead := by
    rw [List.mem_append, not_or]
    exact ⟨p.before_plain, p.header.kind.not_mem_lead⟩
  have hlast : ∀ c ∈ (p.before ++ p.header.kind.lead).getLast?, isWord c = false := by
    rcases p.header.kind.lead_eq_nil_or_lastIs with hlead | hlead
    · rw [hlead, List.append_nil]
      exact (Option.any_eq_false _ _).1 p.before_apart
    · exact ((hlead.append _).mono fun _ hc => isWord_eq_false_of_isBlank hc).of_getLast?
  have htext : p.text ++ s = p.before ++ p.header.kind.lead ++ (p.header.opening ++ s) := by
    simp only [Passage.text, List.append_assoc]
  rw [htext, ofBody_append_of_beginsNowhereIn_head (beginsNowhereIn_before_head hparen hlast p.header.head s),
    ofBody_head_append p.header.head, p.header.toList_ofHeading?]

/-- The methods of passages are those that are reported of their statements, in order. -/
theorem ofBody_passages_append (ps : List Passage) (s : Text) :
    ofBody (ps.flatMap Passage.text ++ s) = ps.flatMap (·.header.methods) ++ ofBody s := by
  induction ps with
  | nil => rfl
  | cons p ps ih => rw [List.flatMap_cons, List.append_assoc, ofBody_passage_append, ih, List.flatMap_cons, List.append_assoc]

/-- In a body exactly its headers are taken for methods or left out, up to the brace that closes it. -/
theorem ofBody_statements_append (b : Statements) (s : Text) : ofBody (b.text ++ '}' :: s) = b.methods ++ ofBody s := by
  have hquiet : BeginsNowhereIn Method.head (b.ending ++ ['}']) s := by
    refine beginsNowhereIn_head (c := '}') (fun h => ?_) List.getLast?_concat (by decide) (by decide) s
    rcases List.mem_append.1 h with h | h
    · exact b.ending_plain h
    · exact absurd (List.mem_singleton.1 h) (by decide)
  have htext : b.text ++ '}' :: s = b.passages.flatMap Passage.text ++ (b.ending ++ ['}'] ++ s) := by
    simp only [Statements.text, List.append_assoc, List.singleton_append]
  rw [htext, ofBody_passages_append, ofBody_append_of_beginsNowhereIn_head hquiet]
  rfl

/-! ## Classes -/

/-- A method with statements in its body. -/
structure Member where
  /-- The blanks before the method. -/
  before : Gap := .none
  /-- The method, with nothing in its body. -/
  declaration : Declaration
  /-- What stands in its body. -/
  statements : Statements

/-- A method as it is written. -/
def Member.text (m : Member) : Text :=
  m.before.text ++ (m.declaration.heading ++ '{' :: (m.statements.text ++ ['}']))

/-- Methods as they are written one after the other, with blanks behind the last one. -/
def classText (members : List Member) (ending : Gap) : Text := members.flatMap Member.text ++ ending.text

theorem bracesBalanced_classText (members : List Member) (ending : Gap) : BracesBalanced (classText members ending) := by
  refine BracesBalanced.append ?_ ending.bracesBalanced
  rw [List.flatMap_def]
  refine .flatten fun t ht => ?_
  obtain ⟨m, -, rfl⟩ := List.mem_map.1 ht
  exact m.before.bracesBalanced.append (m.declaration.bracesBalanced_heading.append m.statements.balanced.enclose)

/-- From the body of a class every method is read, and behind it what the headers in its body are taken for. -/
theorem ofBody_classText (members : List Member) (ending : Gap) :
    ofBody (classText members ending) = members.flatMap fun m => m.declaration.method :: m.statements.methods := by
  induction members with
  | nil => exact (congrArg ofBody (List.append_nil ending.text).symm).trans (ofBody_gap_append ending [])
  | cons m members ih =>
    have htext : classText (m :: members) ending =
        m.before.text ++ (m.declaration.heading ++ '{' :: (m.statements.text ++ '}' :: classText members ending)) := by
      simp [classText, Member.text]
    rw [htext, ofBody_gap_append, m.declaration.ofBody_heading_append, ofBody_statements_append, ih]
    rfl

/-- Where some values may come behind each value of a list, no other values are there exactly if none come behind any. -/
theorem flatMap_cons_eq_map_iff {α β : Type} {f : α → β} {g : α → List β} {l : List α} :
    (l.flatMap fun x => f x :: g x) = l.map f ↔ ∀ x ∈ l, g x = [] := by
  have hle : ∀ l : List α, l.length ≤ (l.flatMap fun x => f x :: g x).length := by
    intro l
    induction l with
    | nil => exact Nat.le_refl 0
    | cons x l ih =>
      rw [List.flatMap_cons, List.length_append, List.length_cons, List.length_cons]
      omega
  induction l with
  | nil => exact iff_of_true rfl fun _ hx => absurd hx List.not_mem_nil
  | cons x l ih =>
    rw [List.flatMap_cons, List.map_cons, List.cons_append, List.cons.injEq, List.forall_mem_cons]
    refine ⟨fun ⟨_, h⟩ => ?_, fun ⟨hx, hl⟩ => ⟨rfl, by rw [hx, ih.2 hl, List.nil_append]⟩⟩
    have hlength := congrArg List.length h
    rw [List.length_append, List.length_map] at hlength
    have hx : g x = [] := List.length_eq_zero_iff.1 (by have := hle l; omega)
    rw [hx, List.nil_append] at h
    exact ⟨hx, ih.1 h⟩

/-- Nothing is reported of a statement exactly if its kind is not. -/
theorem Header.methods_eq_nil_iff (h : Header) : h.methods = [] ↔ h.kind.reported = false := by
  rw [methods]
  cases h.kind.reported <;> simp

end Method

/-- A class whose methods have any number of statements and functions without a name in their bodies, to any depth: every method is
found, and behind it what a loop that awaits, a `with` statement and a function without a name are taken for. So exactly the methods
are found if and only if none of these three stands in a body. -/
theorem Method.ofSource_statements_iff {before : Text} {place : Nat} (hplace : place ≤ before.length)
    (hfree : '{' ∉ before.drop place) (members : List Member) (ending : Gap) (behind : Text) :
    ofSource (before ++ '{' :: (classText members ending ++ '}' :: behind)) place =
      members.flatMap (fun m => m.declaration.method :: m.statements.methods) ∧
    (ofSource (before ++ '{' :: (classText members ending ++ '}' :: behind)) place = members.map (·.declaration.method) ↔
      ∀ m ∈ members, ∀ p ∈ m.statements.passages, p.header.kind.reported = false) := by
  have hfound : ofSource (before ++ '{' :: (classText members ending ++ '}' :: behind)) place =
      members.flatMap (fun m => m.declaration.method :: m.statements.methods) := by
    rw [BodyCut.ofSource_eq_methods (c := .closed before (classText members ending) behind)
      ⟨rfl, hplace, hfree, bracesBalanced_classText members ending⟩]
    exact ofBody_classText members ending
  refine ⟨hfound, ?_⟩
  rw [hfound, flatMap_cons_eq_map_iff]
  refine forall₂_congr fun m _ => ?_
  rw [Statements.methods, List.flatMap_eq_nil_iff]
  exact forall₂_congr fun p _ => p.header.methods_eq_nil_iff

/-- A class with a method whose body has three headers that are left out, one of them in the block of another one. -/
theorem Method.ofSource_statements_leftOut :
    ∃ (members : List Member) (ending : Gap),
      0 ≤ "class A ".toList.length ∧ '{' ∉ "class A ".toList.drop 0 ∧
      (∀ m ∈ members, ∀ p ∈ m.statements.passages, p.header.kind.reported = false) ∧
      members.map (·.statements.passages.length) = [3] ∧
      "class A ".toList ++ '{' :: (classText members ending ++ '}' :: []) =
        "class A \x7b f() \x7b if (a) \x7b while (b) \x7b \x7d \x7d switch (c) \x7b \x7d \x7d \x7d".toList ∧
      ofSource ("class A ".toList ++ '{' :: (classText members ending ++ '}' :: [])) 0 = [⟨['f'], "f()".toList⟩] := by
  let statements : Statements :=
    { passages :=
        [{ before := [' '], header := { kind := .conditional, condition := ['a'] } },
         { before := [' '], header := { kind := .whileLoop, condition := ['b'] } },
         { before := " \x7d \x7d ".toList, header := { kind := .switch, condition := ['c'] } }]
      ending := " \x7d ".toList }
  let declaration : Declaration := { name := { text := ['f'] }, afterList := .ofBlanks .space }
  have hreported : ∀ m ∈ [Member.mk (.ofBlanks .space) declaration statements], ∀ p ∈ m.statements.passages,
      p.header.kind.reported = false := List.forall_mem_singleton.2 (by decide)
  have hfree : '{' ∉ "class A ".toList.drop 0 := by decide
  have hfound := (ofSource_statements_iff (Nat.zero_le _) hfree _ (.ofBlanks .space) []).2.2 hreported
  exact ⟨_, .ofBlanks .space, Nat.zero_le _, hfree, hreported, rfl, by decide, hfound⟩

/-- A `with` statement, a loop that awaits and a function without a name in the only method of a class are taken for methods. -/
theorem Method.ofSource_statements_false :
    (¬∀ (members : List Member) (ending : Gap), (∀ m ∈ members, m.declaration.name.text = ['f']) →
      ofSource ("class A ".toList ++ '{' :: (classText members ending ++ '}' :: [])) 0 = members.map (·.declaration.method)) ∧
    ofSource "class A \x7b f() \x7b with (o) \x7b \x7d for await (x) \x7b \x7d g = function (y) \x7b \x7d \x7d \x7d".toList 0 =
      [⟨['f'], "f()".toList⟩, ⟨"with".toList, "with(o)".toList⟩, ⟨"await".toList, "await(x)".toList⟩,
       ⟨"function".toList, "function(y)".toList⟩] := by
  let statements : Statements :=
    { passages :=
        [{ before := [' '], header := { kind := .withStatement, condition := ['o'] } },
         { before := " \x7d ".toList, header := { kind := .awaitingLoop .space, condition := ['x'] } },
         { before := " \x7d g = ".toList, header := { kind := .functionExpression, condition := ['y'] } }]
      ending := " \x7d ".toList }
  let declaration : Declaration := { name := { text := ['f'] }, afterList := .ofBlanks .space }
  refine ⟨fun h => ?_, by decide +kernel⟩
  have hall := h [⟨.ofBlanks .space, declaration, statements⟩] (.ofBlanks .space) (List.forall_mem_singleton.2 rfl)
  have hcount : (ofSource ("class A ".toList ++
      '{' :: (classText [⟨.ofBlanks .space, declaration, statements⟩] (.ofBlanks .space) ++ '}' :: [])) 0).length = 4 := by
    decide +kernel
  rw [hall] at hcount
  exact absurd hcount (by decide)

end SourceInventory
