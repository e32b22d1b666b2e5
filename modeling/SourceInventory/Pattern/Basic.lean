import SourceInventory.Text.Basic

/-!
# Patterns: what a declaration looks like, and every way to read one

A pattern describes the beginning of a text. It is read twice. As a grammar, `Derives` says which readings a text has: what
each field records and what is left. `Pattern.results` lists the readings in order of preference: of two alternatives the first,
an optional part rather than none, a repetition and a run as long as possible. The list holds exactly the readings of the
grammar (`mem_results_iff`), so the order is the only thing it adds. `Pattern.search` goes through the same order without making
the list (`search_eq`).

A reading keeps spans, not copies: a span is what is left of the text where it starts, and its length.
-/

namespace SourceInventory

/-- The parts of a declaration that a pattern records. -/
inductive Field where
  /-- The declared name. -/
  | name
  /-- The text between the parentheses of a function. -/
  | params
  /-- What a class is derived from. -/
  | base
  /-- The word that makes a function asynchronous. -/
  | modifier
  /-- What an import names. -/
  | specifier
deriving DecidableEq, Repr

/-- A stretch of a text, by what is left of the text where it starts, and its length. -/
structure Span where
  /-- What is left at the start of the stretch. -/
  start : Text
  /-- The number of its characters. -/
  length : Nat
deriving DecidableEq, Repr

/-- The characters of the stretch. -/
def Span.text (s : Span) : Text := s.start.take s.length

/-- One way to read the beginning of a text. -/
structure Derivation where
  /-- What was recorded, in the order in which it begins. -/
  fields : List (Field × Span)
  /-- The number of characters that were read. -/
  length : Nat
  /-- What is left of the text. -/
  rest : Text
deriving DecidableEq, Repr

namespace Derivation

/-- A reading of some characters with nothing recorded. -/
def plain (n : Nat) (rest : Text) : Derivation := ⟨[], n, rest⟩

/-- A reading followed by another one of what it left. -/
def andThen (d e : Derivation) : Derivation := ⟨d.fields ++ e.fields, d.length + e.length, e.rest⟩

/-- A reading of `s` that is recorded as a whole. -/
def record (f : Field) (s : Text) (d : Derivation) : Derivation := { d with fields := (f, ⟨s, d.length⟩) :: d.fields }

@[simp] theorem andThen_plain (d : Derivation) : d.andThen (plain 0 d.rest) = d := by
  simp [andThen, plain]

@[simp] theorem plain_andThen (s : Text) (d : Derivation) : (plain 0 s).andThen d = d := by
  simp [andThen, plain]

theorem andThen_assoc (d e f : Derivation) : (d.andThen e).andThen f = d.andThen (e.andThen f) := by
  simp [andThen, Nat.add_assoc]

/-- Where a field was recorded. -/
def span? (d : Derivation) (f : Field) : Option Span := (d.fields.find? (·.1 = f)).map (·.2)

/-- The text of a field. -/
def get? (d : Derivation) (f : Field) : Option Text := (d.span? f).map Span.text

/-- The text of a field, empty if it was not recorded. -/
def get (d : Derivation) (f : Field) : Text := (d.get? f).getD []

end Derivation

/-- What the beginning of a text looks like. -/
inductive Pattern where
  /-- The text itself. -/
  | text (t : Text)
  /-- One character of a class. -/
  | char (p : Char → Bool)
  /-- Any number of characters of a class, the more the better. -/
  | run (p : Char → Bool)
  /-- One pattern and then another. -/
  | seq (a b : Pattern)
  /-- One of two patterns, the first preferred. -/
  | either (a b : Pattern)
  /-- A pattern or nothing, the pattern preferred. -/
  | optional (a : Pattern)
  /-- Any number of repetitions, the more the better; one that reads nothing is not repeated. -/
  | many (a : Pattern)
  /-- A pattern whose text is recorded. -/
  | field (f : Field) (a : Pattern)

instance : Append Pattern := ⟨Pattern.seq⟩

/-- The readings of a text that a pattern allows, as a grammar: no reading is preferred. -/
inductive Derives : Pattern → Text → Derivation → Prop where
  | text {t r : Text} : Derives (.text t) (t ++ r) (.plain t.length r)
  | char {p : Char → Bool} {c : Char} {r : Text} : p c = true → Derives (.char p) (c :: r) (.plain 1 r)
  | run {p : Char → Bool} {u r : Text} : (∀ c ∈ u, p c = true) → Derives (.run p) (u ++ r) (.plain u.length r)
  | seq {a b : Pattern} {s : Text} {d e : Derivation} :
      Derives a s d → Derives b d.rest e → Derives (.seq a b) s (d.andThen e)
  | left {a b : Pattern} {s : Text} {d : Derivation} : Derives a s d → Derives (.either a b) s d
  | right {a b : Pattern} {s : Text} {d : Derivation} : Derives b s d → Derives (.either a b) s d
  | present {a : Pattern} {s : Text} {d : Derivation} : Derives a s d → Derives (.optional a) s d
  | absent {a : Pattern} {s : Text} : Derives (.optional a) s (.plain 0 s)
  | stop {a : Pattern} {s : Text} : Derives (.many a) s (.plain 0 s)
  | more {a : Pattern} {s : Text} {d e : Derivation} : Derives a s d → 0 < d.length →
      Derives (.many a) d.rest e → Derives (.many a) s (d.andThen e)
  | field {f : Field} {a : Pattern} {s : Text} {d : Derivation} :
      Derives a s d → Derives (.field f a) s (d.record f s)

/-- A reading takes the characters it counts off the text and leaves the rest. -/
theorem Derives.eq_append {p : Pattern} {s : Text} {d : Derivation} (h : Derives p s d) :
    ∃ u, s = u ++ d.rest ∧ u.length = d.length := by
  induction h with
  | text => exact ⟨_, rfl, rfl⟩
  | @char _ c _ _ => exact ⟨[c], rfl, rfl⟩
  | run _ => exact ⟨_, rfl, rfl⟩
  | seq _ _ iha ihb =>
    obtain ⟨u, hu, lu⟩ := iha
    obtain ⟨v, hv, lv⟩ := ihb
    exact ⟨u ++ v, by rw [hu, hv, List.append_assoc]; rfl, by simp [Derivation.andThen, lu, lv]⟩
  | left _ ih => exact ih
  | right _ ih => exact ih
  | present _ ih => exact ih
  | absent => exact ⟨[], rfl, rfl⟩
  | stop => exact ⟨[], rfl, rfl⟩
  | more _ _ _ iha ihb =>
    obtain ⟨u, hu, lu⟩ := iha
    obtain ⟨v, hv, lv⟩ := ihb
    exact ⟨u ++ v, by rw [hu, hv, List.append_assoc]; rfl, by simp [Derivation.andThen, lu, lv]⟩
  | field _ ih => exact ih

/-! ## The readings of each kind of pattern -/

/-- A fixed text is read where a text begins with it. -/
theorem derives_text_iff {t s : Text} {d : Derivation} :
    Derives (.text t) s d ↔ ∃ r, s = t ++ r ∧ d = .plain t.length r := by
  constructor
  · rintro ⟨⟩
    exact ⟨_, rfl, rfl⟩
  · rintro ⟨r, rfl, rfl⟩
    exact .text

/-- A character of a class is read where a text begins with one. -/
theorem derives_char_iff {p : Char → Bool} {s : Text} {d : Derivation} :
    Derives (.char p) s d ↔ ∃ c r, s = c :: r ∧ p c = true ∧ d = .plain 1 r := by
  constructor
  · intro h
    cases h with
    | char hc => exact ⟨_, _, rfl, hc, rfl⟩
  · rintro ⟨c, r, rfl, hc, rfl⟩
    exact .char hc

/-- A run is read where a text begins with characters of its class, however many of them. -/
theorem derives_run_iff {p : Char → Bool} {s : Text} {d : Derivation} :
    Derives (.run p) s d ↔ ∃ u r, s = u ++ r ∧ (∀ c ∈ u, p c = true) ∧ d = .plain u.length r := by
  constructor
  · intro h
    cases h with
    | run hu => exact ⟨_, _, rfl, hu, rfl⟩
  · rintro ⟨u, r, rfl, hu, rfl⟩
    exact .run hu

/-- A sequence is read by its first part and, in what that leaves, by its second. -/
theorem derives_append_iff {a b : Pattern} {s : Text} {d : Derivation} :
    Derives (a ++ b) s d ↔ ∃ e f, Derives a s e ∧ Derives b e.rest f ∧ d = e.andThen f := by
  constructor
  · intro h
    cases h with
    | seq ha hb => exact ⟨_, _, ha, hb, rfl⟩
  · rintro ⟨e, f, ha, hb, rfl⟩
    exact .seq ha hb

/-- Of two alternatives either is read. -/
theorem derives_either_iff {a b : Pattern} {s : Text} {d : Derivation} :
    Derives (.either a b) s d ↔ Derives a s d ∨ Derives b s d := by
  constructor
  · intro h
    cases h with
    | left h => exact .inl h
    | right h => exact .inr h
  · rintro (h | h)
    · exact .left h
    · exact .right h

/-- What may be left out is read, or nothing is. -/
theorem derives_optional_iff {a : Pattern} {s : Text} {d : Derivation} :
    Derives (.optional a) s d ↔ Derives a s d ∨ d = .plain 0 s := by
  constructor
  · intro h
    cases h with
    | present h => exact .inl h
    | absent => exact .inr rfl
  · rintro (h | rfl)
    · exact .present h
    · exact .absent

/-- A field is read as its pattern is, and recorded. -/
theorem derives_field_iff {f : Field} {a : Pattern} {s : Text} {d : Derivation} :
    Derives (.field f a) s d ↔ ∃ e, Derives a s e ∧ d = e.record f s := by
  constructor
  · intro h
    cases h with
    | field h => exact ⟨_, h, rfl⟩
  · rintro ⟨e, h, rfl⟩
    exact .field h

namespace Pattern

/-- What the runs of a class leave of a text, the longest run first, each with its length counted from `n`; `shorter` is what
the runs before this place leave. -/
def runRests (p : Char → Bool) : Text → (n : Nat) → (shorter : List Derivation) → List Derivation
  | [], n, shorter => .plain n [] :: shorter
  | c :: s, n, shorter =>
    if p c then runRests p s (n + 1) (.plain n (c :: s) :: shorter) else .plain n (c :: s) :: shorter

/-- The readings of repetitions of a step, the longer ones first, at most as many as `bound` has characters. -/
def repeated (step : Text → List Derivation) : (bound : Text) → Text → List Derivation
  | [], s => [.plain 0 s]
  | _ :: bound, s =>
    ((step s).flatMap fun d => if 0 < d.length then (repeated step bound d.rest).map d.andThen else []) ++ [.plain 0 s]

/-- Every reading of the beginning of a text, the preferred ones first. -/
def results : Pattern → Text → List Derivation
  | .text t, s => (Text.after? t s).toList.map (.plain t.length)
  | .char _, [] => []
  | .char p, c :: s => if p c then [.plain 1 s] else []
  | .run p, s => runRests p s 0 []
  | .seq a b, s => (a.results s).flatMap fun d => (b.results d.rest).map d.andThen
  | .either a b, s => a.results s ++ b.results s
  | .optional a, s => a.results s ++ [.plain 0 s]
  | .many a, s => repeated a.results s s
  | .field f a, s => (a.results s).map (·.record f s)

/-- The first answer of a test to the runs of a class, the longest run first, each with its length counted from `n`. -/
def searchRun {α : Type} (p : Char → Bool) (test : Derivation → Option α) : Text → (n : Nat) → Option α
  | [], n => test (.plain n [])
  | c :: s, n =>
    if p c then
      match searchRun p test s (n + 1) with
      | some a => some a
      | none => test (.plain n (c :: s))
    else test (.plain n (c :: s))

/-- The first answer of a test to what was read so far followed by repetitions of a step, at most as many as `bound` has
characters. -/
def searchRepeated {α : Type} (step : Text → (Derivation → Option α) → Option α) (test : Derivation → Option α) :
    (bound : Text) → (read : Derivation) → Option α
  | [], read => test read
  | _ :: bound, read =>
    match step read.rest fun d => if 0 < d.length then searchRepeated step test bound (read.andThen d) else none with
    | some a => some a
    | none => test read

/-- The first answer of a test to the readings of a text in order of preference, found without listing those after it. -/
def search {α : Type} : Pattern → Text → (Derivation → Option α) → Option α
  | .text t, s, test =>
    match Text.after? t s with
    | some r => test (.plain t.length r)
    | none => none
  | .char _, [], _ => none
  | .char p, c :: s, test => if p c then test (.plain 1 s) else none
  | .run p, s, test => searchRun p test s 0
  | .seq a b, s, test => a.search s fun d => b.search d.rest fun e => test (d.andThen e)
  | .either a b, s, test =>
    match a.search s test with
    | some x => some x
    | none => b.search s test
  | .optional a, s, test =>
    match a.search s test with
    | some x => some x
    | none => test (.plain 0 s)
  | .many a, s, test => searchRepeated a.search test s (.plain 0 s)
  | .field f a, s, test => a.search s fun d => test (d.record f s)

/-- The preferred reading of the beginning of a text. -/
def first? (p : Pattern) (s : Text) : Option Derivation := p.search s some

/-- A nonempty run of a class, the longer the better. -/
def nonemptyRun (p : Char → Bool) : Pattern := .char p ++ .run p

/-! ## The list and the grammar -/

/-- The readings of a run are those that were collected, and one for each number of characters of its class. -/
theorem mem_runRests {p : Char → Bool} {s : Text} {n : Nat} {shorter : List Derivation} {d : Derivation} :
    d ∈ runRests p s n shorter ↔
      d ∈ shorter ∨ ∃ u r, s = u ++ r ∧ (∀ c ∈ u, p c = true) ∧ d = .plain (n + u.length) r := by
  induction s generalizing n shorter with
  | nil =>
    simp only [runRests, List.mem_cons]
    constructor
    · rintro (rfl | h)
      · exact .inr ⟨[], [], by simp⟩
      · exact .inl h
    · rintro (h | ⟨u, r, h, -, rfl⟩)
      · exact .inr h
      · obtain ⟨rfl, rfl⟩ := List.append_eq_nil_iff.1 h.symm
        exact .inl rfl
  | cons c s ih =>
    have split : (∃ u r, c :: s = u ++ r ∧ (∀ x ∈ u, p x = true) ∧ d = .plain (n + u.length) r) ↔
        d = .plain n (c :: s) ∨
          p c = true ∧ ∃ u r, s = u ++ r ∧ (∀ x ∈ u, p x = true) ∧ d = .plain (n + 1 + u.length) r := by
      constructor
      · rintro ⟨u, r, h, hu, rfl⟩
        cases u with
        | nil => exact .inl (by rw [h]; rfl)
        | cons x u =>
          simp only [List.cons_append, List.cons.injEq] at h
          obtain ⟨rfl, rfl⟩ := h
          exact .inr ⟨hu c (by simp), u, r, rfl, fun x hx => hu x (by simp [hx]), by simp [Nat.add_comm, Nat.add_left_comm]⟩
      · rintro (rfl | ⟨hc, u, r, rfl, hu, rfl⟩)
        · exact ⟨[], c :: s, by simp⟩
        · exact ⟨c :: u, r, rfl, fun x hx => (List.mem_cons.1 hx).elim (fun h => h ▸ hc) (hu x),
            by simp [Nat.add_comm, Nat.add_left_comm]⟩
    rw [runRests, split]
    split
    · next hc => rw [ih, List.mem_cons]; simp only [hc, true_and]; constructor <;> grind
    · next hc => rw [List.mem_cons]; simp only [hc]; constructor <;> grind

/-- The readings of a repetition are its derivations, for every bound that the text does not exceed. -/
theorem mem_repeated {a : Pattern} (ih : ∀ {s d}, d ∈ a.results s ↔ Derives a s d) {bound s : Text} {d : Derivation}
    (hn : s.length ≤ bound.length) : d ∈ repeated a.results bound s ↔ Derives (.many a) s d := by
  induction bound generalizing s d with
  | nil =>
    simp only [repeated, List.mem_singleton]
    constructor
    · rintro rfl
      exact .stop
    · intro h
      cases h with
      | stop => rfl
      | more he hlt _ =>
        obtain ⟨u, rfl, hu⟩ := he.eq_append
        simp only [List.length_append, List.length_nil] at hn
        omega
  | cons _ bound ihn =>
    rw [List.length_cons] at hn
    have shorter : ∀ {e : Derivation}, Derives a s e → 0 < e.length → e.rest.length ≤ bound.length := by
      intro e he hlt
      obtain ⟨u, hs, hu⟩ := he.eq_append
      rw [hs, List.length_append] at hn
      omega
    simp only [repeated, List.mem_append, List.mem_flatMap, List.mem_singleton]
    constructor
    · rintro (⟨e, he, h⟩ | rfl)
      · split at h
        · next hlt =>
          obtain ⟨e', he', rfl⟩ := List.mem_map.1 h
          exact .more (ih.1 he) hlt ((ihn (shorter (ih.1 he) hlt)).1 he')
        · simp at h
      · exact .stop
    · intro h
      cases h with
      | stop => exact .inr rfl
      | @more _ _ e e' he hlt hr =>
        exact .inl ⟨e, ih.2 he, by rw [if_pos hlt]; exact List.mem_map.2 ⟨e', (ihn (shorter he hlt)).2 hr, rfl⟩⟩

/-- The list holds exactly the readings of the grammar. -/
theorem mem_results_iff {p : Pattern} {s : Text} {d : Derivation} : d ∈ p.results s ↔ Derives p s d := by
  induction p generalizing s d with
  | text t =>
    simp only [results, List.mem_map, Option.mem_toList]
    constructor
    · rintro ⟨r, hr, rfl⟩
      rw [Text.after?_eq_some_iff.1 hr]
      exact .text
    · intro h
      cases h with
      | text => exact ⟨_, Text.after?_append _ _, rfl⟩
  | char p =>
    constructor
    · cases s with
      | nil => simp [results]
      | cons c s =>
        rw [results]
        split
        · next h =>
          intro hd
          rw [List.mem_singleton.1 hd]
          exact .char h
        · simp
    · intro h
      cases h with
      | char h => simp [results, h]
  | run p =>
    simp only [results, mem_runRests, List.not_mem_nil, false_or]
    constructor
    · rintro ⟨u, r, rfl, hu, rfl⟩
      rw [Nat.zero_add]
      exact .run hu
    · intro h
      cases h with
      | run hu => exact ⟨_, _, rfl, hu, by rw [Nat.zero_add]⟩
  | seq a b iha ihb =>
    simp only [results, List.mem_flatMap, List.mem_map, iha, ihb]
    constructor
    · rintro ⟨d, hd, e, he, rfl⟩
      exact .seq hd he
    · intro h
      cases h with
      | seq hd he => exact ⟨_, hd, _, he, rfl⟩
  | either a b iha ihb =>
    simp only [results, List.mem_append, iha, ihb]
    constructor
    · rintro (h | h)
      · exact .left h
      · exact .right h
    · intro h
      cases h with
      | left h => exact .inl h
      | right h => exact .inr h
  | optional a iha =>
    simp only [results, List.mem_append, iha, List.mem_singleton]
    constructor
    · rintro (h | rfl)
      · exact .present h
      · exact .absent
    · intro h
      cases h with
      | present h => exact .inl h
      | absent => exact .inr rfl
  | many a iha => exact mem_repeated iha (Nat.le_refl _)
  | field f a iha =>
    simp only [results, List.mem_map, iha]
    constructor
    · rintro ⟨d, hd, rfl⟩
      exact .field hd
    · intro h
      cases h with
      | field hd => exact ⟨_, hd, rfl⟩

/-! ## The list and the search -/

/-- A search through lists one after another is a search through their first hits. -/
theorem findSome?_flatMap {α β γ : Type} (f : α → List β) (g : β → Option γ) (l : List α) :
    (l.flatMap f).findSome? g = l.findSome? fun a => (f a).findSome? g := by
  induction l with
  | nil => rfl
  | cons a l ih => cases h : (f a).findSome? g <;> simp [List.findSome?_append, h, ih]

/-- A search through the readings of a run needs no list of them. -/
theorem searchRun_eq {α : Type} (p : Char → Bool) (test : Derivation → Option α) (s : Text) (n : Nat)
    (shorter : List Derivation) :
    (runRests p s n shorter).findSome? test = (searchRun p test s n).or (shorter.findSome? test) := by
  induction s generalizing n shorter with
  | nil => cases h : test (.plain n []) <;> simp [runRests, searchRun, h]
  | cons c s ih =>
    rw [runRests, searchRun]
    split
    · rw [ih]
      cases searchRun p test s (n + 1) <;> cases h : test (.plain n (c :: s)) <;> simp [h]
    · cases h : test (.plain n (c :: s)) <;> simp [h]

/-- Nor does a search through those of a repetition. -/
theorem searchRepeated_eq {α : Type} {a : Pattern}
    (ih : ∀ (s : Text) (test : Derivation → Option α), a.search s test = (a.results s).findSome? test)
    (test : Derivation → Option α) (bound : Text) (read : Derivation) :
    searchRepeated a.search test bound read =
      (repeated a.results bound read.rest).findSome? fun e => test (read.andThen e) := by
  induction bound generalizing read with
  | nil => cases h : test read <;> simp [searchRepeated, repeated, h]
  | cons _ bound ihb =>
    have step : ∀ d : Derivation,
        (if 0 < d.length then searchRepeated a.search test bound (read.andThen d) else none) =
          (if 0 < d.length then (repeated a.results bound d.rest).map d.andThen else []).findSome?
            fun e => test (read.andThen e) := by
      intro d
      split
      · rw [ihb, List.findSome?_map]
        simp only [Function.comp_def, Derivation.andThen_assoc]
        rfl
      · rfl
    simp only [searchRepeated, repeated, ih, List.findSome?_append, findSome?_flatMap, step]
    cases (a.results read.rest).findSome? _ <;> cases h : test read <;> simp [h]

/-- The search gives the first answer to the list of readings. -/
theorem search_eq {α : Type} (p : Pattern) (s : Text) (test : Derivation → Option α) :
    p.search s test = (p.results s).findSome? test := by
  induction p generalizing s test with
  | text t => cases h : Text.after? t s <;> simp [search, results, h]
  | char p =>
    cases s with
    | nil => rfl
    | cons c s => by_cases h : p c <;> simp [search, results, h]
  | run p => rw [search, results, searchRun_eq]; simp
  | seq a b iha ihb =>
    simp only [search, results, iha, ihb, findSome?_flatMap, List.findSome?_map]
    rfl
  | either a b iha ihb =>
    rw [search, results, List.findSome?_append, iha, ihb]
    cases (a.results s).findSome? test <;> rfl
  | optional a iha =>
    rw [search, results, List.findSome?_append, iha]
    cases (a.results s).findSome? test <;> cases h : test (.plain 0 s) <;> simp [h]
  | many a iha =>
    rw [search, results, searchRepeated_eq iha]
    simp only [Derivation.plain_andThen]
    rfl
  | field f a iha =>
    rw [search, results, iha, List.findSome?_map]
    rfl

/-- The preferred reading is the first of the list. -/
theorem first?_eq_head? (p : Pattern) (s : Text) : p.first? s = (p.results s).head? := by
  rw [first?, search_eq]
  cases p.results s <;> rfl

/-- There is no preferred reading exactly when there is none at all. -/
theorem first?_eq_none_iff {p : Pattern} {s : Text} : p.first? s = none ↔ ∀ d, ¬ Derives p s d := by
  simp only [first?_eq_head?, List.head?_eq_none_iff, List.eq_nil_iff_forall_not_mem, mem_results_iff]

/-- The preferred reading is a reading. -/
theorem derives_of_first? {p : Pattern} {s : Text} {d : Derivation} (h : p.first? s = some d) : Derives p s d :=
  mem_results_iff.1 (List.mem_of_head? (first?_eq_head? p s ▸ h))

end Pattern

end SourceInventory
