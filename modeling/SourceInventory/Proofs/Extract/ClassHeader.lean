import SourceInventory.Proofs.Extract.ExportedClass
import SourceInventory.Proofs.Extract.Hit
import SourceInventory.Proofs.Extract.Symbols

/-!
# Class headers with a dotted base

The base of a class may be a path of words with dots between them. Of such a path the first word is taken as the base, since a base
is one run of word characters; so a class is read as it was written exactly if its base has no dot. A default class without a name
has the word for its base where the name would be, and this word is taken as its name (`exports_derivedClass_iff`).
-/

namespace SourceInventory.Braced

open Pattern

/-- A path of words with dots between them. -/
structure DottedName where
  /-- The first word. -/
  first : Word
  /-- The words after it. -/
  more : List Word := []

/-- The words after the first one as they are written, each after a dot. -/
def DottedName.rest (n : DottedName) : Text := n.more.flatMap fun w => '.' :: w.text

/-- A path as it is written. -/
def DottedName.text (n : DottedName) : Text := n.first.text ++ n.rest

/-- What stands behind the first word of the base of a class. -/
def DottedName.behind (base : DottedName) (body : Text) : Text := base.rest ++ (" \x7b".toList ++ (body ++ "\x7d".toList))

/-- The words of a class before its name. -/
def classWords (isDefault : Bool) : Text := if isDefault then "export default class ".toList else "export class ".toList

/-- A class with a name, a base and a body. -/
def derivedClass (isDefault : Bool) (name : Word) (base : DottedName) (body : Text) : Text :=
  classWords isDefault ++ (name.text ++ (" extends ".toList ++ (base.first.text ++ base.behind body)))

/-- A default class without a name. -/
def unnamedClass (base : DottedName) (body : Text) : Text :=
  "export default class extends ".toList ++ (base.first.text ++ base.behind body)

/-! ## Reading a header -/

theorem reads_classWords (isDefault : Bool) : Reads classHead (classWords isDefault) [] := by
  cases isDefault with
  | false => exact ((reads_keyword "export" .space).append (reads_absent (keyword "default"))).append (reads_keyword "class" .space)
  | true => exact ((reads_keyword "export" .space).append (reads_keyword "default" .space).present).append (reads_keyword "class" .space)

/-- Behind the first word of a base comes a dot or a space. -/
theorem DottedName.behind_cases (base : DottedName) (body : Text) :
    (∃ t, base.behind body = '.' :: t) ∨ base.more = [] ∧ base.behind body = ' ' :: '\x7b' :: (body ++ ['\x7d']) := by
  rw [behind, rest]
  cases base.more with
  | nil => exact Or.inr ⟨rfl, rfl⟩
  | cons w ws => exact Or.inl ⟨_, rfl⟩

theorem DottedName.outsideWords_behind (base : DottedName) (body : Text) : ∀ c ∈ (base.behind body).head?, isWord c = false := by
  intro c hc
  rcases base.behind_cases body with ⟨t, ht⟩ | ⟨-, ht⟩
  · rw [ht] at hc
    exact Option.some.inj hc ▸ by decide
  · rw [ht] at hc
    exact Option.some.inj hc ▸ by decide

/-- The base of a class is its first word. -/
theorem first?_extendsClause_dotted (base : DottedName) (body : Text) :
    ∃ d, extendsClause.first? (" extends ".toList ++ (base.first.text ++ base.behind body)) = some d ∧
      d.get? .base = some base.first.text := by
  obtain ⟨d, hd, -, hbase⟩ := first?_extendsClause_eq_some { base := base.first } (base.outsideWords_behind body)
  refine ⟨d, ?_, hbase⟩
  rw [← hd, BaseClause.text, List.append_assoc]
  rfl

/-- What is read as a clause with a base is one. -/
theorem takes_extendsClause : Takes extendsClause fun t _ => ∃ c : BaseClause, t = c.text := by
  refine ((takes_blanks.append (takes_keyword "extends")).append (takes_word.field .base)).mono ?_
  rintro _ _ ⟨⟨⟨⟨before, rfl⟩, rfl⟩, ⟨⟨after, rfl⟩, rfl⟩⟩, _, ⟨⟨w, rfl⟩, rfl⟩, rfl⟩
  exact ⟨⟨before, after, w⟩, rfl⟩

/-- Where a base stands no clause with a base begins, not even if its first word is the word for it. -/
theorem first?_extendsClause_dotted_eq_none (base : DottedName) (body : Text) :
    extendsClause.first? (' ' :: (base.first.text ++ base.behind body)) = none := by
  refine first?_eq_none_iff.2 fun d hd => ?_
  obtain ⟨_, hs, ⟨before, after, w⟩, rfl⟩ := takes_extendsClause hd
  simp only [BaseClause.text, List.append_assoc] at hs
  -- the first word is the word for the base, and behind it would come blanks and a word
  obtain ⟨-, hword⟩ := run_split_unique (k := isBlank) (u := [' ']) hs Blanks.space.isBlank_text before.isBlank_text
    (base.first.solid_head _) fun c hc => Option.some.inj hc ▸ rfl
  have hbehind : ∀ c ∈ (after.text ++ (w.text ++ d.rest)).head?, isWord c = false :=
    Method.outsideWords_head after.isBlank_text fun h => absurd h after.text_ne_nil
  have hextends : ∀ c ∈ "extends".toList, isWord c = true := List.all_eq_true.1 (by decide)
  obtain ⟨-, hafter⟩ := run_split_unique hword base.first.isWord_text hextends (base.outsideWords_behind body) hbehind
  rcases base.behind_cases body with ⟨t, ht⟩ | ⟨-, ht⟩
  · rw [ht] at hafter
    obtain ⟨b, r, hb⟩ := List.exists_cons_of_ne_nil after.text_ne_nil
    rw [hb] at hafter
    have hblank := after.isBlank_text b (hb ▸ List.mem_cons_self)
    rw [← (List.cons.inj hafter).1] at hblank
    exact absurd hblank (by decide)
  · rw [ht] at hafter
    obtain ⟨-, hbrace⟩ := run_split_unique (k := isBlank) (u := [' ']) hafter Blanks.space.isBlank_text after.isBlank_text
      (fun c hc => Option.some.inj hc ▸ rfl) (w.solid_head _)
    obtain ⟨x, r, hx⟩ := List.exists_cons_of_ne_nil w.text_ne_nil
    rw [hx] at hbrace
    have hletter := w.isWord_text x (hx ▸ List.mem_cons_self)
    rw [← (List.cons.inj hbrace).1] at hletter
    exact absurd hletter (by decide)

/-! ## The first class of a source -/

/-- A class at the start of a source is the first that the pass over the classes finds. -/
theorem head?_classPass {s : Text} {d : Derivation} (h : classDeclaration.first? s = some d) :
    (classPass s).head? = some (classSymbol ⟨d, s⟩) := by
  obtain ⟨u, hu, hlen⟩ := (derives_of_first? h).eq_append
  have hpos : 0 < d.length := Nat.lt_of_lt_of_le (by decide) (least_le (derives_of_first? h))
  have hne : u ≠ [] := List.length_pos_iff.1 (hlen ▸ hpos)
  rw [classPass, hu, occurrences_eq_cons (hu ▸ h) rfl hne]
  rfl

/-- What stands behind the name of a class with a base begins with no word character. -/
theorem outsideWords_extends (base : DottedName) (body : Text) :
    ∀ c ∈ (" extends ".toList ++ (base.first.text ++ base.behind body)).head?, isWord c = false :=
  fun _ hc => Option.some.inj hc ▸ by decide

/-- A class with a name is found with this name and with the first word of its base. -/
theorem head?_classPass_derivedClass (isDefault : Bool) (name : Word) (base : DottedName) (body : Text) :
    (classPass (derivedClass isDefault name base body)).head? =
      some
        { kind := .classType
          name := name.text
          signature := "class ".toList ++ name.text ++ " extends ".toList ++ base.first.text
          base := some base.first.text
          methods := Method.ofDeclaration (derivedClass isDefault name base body) } := by
  obtain ⟨d, hd, hname, -, hbase⟩ := first?_written (reads_classWords isDefault) name (outsideWords_extends base body)
  obtain ⟨e, he, hfirst⟩ := first?_extendsClause_dotted base body
  have hget? : d.get? .base = some base.first.text := by rw [hbase, he, Option.getD_some, hfirst]
  have hget : d.get .name = name.text := by rw [Derivation.get, hname, Option.getD_some]
  rw [derivedClass, head?_classPass hd]
  simp only [classSymbol, hget, hget?]

/-- A class without a name is found with the word for its base as its name, and with no base. -/
theorem head?_classPass_unnamedClass (base : DottedName) (body : Text) :
    (classPass (unnamedClass base body)).head? =
      some
        { kind := .classType
          name := "extends".toList
          signature := "class extends".toList
          methods := Method.ofDeclaration (unnamedClass base body) } := by
  obtain ⟨d, hd, hname, -, hbase⟩ := first?_written (r := ' ' :: (base.first.text ++ base.behind body)) (reads_classWords true)
    { text := "extends".toList } fun _ hc => Option.some.inj hc ▸ by decide
  have hget? : d.get? .base = none := by
    rw [hbase, first?_extendsClause_dotted_eq_none]
    rfl
  have hget : d.get .name = "extends".toList := by rw [Derivation.get, hname, Option.getD_some]
  have hsource : unnamedClass base body =
      classWords true ++ ("extends".toList ++ ' ' :: (base.first.text ++ base.behind body)) := rfl
  rw [hsource, head?_classPass hd]
  simp only [classSymbol, hget, hget?]
  rfl

/-- The base of a class that is found is a word. -/
theorem isWord_base_of_mem_exports {source b : Text} {s : Symbol} (h : s ∈ Braced.exports source) (hb : s.base = some b) :
    ∀ c ∈ b, isWord c = true := by
  have hfunction : ∀ {p : Pattern} {f : Occurrence → Symbol} {source : Text}, (∀ o, (f o).base = none) →
      s ∉ (p.occurrences .anywhere source).map f := by
    intro p f source hf hmem
    obtain ⟨o, -, rfl⟩ := List.mem_map.1 hmem
    exact Option.some_ne_none b (hb.symm.trans (hf o))
  simp only [Braced.exports, List.mem_append] at h
  rcases h with ((h | h) | h) | h
  · exact absurd h (hfunction fun _ => rfl)
  · exact absurd h (hfunction fun _ => rfl)
  · obtain ⟨o, ho, rfl⟩ := List.mem_map.1 h
    exact fieldReads_base.get? (derives_of_first? (first?_of_mem_scanFrom ho)) hb
  · exact absurd h (hfunction fun _ => rfl)

theorem DottedName.text_of_more_eq_nil {base : DottedName} (h : base.more = []) : base.text = base.first.text := by
  rw [text, rest, h, List.flatMap_nil, List.append_nil]

theorem DottedName.dot_mem_text {base : DottedName} (h : base.more ≠ []) : '.' ∈ base.text := by
  obtain ⟨w, ws, hmore⟩ := List.exists_cons_of_ne_nil h
  rw [text, rest, hmore, List.flatMap_cons]
  simp

theorem mem_exports_of_head?_classPass {source : Text} {s : Symbol} (h : (classPass source).head? = some s) :
    s ∈ Braced.exports source := by
  simp only [Braced.exports, List.mem_append]
  exact Or.inl (Or.inr (List.mem_of_mem_head? h))

/-- Of a class with a name and a base, exported as the default or under its name, the first class that is found has its name and
the first word of its base; so a class with its name and its base is exported exactly if the base has no dot. Of a default class
without a name the first class that is found, and so one that is exported, has the word for its base as its name. -/
theorem exports_derivedClass_iff (base : DottedName) (body : Text) :
    (∀ isDefault name,
      (classPass (derivedClass isDefault name base body)).head? =
        some
          { kind := .classType
            name := name.text
            signature := "class ".toList ++ name.text ++ " extends ".toList ++ base.first.text
            base := some base.first.text
            methods := Method.ofDeclaration (derivedClass isDefault name base body) } ∧
      ((∃ s ∈ Braced.exports (derivedClass isDefault name base body),
          s.kind = .classType ∧ s.name = name.text ∧ s.base = some base.text) ↔ base.more = [])) ∧
    (classPass (unnamedClass base body)).head? =
      some
        { kind := .classType
          name := "extends".toList
          signature := "class extends".toList
          methods := Method.ofDeclaration (unnamedClass base body) } ∧
    ∃ s ∈ Braced.exports (unnamedClass base body), s.kind = .classType ∧ s.name = "extends".toList := by
  have hunnamed := head?_classPass_unnamedClass base body
  refine ⟨fun isDefault name => ?_, hunnamed, _, mem_exports_of_head?_classPass hunnamed, rfl, rfl⟩
  have hfound := head?_classPass_derivedClass isDefault name base body
  refine ⟨hfound, ?_, fun h => ?_⟩
  · rintro ⟨s, hs, -, -, hbase⟩
    by_contra hmore
    exact absurd (isWord_base_of_mem_exports hs hbase '.' (DottedName.dot_mem_text hmore)) (by decide)
  · exact ⟨_, mem_exports_of_head?_classPass hfound, rfl, rfl, congrArg some (DottedName.text_of_more_eq_nil h).symm⟩

/-- A class that is derived from `React.Component` is found, but derived from `React`, and a default class without a name that is
derived from the same is found under the name `extends`. -/
theorem exports_derivedClass_false :
    (¬∀ (name : Word) (base : DottedName) (body : Text),
      ∃ s ∈ Braced.exports (derivedClass false name base body),
        s.kind = .classType ∧ s.name = name.text ∧ s.base = some base.text) ∧
    (¬∀ (base : DottedName) (body : Text),
      ∀ s ∈ Braced.exports (unnamedClass base body), s.kind = .classType → s.name ≠ "extends".toList) ∧
    Braced.exports "export class A extends React.Component {}".toList =
      [{ kind := .classType
         name := ['A']
         signature := "class A extends React".toList
         base := some "React".toList }] := by
  refine ⟨fun h => ?_, fun h => ?_, by decide +kernel⟩
  · obtain ⟨s, hs, -, -, hbase⟩ := h { text := ['A'] } ⟨{ text := "React".toList }, [{ text := "Component".toList }]⟩ []
    exact absurd (isWord_base_of_mem_exports hs hbase '.' (by decide)) (by decide)
  · have hfound := head?_classPass_unnamedClass ⟨{ text := "React".toList }, [{ text := "Component".toList }]⟩ []
    exact h _ _ _ (mem_exports_of_head?_classPass hfound) rfl rfl

end SourceInventory.Braced
