import Mathlib.Data.List.Infix
import Mathlib.Data.List.Nodup
import Mathlib.Data.List.Perm.Subperm
import SourceInventory.Proofs.Extract.Separation
import SourceInventory.Proofs.Pattern.Continuation

/-!
# Distinct starts: no declaration is found twice

What a declaration begins with, without the blanks between the words, tells the pass that finds it: the words of one pass begin
with the words of no other (`ExportPass.eq_of_derives`). The occurrences of one pass begin at different places, since each of them
leaves less of the source than the one before it. So no two symbols of a braced source come from declarations that begin at one
place, and each begins with the word for exports (`Braced.declarations_distinct`).
-/

namespace SourceInventory

open Pattern

/-! ## Words without the blanks between them -/

/-- A text without its blanks. -/
def Text.solids (s : Text) : Text := s.filter fun c => !isBlank c

theorem Text.solids_append (s t : Text) : (s ++ t).solids = s.solids ++ t.solids := List.filter_append _ _

/-- Of blanks nothing is left without the blanks. -/
theorem Text.solids_of_isBlank {b : Text} (h : ∀ c ∈ b, isBlank c = true) : b.solids = [] := by
  refine List.filter_eq_nil_iff.2 fun c hc => ?_
  rw [h c hc]
  decide

namespace Pattern

/-- Every reading of the pattern takes one of some texts, up to the blanks in it. -/
def Spells (p : Pattern) (ws : List Text) : Prop :=
  ∀ ⦃s : Text⦄ ⦃d : Derivation⦄, Derives p s d → ∃ w ∈ ws, s.solids = w ++ d.rest.solids

variable {a b : Pattern} {ws ws' : List Text}

/-- A fixed text spells itself without its blanks. -/
theorem spells_lit (w : String) : Spells (lit w) [Text.solids w.toList] := by
  intro s d hd
  obtain ⟨r, rfl, rfl⟩ := derives_text_iff.1 hd
  exact ⟨_, List.mem_singleton_self _, Text.solids_append _ _⟩

/-- Blanks spell nothing. -/
theorem spells_blanks : Spells blanks [[]] := by
  intro s d hd
  have hreads : blanks.OnlyReads (isBlank · = true) := ⟨fun _ hc => hc, fun _ hc => hc⟩
  obtain ⟨b, rfl, -, hb⟩ := hreads.eq_append hd
  exact ⟨[], List.mem_singleton_self _, by rw [Text.solids_append, Text.solids_of_isBlank hb]⟩

/-- What is spelled one after the other. -/
theorem Spells.append (ha : Spells a ws) (hb : Spells b ws') :
    Spells (a ++ b) (ws.flatMap fun w => ws'.map (w ++ ·)) := by
  intro s d hd
  obtain ⟨x, y, hx, hy, rfl⟩ := derives_append_iff.1 hd
  obtain ⟨w, hw, hs⟩ := ha hx
  obtain ⟨w', hw', hrest⟩ := hb hy
  refine ⟨w ++ w', List.mem_flatMap.2 ⟨w, hw, List.mem_map_of_mem hw'⟩, ?_⟩
  rw [hs, hrest, List.append_assoc]
  rfl

/-- What may be left out spells nothing or what it spells. -/
theorem Spells.optional (ha : Spells a ws) : Spells (.optional a) (ws ++ [[]]) := by
  intro s d hd
  rcases derives_optional_iff.1 hd with hd | rfl
  · obtain ⟨w, hw, hs⟩ := ha hd
    exact ⟨w, List.mem_append_left _ hw, hs⟩
  · exact ⟨[], List.mem_append_right _ List.mem_cons_self, rfl⟩

theorem Spells.field (f : Field) (ha : Spells a ws) : Spells (.field f a) ws := by
  intro s d hd
  obtain ⟨e, he, rfl⟩ := derives_field_iff.1 hd
  obtain ⟨w, hw, hs⟩ := ha he
  exact ⟨w, hw, hs⟩

/-- A keyword spells its word. -/
theorem spells_keyword (w : String) : Spells (keyword w) [Text.solids w.toList] := by
  intro s d hd
  obtain ⟨v, hv, hs⟩ := (spells_lit w).append spells_blanks hd
  rw [List.flatMap_cons, List.flatMap_nil, List.map_singleton, List.append_nil, List.append_nil] at hv
  exact ⟨v, hv, hs⟩

/-- Every reading of the pattern begins with one of some texts, up to the blanks in it. -/
def SpellsFirst (p : Pattern) (ws : List Text) : Prop :=
  ∀ ⦃s : Text⦄ ⦃d : Derivation⦄, Derives p s d → ∃ w ∈ ws, w <+: s.solids

theorem Spells.first (ha : Spells a ws) : SpellsFirst a ws := by
  intro s d hd
  obtain ⟨w, hw, hs⟩ := ha hd
  exact ⟨w, hw, hs ▸ List.prefix_append _ _⟩

/-- A sequence spells first what its first part does. -/
theorem SpellsFirst.append (ha : SpellsFirst a ws) : SpellsFirst (a ++ b) ws := by
  intro s d hd
  obtain ⟨x, _, hx, -, -⟩ := derives_append_iff.1 hd
  exact ha hx

end Pattern

namespace ExportPass

/-- The words that the declarations of a pass begin with, without the blanks between them. -/
def openings : ExportPass → List Text
  | .namedFunction => ["exportasyncfunction".toList, "exportfunction".toList]
  | .arrowFunction => ["exportconst".toList]
  | .classDeclaration => ["exportdefaultclass".toList, "exportclass".toList]
  | .defaultFunction => ["exportdefaultasyncfunction".toList, "exportdefaultfunction".toList]
  | .functionDefinition => ["asyncdef".toList, "def".toList]
  | .classDefinition => ["class".toList]

/-- Every pass spells one of its openings first. -/
theorem spellsFirst_openings (pass : ExportPass) : SpellsFirst pass.pattern pass.openings := by
  have hasync : Spells (.optional (.field .modifier (keyword "async"))) ["async".toList, []] :=
    ((spells_keyword "async").field .modifier).optional
  cases pass with
  | namedFunction =>
    exact (((spells_keyword "export").append hasync).append (spells_keyword "function")).first.append.append.append
  | arrowFunction =>
    exact ((spells_keyword "export").append (spells_keyword "const")).first.append.append.append.append.append.append.append.append
  | classDeclaration =>
    exact (((spells_keyword "export").append (spells_keyword "default").optional).append (spells_keyword "class")).first.append.append
  | defaultFunction =>
    exact ((((spells_keyword "export").append (spells_keyword "default")).append hasync).append
      (spells_lit "function")).first.append.append.append.append
  | functionDefinition => exact (hasync.append (spells_keyword "def")).first.append.append.append
  | classDefinition => exact (spells_keyword "class").first.append.append.append

/-- The words of one pass begin with the words of no other. -/
theorem eq_of_prefix_openings {pass pass' : ExportPass} {w w' : Text} (hw : w ∈ pass.openings) (hw' : w' ∈ pass'.openings)
    (h : w <+: w') : pass = pass' := by
  have table : ∀ w ∈ pass.openings, ∀ w' ∈ pass'.openings, w <+: w' → pass = pass' := by
    cases pass <;> cases pass' <;> decide
  exact table w hw w' hw' h

/-- No text is read by two passes. -/
theorem eq_of_derives {pass pass' : ExportPass} {s : Text} {d e : Derivation} (hd : Derives pass.pattern s d)
    (he : Derives pass'.pattern s e) : pass = pass' := by
  obtain ⟨w, hw, hprefix⟩ := pass.spellsFirst_openings hd
  obtain ⟨w', hw', hprefix'⟩ := pass'.spellsFirst_openings he
  rcases List.prefix_or_prefix_of_prefix hprefix hprefix' with h | h
  · exact eq_of_prefix_openings hw hw' h
  · exact (eq_of_prefix_openings hw' hw h).symm

end ExportPass

/-! ## Starts -/

/-- Each occurrence leaves less of the text where it begins than the one before it. -/
theorem Pattern.pairwise_length_start (p : Pattern) (anchor : Anchor) (before : Option Char) (skip : Nat) (s : Text) :
    (p.scanFrom anchor before skip s).Pairwise fun o o' => o'.start.length < o.start.length := by
  induction s generalizing before skip with
  | nil => cases skip <;> exact .nil
  | cons c s ih =>
    cases skip with
    | succ skip => exact ih (some c) skip
    | zero =>
      rw [scanFrom]
      split
      · refine .cons (fun o ho => ?_) (ih _ _)
        exact Nat.lt_succ_of_le (start_suffix_of_mem_scanFrom ho).length_le
      · exact ih _ _

/-- The places of a text where a word begins, each by what is left of the text there. -/
def Text.placesOf (w s : Text) : List Text := s.tails.filter fun t => w.isPrefixOf t

/-- The places of a word are the ends of the text that begin with it. -/
theorem Text.mem_placesOf {w s t : Text} : t ∈ placesOf w s ↔ t <:+ s ∧ w <+: t := by
  rw [placesOf, List.mem_filter, List.mem_tails, List.isPrefixOf_iff_prefix]

namespace Braced

/-- The declarations that a pass over a braced source finds, each with what is left of the source where it begins and with its
symbol. -/
def declarationsOf (source : Text) (pass : ExportPass) : List (Text × Symbol) :=
  (pass.occurrences source).filterMap fun o => (pass.symbol? o).map fun s => (o.start, s)

/-- The declarations of a braced source, pass by pass. -/
def declarations (source : Text) : List (Text × Symbol) := (ExportPass.ofLanguage .javascript).flatMap (declarationsOf source)

variable {source : Text} {pass pass' : ExportPass} {x y : Text × Symbol}

/-- A declaration stands in the source, and its pass reads it there. -/
theorem exists_occurrence_of_mem (h : x ∈ declarationsOf source pass) :
    x.1 <:+ source ∧ ∃ d, Derives pass.pattern x.1 d := by
  obtain ⟨o, ho, hx⟩ := List.mem_filterMap.1 h
  obtain ⟨s, -, rfl⟩ := Option.map_eq_some_iff.1 hx
  exact ⟨start_suffix_of_mem_scanFrom ho, o.toDerivation, derives_of_first? (first?_of_mem_scanFrom ho)⟩

/-- The symbols of the declarations of a pass are the symbols of the pass. -/
theorem map_snd_declarationsOf (source : Text) (pass : ExportPass) :
    (declarationsOf source pass).map Prod.snd = pass.symbols source := by
  rw [declarationsOf, pass.symbols_eq_filterMap, List.map_filterMap]
  refine List.filterMap_congr fun o _ => ?_
  cases pass.symbol? o <;> rfl

/-- The symbols of the declarations are what is exported. -/
theorem map_snd_declarations (source : Text) : (declarations source).map Prod.snd = exports source := by
  rw [declarations, List.map_flatMap]
  simp only [map_snd_declarationsOf]
  exact (ExportPass.exports_eq_flatMap .javascript source).symm

/-- No two declarations that one pass finds begin at one place. -/
theorem nodup_declarationsOf (source : Text) (pass : ExportPass) : ((declarationsOf source pass).map Prod.fst).Nodup := by
  refine List.pairwise_map.2 (List.pairwise_filterMap.2 ((pairwise_length_start _ _ _ _ source).imp ?_))
  intro o o' hlt x hx y hy heq
  obtain ⟨s, -, rfl⟩ := Option.map_eq_some_iff.1 hx
  obtain ⟨s', -, rfl⟩ := Option.map_eq_some_iff.1 hy
  change o.start = o'.start at heq
  rw [heq] at hlt
  exact Nat.lt_irrefl _ hlt

/-- Nor do two declarations that different passes find. -/
theorem disjoint_declarationsOf (hne : pass ≠ pass') :
    ((declarationsOf source pass).map Prod.fst).Disjoint ((declarationsOf source pass').map Prod.fst) := by
  intro t ht ht'
  obtain ⟨x, hx, rfl⟩ := List.mem_map.1 ht
  obtain ⟨y, hy, hxy⟩ := List.mem_map.1 ht'
  obtain ⟨-, d, hd⟩ := exists_occurrence_of_mem hx
  obtain ⟨-, e, he⟩ := exists_occurrence_of_mem hy
  exact hne (ExportPass.eq_of_derives hd (hxy ▸ he))

/-- No two declarations of a source begin at one place. -/
theorem nodup_declarations (source : Text) : ((declarations source).map Prod.fst).Nodup := by
  rw [declarations, List.map_flatMap]
  refine List.nodup_flatMap.2 ⟨fun pass _ => nodup_declarationsOf source pass, ?_⟩
  have hpasses : (ExportPass.ofLanguage .javascript).Nodup := by decide
  exact hpasses.imp fun hne => disjoint_declarationsOf hne

/-- A declaration begins with the word for exports. -/
theorem mem_placesOf_of_mem_declarations (h : x ∈ declarations source) : x.1 ∈ Text.placesOf "export".toList source := by
  obtain ⟨pass, hpass, hx⟩ := List.mem_flatMap.1 h
  obtain ⟨hsuffix, d, hd⟩ := exists_occurrence_of_mem hx
  exact Text.mem_placesOf.2 ⟨hsuffix, ExportPass.opensWith_export hpass hd⟩

/-- What a braced source exports are the symbols of its declarations. No two of these begin at one place of the source, each begins
where the word for exports stands, and no text is read as a declaration by two passes. So there are no more symbols than places of
the word. -/
theorem declarations_distinct (source : Text) :
    (declarations source).map Prod.snd = exports source ∧
    ((declarations source).map Prod.fst).Nodup ∧
    (∀ x ∈ declarations source, x.1 ∈ Text.placesOf "export".toList source) ∧
    (∀ pass pass' : ExportPass, ∀ s d e, Derives pass.pattern s d → Derives pass'.pattern s e → pass = pass') ∧
    (exports source).length ≤ (Text.placesOf "export".toList source).length := by
  refine ⟨map_snd_declarations source, nodup_declarations source, fun x hx => mem_placesOf_of_mem_declarations hx,
    fun pass pass' s d e hd he => ExportPass.eq_of_derives hd he, ?_⟩
  rw [← map_snd_declarations, List.length_map, ← List.length_map (f := Prod.fst)]
  refine (List.subperm_of_subset (nodup_declarations source) fun t ht => ?_).length_le
  obtain ⟨x, hx, rfl⟩ := List.mem_map.1 ht
  exact mem_placesOf_of_mem_declarations hx

end Braced

end SourceInventory
