import SourceInventory.Pattern.Scan
import Mathlib.Data.List.Forall2

/-!
# Tilings of a source by the readings of a pattern

Places of a source are counted from its start. A tiling from a place goes on to the first place where some reading of the
pattern may begin, takes a reading there, and goes on where that reading ends; it stops when no reading begins any more.
The scan makes a tiling (`tiles_occurrences`), and if the readings that are taken at one place agree, every tiling with
such readings is the same one (`Tiles.agrees`).
-/

namespace SourceInventory

/-- Where a pattern with an anchor may begin: anywhere, or at the start of the source and right after a line feed. -/
def Anchor.AdmitsAt (anchor : Anchor) (source : Text) (k : Nat) : Prop :=
  anchor = .lineStart → k = 0 ∨ ∃ j, k = j + 1 ∧ source[j]? = some '\n'

/-- What two readings of one text have in common if they agree: where they end and what they record, up to the place where an
empty field was recorded. -/
structure Derivation.Agrees (d e : Derivation) : Prop where
  length : d.length = e.length
  rest : d.rest = e.rest
  name : d.get? .name = e.get? .name
  params : d.get? .params = e.get? .params
  base : d.get? .base = e.get? .base
  modifier : (d.get? .modifier).isSome = (e.get? .modifier).isSome

theorem Derivation.Agrees.refl (d : Derivation) : d.Agrees d := ⟨rfl, rfl, rfl, rfl, rfl, rfl⟩

namespace Pattern

/-- Some reading of the pattern may begin at a place of the source. -/
def BeginsAt (p : Pattern) (anchor : Anchor) (source : Text) (k : Nat) : Prop :=
  anchor.AdmitsAt source k ∧ ∃ d, Derives p (source.drop k) d

/-- The occurrences tile the source from a place on: each begins at the first place from there on where a reading may
begin, and the next ones tile the source from its end on. -/
inductive Tiles (p : Pattern) (anchor : Anchor) (source : Text) : (start : Nat) → List Occurrence → Prop where
  /-- No reading begins any more. -/
  | stop {k : Nat} : (∀ j, k ≤ j → ¬ p.BeginsAt anchor source j) → Tiles p anchor source k []
  /-- A reading at the first place where one may begin, and a tiling from its end on. -/
  | next {k j : Nat} {o : Occurrence} {os : List Occurrence} : k ≤ j →
      (∀ i, k ≤ i → i < j → ¬ p.BeginsAt anchor source i) → anchor.AdmitsAt source j → o.start = source.drop j →
      Derives p o.start o.toDerivation → Tiles p anchor source (j + o.length) os → Tiles p anchor source k (o :: os)

variable {p : Pattern} {anchor : Anchor} {source : Text}

/-- A tiling from the next place is one from this place if no reading begins here. -/
theorem Tiles.back {k : Nat} {os : List Occurrence} (h : Tiles p anchor source (k + 1) os)
    (hk : ¬ p.BeginsAt anchor source k) : Tiles p anchor source k os := by
  cases h with
  | stop hs =>
    refine .stop fun j hj => ?_
    rcases Nat.eq_or_lt_of_le hj with rfl | hlt
    · exact hk
    · exact hs j hlt
  | next hkj hgap ha ho hd hos =>
    refine .next (by omega) (fun i hi hij => ?_) ha ho hd hos
    rcases Nat.eq_or_lt_of_le hi with rfl | hlt
    · exact hk
    · exact hgap i hlt hij

/-- The scan sees the start of a line where the declaration says so. -/
theorem admits_getLast?_iff (anchor : Anchor) (u s : Text) :
    anchor.admits u.getLast? = true ↔ anchor.AdmitsAt (u ++ s) u.length := by
  cases anchor with
  | anywhere => simp [Anchor.admits, Anchor.AdmitsAt]
  | lineStart =>
    rcases List.eq_nil_or_concat u with rfl | ⟨v, c, rfl⟩
    · simp [Anchor.admits, Anchor.AdmitsAt]
    · rw [List.concat_eq_append]
      simp only [List.getLast?_append, List.getLast?_singleton, Option.some_or, Anchor.admits, beq_iff_eq, Anchor.AdmitsAt,
        List.length_append, List.length_singleton, true_implies]
      constructor
      · rintro rfl
        exact Or.inr ⟨v.length, rfl, by simp⟩
      · rintro (h | ⟨j, hj, h⟩)
        · omega
        · obtain rfl : v.length = j := by omega
          simpa using h

/-- The scan of what is left of a source tiles it from there on. The induction is on what is left; what was passed is kept
in `u`, so that places are counted from the start of the source. -/
theorem tiles_scanFrom (hp : ∀ ⦃s d⦄, Derives p s d → 0 < d.length) (s : Text) :
    ∀ (u : Text) (skip : Nat), Tiles p anchor (u ++ s) (u.length + skip) (p.scanFrom anchor u.getLast? skip s) := by
  induction s with
  | nil =>
    intro u skip
    refine .stop fun j hj => ?_
    rintro ⟨-, d, hd⟩
    have hlen := hp hd
    obtain ⟨v, hv, hvl⟩ := hd.eq_append
    rw [List.append_nil, List.drop_eq_nil_of_le (by omega)] at hv
    rw [(List.append_eq_nil_iff.1 hv.symm).1, List.length_nil] at hvl
    omega
  | cons c s ih =>
    intro u skip
    -- one character further on, it belongs to what was passed
    have passed : ∀ k, Tiles p anchor (u ++ c :: s) (u.length + 1 + k) (p.scanFrom anchor (some c) k s) := by
      intro k
      have h := ih (u ++ [c]) k
      rw [List.append_assoc, List.singleton_append, List.length_append, List.length_singleton, List.getLast?_concat] at h
      exact h
    have here : (u ++ c :: s).drop u.length = c :: s := by simp
    cases skip with
    | succ k =>
      rw [scanFrom]
      have h := passed k
      rwa [show u.length + 1 + k = u.length + (k + 1) by omega] at h
    | zero =>
      rw [scanFrom, Nat.add_zero]
      split
      · rename_i d hd
        split at hd
        · rename_i hadm
          have hder := derives_of_first? hd
          have hpos := hp hder
          refine .next (Nat.le_refl _) (fun i hi hlt => by omega) ((admits_getLast?_iff anchor u _).1 hadm) here.symm hder ?_
          have h := passed (d.length - 1)
          rwa [show u.length + 1 + (d.length - 1) = u.length + d.length by omega] at h
        · exact absurd hd (by simp)
      · rename_i hd
        refine (passed 0).back ?_
        rintro ⟨hadm, d, hder⟩
        rw [if_pos ((admits_getLast?_iff anchor u _).2 hadm)] at hd
        rw [here] at hder
        exact first?_eq_none_iff.1 hd d hder

/-- The occurrences of a pattern that reads something tile the source. -/
theorem tiles_occurrences (hp : ∀ ⦃s d⦄, Derives p s d → 0 < d.length) (anchor : Anchor) (source : Text) :
    Tiles p anchor source 0 (p.occurrences anchor source) :=
  tiles_scanFrom hp source [] 0

/-- An occurrence is read as its pattern prefers. -/
theorem first?_of_mem_scanFrom {before : Option Char} {skip : Nat} {s : Text} {o : Occurrence}
    (h : o ∈ p.scanFrom anchor before skip s) : p.first? o.start = some o.toDerivation := by
  induction s generalizing before skip with
  | nil => exact absurd h (by simp [scanFrom])
  | cons c s ih =>
    cases skip with
    | succ k => exact ih h
    | zero =>
      rw [scanFrom] at h
      split at h
      · rename_i d hd
        split at hd
        · rcases List.mem_cons.1 h with rfl | h
          · exact hd
          · exact ih h
        · exact absurd hd (by simp)
      · exact ih h

/-- Two tilings from one place whose readings agree wherever they begin at one place have the same places and readings that
agree. -/
theorem Tiles.agrees {Q : Text → Derivation → Prop} (hQ : ∀ ⦃s d e⦄, Q s d → Q s e → d.Agrees e) {k : Nat}
    {os os' : List Occurrence} (h : Tiles p anchor source k os) (h' : Tiles p anchor source k os')
    (hos : ∀ o ∈ os, Q o.start o.toDerivation) (hos' : ∀ o ∈ os', Q o.start o.toDerivation) :
    List.Forall₂ (fun o o' => o.start = o'.start ∧ o.toDerivation.Agrees o'.toDerivation) os os' := by
  induction h generalizing os' with
  | stop hs =>
    cases h' with
    | stop _ => exact .nil
    | next hkj _ ha ho hd _ => exact absurd ⟨ha, _, ho ▸ hd⟩ (hs _ hkj)
  | @next k j o os hkj hgap ha ho hd _ ih =>
    cases h' with
    | stop hs => exact absurd ⟨ha, _, ho ▸ hd⟩ (hs _ hkj)
    | @next _ j' o' os' hkj' hgap' ha' ho' hd' htail' =>
      -- each of the two begins at the first place where a reading may begin
      have hle : j' ≤ j := Nat.le_of_not_lt fun hlt => hgap' j hkj hlt ⟨ha, _, ho ▸ hd⟩
      have hge : j ≤ j' := Nat.le_of_not_lt fun hlt => hgap j' hkj' hlt ⟨ha', _, ho' ▸ hd'⟩
      obtain rfl := Nat.le_antisymm hge hle
      have hstart : o.start = o'.start := ho.trans ho'.symm
      have hagree : o.toDerivation.Agrees o'.toDerivation :=
        hQ (hos o (by simp)) (hstart ▸ hos' o' (by simp))
      rw [← hagree.length] at htail'
      exact .cons ⟨hstart, hagree⟩ (ih htail' (fun x hx => hos x (by simp [hx])) (fun x hx => hos' x (by simp [hx])))

/-! ## The least that a pattern reads -/

/-- The least number of characters that a reading takes. -/
def least : Pattern → Nat
  | .text t => t.length
  | .char _ => 1
  | .run _ => 0
  | .seq a b => a.least + b.least
  | .either a b => min a.least b.least
  | .optional _ => 0
  | .many _ => 0
  | .field _ a => a.least

theorem least_le {s : Text} {d : Derivation} (h : Derives p s d) : p.least ≤ d.length := by
  induction h with
  | text => exact Nat.le_refl _
  | char _ => exact Nat.le_refl _
  | run _ => exact Nat.zero_le _
  | seq _ _ iha ihb => exact Nat.add_le_add iha ihb
  | left _ ih => exact Nat.le_trans (Nat.min_le_left _ _) ih
  | right _ ih => exact Nat.le_trans (Nat.min_le_right _ _) ih
  | present _ _ => exact Nat.zero_le _
  | absent => exact Nat.zero_le _
  | stop => exact Nat.zero_le _
  | more _ _ _ _ _ => exact Nat.zero_le _
  | field _ ih => exact ih

end Pattern

end SourceInventory
