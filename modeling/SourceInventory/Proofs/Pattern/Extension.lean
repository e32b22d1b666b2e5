import Mathlib.Data.List.Basic
import SourceInventory.Proofs.Pattern.Written

/-!
# Extension: a text and more text after it

If a text is extended, it keeps its readings, each with more left after it, in the same order of preference. The readings that
come in are those that go beyond the old end (`results_append`). Where there are none, the preferred reading stays
(`first?_append`), and a scan of the longer text takes what it takes in the old one, and then goes on in what was added
(`scanFrom_append`).
-/

namespace SourceInventory

/-! ## Readings with more text after them -/

/-- The span in a text that goes on. -/
def Span.extend (sp : Span) (t : Text) : Span := ⟨sp.start ++ t, sp.length⟩

/-- The reading in a text that goes on. -/
def Derivation.extend (d : Derivation) (t : Text) : Derivation where
  fields := d.fields.map fun x => (x.1, x.2.extend t)
  length := d.length
  rest := d.rest ++ t

/-- The occurrence in a text that goes on. -/
def Occurrence.extend (o : Occurrence) (t : Text) : Occurrence where
  toDerivation := o.toDerivation.extend t
  start := o.start ++ t

namespace Derivation

/-- Two readings one after another go on as the second does. -/
theorem extend_andThen (d e : Derivation) (t : Text) : (d.andThen e).extend t = (d.extend t).andThen (e.extend t) := by
  simp only [andThen, extend, List.map_append]

/-- What was recorded goes on with the text. -/
theorem span?_extend (d : Derivation) (t : Text) (f : Field) : (d.extend t).span? f = (d.span? f).map (·.extend t) := by
  rw [span?, span?, extend, List.find?_map, Option.map_map, Option.map_map]
  rfl

end Derivation

namespace Pattern

variable {p : Pattern} {s t : Text} {d : Derivation}

/-- A recorded span lies in the text. -/
theorem length_le_of_mem_fields (h : Derives p s d) : ∀ x ∈ d.fields, x.2.length ≤ x.2.start.length := by
  induction h with
  | text | char _ | run _ | absent | stop => intro x hx; exact absurd hx List.not_mem_nil
  | seq _ _ iha ihb | more _ _ _ iha ihb => intro x hx; exact (List.mem_append.1 hx).elim (iha x) (ihb x)
  | left _ ih | right _ ih | present _ ih => exact ih
  | @field f _ s d hd ih =>
    intro x hx
    rcases List.mem_cons.1 hx with rfl | hx
    · obtain ⟨u, hu, hlen⟩ := hd.eq_append
      change d.length ≤ s.length
      rw [hu, List.length_append]
      omega
    · exact ih x hx

/-- What was recorded stays the same in a text that goes on. -/
theorem get?_extend (h : Derives p s d) (t : Text) (f : Field) : (d.extend t).get? f = d.get? f := by
  rw [Derivation.get?, Derivation.span?_extend, Option.map_map, Derivation.get?]
  refine Option.map_congr fun sp hsp => ?_
  obtain ⟨x, hx, rfl⟩ := Option.map_eq_some_iff.1 hsp
  exact List.take_append_of_le_length (length_le_of_mem_fields h x (List.mem_of_find?_eq_some hx))

/-! ## The readings of the longer text -/

/-- Whether a reading leaves as many characters as a text has. -/
def leaves (t : Text) (d : Derivation) : Bool := t.length ≤ d.rest.length

theorem leaves_eq_true : leaves t d = true ↔ t.length ≤ d.rest.length := decide_eq_true_iff

/-- A text is as long as what was read of it and what is left. -/
theorem length_rest_add (h : Derives p s d) : d.rest.length + d.length = s.length := by
  obtain ⟨u, hu, hlen⟩ := h.eq_append
  rw [hu, List.length_append, hlen, Nat.add_comm]

/-- A reading of characters of the old text leaves all of what was added. -/
theorem filter_leaves_plain (n : Nat) (s t : Text) :
    [Derivation.plain n (s ++ t)].filter (leaves t) = [Derivation.plain n s].map (·.extend t) := by
  have hleaves : leaves t (.plain n (s ++ t)) = true :=
    leaves_eq_true.2 (by simp only [Derivation.plain, List.length_append]; omega)
  rw [List.filter_cons_of_pos hleaves]
  rfl

/-- Of the runs of a class, those before the last leave less. -/
theorem runRests_eq_append (k : Char → Bool) (s : Text) (n : Nat) (shorter : List Derivation) :
    ∃ longer, runRests k s n shorter = longer ++ .plain n s :: shorter ∧ ∀ d ∈ longer, d.rest.length < s.length := by
  induction s generalizing n shorter with
  | nil => exact ⟨[], rfl, fun d hd => absurd hd List.not_mem_nil⟩
  | cons c s ih =>
    rw [runRests]
    split
    · obtain ⟨longer, h, hlonger⟩ := ih (n + 1) (.plain n (c :: s) :: shorter)
      refine ⟨longer ++ [.plain (n + 1) s], by rw [h]; simp, ?_⟩
      intro d hd
      rcases List.mem_append.1 hd with hd | hd
      · exact Nat.lt_succ_of_lt (hlonger d hd)
      · rw [List.mem_singleton.1 hd]
        exact Nat.lt_succ_self _
    · exact ⟨[], rfl, fun d hd => absurd hd List.not_mem_nil⟩

/-- Of the runs of the longer text, those that leave enough are the runs of the old one. -/
theorem filter_leaves_runRests {k : Char → Bool} {n : Nat} {shorter shorter' : List Derivation}
    (h : shorter'.filter (leaves t) = shorter.map (·.extend t)) :
    (runRests k (s ++ t) n shorter').filter (leaves t) = (runRests k s n shorter).map (·.extend t) := by
  induction s generalizing n shorter shorter' with
  | nil =>
    obtain ⟨longer, hrests, hlonger⟩ := runRests_eq_append k t n shorter'
    have hnone : longer.filter (leaves t) = [] :=
      List.filter_eq_nil_iff.2 fun d hd hleaves => absurd (leaves_eq_true.1 hleaves) (Nat.not_le_of_lt (hlonger d hd))
    rw [List.nil_append, hrests, List.filter_append, hnone, ← List.singleton_append, List.filter_append, h]
    exact congrArg (· ++ _) (filter_leaves_plain n [] t)
  | cons c s ih =>
    have hcons : (Derivation.plain n (c :: s ++ t) :: shorter').filter (leaves t) =
        (Derivation.plain n (c :: s) :: shorter).map (·.extend t) := by
      rw [← List.singleton_append, List.filter_append, filter_leaves_plain, h]
      rfl
    rw [List.cons_append, runRests, runRests]
    split
    · exact ih hcons
    · exact hcons

/-- Of the readings by one pattern and then another, those that leave enough are made of such readings. -/
theorem filter_leaves_flatMap {as : List Derivation} {f f' : Derivation → List Derivation}
    {as' : List Derivation} (has : as'.filter (leaves t) = as.map (·.extend t))
    (hf : ∀ d ∈ as, (f' (d.extend t)).filter (leaves t) = (f d).map (·.extend t))
    (hout : ∀ d ∈ as', leaves t d = false → ∀ e ∈ f' d, leaves t e = false) :
    (as'.flatMap f').filter (leaves t) = (as.flatMap f).map (·.extend t) := by
  have hfilter : (as'.flatMap f').filter (leaves t) = ((as'.filter (leaves t)).flatMap f').filter (leaves t) := by
    clear has
    induction as' with
    | nil => rfl
    | cons d as' ih =>
      have hih := ih fun e he => hout e (List.mem_cons_of_mem d he)
      rw [List.flatMap_cons, List.filter_append, hih]
      by_cases hd : leaves t d = true
      · rw [List.filter_cons_of_pos hd, List.flatMap_cons, List.filter_append]
      · have hnone : (f' d).filter (leaves t) = [] := by
          refine List.filter_eq_nil_iff.2 fun e he => ?_
          rw [hout d List.mem_cons_self (Bool.eq_false_iff.2 hd) e he]
          exact Bool.false_ne_true
        rw [List.filter_cons_of_neg hd, hnone, List.nil_append]
  rw [hfilter, has]
  clear has hfilter hout
  induction as with
  | nil => rfl
  | cons d as ih =>
    rw [List.map_cons, List.flatMap_cons, List.filter_append, hf d List.mem_cons_self,
      ih fun e he => hf e (List.mem_cons_of_mem d he), List.flatMap_cons, List.map_append]

/-- Repetitions are read the same for every bound that the text does not exceed. -/
theorem repeated_eq {a : Pattern} {bound bound' : Text} (h : s.length ≤ bound.length) (h' : s.length ≤ bound'.length) :
    repeated a.results bound s = repeated a.results bound' s := by
  have hnil : ∀ b : Text, repeated a.results b [] = [.plain 0 []] := by
    intro b
    cases b with
    | nil => rfl
    | cons x b =>
      rw [repeated, List.append_left_eq_self, List.flatMap_eq_nil_iff]
      intro d hd
      have hlen := length_rest_add (mem_results_iff.1 hd)
      rw [List.length_nil] at hlen
      exact if_neg (by omega)
  induction bound generalizing bound' s with
  | nil =>
    obtain rfl := List.length_eq_zero_iff.1 (Nat.le_zero.1 h)
    rw [hnil, hnil]
  | cons x bound ih =>
    cases bound' with
    | nil =>
      obtain rfl := List.length_eq_zero_iff.1 (Nat.le_zero.1 h')
      rw [hnil, hnil]
    | cons x' bound' =>
      rw [List.length_cons] at h h'
      rw [repeated, repeated]
      congr 1
      refine List.flatMap_congr fun d hd => ?_
      have hlen := length_rest_add (mem_results_iff.1 hd)
      split
      · have hle : d.rest.length ≤ bound.length := by omega
        have hle' : d.rest.length ≤ bound'.length := by omega
        rw [ih hle hle']
      · rfl

/-- The readings of the longer text that leave enough after one reading and another are made of two that do. -/
theorem filter_leaves_map_andThen {ds ds' : List Derivation} (h : ds'.filter (leaves t) = ds.map (·.extend t)) (d : Derivation) :
    (ds'.map (d.extend t).andThen).filter (leaves t) = (ds.map d.andThen).map (·.extend t) := by
  have hleaves : leaves t ∘ (d.extend t).andThen = leaves t := rfl
  rw [List.filter_map, hleaves, h, List.map_map, List.map_map]
  exact List.map_congr_left fun e _ => (Derivation.extend_andThen d e t).symm

/-- What leaves no more than too little leaves too little. -/
theorem leaves_eq_false_of_le {d e : Derivation} (hd : leaves t d = false) (hle : e.rest.length ≤ d.rest.length) :
    leaves t e = false := by
  refine Bool.eq_false_iff.2 fun he => Bool.eq_false_iff.1 hd ?_
  exact leaves_eq_true.2 (Nat.le_trans (leaves_eq_true.1 he) hle)

/-- A fixed text is read in the old text or goes beyond it. -/
theorem filter_leaves_text (w s t : Text) :
    ((Pattern.text w).results (s ++ t)).filter (leaves t) = ((Pattern.text w).results s).map (·.extend t) := by
  rw [results, results]
  cases hs : Text.after? w s with
  | some r =>
    have hst : Text.after? w (s ++ t) = some (r ++ t) := by
      rw [Text.after?_eq_some_iff.1 hs, List.append_assoc]
      exact Text.after?_append w _
    rw [hst]
    exact filter_leaves_plain w.length r t
  | none =>
    refine List.filter_eq_nil_iff.2 fun d hd hleaves => ?_
    obtain ⟨r, hr, rfl⟩ := List.mem_map.1 hd
    have hsplit := Text.after?_eq_some_iff.1 (Option.mem_toList.1 hr)
    -- what leaves enough leaves all of what was added, so that the word stands in the old text
    obtain ⟨x, rfl⟩ : w <+: s := by
      refine List.prefix_of_prefix_length_le (hsplit ▸ List.prefix_append w r) (List.prefix_append s t) ?_
      have hlen := congrArg List.length hsplit
      rw [List.length_append, List.length_append] at hlen
      have hle := leaves_eq_true.1 hleaves
      change t.length ≤ r.length at hle
      omega
    rw [Text.after?_append] at hs
    exact Option.some_ne_none _ hs

/-- Of the repetitions in the longer text, those that leave enough are the repetitions in the old one. -/
theorem filter_leaves_repeated {a : Pattern}
    (ha : ∀ s, (a.results (s ++ t)).filter (leaves t) = (a.results s).map (·.extend t)) {bound : Text}
    (h : (s ++ t).length ≤ bound.length) :
    (repeated a.results bound (s ++ t)).filter (leaves t) = (repeated a.results bound s).map (·.extend t) := by
  induction bound generalizing s with
  | nil => exact filter_leaves_plain 0 s t
  | cons x bound ih =>
    rw [repeated, repeated, List.filter_append, List.map_append, filter_leaves_plain]
    congr 1
    refine filter_leaves_flatMap (ha s) (fun d hd => ?_) (fun d hd hout e he => ?_)
    · change (if 0 < d.length then _ else _ : List Derivation).filter _ = _
      split
      · have hlen := length_rest_add (mem_results_iff.1 hd)
        refine filter_leaves_map_andThen (ih ?_) d
        rw [List.length_append, List.length_cons] at h
        rw [List.length_append]
        omega
      · rfl
    · split at he
      · have hlen := length_rest_add (mem_results_iff.1 hd)
        obtain ⟨y, hy, rfl⟩ := List.mem_map.1 he
        rw [List.length_cons] at h
        have hbound : d.rest.length ≤ bound.length := by omega
        have hrest := length_rest_add ((mem_repeated mem_results_iff hbound).1 hy)
        exact leaves_eq_false_of_le hout (Nat.le.intro hrest)
      · exact absurd he List.not_mem_nil

/-- Of the readings of the longer text, those that do not go beyond the old end are the readings of the old text, in the same
order. -/
theorem results_append (p : Pattern) (s t : Text) :
    (p.results (s ++ t)).filter (leaves t) = (p.results s).map (·.extend t) := by
  induction p generalizing s with
  | text w => exact filter_leaves_text w s t
  | char k =>
    cases s with
    | nil =>
      refine List.filter_eq_nil_iff.2 fun d hd hleaves => ?_
      obtain ⟨c, r, hc, -, rfl⟩ := derives_char_iff.1 (mem_results_iff.1 hd)
      have hle := leaves_eq_true.1 hleaves
      rw [← List.nil_append t, hc] at hle
      exact absurd hle (Nat.not_succ_le_self _)
    | cons c s =>
      rw [List.cons_append, results, results]
      split
      · exact filter_leaves_plain 1 s t
      · rfl
  | run k => exact filter_leaves_runRests rfl
  | seq a b iha ihb =>
    refine filter_leaves_flatMap (iha s) (fun d _ => filter_leaves_map_andThen (ihb d.rest) d) fun d _ hd e he => ?_
    obtain ⟨x, hx, rfl⟩ := List.mem_map.1 he
    have hlen := length_rest_add (mem_results_iff.1 hx)
    exact leaves_eq_false_of_le hd (Nat.le.intro hlen)
  | either a b iha ihb => rw [results, results, List.filter_append, List.map_append, iha, ihb]
  | optional a iha => rw [results, results, List.filter_append, List.map_append, iha, filter_leaves_plain]
  | many a iha => rw [results, results, filter_leaves_repeated iha (Nat.le_refl _),
      repeated_eq (List.length_append ▸ Nat.le_add_right _ _) (Nat.le_refl _)]
  | field f a iha =>
    have hleaves : leaves t ∘ (·.record f (s ++ t)) = leaves t := rfl
    rw [results, results, List.filter_map, hleaves, iha, List.map_map, List.map_map]
    rfl

/-- If no reading of the longer text goes beyond the old end, the preferred one is that of the old text. -/
theorem first?_append (h : ∀ d, Derives p (s ++ t) d → t.length ≤ d.rest.length) :
    p.first? (s ++ t) = (p.first? s).map (·.extend t) := by
  have hall : (p.results (s ++ t)).filter (leaves t) = p.results (s ++ t) :=
    List.filter_eq_self.2 fun d hd => leaves_eq_true.2 (h d (mem_results_iff.1 hd))
  rw [first?_eq_head?, first?_eq_head?, ← hall, results_append, List.head?_map]

/-! ## Scans of the longer text -/

/-- No reading that begins in `s` goes beyond its end when `t` follows. -/
def EndsWithin (p : Pattern) (s t : Text) : Prop :=
  ∀ v, v <:+ s → v ≠ [] → ∀ d, Derives p (v ++ t) d → t.length ≤ d.rest.length

/-- If no reading goes beyond the old end, a scan of the longer text takes what it takes in the old one, and then goes on in
what was added. -/
theorem scanFrom_append {anchor : Anchor} {before : Option Char} {skip : Nat} (h : EndsWithin p s t) (hskip : skip ≤ s.length) :
    p.scanFrom anchor before skip (s ++ t) =
      (p.scanFrom anchor before skip s).map (·.extend t) ++ p.scanFrom anchor (s.getLast?.or before) 0 t := by
  induction s generalizing before skip with
  | nil =>
    obtain rfl := Nat.le_zero.1 hskip
    rfl
  | cons c s ih =>
    have hs : EndsWithin p s t := fun v hv => h v (hv.trans (List.suffix_cons c s))
    rw [List.cons_append, getLast?_cons_or]
    cases skip with
    | succ skip => exact ih hs (Nat.le_of_succ_le_succ hskip)
    | zero =>
      have hfirst : (if anchor.admits before then p.first? (c :: (s ++ t)) else none) =
          (if anchor.admits before then p.first? (c :: s) else none).map (·.extend t) := by
        rw [← List.cons_append, first?_append (h (c :: s) (List.suffix_refl _) (List.cons_ne_nil c s))]
        split <;> rfl
      rw [scanFrom, scanFrom, hfirst]
      cases hd : if anchor.admits before then p.first? (c :: s) else none with
      | none => exact ih hs (Nat.zero_le _)
      | some d =>
        have hderives : Derives p (c :: s) d := by
          split at hd
          · exact derives_of_first? hd
          · exact absurd hd (Option.some_ne_none d).symm
        have hlen := length_rest_add hderives
        rw [List.length_cons] at hlen
        have hinside : d.length - 1 ≤ s.length := by omega
        exact congrArg (_ :: ·) (ih hs hinside)

end Pattern

end SourceInventory
