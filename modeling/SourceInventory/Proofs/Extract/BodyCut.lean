import Mathlib.Data.List.TakeWhile
import SourceInventory.Proofs.Extract.ClassBody
import SourceInventory.Proofs.Pattern.Unambiguous

/-!
# Body cuts: where the body of a class begins and ends

A source is cut at the first opening brace from a place on, and there again at the first closing brace that has no opening one
before it. So a source is cut at a place in one of three ways: the body is closed, it is never closed and goes on to the end, or
there is none; and in no more than one (`existsUnique_cuts`). The methods of a class are those of the body alone
(`ofSource_eq_methods`).
-/

namespace SourceInventory

/-- No beginning of a text closes more braces than it opens. -/
def NeverCloses (w : Text) : Prop := ∀ u, u <+: w → u.count '}' ≤ u.count '{'

/-- A way to cut a source at a place. -/
inductive BodyCut where
  /-- The body stands between two braces. -/
  | closed (before body behind : Text)
  /-- The body begins with a brace and is never closed. -/
  | unclosed (before body : Text)
  /-- There is no body. -/
  | absent
deriving DecidableEq, Repr

namespace BodyCut

/-- A source is cut at a place: what stands before the body reaches from the start of the source to the first opening brace that
does not stand before the place, and the braces of a body that is closed match. -/
def Cuts (source : Text) (place : Nat) : BodyCut → Prop
  | .closed before body behind =>
    source = before ++ '{' :: (body ++ '}' :: behind) ∧ place ≤ before.length ∧ '{' ∉ before.drop place ∧ BracesBalanced body
  | .unclosed before body =>
    source = before ++ '{' :: body ∧ place ≤ before.length ∧ '{' ∉ before.drop place ∧ NeverCloses body
  | .absent => '{' ∉ source.drop place

/-- The methods of a class with this body. -/
def methods : BodyCut → List Method
  | .closed _ body _ => Method.ofBody body
  | .unclosed _ body => Method.ofBody body
  | .absent => []

/-! ## The closing brace -/

/-- A text closes at none of its places more than `n` braces beyond those it opened, or it is cut at the first place where it
does. The induction follows the search for the closing brace, and `n` is the number of braces that are open. -/
theorem exists_closing (n : Nat) (s : Text) :
    (∀ u, u <+: s → u.count '}' ≤ u.count '{' + n) ∨
      ∃ w t, s = w ++ '}' :: t ∧ (∀ u, u <+: w → u.count '}' ≤ u.count '{' + n) ∧ w.count '}' = w.count '{' + n := by
  induction s generalizing n with
  | nil =>
    refine Or.inl fun u hu => ?_
    rw [List.prefix_nil.1 hu]
    exact Nat.zero_le _
  | cons c s ih =>
    -- with one more character in front, as many braces are open as before, one more or one less
    have step : ∀ m, (∀ u : Text, u.count '}' ≤ u.count '{' + m → (c :: u).count '}' ≤ (c :: u).count '{' + n) →
        (∀ u : Text, u.count '}' = u.count '{' + m → (c :: u).count '}' = (c :: u).count '{' + n) →
        (∀ u, u <+: c :: s → u.count '}' ≤ u.count '{' + n) ∨
          ∃ w t, c :: s = w ++ '}' :: t ∧ (∀ u, u <+: w → u.count '}' ≤ u.count '{' + n) ∧
            w.count '}' = w.count '{' + n := by
      intro m hle heq
      have hall : ∀ w : Text, (∀ u, u <+: w → u.count '}' ≤ u.count '{' + m) →
          ∀ u, u <+: c :: w → u.count '}' ≤ u.count '{' + n := by
        intro w hw u hu
        rcases List.prefix_cons_iff.1 hu with rfl | ⟨v, rfl, hv⟩
        · exact Nat.zero_le _
        · exact hle v (hw v hv)
      rcases ih m with h | ⟨w, t, rfl, hw, hcount⟩
      · exact Or.inl (hall s h)
      · exact Or.inr ⟨c :: w, t, rfl, hall w hw, heq w hcount⟩
    by_cases hopen : c = '{'
    · subst hopen
      refine step (n + 1) (fun u hu => ?_) fun u hu => ?_
      all_goals
        simp only [List.count_cons_self, List.count_cons_of_ne (show '{' ≠ '}' by decide)]
        omega
    · by_cases hclose : c = '}'
      · subst hclose
        cases n with
        | zero =>
          refine Or.inr ⟨[], s, rfl, fun u hu => ?_, rfl⟩
          rw [List.prefix_nil.1 hu]
          exact Nat.zero_le _
        | succ n =>
          refine step n (fun u hu => ?_) fun u hu => ?_
          all_goals
            simp only [List.count_cons_self, List.count_cons_of_ne (show '}' ≠ '{' by decide)]
            omega
      · refine step n (fun u hu => ?_) fun u hu => ?_
        all_goals
          rw [List.count_cons_of_ne hopen, List.count_cons_of_ne hclose]
          exact hu

/-- A text is cut at its first closing brace that has no opening one before it, or there is none. -/
theorem neverCloses_or_closing (s : Text) : NeverCloses s ∨ ∃ w t, s = w ++ '}' :: t ∧ BracesBalanced w := by
  rcases exists_closing 0 s with h | ⟨w, t, hs, hw, hcount⟩
  · exact Or.inl h
  · exact Or.inr ⟨w, t, hs, hw, hcount.symm⟩

/-- A text that never closes goes on to the end. -/
theorem beforeClosing_of_neverCloses {w : Text} (hw : NeverCloses w) : beforeClosing 0 w = w := by
  have h := beforeClosing_append (n := 0) (fun u hu => hw u hu) []
  rwa [List.append_nil, beforeClosing, List.append_nil] at h

/-- A text with its closing brace does not go on to the end. -/
theorem not_neverCloses {w : Text} (hw : BracesBalanced w) (t : Text) : ¬NeverCloses (w ++ '}' :: t) := by
  intro h
  have hclosed := h (w ++ ['}']) ⟨t, by simp⟩
  have hcount := hw.count_eq
  simp only [List.count_append, List.count_singleton_self, List.count_singleton, beq_iff_eq, Char.reduceEq, if_false] at hclosed
  omega

/-! ## The opening brace -/

/-- A source has no opening brace from a place on, or is cut at the first. -/
theorem not_mem_or_opening (source : Text) (place : Nat) :
    '{' ∉ source.drop place ∨
      ∃ before rest, source = before ++ '{' :: rest ∧ place ≤ before.length ∧ '{' ∉ before.drop place := by
  by_cases hmem : '{' ∈ source.drop place
  · obtain ⟨u, rest, hrest, hu⟩ := List.eq_append_cons_of_mem hmem
    have hplace : place ≤ source.length := by
      by_contra hlt
      rw [List.drop_eq_nil_of_le (by omega)] at hmem
      exact absurd hmem List.not_mem_nil
    have hlength : (source.take place).length = place := List.length_take_of_le hplace
    refine Or.inr ⟨source.take place ++ u, rest, ?_, ?_, ?_⟩
    · rw [List.append_assoc, ← hrest, List.take_append_drop]
    · rw [List.length_append, hlength]
      exact Nat.le_add_right _ _
    · rwa [List.drop_append, hlength, Nat.sub_self, List.drop_of_length_le (Nat.le_of_eq hlength)]
  · exact Or.inl hmem

theorem drop_opening {before : Text} {place : Nat} (hplace : place ≤ before.length) (rest : Text) :
    (before ++ '{' :: rest).drop place = before.drop place ++ '{' :: rest := List.drop_append_of_le_length hplace

/-- There is one first opening brace. -/
theorem opening_unique {before before' rest rest' : Text} {place : Nat} (hplace : place ≤ before.length)
    (hplace' : place ≤ before'.length) (hfree : '{' ∉ before.drop place) (hfree' : '{' ∉ before'.drop place)
    (h : before ++ '{' :: rest = before' ++ '{' :: rest') : before = before' ∧ rest = rest' := by
  have htake := congrArg (List.take place) h
  have hdrop := congrArg (List.drop place) h
  rw [List.take_append_of_le_length hplace, List.take_append_of_le_length hplace'] at htake
  rw [drop_opening hplace, drop_opening hplace'] at hdrop
  obtain ⟨hu, hrest⟩ := Pattern.cut_unique hdrop hfree hfree'
  refine ⟨?_, hrest⟩
  rw [← List.take_append_drop place before, htake, hu, List.take_append_drop]

theorem mem_drop_opening {before : Text} {place : Nat} (hplace : place ≤ before.length) (rest : Text) :
    '{' ∈ (before ++ '{' :: rest).drop place := by
  rw [drop_opening hplace]
  exact List.mem_append_right _ List.mem_cons_self

/-! ## Cuts -/

theorem exists_cuts (source : Text) (place : Nat) : ∃ c, Cuts source place c := by
  rcases not_mem_or_opening source place with h | ⟨before, rest, hsource, hplace, hfree⟩
  · exact ⟨.absent, h⟩
  · rcases neverCloses_or_closing rest with hrest | ⟨body, behind, rfl, hbody⟩
    · exact ⟨.unclosed before rest, hsource, hplace, hfree, hrest⟩
    · exact ⟨.closed before body behind, hsource, hplace, hfree, hbody⟩

theorem cuts_unique {source : Text} {place : Nat} {c c' : BodyCut} (h : Cuts source place c) (h' : Cuts source place c') :
    c = c' := by
  cases c with
  | closed before body behind =>
    obtain ⟨rfl, hplace, hfree, hbody⟩ := h
    cases c' with
    | closed before' body' behind' =>
      obtain ⟨heq, hplace', hfree', hbody'⟩ := h'
      obtain ⟨rfl, hrest⟩ := opening_unique hplace hplace' hfree hfree' heq
      -- the search for the closing brace finds both bodies
      have hsame := beforeClosing_of_balanced hbody behind
      rw [hrest, beforeClosing_of_balanced hbody'] at hsame
      subst hsame
      rw [(List.cons.inj (List.append_cancel_left hrest)).2]
    | unclosed before' body' =>
      obtain ⟨heq, hplace', hfree', hbody'⟩ := h'
      obtain ⟨rfl, rfl⟩ := opening_unique hplace hplace' hfree hfree' heq
      exact absurd hbody' (not_neverCloses hbody behind)
    | absent => exact absurd (mem_drop_opening hplace _) h'
  | unclosed before body =>
    obtain ⟨rfl, hplace, hfree, hbody⟩ := h
    cases c' with
    | closed before' body' behind' =>
      obtain ⟨heq, hplace', hfree', hbody'⟩ := h'
      obtain ⟨rfl, rfl⟩ := opening_unique hplace hplace' hfree hfree' heq
      exact absurd hbody (not_neverCloses hbody' behind')
    | unclosed before' body' =>
      obtain ⟨heq, hplace', hfree', -⟩ := h'
      obtain ⟨rfl, rfl⟩ := opening_unique hplace hplace' hfree hfree' heq
      rfl
    | absent => exact absurd (mem_drop_opening hplace _) h'
  | absent =>
    cases c' with
    | closed before' body' behind' =>
      obtain ⟨rfl, hplace', -⟩ := h'
      exact absurd (mem_drop_opening hplace' _) h
    | unclosed before' body' =>
      obtain ⟨rfl, hplace', -⟩ := h'
      exact absurd (mem_drop_opening hplace' _) h
    | absent => rfl

/-- A source is cut in one way at a place. -/
theorem existsUnique_cuts (source : Text) (place : Nat) : ∃! c, Cuts source place c := by
  obtain ⟨c, hc⟩ := exists_cuts source place
  exact ⟨c, hc, fun c' hc' => cuts_unique hc' hc⟩

/-- What is searched for a class is what stands from its place on. -/
theorem ofSource_natCast (source : Text) (place : Nat) : Method.ofSource source place = Method.ofDeclaration (source.drop place) := by
  rw [Method.ofSource, if_neg (by omega), Int.toNat_natCast]

/-- The methods of a class are those of its body, whatever stands before and behind it. -/
theorem ofSource_eq_methods {source : Text} {place : Nat} {c : BodyCut} (h : Cuts source place c) :
    Method.ofSource source place = c.methods := by
  rw [ofSource_natCast, Method.ofDeclaration]
  cases c with
  | closed before body behind =>
    obtain ⟨rfl, hplace, hfree, hbody⟩ := h
    rw [drop_opening hplace, classBody?_append hfree hbody]
    rfl
  | unclosed before body =>
    obtain ⟨rfl, hplace, hfree, hbody⟩ := h
    rw [drop_opening hplace, classBody?_eq_beforeClosing hfree, beforeClosing_of_neverCloses hbody]
    rfl
  | absent =>
    have hnone : (source.drop place).dropWhile (· ≠ '{') = [] := by
      refine List.dropWhile_eq_nil_iff.2 fun c hc => ?_
      have hne : c ≠ '{' := fun heq => h (heq ▸ hc)
      simpa using hne
    rw [classBody?, hnone]
    rfl

end BodyCut

/-- A source is cut at a place in exactly one way: its body is closed, never closed or absent. The methods that are found there
are those of the body, and none if there is no body. A place before the start is counted from the end. -/
theorem Method.ofSource_cut (source : Text) :
    (∀ place : Nat, (∃! c, BodyCut.Cuts source place c) ∧
      ∀ c, BodyCut.Cuts source place c → Method.ofSource source place = c.methods) ∧
    ∀ k : Nat, Method.ofSource source (-(k + 1)) = Method.ofSource source (source.length - (k + 1) : Nat) := by
  refine ⟨fun place => ⟨BodyCut.existsUnique_cuts source place, fun c hc => BodyCut.ofSource_eq_methods hc⟩, fun k => ?_⟩
  rw [BodyCut.ofSource_natCast, ofSource, if_pos (by omega)]
  congr 2
  omega

/-- The second of two classes is cut in none of these ways if no brace may stand before its body at all, not even before the place
from which it is searched: the source would have to be cut at the brace of the first class. Its method is found all the same. -/
theorem Method.ofSource_cut_freeBefore_false :
    (¬∀ (source : Text) (place : Nat),
      (∃ before body behind, source = before ++ '{' :: (body ++ '}' :: behind) ∧ '{' ∉ before ∧ place ≤ before.length ∧
        BracesBalanced body) ∨
      (∃ before body, source = before ++ '{' :: body ∧ '{' ∉ before ∧ place ≤ before.length ∧ NeverCloses body) ∨
      '{' ∉ source.drop place) ∧
    Method.ofSource "class A \x7b\x7d\nclass B \x7b f() \x7b\x7d \x7d".toList 11 = [⟨"f".toList, "f()".toList⟩] := by
  have hfirst : ∀ before rest : Text, "class A \x7b\x7d\nclass B \x7b f() \x7b\x7d \x7d".toList = before ++ '{' :: rest →
      '{' ∉ before → ¬11 ≤ before.length := by
    intro before rest hsource hfree hplace
    have htake := congrArg (List.take 11) hsource
    rw [List.take_append_of_le_length hplace] at htake
    have hmem : '{' ∈ before.take 11 := htake ▸ by decide
    exact hfree (List.mem_of_mem_take hmem)
  refine ⟨fun h => ?_, by decide⟩
  rcases h "class A \x7b\x7d\nclass B \x7b f() \x7b\x7d \x7d".toList 11 with
    ⟨before, body, behind, hsource, hfree, hplace, -⟩ | ⟨before, body, hsource, hfree, hplace, -⟩ | habsent
  · exact hfirst _ _ hsource hfree hplace
  · exact hfirst _ _ hsource hfree hplace
  · exact habsent (by decide)

end SourceInventory
