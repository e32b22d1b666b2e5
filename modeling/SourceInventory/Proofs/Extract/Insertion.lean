import SourceInventory.Proofs.Extract.AsyncWindow
import SourceInventory.Proofs.Extract.Hit

/-!
# Insertion: a text put behind a closing parenthesis

A declaration with a list is read up to the first closing parenthesis and then by a pattern without one (`ClosesList`). So a text
that is put behind a closing parenthesis of a source is met only by those declarations whose list closes there. If no declaration
begins in it, they are found as before if they can go on with it, and are not found any more if they cannot; all others are found
as before (`ClosesList.headings_insert`).
-/

namespace SourceInventory

open Pattern

/-- The list that is open at the start of a text closes right before the text `r`. -/
def closesBefore (r start : Text) : Bool := start.dropWhile (· ≠ ')') = ')' :: r

namespace Pattern

variable {p front tail : Pattern} {r u w : Text}

/-! ## Closing parentheses -/

/-- A text is cut at its first closing parenthesis. -/
theorem dropWhile_closing {u : Text} (hu : ')' ∉ u) (t : Text) : (u ++ ')' :: t).dropWhile (· ≠ ')') = ')' :: t := by
  rw [List.dropWhile_append_of_pos]
  · exact List.dropWhile_cons_of_neg (by simp)
  · intro c hc
    have hne : c ≠ ')' := fun h => hu (h ▸ hc)
    simpa using hne

/-- A text without a closing parenthesis closes where the first one follows it. -/
theorem closesBefore_of_not_mem (hu : ')' ∉ u) (r : Text) : closesBefore r (u ++ ')' :: r) = true :=
  decide_eq_true (dropWhile_closing hu r)

/-- A list that is closed does not close again. -/
theorem closesBefore_of_mem (hu : ')' ∈ u) (r : Text) : closesBefore r (u ++ ')' :: r) = false := by
  obtain ⟨x, y, rfl, hx⟩ := List.eq_append_cons_of_mem hu
  refine decide_eq_false fun h => ?_
  rw [List.append_assoc, List.cons_append, dropWhile_closing hx] at h
  have hlength := congrArg List.length h
  simp only [List.length_cons, List.length_append] at hlength
  omega

/-- No list of a text that is not longer closes right before a text. -/
theorem closesBefore_of_length_le {s : Text} (h : s.length ≤ r.length) : closesBefore r s = false := by
  refine decide_eq_false fun heq => ?_
  have hlength := congrArg List.length heq
  have hle := (List.dropWhile_suffix (l := s) (· ≠ ')')).length_le
  rw [List.length_cons] at hlength
  omega

/-- None of the occurrences in a text that is not longer has a list that closes right before `r`. -/
theorem filter_closesBefore_occurrences {s : Text} (hs : s.length ≤ r.length) (keep : Bool) :
    (p.occurrences .anywhere s).filter (fun o => keep || !closesBefore r o.start) = p.occurrences .anywhere s := by
  refine List.filter_eq_self.2 fun o ho => ?_
  have hle := (start_suffix_of_mem_scanFrom ho).length_le
  rw [closesBefore_of_length_le (Nat.le_trans hle hs), Bool.not_false, Bool.or_true]

/-! ## One step of a scan -/

/-- Where nothing is read a scan goes on at the next character. -/
theorem occurrences_cons_of_none {c : Char} {s : Text} (h : p.first? (c :: s) = none) :
    p.occurrences .anywhere (c :: s) = p.occurrences .anywhere s := by
  rw [occurrences, scanFrom_none (by rw [h, ite_self])]
  exact scanFrom_anywhere _ _ _ _

/-- Where something is read a scan goes on with what it leaves. -/
theorem occurrences_of_some {s : Text} {d : Derivation} (hpos : 0 < p.least) (h : p.first? s = some d) :
    p.occurrences .anywhere s = ⟨d, s⟩ :: p.occurrences .anywhere d.rest := by
  obtain ⟨t, ht, hlength⟩ := (derives_of_first? h).eq_append
  have hread := least_le (derives_of_first? h)
  have hne : t ≠ [] := List.length_pos_iff.1 (by omega)
  have hstep := occurrences_eq_cons (ht ▸ h) rfl hne
  rwa [← ht] at hstep

/-! ## Names and parameters -/

/-- The names and the parameters of occurrences, without those whose list closes right before `r`, unless they are kept. -/
def headingsBut (r : Text) (keep : Bool) (os : List Occurrence) : List (Text × Text) :=
  (os.filter fun o => keep || !closesBefore r o.start).map fun o => Method.heading o.toDerivation

/-- A heading that is kept comes first. -/
theorem headingsBut_cons_of_pos {keep : Bool} {o : Occurrence} {os : List Occurrence}
    (h : (keep || !closesBefore r o.start) = true) :
    headingsBut r keep (o :: os) = Method.heading o.toDerivation :: headingsBut r keep os := by
  refine congrArg (List.map _) (List.filter_cons_of_pos ?_)
  exact h

theorem headingsBut_cons_of_neg {o : Occurrence} {os : List Occurrence} (h : closesBefore r o.start = true) :
    headingsBut r false (o :: os) = headingsBut r false os := by
  refine congrArg (List.map _) (List.filter_cons_of_neg ?_)
  rw [h]
  decide

/-- Texts with the same occurrences have the same headings. -/
theorem headings_eq_of_occurrences_eq {s t : Text} (h : p.occurrences .anywhere s = p.occurrences .anywhere t) :
    Method.headings p s = Method.headings p t := congrArg (List.map _) h

/-- Of a text that ends before the place every heading is kept. -/
theorem headingsBut_of_length_le {s : Text} (hs : s.length ≤ r.length) (keep : Bool) :
    headingsBut r keep (p.occurrences .anywhere s) = Method.headings p s :=
  congrArg (List.map _) (filter_closesBefore_occurrences hs keep)

/-- If the heading at the place is kept, all are. -/
theorem headingsBut_true (r : Text) (os : List Occurrence) :
    headingsBut r true os = os.map fun o => Method.heading o.toDerivation :=
  congrArg (List.map _) (List.filter_eq_self.2 fun _ _ => Bool.true_or _)

/-- A heading does not depend on what follows. -/
theorem heading_extend {s : Text} {d : Derivation} (hd : Derives p s d) (t : Text) :
    Method.heading (d.extend t) = Method.heading d := by
  simp only [Method.heading, Derivation.get, get?_extend hd]

/-! ## Patterns with a list -/

/-- What is read up to a closing parenthesis is read the same whatever comes behind it. -/
theorem exists_front (t : Text) {x : Derivation} (hx : Derives front (u ++ ')' :: r) x) (hr : x.rest = r) :
    ∃ x', Derives front (u ++ ')' :: t) x' ∧ x'.rest = t ∧ ∀ f, x'.get? f = x.get? f := by
  have hsplit : ∀ t : Text, u ++ ')' :: t = (u ++ [')']) ++ t := fun t => by simp
  rw [hsplit] at hx
  obtain ⟨e, he, hnil, rfl⟩ := exists_extend_eq hx hr
  refine ⟨e.extend t, hsplit t ▸ derives_extend he t, ?_, fun f => ?_⟩
  · change e.rest ++ t = t
    rw [hnil, List.nil_append]
  · rw [get?_extend he, get?_extend he]

/-- A pattern reads a list up to the first closing parenthesis by `front`, and what comes behind it by `tail`. -/
structure ClosesList (p front tail : Pattern) : Prop where
  /-- It is the one and then the other. -/
  derives_iff : ∀ ⦃s : Text⦄ ⦃d : Derivation⦄, Derives p s d ↔ Derives (front ++ tail) s d
  /-- The first ends with the first closing parenthesis. -/
  readsPast : ReadsPast front ')' (.text [])
  /-- The second reads no closing parenthesis. -/
  onlyReads_tail : tail.OnlyReads (· ≠ ')')
  /-- The second records nothing. -/
  recorded_tail : tail.recorded = []
  /-- The readings of a text agree. -/
  agrees : ∀ ⦃s : Text⦄ ⦃d e : Derivation⦄, Derives p s d → Derives p s e → d.Agrees e
  /-- It begins nowhere in what comes behind the list. -/
  quiet : ∀ ⦃v t : Text⦄ ⦃e : Derivation⦄, Derives tail (v ++ t) e → e.rest = t → BeginsNowhereIn p v t

/-- A text `w` can be put before `r`: no declaration begins in it, and where the pattern behind a list can be read on from `w`, it
can be read on from `r` as well, and then the same is left to be scanned. -/
structure Inserts (p tail : Pattern) (w r : Text) : Prop where
  /-- No declaration begins in the text. -/
  quiet : BeginsNowhereIn p w r
  /-- What is read with the text is read without it. -/
  read : ∀ ⦃e : Derivation⦄, Derives tail (w ++ r) e →
    ∃ f, Derives tail r f ∧ p.occurrences .anywhere e.rest = p.occurrences .anywhere f.rest

namespace ClosesList

/-- A reading whose list closes at a place is a reading up to there, and from there on one of what comes behind. -/
theorem exists_parts (h : ClosesList p front tail) (hu : ')' ∉ u) {d : Derivation} (hd : Derives p (u ++ ')' :: r) d) :
    ∃ x y, Derives front (u ++ ')' :: r) x ∧ x.rest = r ∧ Derives tail r y ∧ d = x.andThen y := by
  obtain ⟨x, y, hx, hy, rfl⟩ := derives_append_iff.1 (h.derives_iff.1 hd)
  obtain ⟨v, t, e, hcut, hv, he, hrest⟩ := h.readsPast hx
  obtain ⟨_, rfl, rfl⟩ := derives_text_iff.1 he
  have hxr : x.rest = r := by
    rcases cut_first hcut hv with ⟨-, ht⟩ | ⟨z, rfl, -⟩
    · exact hrest.trans ht
    · exact absurd (by simp) hu
  exact ⟨x, y, hx, hxr, hxr ▸ hy, rfl⟩

/-- A reading goes past the first closing parenthesis, and from there on it is one of what comes behind a list. -/
theorem readsPast_tail (h : ClosesList p front tail) : ReadsPast p ')' tail := by
  intro s d hd
  obtain ⟨v, t, e, hs, hv, he, hrest⟩ := (h.readsPast.append tail) (h.derives_iff.1 hd)
  obtain ⟨x, y, hx, hy, rfl⟩ := derives_append_iff.1 he
  obtain ⟨_, rfl, rfl⟩ := derives_text_iff.1 hx
  exact ⟨v, t, y, hs, hv, hy, hrest⟩

/-- Where a list is closed before a place, a reading ends before the closing parenthesis at the place. -/
theorem length_lt_rest (h : ClosesList p front tail) (hu : ')' ∈ u) {d : Derivation} (hd : Derives p (u ++ ')' :: r) d) :
    r.length < d.rest.length := by
  obtain ⟨v, t, e, hcut, hv, he, hrest⟩ := h.readsPast_tail hd
  rw [hrest]
  rcases cut_first hcut hv with ⟨rfl, -⟩ | ⟨z, -, rfl⟩
  · exact absurd hu hv
  · exact h.onlyReads_tail.length_lt_rest he

/-- So what is read there does not depend on what comes behind the closing parenthesis. -/
theorem first?_eq (h : ClosesList p front tail) (hu : ')' ∈ u) (t : Text) :
    p.first? (u ++ ')' :: t) = (p.first? (u ++ [')'])).map (·.extend t) := by
  have hsplit : u ++ ')' :: t = (u ++ [')']) ++ t := by simp
  rw [hsplit]
  refine first?_append fun d hd => Nat.le_of_lt (h.length_lt_rest hu ?_)
  rwa [hsplit]

/-- A reading that ends before a closing parenthesis leaves it. -/
theorem exists_rest (h : ClosesList p front tail) (hpos : 0 < p.least) (hu : ')' ∈ u) {d : Derivation}
    (hd : Derives p (u ++ [')']) d) : ∃ z, d.rest = z ++ [')'] ∧ z.length < u.length := by
  have hlt := h.length_lt_rest (r := []) hu hd
  obtain ⟨v, hv, hlength⟩ := hd.eq_append
  have hread := least_le hd
  rcases List.eq_nil_or_concat' d.rest with hnil | ⟨z, c, hz⟩
  · rw [hnil] at hlt
    exact absurd hlt (Nat.lt_irrefl _)
  · rw [hz, ← List.append_assoc] at hv
    obtain ⟨rfl, hc⟩ := List.append_inj' hv rfl
    rw [← (List.cons.inj hc).1] at hz
    refine ⟨z, hz, ?_⟩
    rw [List.length_append]
    omega

/-- Nothing is read up to a closing parenthesis if it cannot be read on behind it. -/
theorem beginsNowhereIn (h : ClosesList p front tail) (hu : ')' ∉ u) {t : Text} (ht : ∀ e, ¬Derives tail t e) :
    BeginsNowhereIn p (u ++ [')']) t := by
  rintro v hv hne d hd
  obtain ⟨z, rfl, hz⟩ := (List.suffix_concat_iff.1 hv).resolve_left hne
  rw [List.append_assoc] at hd
  obtain ⟨_, y, -, -, hy, -⟩ := h.exists_parts (fun hmem => hu (hz.subset hmem)) hd
  exact ht y hy

/-- The name and the parameters stand in the list and before it. -/
theorem heading_andThen (h : ClosesList p front tail) {x y z : Derivation} {s t : Text} (hz : ∀ f, z.get? f = x.get? f)
    {e : Derivation} (hy : Derives tail s y) (he : Derives tail t e) :
    Method.heading (z.andThen e) = Method.heading (x.andThen y) := by
  have hnone : ∀ {s : Text} {e : Derivation}, Derives tail s e → ∀ f, e.get? f = none := fun he f =>
    get?_eq_none he (by rw [h.recorded_tail]; exact List.not_mem_nil)
  simp only [Method.heading, Derivation.get, Derivation.get?_andThen, hnone hy, hnone he, hz]

/-! ## The declarations that are found -/

/-- Where a list is closed before the place, the first occurrence is the same, or there is none. -/
theorem headings_insert_of_mem (h : ClosesList p front tail) (hpos : 0 < p.least) {keep : Bool} (hu : ')' ∈ u)
    (ih : ∀ v : Text, v.length < u.length → Method.headings p (v ++ ')' :: (w ++ r)) =
      headingsBut r keep (p.occurrences .anywhere (v ++ ')' :: r))) :
    Method.headings p (u ++ ')' :: (w ++ r)) = headingsBut r keep (p.occurrences .anywhere (u ++ ')' :: r)) := by
  cases hfirst : p.first? (u ++ [')']) with
  | none =>
    obtain ⟨c, v, rfl⟩ := List.exists_cons_of_ne_nil (List.ne_nil_of_mem hu)
    have hnone : ∀ t, p.first? (c :: (v ++ ')' :: t)) = none := fun t => by
      rw [← List.cons_append, h.first?_eq hu t, hfirst, Option.map_none]
    rw [List.cons_append, List.cons_append, occurrences_cons_of_none (hnone r), ← ih v (Nat.lt_succ_self _)]
    exact headings_eq_of_occurrences_eq (occurrences_cons_of_none (hnone (w ++ r)))
  | some d =>
    have hd := derives_of_first? hfirst
    have hsome : ∀ t, p.first? (u ++ ')' :: t) = some (d.extend t) := fun t => by
      rw [h.first?_eq hu t, hfirst, Option.map_some]
    obtain ⟨z, hz, hlength⟩ := h.exists_rest hpos hu hd
    have hrest : ∀ t, (d.extend t).rest = z ++ ')' :: t := fun t => by
      change d.rest ++ t = _
      rw [hz, List.append_assoc]
      rfl
    have hstays : (keep || !closesBefore r (u ++ ')' :: r)) = true := by
      rw [closesBefore_of_mem hu, Bool.not_false, Bool.or_true]
    rw [Method.headings, occurrences_of_some hpos (hsome _), occurrences_of_some hpos (hsome _),
      headingsBut_cons_of_pos hstays, List.map_cons, heading_extend hd, heading_extend hd, hrest, hrest]
    exact congrArg (_ :: ·) (ih z hlength)

/-- Where the list of an occurrence closes at the place, it is found again if it is kept. -/
theorem headings_insert_of_some (h : ClosesList p front tail) (hpos : 0 < p.least) (hins : Inserts p tail w r) {keep : Bool}
    (hkeep : keep = true ↔ ∃ e, Derives tail (w ++ r) e) (hu : ')' ∉ u) {d : Derivation}
    (hfirst : p.first? (u ++ ')' :: r) = some d) :
    Method.headings p (u ++ ')' :: (w ++ r)) = headingsBut r keep (p.occurrences .anywhere (u ++ ')' :: r)) := by
  obtain ⟨x, y, hx, hxr, hy, rfl⟩ := h.exists_parts hu (derives_of_first? hfirst)
  obtain ⟨v, hv, -⟩ := hy.eq_append
  have hlater : y.rest.length ≤ r.length := by
    rw [hv, List.length_append]
    exact Nat.le_add_left _ _
  rw [occurrences_of_some hpos hfirst]
  cases keep with
  | true =>
    obtain ⟨e, he⟩ := hkeep.1 rfl
    obtain ⟨x', hx', hxr', hget⟩ := exists_front (w ++ r) hx hxr
    have hderives : Derives p (u ++ ')' :: (w ++ r)) (x'.andThen e) :=
      h.derives_iff.2 (derives_append_iff.2 ⟨x', e, hx', hxr'.symm ▸ he, rfl⟩)
    obtain ⟨d', hd'⟩ : ∃ d', p.first? (u ++ ')' :: (w ++ r)) = some d' := by
      cases hnone : p.first? (u ++ ')' :: (w ++ r)) with
      | none => exact absurd hderives (first?_eq_none_iff.1 hnone _)
      | some d' => exact ⟨d', rfl⟩
    have hagree := h.agrees (derives_of_first? hd') hderives
    have hheading : Method.heading d' = Method.heading (x.andThen y) := by
      rw [← h.heading_andThen hget hy he]
      simp only [Method.heading, Derivation.get, hagree.name, hagree.params]
    -- behind the place the same is left to be scanned
    obtain ⟨f, hf, hsame⟩ := hins.read he
    have hfy : f.rest = y.rest :=
      (h.agrees (h.derives_iff.2 (derives_append_iff.2 ⟨x, f, hx, hxr.symm ▸ hf, rfl⟩)) (derives_of_first? hfirst)).rest
    rw [headingsBut_cons_of_pos (Bool.true_or _), Method.headings, occurrences_of_some hpos hd', List.map_cons, hheading]
    refine congrArg (_ :: ·) ((headings_eq_of_occurrences_eq ?_).trans (headingsBut_of_length_le hlater true).symm)
    rw [hagree.rest]
    exact hsame.trans (congrArg _ hfy)
  | false =>
    have hnone : ∀ e, ¬Derives tail (w ++ r) e := fun e he => Bool.false_ne_true (hkeep.2 ⟨e, he⟩)
    have hsplit : u ++ ')' :: (w ++ r) = (u ++ [')']) ++ (w ++ r) := by simp
    rw [headingsBut_cons_of_neg (closesBefore_of_not_mem hu r)]
    refine (headings_eq_of_occurrences_eq ?_).trans (headingsBut_of_length_le hlater false).symm
    rw [hsplit, occurrences_of_beginsNowhereIn (h.beginsNowhereIn hu hnone), occurrences_of_beginsNowhereIn hins.quiet, hv]
    exact occurrences_of_beginsNowhereIn (h.quiet (hv ▸ hy) rfl)

/-- Where nothing is read whose list closes at the place, nothing is read with the text either. -/
theorem first?_insert_eq_none (h : ClosesList p front tail) (hins : Inserts p tail w r) (hu : ')' ∉ u)
    (hfirst : p.first? (u ++ ')' :: r) = none) : p.first? (u ++ ')' :: (w ++ r)) = none := by
  refine first?_eq_none_iff.2 fun d hd => ?_
  obtain ⟨x, e, hx, hxr, he, -⟩ := h.exists_parts hu hd
  obtain ⟨f, hf, -⟩ := hins.read he
  obtain ⟨x', hx', hxr', -⟩ := exists_front r hx hxr
  exact first?_eq_none_iff.1 hfirst _ (h.derives_iff.2 (derives_append_iff.2 ⟨x', f, hx', hxr'.symm ▸ hf, rfl⟩))

/-- Of a source with a text put behind a closing parenthesis the occurrences are the same, by their names and parameters, without
those whose list closes there; these are kept if what comes behind a list can be read on from the text. The induction is on what
stands before the place: a reading that begins there takes some of it, or goes past the place. -/
theorem headings_insert (h : ClosesList p front tail) (hpos : 0 < p.least) (hins : Inserts p tail w r) {keep : Bool}
    (hkeep : keep = true ↔ ∃ e, Derives tail (w ++ r) e) (u : Text) :
    Method.headings p (u ++ ')' :: (w ++ r)) = headingsBut r keep (p.occurrences .anywhere (u ++ ')' :: r)) := by
  induction hn : u.length using Nat.strongRecOn generalizing u with
  | ind n ih =>
    subst hn
    by_cases hu : ')' ∈ u
    · exact h.headings_insert_of_mem hpos hu fun v hv => ih _ hv v rfl
    · cases hfirst : p.first? (u ++ ')' :: r) with
      | some d => exact h.headings_insert_of_some hpos hins hkeep hu hfirst
      | none =>
        have hnone := h.first?_insert_eq_none hins hu hfirst
        cases u with
        | nil =>
          rw [List.nil_append] at hfirst hnone
          rw [List.nil_append, List.nil_append, occurrences_cons_of_none hfirst, headingsBut_of_length_le (Nat.le_refl _)]
          refine headings_eq_of_occurrences_eq ?_
          rw [occurrences_cons_of_none hnone, occurrences_of_beginsNowhereIn hins.quiet]
        | cons c v =>
          rw [List.cons_append] at hfirst hnone
          rw [List.cons_append, List.cons_append, occurrences_cons_of_none hfirst, ← ih _ (Nat.lt_succ_self _) v rfl]
          exact headings_eq_of_occurrences_eq (occurrences_cons_of_none hnone)

end ClosesList

end Pattern

end SourceInventory
