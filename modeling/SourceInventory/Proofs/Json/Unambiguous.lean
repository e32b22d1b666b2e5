import SourceInventory.Proofs.Json.Complete

/-!
# Unambiguous: a text denotes at most one value

Where one thing that is written ends and the next begins can be told from the text: a string ends at its quotation mark, a number
at the first character that cannot be a part of it, an array and an object at their brackets. So two ways of taking a text apart
are the same, and a text denotes no second value, however many digits an integer may have (`Denotes.unique`).
-/

namespace SourceInventory.Json

variable {limit : ℕ∞} {r r' : Text}

/-! ## Tokens -/

/-- Gaps end at the first character that is none. -/
theorem gap_append_cons_inj {g g' s s' : Text} {c c' : Char} (hg : Gap g) (hg' : Gap g') (hc : isGap c = false)
    (hc' : isGap c' = false) (h : g ++ c :: s = g' ++ c' :: s') : c = c' ∧ s = s' := by
  have hskip := congrArg skipGap h
  rw [skipGap_append_cons hg hc, skipGap_append_cons hg' hc'] at hskip
  exact List.cons.inj hskip

/-- What follows a gap and begins with no gap can be told from the text. -/
theorem gap_append_inj {g g' x x' : Text} (hg : Gap g) (hg' : Gap g') (hx : ∃ c cs, x = c :: cs ∧ isGap c = false)
    (hx' : ∃ c cs, x' = c :: cs ∧ isGap c = false) (h : g ++ (x ++ r) = g' ++ (x' ++ r')) : x ++ r = x' ++ r' := by
  obtain ⟨c, cs, rfl, hc⟩ := hx
  obtain ⟨c', cs', rfl, hc'⟩ := hx'
  obtain ⟨rfl, hrest⟩ := gap_append_cons_inj hg hg' hc hc' h
  exact congrArg (c :: ·) hrest

/-- A string ends at its quotation mark. -/
theorem SpellsString.unique {q q' : Text} {k k' : CodeText} (hk : SpellsString q k) (hk' : SpellsString q' k')
    (h : q ++ r = q' ++ r') : k = k' ∧ r = r' := by
  cases hk with
  | @quoted u cs hpoints =>
    cases hk' with
    | @quoted u' cs' hpoints' =>
      have htail : u ++ '"' :: r = u' ++ '"' :: r' := by simpa using h
      have hread := stringTail_points hpoints [] r
      rw [htail, stringTail_points hpoints'] at hread
      obtain ⟨hcs, hr⟩ := Prod.mk.inj (Except.ok.inj hread)
      exact ⟨hcs.symm, hr.symm⟩

/-- The parts of a number can be told from the text. -/
theorem Parts.unique {s ds ds' part part' : Text} {i i' : Int} {power power' : Option Int} (h : Parts s i ds part power r)
    (h' : Parts s i' ds' part' power' r') : i = i' ∧ ds = ds' ∧ part = part' ∧ power = power' ∧ r = r' := by
  obtain ⟨sign, t, r₁, r₂, hsign, rfl, ht, hwhole, hfraction, hexponent⟩ := h
  obtain ⟨sign', t', r₁', r₂', hsign', heq, ht', hwhole', hfraction', hexponent'⟩ := h'
  have hboth : i = i' ∧ t = t' := by
    cases hsign with
    | none =>
      cases hsign' with
      | none => exact ⟨rfl, heq⟩
      | minus =>
        rw [List.nil_append] at heq
        exact absurd (heq ▸ rfl) ht
    | minus =>
      cases hsign' with
      | none =>
        rw [List.nil_append] at heq
        exact absurd (heq ▸ rfl) ht'
      | minus => exact ⟨rfl, (List.cons.inj heq).2⟩
  obtain ⟨rfl, rfl⟩ := hboth
  obtain ⟨rfl, rfl⟩ := Prod.mk.inj (Option.some.inj (hwhole.symm.trans hwhole'))
  obtain ⟨rfl, rfl⟩ := Prod.mk.inj (hfraction.symm.trans hfraction')
  obtain ⟨rfl, rfl⟩ := Prod.mk.inj (hexponent.symm.trans hexponent')
  exact ⟨rfl, rfl, rfl, rfl, rfl⟩

/-- A number ends where what follows cannot be a part of it. -/
theorem SpellsNumber.unique {u u' : Text} {n n' : Number} (hn : SpellsNumber limit u n) (hn' : SpellsNumber limit u' n')
    (hr : Ends r) (hr' : Ends r') (h : u ++ r = u' ++ r') : n = n' ∧ r = r' := by
  obtain ⟨i, ds, hparts, -, rfl⟩ | ⟨i, ds, part, power, hparts, hdecimal, rfl⟩ := hn.exists_parts hr
  · obtain ⟨i', ds', hparts', -, rfl⟩ | ⟨i', ds', part', power', hparts', hdecimal, rfl⟩ := hn'.exists_parts hr'
    · obtain ⟨rfl, rfl, -, -, rfl⟩ := hparts.unique (h ▸ hparts')
      exact ⟨rfl, rfl⟩
    · obtain ⟨-, -, rfl, rfl, -⟩ := hparts.unique (h ▸ hparts')
      exact absurd hdecimal (by simp)
  · obtain ⟨i', ds', hparts', -, rfl⟩ | ⟨i', ds', part', power', hparts', -, rfl⟩ := hn'.exists_parts hr'
    · obtain ⟨-, -, rfl, rfl, -⟩ := hparts.unique (h ▸ hparts')
      exact absurd hdecimal (by simp)
    · obtain ⟨rfl, rfl, rfl, rfl, rfl⟩ := hparts.unique (h ▸ hparts')
      exact ⟨rfl, rfl⟩

/-! ## Values -/

/-- No word can be taken for a number. -/
theorem SpellsScalar.unique {u u' : Text} {v v' : Json} (hv : SpellsScalar limit u v) (hv' : SpellsScalar limit u' v')
    (hr : Ends r) (hr' : Ends r') (h : u ++ r = u' ++ r') : v = v' ∧ r = r' := by
  cases hv with
  | word hw =>
    have hread := word?_word hw r
    cases hv' with
    | word hw' =>
      rw [h, word?_word hw'] at hread
      obtain ⟨hv, hr⟩ := Prod.mk.inj (Option.some.inj hread)
      exact ⟨hv.symm, hr.symm⟩
    | number hn' =>
      rw [h, word?_number hn'] at hread
      exact absurd hread (by simp)
  | number hn =>
    cases hv' with
    | word hw' =>
      have hread := word?_word hw' r'
      rw [← h, word?_number hn] at hread
      exact absurd hread (by simp)
    | number hn' =>
      obtain ⟨rfl, rfl⟩ := hn.unique hn' hr hr' h
      exact ⟨rfl, rfl⟩

/-- What stands in an array after the gap behind its opening bracket. -/
def SpellsArrayTail (limit : ℕ∞) (u : Text) (vs : List Json) : Prop := u = [']'] ∧ vs = [] ∨ SpellsItems limit u vs

/-- What stands in an object after the gap behind its opening bracket. -/
def SpellsObjectTail (limit : ℕ∞) (u : Text) (ms : List (CodeText × Json)) : Prop :=
  u = ['}'] ∧ ms = [] ∨ SpellsMembers limit u ms

/-- What a value is can be told from its first character. -/
structure Begins (limit : ℕ∞) (c : Char) (u : Text) (v : Json) : Prop where
  string : c = '"' → ∃ s, SpellsString (c :: u) s ∧ v = .string s
  array : c = '[' → ∃ g x vs, u = g ++ x ∧ Gap g ∧ SpellsArrayTail limit x vs ∧ v = .array vs
  object : c = '{' → ∃ g x ms, u = g ++ x ∧ Gap g ∧ SpellsObjectTail limit x ms ∧ v = ofMembers ms
  scalar : c ≠ '"' → c ≠ '[' → c ≠ '{' → SpellsScalar limit (c :: u) v

/-- The first character of a text tells what kind of value it spells. -/
theorem Spells.begins {u s : Text} {c : Char} {v : Json} (h : Spells limit u v) (hu : u = c :: s) : Begins limit c s v := by
  cases h with
  | scalar hv =>
    obtain ⟨d, ds, hd, -, hother⟩ := hv.exists_cons
    obtain ⟨rfl, rfl⟩ := List.cons.inj (hu.symm.trans hd)
    exact ⟨fun h => absurd h (hother _ (by simp)), fun h => absurd h (hother _ (by simp)), fun h => absurd h (hother _ (by simp)),
      fun _ _ _ => hu ▸ hv⟩
  | @string _ s' hs =>
    have hc : c = '"' := by
      cases hs
      exact (List.cons.inj hu).1.symm
    exact ⟨fun _ => ⟨s', hu ▸ hs, rfl⟩, fun h => absurd (hc.symm.trans h) (by decide), fun h => absurd (hc.symm.trans h) (by decide),
      fun h => absurd hc h⟩
  | @emptyArray g hg =>
    obtain ⟨rfl, rfl⟩ := List.cons.inj hu
    exact ⟨fun h => absurd h (by decide), fun _ => ⟨g, _, [], rfl, hg, Or.inl ⟨rfl, rfl⟩, rfl⟩, fun h => absurd h (by decide),
      fun _ h => absurd rfl h⟩
  | @array g w vs hg hitems =>
    obtain ⟨rfl, rfl⟩ := List.cons.inj hu
    exact ⟨fun h => absurd h (by decide), fun _ => ⟨g, w, vs, rfl, hg, Or.inr hitems, rfl⟩, fun h => absurd h (by decide),
      fun _ h => absurd rfl h⟩
  | @emptyObject g hg =>
    obtain ⟨rfl, rfl⟩ := List.cons.inj hu
    exact ⟨fun h => absurd h (by decide), fun h => absurd h (by decide), fun _ => ⟨g, _, [], rfl, hg, Or.inl ⟨rfl, rfl⟩, rfl⟩,
      fun _ _ h => absurd rfl h⟩
  | @object g w ms hg hmembers =>
    obtain ⟨rfl, rfl⟩ := List.cons.inj hu
    exact ⟨fun h => absurd h (by decide), fun h => absurd h (by decide), fun _ => ⟨g, w, ms, rfl, hg, Or.inr hmembers, rfl⟩,
      fun _ _ h => absurd rfl h⟩

/-- What follows the opening bracket begins with no gap. -/
theorem SpellsArrayTail.exists_cons {u : Text} {vs : List Json} (h : SpellsArrayTail limit u vs) :
    ∃ c cs, u = c :: cs ∧ isGap c = false := by
  rcases h with ⟨rfl, -⟩ | h
  · exact ⟨']', [], rfl, rfl⟩
  · obtain ⟨c, cs, hu, hgap, -⟩ := h.exists_cons
    exact ⟨c, cs, hu, hgap⟩

/-- What follows the opening brace begins with no gap. -/
theorem SpellsObjectTail.exists_cons {u : Text} {ms : List (CodeText × Json)} (h : SpellsObjectTail limit u ms) :
    ∃ c cs, u = c :: cs ∧ isGap c = false := by
  rcases h with ⟨rfl, -⟩ | h
  · exact ⟨'}', [], rfl, rfl⟩
  · obtain ⟨cs, hu⟩ := h.exists_cons
    exact ⟨'"', cs, hu, rfl⟩

/-- What is written in at most `n` characters can be told from the text. -/
structure UniqueAt (limit : ℕ∞) (n : Nat) : Prop where
  value : ∀ {u u' v v' r r'}, Spells limit u v → Spells limit u' v' → u.length ≤ n → Ends r → Ends r' → u ++ r = u' ++ r' →
    v = v' ∧ r = r'
  items : ∀ {u u' vs vs' r r'}, SpellsItems limit u vs → SpellsItems limit u' vs' → u.length ≤ n → u ++ r = u' ++ r' →
    vs = vs' ∧ r = r'
  members : ∀ {u u' ms ms' r r'}, SpellsMembers limit u ms → SpellsMembers limit u' ms' → u.length ≤ n → u ++ r = u' ++ r' →
    ms = ms' ∧ r = r'

namespace UniqueAt

variable {n : Nat}

/-- One text spells the tail of one array at most. -/
theorem arrayTail (h : UniqueAt limit n) {x x' : Text} {vs vs' : List Json} (hx : SpellsArrayTail limit x vs)
    (hx' : SpellsArrayTail limit x' vs') (hlen : x.length ≤ n) (heq : x ++ r = x' ++ r') : vs = vs' ∧ r = r' := by
  rcases hx with ⟨rfl, rfl⟩ | hvs
  · rcases hx' with ⟨rfl, rfl⟩ | hvs'
    · exact ⟨rfl, (List.cons.inj heq).2⟩
    · obtain ⟨c, cs, rfl, -, hclose⟩ := hvs'.exists_cons
      exact absurd (List.cons.inj heq).1.symm hclose
  · rcases hx' with ⟨rfl, rfl⟩ | hvs'
    · obtain ⟨c, cs, rfl, -, hclose⟩ := hvs.exists_cons
      exact absurd (List.cons.inj heq).1 hclose
    · exact h.items hvs hvs' hlen heq

/-- One text spells the tail of one object at most. -/
theorem objectTail (h : UniqueAt limit n) {x x' : Text} {ms ms' : List (CodeText × Json)} (hx : SpellsObjectTail limit x ms)
    (hx' : SpellsObjectTail limit x' ms') (hlen : x.length ≤ n) (heq : x ++ r = x' ++ r') : ms = ms' ∧ r = r' := by
  rcases hx with ⟨rfl, rfl⟩ | hms
  · rcases hx' with ⟨rfl, rfl⟩ | hms'
    · exact ⟨rfl, (List.cons.inj heq).2⟩
    · obtain ⟨cs, rfl⟩ := hms'.exists_cons
      exact absurd (List.cons.inj heq).1 (by decide)
  · rcases hx' with ⟨rfl, rfl⟩ | hms'
    · obtain ⟨cs, rfl⟩ := hms.exists_cons
      exact absurd (List.cons.inj heq).1 (by decide)
    · exact h.members hms hms' hlen heq

/-- If texts up to a length spell one value at most, so do texts with one character more. -/
theorem value_succ (h : UniqueAt limit n) {u u' r r' : Text} {v v' : Json} (hv : Spells limit u v) (hv' : Spells limit u' v')
    (hlen : u.length ≤ n + 1) (hr : Ends r) (hr' : Ends r') (heq : u ++ r = u' ++ r') : v = v' ∧ r = r' := by
  obtain ⟨c, w, rfl, -⟩ := hv.exists_cons
  obtain ⟨c', w', rfl, -⟩ := hv'.exists_cons
  obtain ⟨rfl, hrest⟩ : c = c' ∧ w ++ r = w' ++ r' := List.cons.inj heq
  have hb := hv.begins rfl
  have hb' := hv'.begins rfl
  rw [List.length_cons, Nat.add_le_add_iff_right] at hlen
  by_cases hquote : c = '"'
  · obtain ⟨s, hs, rfl⟩ := hb.string hquote
    obtain ⟨s', hs', rfl⟩ := hb'.string hquote
    obtain ⟨rfl, rfl⟩ := hs.unique hs' heq
    exact ⟨rfl, rfl⟩
  by_cases harray : c = '['
  · obtain ⟨g, x, vs, rfl, hg, hx, rfl⟩ := hb.array harray
    obtain ⟨g', x', vs', rfl, hg', hx', rfl⟩ := hb'.array harray
    rw [List.length_append] at hlen
    rw [List.append_assoc, List.append_assoc] at hrest
    have htail := gap_append_inj hg hg' hx.exists_cons hx'.exists_cons hrest
    obtain ⟨rfl, rfl⟩ := h.arrayTail hx hx' (by omega) htail
    exact ⟨rfl, rfl⟩
  by_cases hobject : c = '{'
  · obtain ⟨g, x, ms, rfl, hg, hx, rfl⟩ := hb.object hobject
    obtain ⟨g', x', ms', rfl, hg', hx', rfl⟩ := hb'.object hobject
    rw [List.length_append] at hlen
    rw [List.append_assoc, List.append_assoc] at hrest
    have htail := gap_append_inj hg hg' hx.exists_cons hx'.exists_cons hrest
    obtain ⟨rfl, rfl⟩ := h.objectTail hx hx' (by omega) htail
    exact ⟨rfl, rfl⟩
  · exact (hb.scalar hquote harray hobject).unique (hb'.scalar hquote harray hobject) hr hr' heq

/-- An item ends where a gap and then a comma or a bracket follow. -/
theorem item (h : UniqueAt limit n) {u u' g g' s s' : Text} {v v' : Json} {e e' : Char} (hv : Spells limit u v)
    (hv' : Spells limit u' v') (hg : Gap g) (hg' : Gap g') (he : e = ',' ∨ e = ']' ∨ e = '}')
    (he' : e' = ',' ∨ e' = ']' ∨ e' = '}') (hlen : u.length ≤ n)
    (heq : u ++ (g ++ e :: s) = u' ++ (g' ++ e' :: s')) : v = v' ∧ e = e' ∧ s = s' := by
  have hnext : ∀ {x : Char}, x = ',' ∨ x = ']' ∨ x = '}' → isGap x = false := by
    rintro x (rfl | rfl | rfl)
    all_goals rfl
  obtain ⟨hvalue, hrest⟩ := h.value hv hv' hlen (ends_gap_cons hg he s) (ends_gap_cons hg' he' s') heq
  exact ⟨hvalue, gap_append_cons_inj hg hg' (hnext he) (hnext he') hrest⟩

/-- The same holds of the items of an array. -/
theorem items_succ (h : UniqueAt limit n) {u u' r r' : Text} {vs vs' : List Json} (hvs : SpellsItems limit u vs)
    (hvs' : SpellsItems limit u' vs') (hlen : u.length ≤ n + 1) (heq : u ++ r = u' ++ r') : vs = vs' ∧ r = r' := by
  cases hvs with
  | last hv hg =>
    simp only [List.length_append, List.length_cons] at hlen
    cases hvs' with
    | last hv' hg' =>
      simp only [List.append_assoc, List.cons_append, List.nil_append] at heq
      obtain ⟨rfl, -, rfl⟩ := h.item hv hv' hg hg' (by simp) (by simp) (by omega) heq
      exact ⟨rfl, rfl⟩
    | cons hv' hg' =>
      simp only [List.append_assoc, List.cons_append, List.nil_append] at heq
      exact absurd (h.item hv hv' hg hg' (by simp) (by simp) (by omega) heq).2.1 (by decide)
  | cons hv hg hnext hitems =>
    simp only [List.length_append, List.length_cons] at hlen
    cases hvs' with
    | last hv' hg' =>
      simp only [List.append_assoc, List.cons_append, List.nil_append] at heq
      exact absurd (h.item hv hv' hg hg' (by simp) (by simp) (by omega) heq).2.1 (by decide)
    | cons hv' hg' hnext' hitems' =>
      simp only [List.append_assoc, List.cons_append] at heq
      obtain ⟨rfl, -, hrest⟩ := h.item hv hv' hg hg' (by simp) (by simp) (by omega) heq
      obtain ⟨c, cs, hc, hgap, -⟩ := hitems.exists_cons
      obtain ⟨c', cs', hc', hgap', -⟩ := hitems'.exists_cons
      have htail := gap_append_inj hnext hnext' ⟨c, cs, hc, hgap⟩ ⟨c', cs', hc', hgap'⟩ hrest
      obtain ⟨rfl, rfl⟩ := h.items hitems hitems' (by omega) htail
      exact ⟨rfl, rfl⟩

/-- A member ends where a gap and then a comma or a bracket follow its value. -/
theorem member (h : UniqueAt limit n) {q q' g g' u u' w w' x x' s s' : Text} {k k' : CodeText} {v v' : Json} {e e' : Char}
    (hk : SpellsString q k) (hk' : SpellsString q' k') (hg : Gap g) (hg' : Gap g') (hw : Gap w) (hw' : Gap w')
    (hv : Spells limit u v) (hv' : Spells limit u' v') (hx : Gap x) (hx' : Gap x') (he : e = ',' ∨ e = ']' ∨ e = '}')
    (he' : e' = ',' ∨ e' = ']' ∨ e' = '}') (hlen : u.length ≤ n)
    (heq : q ++ (g ++ ':' :: (w ++ (u ++ (x ++ e :: s)))) = q' ++ (g' ++ ':' :: (w' ++ (u' ++ (x' ++ e' :: s'))))) :
    (k, v) = (k', v') ∧ e = e' ∧ s = s' := by
  obtain ⟨rfl, hcolon⟩ := hk.unique hk' heq
  obtain ⟨-, hvalue⟩ := gap_append_cons_inj hg hg' (by decide) (by decide) hcolon
  obtain ⟨c, cs, hc, hgap, -⟩ := hv.exists_cons
  obtain ⟨c', cs', hc', hgap', -⟩ := hv'.exists_cons
  have hbegin := gap_append_inj hw hw' ⟨c, cs, hc, hgap⟩ ⟨c', cs', hc', hgap'⟩ hvalue
  obtain ⟨rfl, hrest⟩ := h.item hv hv' hx hx' he he' hlen hbegin
  exact ⟨rfl, hrest⟩

/-- And it holds of the members of an object. -/
theorem members_succ (h : UniqueAt limit n) {u u' r r' : Text} {ms ms' : List (CodeText × Json)}
    (hms : SpellsMembers limit u ms) (hms' : SpellsMembers limit u' ms') (hlen : u.length ≤ n + 1) (heq : u ++ r = u' ++ r') :
    ms = ms' ∧ r = r' := by
  cases hms with
  | last hk hg hw hv hx =>
    simp only [List.length_append, List.length_cons] at hlen
    cases hms' with
    | last hk' hg' hw' hv' hx' =>
      simp only [List.append_assoc, List.cons_append, List.nil_append] at heq
      obtain ⟨hm, -, rfl⟩ := h.member hk hk' hg hg' hw hw' hv hv' hx hx' (by simp) (by simp) (by omega) heq
      exact ⟨congrArg ([·]) hm, rfl⟩
    | cons hk' hg' hw' hv' hx' =>
      simp only [List.append_assoc, List.cons_append, List.nil_append] at heq
      exact absurd (h.member hk hk' hg hg' hw hw' hv hv' hx hx' (by simp) (by simp) (by omega) heq).2.1 (by decide)
  | cons hk hg hw hv hx hnext hmembers =>
    simp only [List.length_append, List.length_cons] at hlen
    cases hms' with
    | last hk' hg' hw' hv' hx' =>
      simp only [List.append_assoc, List.cons_append, List.nil_append] at heq
      exact absurd (h.member hk hk' hg hg' hw hw' hv hv' hx hx' (by simp) (by simp) (by omega) heq).2.1 (by decide)
    | cons hk' hg' hw' hv' hx' hnext' hmembers' =>
      simp only [List.append_assoc, List.cons_append] at heq
      obtain ⟨hm, -, hrest⟩ := h.member hk hk' hg hg' hw hw' hv hv' hx hx' (by simp) (by simp) (by omega) heq
      obtain ⟨cs, hc⟩ := hmembers.exists_cons
      obtain ⟨cs', hc'⟩ := hmembers'.exists_cons
      have htail := gap_append_inj hnext hnext' ⟨_, cs, hc, rfl⟩ ⟨_, cs', hc', rfl⟩ hrest
      obtain ⟨rfl, rfl⟩ := h.members hmembers hmembers' (by omega) htail
      exact ⟨congrArg (· :: _) hm, rfl⟩

end UniqueAt

/-- Everything that is written can be told from the text; the induction is on the number of characters. -/
theorem uniqueAt (limit : ℕ∞) (n : Nat) : UniqueAt limit n := by
  induction n with
  | zero =>
    refine ⟨fun hv _ hlen => ?_, fun hvs _ hlen => ?_, fun hms _ hlen => ?_⟩
    · obtain ⟨c, cs, rfl, -⟩ := hv.exists_cons
      exact absurd hlen (Nat.not_succ_le_zero _)
    · obtain ⟨c, cs, rfl, -⟩ := hvs.exists_cons
      exact absurd hlen (Nat.not_succ_le_zero _)
    · obtain ⟨cs, rfl⟩ := hms.exists_cons
      exact absurd hlen (Nat.not_succ_le_zero _)
  | succ n ih => exact ⟨ih.value_succ, ih.items_succ, ih.members_succ⟩

/-- A text denotes no second value. -/
theorem Denotes.unique {s : Text} {v v' : Json} (h : Denotes limit s v) (h' : Denotes limit s v') : v = v' := by
  obtain @⟨g, u, g', v, hg, hv, hg'⟩ := h
  generalize hs : g ++ (u ++ g') = s at h'
  obtain @⟨x, w, x', v', hx, hw, hx'⟩ := h'
  obtain ⟨c, cs, hc, hgap, -⟩ := hv.exists_cons
  obtain ⟨c', cs', hc', hgap', -⟩ := hw.exists_cons
  have hbegin := gap_append_inj hg hx ⟨c, cs, hc, hgap⟩ ⟨c', cs', hc', hgap'⟩ hs
  exact ((uniqueAt limit u.length).value hv hw (Nat.le_refl _) (ends_gap hg') (ends_gap hx') hbegin).1

end SourceInventory.Json
