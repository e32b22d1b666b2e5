import SourceInventory.Proofs.Pattern.Written

/-!
# Taken texts: what the readings of a pattern come to

What a pattern reads whatever follows is said by `Reads`; this is the converse. For the text that a reading takes and for what it
captures, a property holds that is read off the pattern, piece by piece (`Takes.append`, `Takes.many`).
-/

namespace SourceInventory.Pattern

variable {a b p : Pattern} {k k' : Text → List (Field × Text) → Prop}

/-- For what a reading takes and what it captures, `k` holds. -/
def Takes (p : Pattern) (k : Text → List (Field × Text) → Prop) : Prop :=
  ∀ ⦃s : Text⦄ ⦃d : Derivation⦄, Derives p s d → ∃ t, s = t ++ d.rest ∧ k t d.captures

/-- Two texts one after the other, with what is captured in each. -/
inductive Joined (k k' : Text → List (Field × Text) → Prop) : Text → List (Field × Text) → Prop where
  | intro {t u : Text} {cs cs' : List (Field × Text)} : k t cs → k' u cs' → Joined k k' (t ++ u) (cs ++ cs')

theorem takes_lit (w : String) : Takes (lit w) fun t cs => t = w.toList ∧ cs = [] := by
  intro s d hd
  obtain ⟨r, rfl, rfl⟩ := derives_text_iff.1 hd
  exact ⟨_, rfl, rfl, rfl⟩

theorem takes_char (q : Char → Bool) : Takes (.char q) fun t cs => (∃ c, q c = true ∧ t = [c]) ∧ cs = [] := by
  intro s d hd
  obtain ⟨c, r, rfl, hc, rfl⟩ := derives_char_iff.1 hd
  exact ⟨[c], rfl, ⟨c, hc, rfl⟩, rfl⟩

theorem takes_run (q : Char → Bool) : Takes (.run q) fun t cs => (∀ c ∈ t, q c = true) ∧ cs = [] := by
  intro s d hd
  obtain ⟨u, r, rfl, hu, rfl⟩ := derives_run_iff.1 hd
  exact ⟨u, rfl, hu, rfl⟩

theorem Takes.mono (h : Takes p k) (hk : ∀ t cs, k t cs → k' t cs) : Takes p k' := by
  intro s d hd
  obtain ⟨t, hs, ht⟩ := h hd
  exact ⟨t, hs, hk _ _ ht⟩

/-- What is read one after the other is taken one after the other. -/
theorem Takes.append (ha : Takes a k) (hb : Takes b k') : Takes (a ++ b) (Joined k k') := by
  intro s d hd
  obtain ⟨e, f, he, hf, rfl⟩ := derives_append_iff.1 hd
  obtain ⟨t, hs, ht⟩ := ha he
  obtain ⟨u, hrest, hu⟩ := hb hf
  refine ⟨t ++ u, ?_, Derivation.captures_andThen e f ▸ .intro ht hu⟩
  rw [hs, hrest, List.append_assoc]
  rfl

/-- What is recorded is captured. -/
theorem Takes.field (f : Field) (h : Takes a k) : Takes (.field f a) fun t cs => ∃ cs', k t cs' ∧ cs = (f, t) :: cs' := by
  intro s d hd
  obtain ⟨e, he, rfl⟩ := derives_field_iff.1 hd
  obtain ⟨t, hs, ht⟩ := h he
  refine ⟨t, hs, e.captures, ht, ?_⟩
  have hlength : e.length = t.length := length_of_derives_append (hs ▸ he) rfl
  change (f, s.take e.length) :: e.captures = _
  rw [hlength, hs, List.take_left]

/-- Of two alternatives one takes what is taken. -/
theorem Takes.either (ha : Takes a k) (hb : Takes b k') : Takes (.either a b) fun t cs => k t cs ∨ k' t cs := by
  intro s d hd
  rcases derives_either_iff.1 hd with hd | hd
  · obtain ⟨t, hs, ht⟩ := ha hd
    exact ⟨t, hs, Or.inl ht⟩
  · obtain ⟨t, hs, ht⟩ := hb hd
    exact ⟨t, hs, Or.inr ht⟩

/-- What may be left out takes what it takes, or nothing. -/
theorem Takes.optional (h : Takes a k) : Takes (.optional a) fun t cs => k t cs ∨ t = [] ∧ cs = [] := by
  intro s d hd
  rcases derives_optional_iff.1 hd with hd | rfl
  · obtain ⟨t, hs, ht⟩ := h hd
    exact ⟨t, hs, Or.inl ht⟩
  · exact ⟨[], rfl, Or.inr ⟨rfl, rfl⟩⟩

/-- What holds of nothing, and of a text with one more repetition in front of it, holds of what repetitions take. -/
theorem Takes.many (h : Takes a k) (hstop : k' [] []) (hmore : ∀ t cs, Joined k k' t cs → k' t cs) : Takes (.many a) k' := by
  intro s d hd
  generalize hp : Pattern.many a = p at hd
  induction hd with
  | stop => exact ⟨[], rfl, hstop⟩
  | @more _ _ d e hd _ _ _ ih =>
    cases hp
    obtain ⟨t, hs, ht⟩ := h hd
    obtain ⟨u, hrest, hu⟩ := ih rfl
    refine ⟨t ++ u, ?_, hmore _ _ (Derivation.captures_andThen d e ▸ .intro ht hu)⟩
    rw [hs, hrest, List.append_assoc]
    rfl
  | _ => cases hp

/-- A list takes everything up to its first closing parenthesis. -/
theorem takes_parenthesised (f : Field) :
    Takes (parenthesised f) fun t cs => ∃ u, t = '(' :: (u ++ [')']) ∧ ')' ∉ u ∧ cs = [(f, u)] := by
  refine (((takes_lit "(").append ((takes_run _).field f)).append (takes_lit ")")).mono ?_
  rintro _ _ ⟨⟨⟨rfl, rfl⟩, ⟨_, ⟨hu, rfl⟩, rfl⟩⟩, ⟨rfl, rfl⟩⟩
  exact ⟨_, rfl, fun hmem => absurd (hu ')' hmem) (by decide), rfl⟩

end SourceInventory.Pattern
