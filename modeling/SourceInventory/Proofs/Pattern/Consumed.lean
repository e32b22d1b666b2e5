import SourceInventory.Pattern.Basic

/-!
# Consumed texts: the characters that a reading takes

Which characters a reading can take is read off the pattern (`OnlyReads`), and so is which characters a field can hold
(`FieldReads`), since its text is what a reading takes by the part of the pattern that is recorded as this field. So it is a stretch
of the text that is read (`Derives.get_isInfix`).
-/

namespace SourceInventory.Pattern

/-- Only characters that satisfy `k` are taken by a reading of the pattern. -/
def OnlyReads (k : Char → Prop) : Pattern → Prop
  | .text t => ∀ c ∈ t, k c
  | .char p | .run p => ∀ c, p c = true → k c
  | .seq a b | .either a b => a.OnlyReads k ∧ b.OnlyReads k
  | .optional a | .many a | .field _ a => a.OnlyReads k

/-- A reading takes characters that satisfy `k` off the text. -/
theorem OnlyReads.eq_append {k : Char → Prop} {p : Pattern} {s : Text} {d : Derivation} (hp : p.OnlyReads k)
    (h : Derives p s d) : ∃ u, s = u ++ d.rest ∧ u.length = d.length ∧ ∀ c ∈ u, k c := by
  have both : ∀ {u v : Text}, (∀ c ∈ u, k c) → (∀ c ∈ v, k c) → ∀ c ∈ u ++ v, k c := by
    intro u v hu hv c hc
    exact (List.mem_append.1 hc).elim (hu c) (hv c)
  induction h with
  | text => exact ⟨_, rfl, rfl, hp⟩
  | @char _ c _ hc => exact ⟨[c], rfl, rfl, fun x hx => List.mem_singleton.1 hx ▸ hp c hc⟩
  | run hu => exact ⟨_, rfl, rfl, fun c hc => hp c (hu c hc)⟩
  | seq _ _ iha ihb =>
    obtain ⟨u, rfl, lu, hu⟩ := iha hp.1
    obtain ⟨v, hv, lv, hvk⟩ := ihb hp.2
    exact ⟨u ++ v, by rw [hv, List.append_assoc]; rfl, by rw [List.length_append, lu, lv]; rfl, both hu hvk⟩
  | left _ ih => exact ih hp.1
  | right _ ih => exact ih hp.2
  | present _ ih => exact ih hp
  | absent => exact ⟨[], rfl, rfl, fun c hc => absurd hc List.not_mem_nil⟩
  | stop => exact ⟨[], rfl, rfl, fun c hc => absurd hc List.not_mem_nil⟩
  | more _ _ _ iha ihb =>
    obtain ⟨u, rfl, lu, hu⟩ := iha hp
    obtain ⟨v, hv, lv, hvk⟩ := ihb hp
    exact ⟨u ++ v, by rw [hv, List.append_assoc]; rfl, by rw [List.length_append, lu, lv]; rfl, both hu hvk⟩
  | field _ ih => exact ih hp

/-- What reads characters of one kind only reads such of any wider kind. -/
theorem OnlyReads.mono {k k' : Char → Prop} {p : Pattern} (h : p.OnlyReads k) (hk : ∀ c, k c → k' c) : p.OnlyReads k' := by
  induction p with
  | text | char | run => exact fun c hc => hk c (h c hc)
  | seq a b iha ihb | either a b iha ihb => exact ⟨iha h.1, ihb h.2⟩
  | optional a ih | many a ih | field f a ih => exact ih h

theorem onlyReads_append {k : Char → Prop} {a b : Pattern} : (a ++ b).OnlyReads k ↔ a.OnlyReads k ∧ b.OnlyReads k := Iff.rfl

/-- Only characters that satisfy `k` are recorded as the field. -/
def FieldReads (k : Char → Prop) (f : Field) : Pattern → Prop
  | .text _ | .char _ | .run _ => True
  | .seq a b | .either a b => a.FieldReads k f ∧ b.FieldReads k f
  | .optional a | .many a => a.FieldReads k f
  | .field g a => (g = f → a.OnlyReads k) ∧ a.FieldReads k f

theorem fieldReads_append {k : Char → Prop} {f : Field} {a b : Pattern} :
    (a ++ b).FieldReads k f ↔ a.FieldReads k f ∧ b.FieldReads k f := Iff.rfl

/-- Every span that is recorded of the field has characters of the kind only. -/
theorem FieldReads.of_mem_fields {k : Char → Prop} {f : Field} {p : Pattern} {s : Text} {d : Derivation}
    (hp : p.FieldReads k f) (h : Derives p s d) : ∀ x ∈ d.fields, x.1 = f → ∀ c ∈ x.2.text, k c := by
  induction h with
  | text | char _ | run _ | absent | stop => intro x hx; exact absurd hx List.not_mem_nil
  | seq _ _ iha ihb => intro x hx; exact (List.mem_append.1 hx).elim (iha hp.1 x) (ihb hp.2 x)
  | more _ _ _ iha ihb => intro x hx; exact (List.mem_append.1 hx).elim (iha hp x) (ihb hp x)
  | left _ ih => exact ih hp.1
  | right _ ih => exact ih hp.2
  | present _ ih => exact ih hp
  | @field g _ s d hd ih =>
    intro x hx hxf c hc
    rcases List.mem_cons.1 hx with rfl | hx
    · -- the whole reading is recorded
      obtain ⟨u, hu, hlen, hk⟩ := (hp.1 hxf).eq_append hd
      change c ∈ s.take d.length at hc
      rw [hu, ← hlen, List.take_left] at hc
      exact hk c hc
    · exact ih hp.2 x hx hxf c hc

/-- The text of a field has only the characters that the pattern records as it. -/
theorem FieldReads.get? {k : Char → Prop} {f : Field} {p : Pattern} {s t : Text} {d : Derivation} (hp : p.FieldReads k f)
    (h : Derives p s d) (ht : d.get? f = some t) : ∀ c ∈ t, k c := by
  obtain ⟨sp, hsp, rfl⟩ := Option.map_eq_some_iff.1 ht
  obtain ⟨x, hx, rfl⟩ := Option.map_eq_some_iff.1 hsp
  exact hp.of_mem_fields h x (List.mem_of_find?_eq_some hx) (by simpa using List.find?_some hx)

/-- So has what is found of the field. -/
theorem FieldReads.get {k : Char → Prop} {f : Field} {p : Pattern} {s : Text} {d : Derivation} (hp : p.FieldReads k f)
    (h : Derives p s d) : ∀ c ∈ d.get f, k c := by
  rw [Derivation.get]
  cases ht : d.get? f with
  | none => intro c hc; exact absurd hc List.not_mem_nil
  | some t => exact hp.get? h ht

end SourceInventory.Pattern

namespace SourceInventory

/-! ## Fields as stretches of the text -/

/-- What is recorded begins at an end of the text. -/
theorem Derives.start_suffix_of_mem_fields {p : Pattern} {s : Text} {d : Derivation} (h : Derives p s d) :
    ∀ x ∈ d.fields, x.2.start <:+ s := by
  induction h with
  | text | char _ | run _ | absent | stop => intro x hx; exact absurd hx List.not_mem_nil
  | seq hd _ iha ihb | more hd _ _ iha ihb =>
    obtain ⟨u, hu, -⟩ := hd.eq_append
    intro x hx
    rcases List.mem_append.1 hx with hx | hx
    · exact iha x hx
    · exact (ihb x hx).trans (hu ▸ List.suffix_append u _)
  | left _ ih | right _ ih | present _ ih => exact ih
  | field _ ih =>
    intro x hx
    rcases List.mem_cons.1 hx with rfl | hx
    · exact List.suffix_refl _
    · exact ih x hx

/-- The text of a field is a stretch of the text that is read. -/
theorem Derives.get?_isInfix {p : Pattern} {s t : Text} {d : Derivation} {f : Field} (h : Derives p s d)
    (ht : d.get? f = some t) : t <:+: s := by
  obtain ⟨sp, hsp, rfl⟩ := Option.map_eq_some_iff.1 ht
  obtain ⟨x, hx, rfl⟩ := Option.map_eq_some_iff.1 hsp
  have hstart := h.start_suffix_of_mem_fields x (List.mem_of_find?_eq_some hx)
  exact (List.take_prefix x.2.length x.2.start).isInfix.trans hstart.isInfix

/-- What is recorded stands in the text. -/
theorem Derives.get_isInfix {p : Pattern} {s : Text} {d : Derivation} (h : Derives p s d) (f : Field) : d.get f <:+: s := by
  rw [Derivation.get]
  cases ht : d.get? f with
  | none => exact ⟨[], s, rfl⟩
  | some t => exact h.get?_isInfix ht

end SourceInventory
