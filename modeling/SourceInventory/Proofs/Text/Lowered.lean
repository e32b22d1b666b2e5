import SourceInventory.Text.Case

/-!
# Lowered: which texts have a lower case in ASCII

The lower case of a character beyond ASCII has a character beyond ASCII, with one exception: the lower case of the Kelvin sign is
`k`. So a word of ASCII without this letter is the lower case of the texts that spell it in ASCII letters of either case, and
of no others (`lower_eq_iff`).
-/

namespace SourceInventory

/-- A run of letters beyond ASCII is moved to characters beyond ASCII, unless it is the Kelvin sign alone. -/
theorem shift_of_mem_lowerRuns : ∀ r ∈ lowerRuns, r.last < 0x80 ∨ r.first = 0x212A ∧ r.last = 0x212A ∧ r.shift = -8383 ∨
    0x80 ≤ r.first + r.shift ∧ (r.last + r.shift < 0xD800 ∨ 0xDFFF < r.first + r.shift ∧ r.last + r.shift < 0x110000) := by
  decide +kernel

/-- The lower case of a character beyond ASCII has a character beyond ASCII or a `k`. -/
theorem exists_mem_lowerOf {c : Char} (hc : 0x80 ≤ c.toNat) : ∃ d ∈ lowerOf c, 0x80 ≤ d.toNat ∨ d = 'k' := by
  unfold lowerOf changeCase
  rw [if_neg (by omega)]
  split
  · -- the only character whose lower case has several is the capital I with a dot
    rename_i ns hns
    simp only [lowerExpansions, List.lookup_cons, List.lookup_nil] at hns
    split at hns
    · obtain rfl := Option.some.inj hns
      exact ⟨Char.ofNat 0x307, by simp, Or.inl (by decide)⟩
    · exact absurd hns (by simp)
  · split
    · rename_i r hr
      have hholds := List.find?_some hr
      simp only [CaseRun.holds, Bool.and_eq_true, decide_eq_true_eq] at hholds
      refine ⟨_, List.mem_singleton.2 rfl, ?_⟩
      rcases shift_of_mem_lowerRuns r (List.mem_of_find?_eq_some hr) with h | ⟨hfirst, hlast, hshift⟩ | ⟨hlow, hvalid⟩
      · omega
      · have hkelvin : (c.toNat + r.shift).toNat = 0x6B := by omega
        rw [hkelvin]
        exact Or.inr rfl
      · have hchar : (c.toNat + r.shift).toNat.isValidChar := by
          unfold Nat.isValidChar
          omega
        rw [Char.ofNat, dif_pos hchar]
        exact Or.inl (show 0x80 ≤ (c.toNat + r.shift).toNat by omega)
    · exact ⟨_, List.mem_singleton.2 rfl, Or.inl (by rwa [Char.ofNat_toNat])⟩

theorem toLower_of_le {c : Char} (hc : 0x80 ≤ c.toNat) : c.toLower = c := by
  unfold Char.toLower
  rw [dif_neg]
  rintro ⟨-, hle⟩
  have hnat : c.toNat ≤ 0x5A := UInt32.le_iff_toNat_le.1 hle
  omega

/-- A word of ASCII without the letter `k` is the lower case of a text if and only if the text spells it in ASCII letters of either
case. -/
theorem lower_eq_iff {s key : Text} (hascii : ∀ c ∈ key, c.toNat < 0x80) (hk : 'k' ∉ key) :
    s.lower = key ↔ s.map Char.toLower = key := by
  induction s generalizing key with
  | nil => rfl
  | cons c s ih =>
    change lowerOf c ++ Text.lower s = key ↔ c.toLower :: s.map Char.toLower = key
    by_cases hc : c.toNat < 0x80
    · rw [lowerOf_ascii hc]
      cases key with
      | nil => simp
      | cons x key =>
        rw [List.forall_mem_cons] at hascii
        rw [List.mem_cons, not_or] at hk
        rw [List.singleton_append, List.cons.injEq, List.cons.injEq, ih hascii.2 hk.2]
    · obtain ⟨d, hd, hbeyond⟩ := exists_mem_lowerOf (Nat.le_of_not_lt hc)
      refine iff_of_false ?_ ?_
      · rintro rfl
        have hmem := List.mem_append_left (Text.lower s) hd
        rcases hbeyond with hbeyond | rfl
        · exact absurd (hascii d hmem) (by omega)
        · exact hk hmem
      · rintro rfl
        rw [toLower_of_le (Nat.le_of_not_lt hc)] at hascii
        exact hc (hascii c List.mem_cons_self)

/-- A text that spells a word of ASCII in letters of either case is of ASCII itself. -/
theorem lt_of_map_toLower_eq {s key : Text} (hascii : ∀ c ∈ key, c.toNat < 0x80) (h : s.map Char.toLower = key) :
    ∀ c ∈ s, c.toNat < 0x80 := by
  intro c hc
  refine Nat.lt_of_not_le fun hbeyond => ?_
  have hmem : c.toLower ∈ key := h ▸ List.mem_map_of_mem hc
  rw [toLower_of_le hbeyond] at hmem
  exact absurd (hascii c hmem) (Nat.not_lt.2 hbeyond)

/-- The Kelvin sign has a lower case in ASCII all the same. -/
example : Text.lower ['\u212A'] = ['k'] ∧ ['\u212A'].map Char.toLower ≠ ['k'] := by decide

end SourceInventory
