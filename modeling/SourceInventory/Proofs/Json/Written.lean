import SourceInventory.Proofs.Json.Unescaped

/-!
# Written: what is written denotes what was written

The indented text of a value is one of the ways in which the value can be written, and so it is read as this value
(`read_indented`). This holds of values that have no key twice in an object, that have texts for strings and in which no integer
has too many digits; without a limit on the digits the text denotes the value all the same (`denotes_indented`).
-/

namespace SourceInventory.Json

/-! ## Numbers -/

theorem ofNat_ne_nil (n : Nat) : Text.ofNat n ≠ [] := Nat.toDigits_ne_nil

/-- The decimal text of a number that is not zero does not begin with zero. -/
theorem head?_ofNat {n : Nat} (hn : n ≠ 0) : (Text.ofNat n).head? ≠ some '0' := by
  have table : ∀ d < 10, d ≠ 0 → d.digitChar ≠ '0' := by decide
  unfold Text.ofNat
  induction n using Nat.strongRecOn with
  | _ n ih =>
    rw [Nat.toDigits_eq_if (by decide)]
    split
    · rename_i hlt
      simpa using table n hlt hn
    · rename_i hge
      obtain ⟨c, cs, hcs⟩ := List.exists_cons_of_ne_nil (ofNat_ne_nil (n / 10))
      have hhead := ih (n / 10) (by omega) (by omega)
      change Nat.toDigits 10 (n / 10) = c :: cs at hcs
      rw [hcs] at hhead ⊢
      exact hhead

theorem digits_ofNat (n : Nat) : Digits (Text.ofNat n) := fun _ hc => Nat.isDigit_of_mem_toDigits (by decide) (by decide) hc

/-- The decimal text of a number can stand before a point. -/
theorem whole_ofNat (n : Nat) : Whole (Text.ofNat n) := by
  by_cases hn : n = 0
  · subst hn
    exact .zero
  · have hhead := head?_ofNat hn
    have hdigits := digits_ofNat n
    obtain ⟨c, cs, hcs⟩ := List.exists_cons_of_ne_nil (ofNat_ne_nil n)
    rw [hcs] at hhead hdigits ⊢
    obtain ⟨hc, hcs⟩ := List.forall_mem_cons.1 hdigits
    exact .digits hc (fun h => hhead (h ▸ rfl)) hcs

/-- A number is found again from its decimal text. -/
theorem digitsValue_ofNat (n : Nat) : digitsValue (Text.ofNat n) = n := Nat.ofDigitChars_toDigits (by decide) (by decide)

/-- The decimal text of an integer is a sign and digits. -/
theorem exists_sign_ofInt (n : Int) :
    ∃ sign i, Sign sign i ∧ Text.ofInt n = sign ++ Text.ofNat n.natAbs ∧ n = i * digitsValue (Text.ofNat n.natAbs) := by
  cases n with
  | ofNat n => exact ⟨[], 1, .none, rfl, by rw [digitsValue_ofNat, Int.one_mul]; rfl⟩
  | negSucc n => exact ⟨['-'], -1, .minus, rfl, by rw [digitsValue_ofNat, Int.neg_one_mul]; rfl⟩

/-- The decimal text of an integer can be an exponent. -/
theorem power_ofInt (n : Int) : Power ('e' :: Text.ofInt n) (some n) := by
  cases n with
  | ofNat n =>
    have h := Power.unsigned (Or.inl rfl) (ofNat_ne_nil n) (digits_ofNat n)
    rwa [digitsValue_ofNat] at h
  | negSucc n =>
    have h := Power.minus (Or.inl rfl) (ofNat_ne_nil (n + 1)) (digits_ofNat (n + 1))
    rwa [digitsValue_ofNat] at h

/-- An integer has at most so many digits. -/
def Number.Within (limit : ℕ∞) : Number → Prop
  | .integer n => ((Text.ofNat n.natAbs).length : ℕ∞) ≤ limit
  | _ => True

variable {limit : ℕ∞}

theorem spellsScalar_number {n : Number} (h : n.Within limit) : SpellsScalar limit n.write (.number n) := by
  cases n with
  | integer n =>
    obtain ⟨sign, i, hsign, htext, hvalue⟩ := exists_sign_ofInt n
    have hn := SpellsNumber.integer hsign (whole_ofNat n.natAbs) h
    rw [← htext, ← hvalue] at hn
    exact .number hn
  | decimal m e =>
    obtain ⟨sign, i, hsign, htext, hvalue⟩ := exists_sign_ofInt m
    have hn : SpellsNumber limit _ _ := .decimal hsign (whole_ofNat m.natAbs) .none (power_ofInt e) (Or.inr (by simp))
    have hexponent : (some e).getD 0 - (([] : Text).length : Int) = e := Int.sub_zero e
    rw [List.nil_append, List.append_nil, ← hvalue, hexponent, ← List.append_assoc, ← htext] at hn
    exact .number hn
  | infinity negative =>
    cases negative
    · exact SpellsScalar.word (w := ("Infinity".toList, .number (.infinity false))) (by simp [words])
    · exact SpellsScalar.word (w := ("-Infinity".toList, .number (.infinity true))) (by simp [words])
  | undefined => exact SpellsScalar.word (w := ("NaN".toList, .number .undefined)) (by simp [words])

/-! ## Members -/

theorem put_of_not_mem {k : CodeText} {ms : List (CodeText × Json)} (h : k ∉ ms.map (·.1)) (v : Json) :
    put k v ms = ms ++ [(k, v)] := by
  induction ms with
  | nil => rfl
  | cons m ms ih =>
    rw [List.map_cons, List.mem_cons, not_or] at h
    rw [put, if_neg (Ne.symm h.1), ih h.2]
    rfl

/-- Members without a key twice make an object of these members. -/
theorem ofMembers_of_nodup {ms : List (CodeText × Json)} (h : (ms.map (·.1)).Nodup) : ofMembers ms = .object ms := by
  have run : ∀ o : List (CodeText × Json), (∀ k ∈ o.map (·.1), k ∉ ms.map (·.1)) →
      ms.foldl (fun o m => put m.1 m.2 o) o = o ++ ms := by
    induction ms with
    | nil => intro o _; exact (List.append_nil o).symm
    | cons m ms ih =>
      intro o ho
      rw [List.map_cons, List.nodup_cons] at h
      have hm : m.1 ∉ o.map (·.1) := fun hmem => ho _ hmem List.mem_cons_self
      rw [List.foldl_cons, put_of_not_mem hm, ih h.2, List.append_assoc]
      · rfl
      · intro k hk hmem
        rw [List.map_append, List.mem_append] at hk
        rcases hk with hk | hk
        · exact ho k hk (List.mem_cons_of_mem _ hmem)
        · obtain rfl := List.mem_singleton.1 hk
          exact h.1 hmem
  exact congrArg Json.object (run [] fun k hk => absurd hk List.not_mem_nil)

/-! ## Values -/

/-- A value of texts, of integers with at most `limit` digits, and of objects that have no key twice. -/
inductive Proper (limit : ℕ∞) : Json → Prop where
  | null : Proper limit .null
  | bool (b : Bool) : Proper limit (.bool b)
  | number {n : Number} (h : n.Within limit) : Proper limit (.number n)
  | string (s : Text) : Proper limit (.ofText s)
  | array {vs : List Json} (h : ∀ v ∈ vs, Proper limit v) : Proper limit (.array vs)
  | object {ms : List (Text × Json)} (hkeys : (ms.map (·.1)).Nodup) (h : ∀ m ∈ ms, Proper limit m.2) :
      Proper limit (.object (ms.map fun m => (CodeText.ofText m.1, m.2)))

/-- The gap before a value is a gap. -/
theorem gap_indented (level : Nat) : Gap (Style.indented.gap level) := by
  refine List.forall_mem_cons.2 ⟨rfl, fun c hc => ?_⟩
  rw [List.eq_of_mem_replicate hc]
  rfl

theorem gap_blank : Gap [' '] := List.forall_mem_singleton.2 rfl

/-- Items are written one after another, with a comma and a gap before each but the first. -/
theorem spellsItems_write {level : Nat} {v : Json} {vs : List Json}
    (h : ∀ x ∈ v :: vs, Spells limit (write .indented level x) x) {g : Text} (hg : Gap g) :
    SpellsItems limit (write .indented level v ++ (writeItems .indented level vs ++ (g ++ [']']))) (v :: vs) := by
  induction vs generalizing v with
  | nil => exact .last (h v (by simp)) hg
  | cons w ws ih =>
    obtain ⟨hv, hws⟩ := List.forall_mem_cons.1 h
    have hrest := SpellsItems.cons hv gap_nil (gap_indented level) (ih hws)
    simpa [writeItems, Style.comma, Style.indented] using hrest

/-- Members are written one after another, with a comma and a gap before each but the first. -/
theorem spellsMembers_write {level : Nat} {m : Text × Json} {ms : List (Text × Json)}
    (h : ∀ x ∈ m :: ms, Spells limit (write .indented level x.2) x.2) {g : Text} (hg : Gap g) :
    SpellsMembers limit
      (Style.indented.string (CodeText.ofText m.1) ++ ':' :: ' ' :: (write .indented level m.2 ++
        (writeMembers .indented level (ms.map fun m => (CodeText.ofText m.1, m.2)) ++ (g ++ ['}']))))
      ((m :: ms).map fun m => (CodeText.ofText m.1, m.2)) := by
  induction ms generalizing m with
  | nil =>
    exact .last (spellsString_ofText m.1) gap_nil gap_blank (h m (by simp)) hg
  | cons w ws ih =>
    obtain ⟨hm, hws⟩ := List.forall_mem_cons.1 h
    have hrest := SpellsMembers.cons (spellsString_ofText m.1) gap_nil gap_blank hm gap_nil (gap_indented level) (ih hws)
    simpa [writeMembers, Style.comma, Style.indented] using hrest

/-- The text of a value at any level is a way to write it. -/
theorem spells_write {v : Json} (h : Proper limit v) (level : Nat) : Spells limit (write .indented level v) v := by
  induction h generalizing level with
  | null => exact .scalar (.word (w := ("null".toList, .null)) (by simp [words]))
  | bool b =>
    cases b
    · exact .scalar (.word (w := ("false".toList, .bool false)) (by simp [words]))
    · exact .scalar (.word (w := ("true".toList, .bool true)) (by simp [words]))
  | number hn => exact .scalar (spellsScalar_number hn)
  | string s => exact .string (spellsString_ofText s)
  | @array vs _ ih =>
    cases vs with
    | nil => exact .emptyArray gap_nil
    | cons v vs =>
      have hitems := spellsItems_write (fun x hx => ih x hx (level + 1)) (gap_indented level)
      simpa [write] using Spells.array (gap_indented (level + 1)) hitems
  | @object ms hkeys _ ih =>
    cases ms with
    | nil => exact .emptyObject gap_nil
    | cons m ms =>
      have hmembers := spellsMembers_write (fun x hx => ih x hx (level + 1)) (gap_indented level)
      have hnodup : (((m :: ms).map fun m => (CodeText.ofText m.1, m.2)).map (·.1)).Nodup := by
        rw [List.map_map]
        have hmap := List.Pairwise.map (S := (· ≠ ·)) CodeText.ofText (fun _ _ hne heq => hne (ofText_injective heq)) hkeys
        rwa [List.map_map] at hmap
      have hobject := Spells.object (gap_indented (level + 1)) hmembers
      rw [ofMembers_of_nodup hnodup] at hobject
      simpa [write] using hobject

/-- The indented text of a value denotes it. -/
theorem denotes_indented {v : Json} (h : Proper limit v) : Denotes limit v.indented v := by
  have hdocument := Denotes.document gap_nil (spells_write h 0) gap_nil
  rwa [List.nil_append, List.append_nil] at hdocument

/-- A value is read back from its indented text. -/
theorem read_indented {v : Json} (h : Proper integerDigits v) : read v.indented = .ok v := read_of_denotes (denotes_indented h)

end SourceInventory.Json
