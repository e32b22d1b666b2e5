import SourceInventory.Text.Utf8

/-!
# Utf8: the bytes of a text, and no others

The bytes of a character have one of four forms, by the size of its code point (`Sequence`). The writer writes the form and the
reader reads it, whatever follows. So reading gives a text if and only if the bytes are those of the text (`decode_eq_ok_iff`):
overlong forms, surrogates, code points out of range and stray or missing continuation bytes are all refused.
-/

namespace SourceInventory.Utf8

/-! ## Sequences -/

/-- A sequence of bytes has the form of a code point. The bounds on the second byte exclude overlong forms, surrogates and
code points out of range. -/
inductive Sequence : Nat → List UInt8 → Prop where
  | one {x : Nat} : x < 0x80 → Sequence x [.ofNat x]
  | two {x y : Nat} : 2 ≤ x → x < 32 → y < 64 → Sequence (64 * x + y) [.ofNat (0xC0 + x), .ofNat (0x80 + y)]
  | three {x y z : Nat} : x < 16 → y < 64 → z < 64 → (x = 0 → 32 ≤ y) → (x = 13 → y < 32) →
      Sequence (64 * (64 * x + y) + z) [.ofNat (0xE0 + x), .ofNat (0x80 + y), .ofNat (0x80 + z)]
  | four {w x y z : Nat} : w < 5 → x < 64 → y < 64 → z < 64 → (w = 0 → 16 ≤ x) → (w = 4 → x < 16) →
      Sequence (64 * (64 * (64 * w + x) + y) + z)
        [.ofNat (0xF0 + w), .ofNat (0x80 + x), .ofNat (0x80 + y), .ofNat (0x80 + z)]

/-- The code point of a sequence is that of a character. -/
theorem Sequence.toNat_ofNat {n : Nat} {bs : List UInt8} (h : Sequence n bs) : (Char.ofNat n).toNat = n := by
  have hvalid : n < 55296 ∨ 57343 < n ∧ n < 1114112 := by
    cases h with
    | one | two => omega
    | @three x y z hx hy hz hlow hhigh => by_cases hx13 : x = 13 <;> omega
    | @four w x y z hw hx hy hz hlow hhigh => by_cases hw0 : w = 0 <;> by_cases hw4 : w = 4 <;> omega
  rw [Char.ofNat, dif_pos hvalid]
  rfl

/-- A sequence has one byte at least. -/
theorem Sequence.exists_cons {n : Nat} {bs : List UInt8} (h : Sequence n bs) : ∃ b t, bs = b :: t := by
  cases h <;> exact ⟨_, _, rfl⟩

/-- A code point has one sequence at most. -/
theorem Sequence.unique {n : Nat} {bs bs' : List UInt8} (h : Sequence n bs) (h' : Sequence n bs') : bs = bs' := by
  have general : ∀ {m m' : Nat} {bs bs' : List UInt8}, Sequence m bs → Sequence m' bs' → m = m' → bs = bs' := by
    intro m m' bs bs' h h' hm
    cases h with
    | one =>
      cases h' with
      | one => rw [hm]
      | two | three | four => omega
    | @two x y =>
      cases h' with
      | @two x' y' =>
        obtain ⟨rfl, rfl⟩ : x = x' ∧ y = y' := by omega
        rfl
      | one | three | four => omega
    | @three x y z =>
      cases h' with
      | @three x' y' z' =>
        obtain ⟨rfl, rfl, rfl⟩ : x = x' ∧ y = y' ∧ z = z' := by omega
        rfl
      | one | two | four => omega
    | @four w x y z =>
      cases h' with
      | @four w' x' y' z' =>
        obtain ⟨rfl, rfl, rfl, rfl⟩ : w = w' ∧ x = x' ∧ y = y' ∧ z = z' := by omega
        rfl
      | one | two | three => omega
  exact general h h' rfl

/-- A character is written by the sequence of its code point. -/
theorem sequence_encodeChar (c : Char) : Sequence c.toNat (String.utf8EncodeChar c) := by
  have hvalid : c.toNat < 55296 ∨ 57343 < c.toNat ∧ c.toNat < 1114112 := c.valid
  have hval : c.val.toNat = c.toNat := rfl
  have of_eq : ∀ {n : Nat} {bs bs' : List UInt8}, Sequence n bs → n = c.toNat → bs = bs' → Sequence c.toNat bs' := by
    rintro n bs _ h rfl rfl
    exact h
  have hlast : c.toNat % 64 < 64 := Nat.mod_lt _ (by decide)
  have hthird : c.toNat / 64 % 64 < 64 := Nat.mod_lt _ (by decide)
  have hsecond : c.toNat / 4096 % 64 < 64 := Nat.mod_lt _ (by decide)
  simp only [String.utf8EncodeChar, hval]
  split
  · exact .one (by omega)
  split
  · exact of_eq (.two (x := c.toNat / 64 % 32) (by omega) (by omega) hlast) (by omega) (by simp only [Nat.add_comm])
  split
  · exact of_eq (.three (x := c.toNat / 4096 % 16) (by omega) hthird hlast (by omega) (by omega)) (by omega)
      (by simp only [Nat.add_comm])
  · exact of_eq (.four (w := c.toNat / 262144 % 8) (by omega) hsecond hthird hlast (by omega) (by omega)) (by omega)
      (by simp only [Nat.add_comm])

/-- A sequence is the encoding of its code point. -/
theorem Sequence.eq_encodeChar {n : Nat} {bs : List UInt8} (h : Sequence n bs) : bs = String.utf8EncodeChar (Char.ofNat n) := by
  have hwritten := sequence_encodeChar (Char.ofNat n)
  rw [h.toNat_ofNat] at hwritten
  exact h.unique hwritten

/-! ## The first character -/

theorem lead?_one {x : Nat} (hx : x < 0x80) : lead? (.ofNat x) = some ⟨0, 0x80, 0xBF, x⟩ := by
  have table : ∀ x < 0x80, lead? (.ofNat x) = some ⟨0, 0x80, 0xBF, x⟩ := by decide
  exact table x hx

theorem lead?_two {x : Nat} (hlow : 2 ≤ x) (hx : x < 32) : lead? (.ofNat (0xC0 + x)) = some ⟨1, 0x80, 0xBF, x⟩ := by
  have table : ∀ x < 32, 2 ≤ x → lead? (.ofNat (0xC0 + x)) = some ⟨1, 0x80, 0xBF, x⟩ := by decide
  exact table x hx hlow

theorem lead?_three {x : Nat} (hx : x < 16) :
    lead? (.ofNat (0xE0 + x)) = some ⟨2, if x = 0 then 0xA0 else 0x80, if x = 13 then 0x9F else 0xBF, x⟩ := by
  have table : ∀ x < 16,
      lead? (.ofNat (0xE0 + x)) = some ⟨2, if x = 0 then 0xA0 else 0x80, if x = 13 then 0x9F else 0xBF, x⟩ := by decide
  exact table x hx

theorem lead?_four {w : Nat} (hw : w < 5) :
    lead? (.ofNat (0xF0 + w)) = some ⟨3, if w = 0 then 0x90 else 0x80, if w = 4 then 0x8F else 0xBF, w⟩ := by
  have table : ∀ w < 5,
      lead? (.ofNat (0xF0 + w)) = some ⟨3, if w = 0 then 0x90 else 0x80, if w = 4 then 0x8F else 0xBF, w⟩ := by decide
  exact table w hw

/-- Which bytes begin a character. -/
theorem exists_of_lead? {b : UInt8} (h : lead? b ≠ none) :
    (∃ x < 0x80, b = .ofNat x) ∨ (∃ x, 2 ≤ x ∧ x < 32 ∧ b = .ofNat (0xC0 + x)) ∨ (∃ x < 16, b = .ofNat (0xE0 + x)) ∨
      ∃ w < 5, b = .ofNat (0xF0 + w) := by
  have hrange : b.toNat < 0x80 ∨ 0xC2 ≤ b.toNat ∧ b.toNat < 0xF5 := by
    rw [lead?] at h
    grind
  have hb : ∀ n, n = b.toNat → b = .ofNat n := by
    rintro _ rfl
    exact UInt8.ofNat_toNat.symm
  by_cases h1 : b.toNat < 0x80
  · exact Or.inl ⟨_, h1, hb _ rfl⟩
  by_cases h2 : b.toNat < 0xE0
  · exact Or.inr (Or.inl ⟨b.toNat - 0xC0, by omega, by omega, hb _ (by omega)⟩)
  by_cases h3 : b.toNat < 0xF0
  · exact Or.inr (Or.inr (Or.inl ⟨b.toNat - 0xE0, by omega, hb _ (by omega)⟩))
  · exact Or.inr (Or.inr (Or.inr ⟨b.toNat - 0xF0, by omega, hb _ (by omega)⟩))

/-- The next continuation byte brings six bits. -/
theorem continuation_succ_eq_ok_iff {tail low high bits read v : Nat} (hlow : 0x80 ≤ low) (hhigh : high ≤ 0xBF)
    {bs : List UInt8} :
    continuation (tail + 1) low high bits read bs = .ok v ↔
      ∃ y r, bs = .ofNat (0x80 + y) :: r ∧ low ≤ 0x80 + y ∧ 0x80 + y ≤ high ∧
        continuation tail 0x80 0xBF (64 * bits + y) (read + 1) r = .ok v := by
  constructor
  · intro h
    cases bs with
    | nil => exact absurd h (by simp [continuation])
    | cons b bs =>
      rw [continuation] at h
      split at h
      · rename_i hb
        refine ⟨b.toNat - 0x80, bs, ?_, by omega, by omega, h⟩
        rw [Nat.add_sub_cancel' (Nat.le_trans hlow hb.1), UInt8.ofNat_toNat]
      · exact absurd h (by simp)
  · rintro ⟨y, r, rfl, hy, hy', h⟩
    have hb : (UInt8.ofNat (0x80 + y)).toNat = 0x80 + y := by
      rw [UInt8.toNat_ofNat']
      omega
    rw [continuation, hb, if_pos ⟨hy, hy'⟩, Nat.add_sub_cancel_left]
    exact h

/-- The first byte and the continuation bytes after it make the first character. -/
theorem first_eq_ok_of_lead? {b : UInt8} {bs : List UInt8} {tail low high bits : Nat}
    (hb : lead? b = some ⟨tail, low, high, bits⟩) {c : Char} {n : Nat} :
    first b bs = .ok (c, n) ↔ ∃ v, continuation tail low high bits 1 bs = .ok v ∧ Char.ofNat v = c ∧ tail = n := by
  rw [first, hb]
  cases h : continuation tail low high bits 1 bs <;> simp [Except.map, h]

/-- The first character is the one whose sequence the bytes begin with. -/
theorem first_eq_ok_iff {b : UInt8} {bs : List UInt8} {c : Char} {n : Nat} :
    first b bs = .ok (c, n) ↔
      ∃ v t r, Sequence v (b :: t) ∧ bs = t ++ r ∧ t.length = n ∧ Char.ofNat v = c := by
  constructor
  · intro h
    have hb : lead? b ≠ none := by
      intro hb
      exact absurd h (by simp [first, hb])
    rcases exists_of_lead? hb with ⟨x, hx, rfl⟩ | ⟨x, hlow, hx, rfl⟩ | ⟨x, hx, rfl⟩ | ⟨w, hw, rfl⟩
    · obtain ⟨v, hv, rfl, rfl⟩ := (first_eq_ok_of_lead? (lead?_one hx)).1 h
      rw [continuation, Except.ok.injEq] at hv
      exact ⟨v, [], bs, hv ▸ .one hx, rfl, rfl, rfl⟩
    · obtain ⟨v, hv, rfl, rfl⟩ := (first_eq_ok_of_lead? (lead?_two hlow hx)).1 h
      obtain ⟨y, r, rfl, hy, hy', hv⟩ := (continuation_succ_eq_ok_iff (by decide) (by decide)).1 hv
      rw [continuation, Except.ok.injEq] at hv
      exact ⟨v, [_], r, hv ▸ .two hlow hx (by omega), rfl, rfl, rfl⟩
    · obtain ⟨v, hv, rfl, rfl⟩ := (first_eq_ok_of_lead? (lead?_three hx)).1 h
      obtain ⟨y, r, rfl, hy, hy', hv⟩ := (continuation_succ_eq_ok_iff (by grind) (by grind)).1 hv
      obtain ⟨z, r, rfl, hz, hz', hv⟩ := (continuation_succ_eq_ok_iff (by decide) (by decide)).1 hv
      rw [continuation, Except.ok.injEq] at hv
      exact ⟨v, [_, _], r, hv ▸ .three hx (by grind) (by omega) (by grind) (by grind), rfl, rfl, rfl⟩
    · obtain ⟨v, hv, rfl, rfl⟩ := (first_eq_ok_of_lead? (lead?_four hw)).1 h
      obtain ⟨x, r, rfl, hx, hx', hv⟩ := (continuation_succ_eq_ok_iff (by grind) (by grind)).1 hv
      obtain ⟨y, r, rfl, hy, hy', hv⟩ := (continuation_succ_eq_ok_iff (by decide) (by decide)).1 hv
      obtain ⟨z, r, rfl, hz, hz', hv⟩ := (continuation_succ_eq_ok_iff (by decide) (by decide)).1 hv
      rw [continuation, Except.ok.injEq] at hv
      exact ⟨v, [_, _, _], r, hv ▸ .four hw (by grind) (by omega) (by omega) (by grind) (by grind), rfl, rfl, rfl⟩
  · rintro ⟨v, t, r, h, rfl, rfl, rfl⟩
    -- each form is read by as many continuation bytes as it has
    have last : ∀ {low high bits read y : Nat}, 0x80 ≤ low → high ≤ 0xBF → low ≤ 0x80 + y → 0x80 + y ≤ high →
        continuation 1 low high bits read (.ofNat (0x80 + y) :: r) = .ok (64 * bits + y) := by
      intro low high bits read y hlow hhigh hy hy'
      exact (continuation_succ_eq_ok_iff hlow hhigh).2 ⟨y, r, rfl, hy, hy', rfl⟩
    cases h with
    | one hx => exact (first_eq_ok_of_lead? (lead?_one hx)).2 ⟨_, rfl, rfl, rfl⟩
    | two hlow hx hy =>
      exact (first_eq_ok_of_lead? (lead?_two hlow hx)).2 ⟨_, last (by decide) (by decide) (by omega) (by omega), rfl, rfl⟩
    | three hx hy hz hlow hhigh =>
      refine (first_eq_ok_of_lead? (lead?_three hx)).2 ⟨_, ?_, rfl, rfl⟩
      refine (continuation_succ_eq_ok_iff (by grind) (by grind)).2 ⟨_, _, rfl, by grind, by grind, ?_⟩
      exact last (by decide) (by decide) (by omega) (by omega)
    | four hw hx hy hz hlow hhigh =>
      refine (first_eq_ok_of_lead? (lead?_four hw)).2 ⟨_, ?_, rfl, rfl⟩
      refine (continuation_succ_eq_ok_iff (by grind) (by grind)).2 ⟨_, _, rfl, by grind, by grind, ?_⟩
      refine (continuation_succ_eq_ok_iff (by decide) (by decide)).2 ⟨_, _, rfl, by omega, by omega, ?_⟩
      exact last (by decide) (by decide) (by omega) (by omega)

/-- A character is read from its bytes, whatever follows them. -/
theorem first_encodeChar {c : Char} {b : UInt8} {t : List UInt8} (h : String.utf8EncodeChar c = b :: t) (r : List UInt8) :
    first b (t ++ r) = .ok (c, t.length) :=
  first_eq_ok_iff.2 ⟨c.toNat, t, r, h ▸ sequence_encodeChar c, rfl, rfl, Char.ofNat_toNat c⟩

/-! ## Texts -/

/-- Bytes of a character already read are passed over. -/
theorem decodeFrom_skip (position skip : Nat) (bs : List UInt8) :
    decodeFrom position skip bs = decodeFrom (position + skip) 0 (bs.drop skip) := by
  induction skip generalizing position bs with
  | zero => rfl
  | succ skip ih =>
    cases bs with
    | nil => rfl
    | cons b bs => rw [decodeFrom, ih, List.drop_succ_cons, Nat.add_right_comm, Nat.add_assoc]

/-- Decoding what was encoded gives the text, wherever it begins. -/
theorem decodeFrom_encode (position : Nat) (s : Text) : decodeFrom position 0 (encode s) = .ok s := by
  induction s generalizing position with
  | nil => rfl
  | cons c s ih =>
    obtain ⟨b, t, hbytes⟩ := (sequence_encodeChar c).exists_cons
    change decodeFrom position 0 (String.utf8EncodeChar c ++ encode s) = _
    rw [hbytes, List.cons_append, decodeFrom, first_encodeChar hbytes]
    dsimp only
    rw [decodeFrom_skip, List.drop_left, ih]
    rfl

/-- What is read as a text, the bytes of a character already read apart, is what is written of it. -/
theorem encode_of_decodeFrom {position skip : Nat} {bs : List UInt8} {s : Text} (h : decodeFrom position skip bs = .ok s) :
    bs.drop skip = encode s := by
  induction bs generalizing position skip s with
  | nil =>
    obtain rfl : [] = s := by
      cases skip <;> exact Except.ok.inj h
    exact List.drop_nil
  | cons b bs ih =>
    cases skip with
    | succ skip => exact ih h
    | zero =>
      rw [decodeFrom] at h
      cases hfirst : first b bs with
      | error e => exact absurd h (by simp [hfirst])
      | ok p =>
        obtain ⟨c, tail⟩ := p
        obtain ⟨v, t, r, hsequence, rfl, rfl, rfl⟩ := first_eq_ok_iff.1 hfirst
        rw [hfirst] at h
        cases hrest : decodeFrom (position + 1) t.length (t ++ r) with
        | error e => exact absurd h (by simp [hrest, Except.map])
        | ok s' =>
          obtain rfl : Char.ofNat v :: s' = s := by simpa [hrest, Except.map] using h
          have hr := ih hrest
          rw [List.drop_left] at hr
          change b :: (t ++ r) = String.utf8EncodeChar (Char.ofNat v) ++ encode s'
          rw [← hsequence.eq_encodeChar, hr]
          rfl

/-- Bytes are read as a text if and only if they are the bytes of the text. -/
theorem decode_eq_ok_iff {bs : List UInt8} {s : Text} : decode bs = .ok s ↔ bs = encode s := by
  refine ⟨fun h => encode_of_decodeFrom h, ?_⟩
  rintro rfl
  exact decodeFrom_encode 0 s

end SourceInventory.Utf8
