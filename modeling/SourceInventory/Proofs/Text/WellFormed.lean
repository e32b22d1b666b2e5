import SourceInventory.Proofs.Text.Utf8

/-!
# WellFormed: how far bytes are those of a text

Bytes are well formed if they are sequences of code points one after another, and these are the bytes of texts
(`wellFormed_iff`). Other bytes are refused, and the place of the fault is where their longest well-formed beginning ends
(`longest_of_decode_eq_error`): before it every character was complete, and from it on no character begins.
-/

namespace SourceInventory.Utf8

/-- Bytes that are sequences of code points one after another. -/
inductive WellFormed : List UInt8 → Prop where
  | nil : WellFormed []
  | append {n : Nat} {u bs : List UInt8} : Sequence n u → WellFormed bs → WellFormed (u ++ bs)

theorem encode_cons (c : Char) (s : Text) : encode (c :: s) = String.utf8EncodeChar c ++ encode s := rfl

/-- Well-formed bytes are the bytes of a text. -/
theorem wellFormed_iff {bs : List UInt8} : WellFormed bs ↔ ∃ s, bs = encode s := by
  constructor
  · intro h
    induction h with
    | nil => exact ⟨[], rfl⟩
    | @append n u bs hu _ ih =>
      obtain ⟨s, rfl⟩ := ih
      exact ⟨Char.ofNat n :: s, by rw [encode_cons, ← hu.eq_encodeChar]⟩
  · rintro ⟨s, rfl⟩
    induction s with
    | nil => exact .nil
    | cons c s ih => exact .append (sequence_encodeChar c) ih

theorem wellFormed_iff_decode {bs : List UInt8} : WellFormed bs ↔ ∃ s, decode bs = .ok s := by
  simp only [wellFormed_iff, decode_eq_ok_iff]

/-! ## The place of a fault -/

/-- The bytes of a text are passed over on the way to what follows them. -/
theorem decodeFrom_encode_append (position : Nat) (s : Text) (bs : List UInt8) :
    decodeFrom position 0 (encode s ++ bs) = (decodeFrom (position + (encode s).length) 0 bs).map (s ++ ·) := by
  induction s generalizing position with
  | nil => cases h : decodeFrom position 0 bs <;> simp [encode, Except.map, h]
  | cons c s ih =>
    obtain ⟨b, t, hbytes⟩ := (sequence_encodeChar c).exists_cons
    rw [encode_cons, hbytes, List.append_assoc, List.cons_append, decodeFrom, first_encodeChar hbytes]
    dsimp only
    rw [decodeFrom_skip, List.drop_left, ih, List.length_append, List.length_cons]
    have hposition : position + 1 + t.length + (encode s).length = position + (t.length + 1 + (encode s).length) := by omega
    rw [hposition]
    cases decodeFrom (position + (t.length + 1 + (encode s).length)) 0 bs <;> rfl

/-- What is refused begins with the bytes of a text, the bytes of a character already read apart, and then comes a byte with
which no character begins. -/
theorem exists_of_decodeFrom_eq_error {position skip : Nat} {bs : List UInt8} {f : Fault}
    (h : decodeFrom position skip bs = .error f) :
    ∃ s b t, bs.drop skip = encode s ++ b :: t ∧ f.position = position + skip + (encode s).length ∧
      first b t = .error (f.count, f.cause) := by
  induction bs generalizing position skip with
  | nil => cases skip <;> exact absurd h (by simp [decodeFrom])
  | cons b bs ih =>
    cases skip with
    | succ skip =>
      obtain ⟨s, b', t, hbytes, hposition, hfirst⟩ := ih h
      exact ⟨s, b', t, hbytes, by omega, hfirst⟩
    | zero =>
      rw [decodeFrom] at h
      cases hfirst : first b bs with
      | error e =>
        rw [hfirst] at h
        obtain rfl := Except.error.inj h
        exact ⟨[], b, bs, rfl, rfl, hfirst⟩
      | ok p =>
        obtain ⟨c, tail⟩ := p
        obtain ⟨v, t, r, hsequence, rfl, rfl, rfl⟩ := first_eq_ok_iff.1 hfirst
        rw [hfirst] at h
        cases hrest : decodeFrom (position + 1) t.length (t ++ r) with
        | ok s => exact absurd h (by simp [hrest, Except.map])
        | error e =>
          obtain rfl : e = f := by simpa [hrest, Except.map] using h
          obtain ⟨s, b', t', hbytes, hposition, hfirst'⟩ := ih hrest
          have hv := hsequence.eq_encodeChar
          rw [List.drop_left] at hbytes
          refine ⟨Char.ofNat v :: s, b', t', ?_, ?_, hfirst'⟩
          · rw [encode_cons, ← hv, List.append_assoc, ← hbytes]
            rfl
          · rw [encode_cons, ← hv, List.length_append, List.length_cons]
            omega

/-- No beginning of bytes that begin no character is well formed, but the empty one. -/
theorem WellFormed.eq_nil_of_first {b : UInt8} {t u : List UInt8} {e : Nat × Cause} (hu : WellFormed u) (hbegin : u <+: b :: t)
    (h : first b t = .error e) : u = [] := by
  cases hu with
  | nil => rfl
  | @append n v bs hv _ =>
    obtain ⟨b', v', rfl⟩ := hv.exists_cons
    obtain ⟨r, hr⟩ := hbegin
    rw [List.append_assoc, List.cons_append] at hr
    obtain ⟨rfl, rfl⟩ := List.cons.inj hr
    rw [first_eq_ok_iff.2 ⟨n, v', bs ++ r, hv, rfl, rfl, rfl⟩] at h
    exact absurd h (by simp)

/-- Bytes that are refused are well formed up to the place of the fault, and no further. -/
theorem longest_of_decode_eq_error {bs : List UInt8} {f : Fault} (h : decode bs = .error f) :
    f.position < bs.length ∧ WellFormed (bs.take f.position) ∧ ∀ u, u <+: bs → WellFormed u → u.length ≤ f.position := by
  obtain ⟨s, b, t, hbytes, hposition, hfirst⟩ := exists_of_decodeFrom_eq_error h
  rw [List.drop_zero] at hbytes
  rw [Nat.add_zero, Nat.zero_add] at hposition
  subst hbytes
  rw [hposition, List.take_left]
  refine ⟨by simp, wellFormed_iff.2 ⟨s, rfl⟩, fun u hbegin hu => Nat.le_of_not_lt fun hlonger => ?_⟩
  -- a longer beginning goes on after the text with bytes that are well formed by themselves
  have hbeginning : encode s <+: u :=
    List.prefix_of_prefix_length_le (List.prefix_append _ _) hbegin (Nat.le_of_lt hlonger)
  obtain ⟨v, rfl⟩ := hbeginning
  obtain ⟨s', hs'⟩ := wellFormed_iff_decode.1 hu
  rw [decode, decodeFrom_encode_append] at hs'
  cases hv : decodeFrom (0 + (encode s).length) 0 v with
  | error e =>
    rw [hv] at hs'
    exact absurd hs' (by simp [Except.map])
  | ok w =>
    have hwritten : WellFormed v := wellFormed_iff.2 ⟨w, encode_of_decodeFrom hv⟩
    have hnil := hwritten.eq_nil_of_first ((List.prefix_append_right_inj _).1 hbegin) hfirst
    rw [hnil, List.append_nil] at hlonger
    exact absurd hlonger (Nat.lt_irrefl _)

/-! ## Line feeds -/

/-- The byte of a line feed stands in no sequence but its own. -/
theorem Sequence.count_lineFeed {n : Nat} {bs : List UInt8} (h : Sequence n bs) :
    bs.count 0x0A = if n = 0x0A then 1 else 0 := by
  have hne : ∀ k, 0x80 ≤ k → k < 256 → 0x0A ≠ UInt8.ofNat k := by
    intro k hlow hhigh hk
    have hval := congrArg UInt8.toNat hk
    rw [UInt8.toNat_ofNat', show (0x0A : UInt8).toNat = 0x0A from rfl] at hval
    omega
  have hlong : ∀ {m : Nat} {cs : List UInt8}, 0x80 ≤ m → 0x0A ∉ cs → cs.count 0x0A = if m = 0x0A then 1 else 0 := by
    intro m cs hm hcs
    rw [if_neg (by omega), List.count_eq_zero.2 hcs]
  cases h with
  | one hx =>
    have table : ∀ x < 0x80, [UInt8.ofNat x].count 0x0A = if x = 0x0A then 1 else 0 := by decide
    exact table _ hx
  | @two x y hlow hx hy =>
    refine hlong (by omega) ?_
    simp only [List.mem_cons, List.not_mem_nil, or_false, not_or]
    and_intros <;> exact hne _ (by omega) (by omega)
  | @three x y z hx hy hz hlow hhigh =>
    refine hlong (by omega) ?_
    simp only [List.mem_cons, List.not_mem_nil, or_false, not_or]
    and_intros <;> exact hne _ (by omega) (by omega)
  | @four w x y z hw hx hy hz hlow hhigh =>
    refine hlong (by omega) ?_
    simp only [List.mem_cons, List.not_mem_nil, or_false, not_or]
    and_intros <;> exact hne _ (by omega) (by omega)

/-- A text has as many line feeds as its bytes. -/
theorem count_lineFeed_encode (s : Text) : (encode s).count 0x0A = s.count '\n' := by
  induction s with
  | nil => rfl
  | cons c s ih =>
    have hc : c.toNat = 0x0A ↔ c = '\n' := by rw [← Char.toNat_inj]; rfl
    rw [encode_cons, List.count_append, ih, (sequence_encodeChar c).count_lineFeed, List.count_cons, Nat.add_comm]
    simp only [hc, beq_iff_eq]

end SourceInventory.Utf8
