import SourceInventory.Proofs.Pattern.Unambiguous

/-!
# Written texts: what a pattern reads whatever follows

A pattern reads a text if it has a reading of exactly this text, whatever follows it, and the reading captures the same
fields each time. So a text that is written piece by piece is read piece by piece (`Reads.append`). If the pattern is
unambiguous, this reading is the one that a scan takes (`Reads.first?_eq_some`), and the scan goes on after it
(`Reads.occurrences_eq_cons`). Over a stretch in which no reading begins the scan passes without a trace
(`scanFrom_of_beginsNowhereIn`).
-/

namespace SourceInventory

/-- What a reading recorded: each field with its text, in order. -/
def Derivation.captures (d : Derivation) : List (Field × Text) := d.fields.map fun x => (x.1, x.2.text)

/-- One reading after another captures what the two capture, in this order. -/
theorem Derivation.captures_andThen (d e : Derivation) : (d.andThen e).captures = d.captures ++ e.captures :=
  List.map_append

/-- The text of a field is the first that was captured for it. -/
theorem Derivation.get?_eq_lookup (d : Derivation) (f : Field) : d.get? f = d.captures.lookup f := by
  rw [get?, span?, captures]
  induction d.fields with
  | nil => rfl
  | cons x xs ih =>
    rw [List.map_cons, List.lookup_cons]
    by_cases hx : x.1 = f
    · rw [List.find?_cons_of_pos (by simpa using hx)]
      simp [hx]
    · rw [List.find?_cons_of_neg (by simpa using hx), ih, beq_false_of_ne (Ne.symm hx)]

namespace Pattern

variable {a b p : Pattern} {s t u rest : Text} {cs cs' : List (Field × Text)}

/-- A reading that leaves what follows a text takes as many characters as the text has. -/
theorem length_of_derives_append {d : Derivation} (h : Derives p (t ++ rest) d) (hr : d.rest = rest) :
    d.length = t.length := by
  obtain ⟨u, hu, hlen⟩ := h.eq_append
  rw [hr] at hu
  rw [← hlen, List.append_cancel_right hu]

/-! ## Reading a text whatever follows -/

/-- Whatever follows a text, the pattern has a reading of exactly the text that captures the given fields. -/
def Reads (p : Pattern) (t : Text) (cs : List (Field × Text)) : Prop :=
  ∀ rest, ∃ d, Derives p (t ++ rest) d ∧ d.rest = rest ∧ d.captures = cs

/-- A text is read by the pattern for it. -/
theorem reads_text (t : Text) : Reads (.text t) t [] := by
  intro rest
  exact ⟨_, .text, rfl, rfl⟩

theorem reads_lit (w : String) : Reads (lit w) w.toList [] := reads_text _

theorem reads_char {k : Char → Bool} {c : Char} (h : k c = true) : Reads (.char k) [c] [] := by
  intro rest
  exact ⟨_, .char h, rfl, rfl⟩

/-- Characters of a class are read as a run of it. -/
theorem reads_run {k : Char → Bool} (h : ∀ c ∈ t, k c = true) : Reads (.run k) t [] := by
  intro rest
  exact ⟨_, .run h, rfl, rfl⟩

/-- What is written one after the other is read one after the other. -/
theorem Reads.append (ha : Reads a t cs) (hb : Reads b u cs') : Reads (a ++ b) (t ++ u) (cs ++ cs') := by
  intro rest
  obtain ⟨d, hd, hdr, rfl⟩ := ha (u ++ rest)
  obtain ⟨e, he, her, rfl⟩ := hb rest
  refine ⟨d.andThen e, ?_, her, Derivation.captures_andThen d e⟩
  rw [List.append_assoc]
  exact derives_append_iff.2 ⟨d, e, hd, hdr ▸ he, rfl⟩

/-- What the first of two alternatives reads is read by either. -/
theorem Reads.left (h : Reads a t cs) : Reads (.either a b) t cs := by
  intro rest
  obtain ⟨d, hd, hr, hc⟩ := h rest
  exact ⟨d, .left hd, hr, hc⟩

/-- What the second of two alternatives reads is read by either. -/
theorem Reads.right (h : Reads b t cs) : Reads (.either a b) t cs := by
  intro rest
  obtain ⟨d, hd, hr, hc⟩ := h rest
  exact ⟨d, .right hd, hr, hc⟩

/-- What a pattern reads is read where the pattern may be left out. -/
theorem Reads.present (h : Reads a t cs) : Reads (.optional a) t cs := by
  intro rest
  obtain ⟨d, hd, hr, hc⟩ := h rest
  exact ⟨d, .present hd, hr, hc⟩

/-- Where a pattern may be left out, nothing is read as well. -/
theorem reads_absent (a : Pattern) : Reads (.optional a) [] [] := by
  intro rest
  exact ⟨_, .absent, rfl, rfl⟩

/-- Texts of which each is read and none is empty are read as repetitions. -/
theorem reads_many {ts : List Text} (h : ∀ t ∈ ts, t ≠ [] ∧ Reads a t []) : Reads (.many a) ts.flatten [] := by
  intro rest
  induction ts with
  | nil => exact ⟨_, .stop, rfl, rfl⟩
  | cons t ts ih =>
    obtain ⟨hne, ht⟩ := h t List.mem_cons_self
    obtain ⟨d, hd, hdr, hdc⟩ := ht (ts.flatten ++ rest)
    obtain ⟨e, he, her, hec⟩ := ih fun u hu => h u (List.mem_cons_of_mem t hu)
    refine ⟨d.andThen e, ?_, her, by rw [Derivation.captures_andThen, hdc, hec]; rfl⟩
    rw [List.flatten_cons, List.append_assoc]
    refine .more hd ?_ (hdr ▸ he)
    rw [length_of_derives_append hd hdr]
    exact List.length_pos_iff.2 hne

/-- A pattern that is recorded captures the text it reads. -/
theorem Reads.field (f : Field) (h : Reads a t cs) : Reads (.field f a) t ((f, t) :: cs) := by
  intro rest
  obtain ⟨d, hd, hr, rfl⟩ := h rest
  refine ⟨d.record f (t ++ rest), .field hd, hr, ?_⟩
  change (f, (t ++ rest).take d.length) :: d.captures = _
  rw [length_of_derives_append hd hr, List.take_left]

/-- Characters of a class, one at least, are read as a run of one at least. -/
theorem reads_nonemptyRun {k : Char → Bool} (hne : t ≠ []) (h : ∀ c ∈ t, k c = true) : Reads (nonemptyRun k) t [] := by
  obtain ⟨c, u, rfl⟩ := List.exists_cons_of_ne_nil hne
  exact (reads_char (h c List.mem_cons_self)).append (reads_run fun x hx => h x (List.mem_cons_of_mem c hx))

/-- A text without a closing parenthesis is read as a list, and captured. -/
theorem reads_parenthesised (f : Field) (h : ')' ∉ t) : Reads (parenthesised f) ('(' :: (t ++ [')'])) [(f, t)] := by
  have hrun : Reads (upTo ')') t [] := by
    refine reads_run fun c hc => ?_
    have hne : c ≠ ')' := fun hc' => h (hc' ▸ hc)
    simpa using hne
  exact ((reads_lit "(").append (hrun.field f)).append (reads_lit ")")

/-- A written text has a preferred reading. -/
theorem Reads.exists_first? (h : Reads p t cs) (rest : Text) : ∃ d, p.first? (t ++ rest) = some d := by
  obtain ⟨d, hd, -⟩ := h rest
  cases hfirst : p.first? (t ++ rest) with
  | none => exact absurd hd (first?_eq_none_iff.1 hfirst d)
  | some e => exact ⟨e, rfl⟩

/-- A written text that a second pattern can follow is read up to its end, if the first pattern is settled before the second. -/
theorem Reads.rest_eq {d e f : Derivation} (h : Reads a t cs) (hab : SettledBefore a b) (hd : Derives a (t ++ rest) d)
    (he : Derives b d.rest e) (hf : Derives b rest f) : d.rest = rest := by
  obtain ⟨d', hd', hr, -⟩ := h rest
  rw [hab hd he hd' (hr ▸ hf), hr]

/-- An unambiguous pattern prefers the reading of a written text. -/
theorem Reads.first?_eq_some (h : Reads p t cs) (hp : Unambiguous p) (rest : Text) :
    ∃ d, p.first? (t ++ rest) = some d ∧ d.rest = rest ∧ d.captures = cs := by
  obtain ⟨d, hd, hr, hc⟩ := h rest
  obtain ⟨e, he⟩ := h.exists_first? rest
  rw [hp (derives_of_first? he) hd] at he
  exact ⟨d, he, hr, hc⟩

end Pattern

/-! ## Scanning texts that are put together -/

namespace Pattern

variable {p : Pattern} {anchor : Anchor} {s t u : Text}

/-- For a pattern that may begin anywhere, it makes no difference what stands before. -/
theorem scanFrom_anywhere (before before' : Option Char) (skip : Nat) (s : Text) :
    p.scanFrom .anywhere before skip s = p.scanFrom .anywhere before' skip s := by
  cases s with
  | nil => rfl
  | cons c s => cases skip <;> rfl

/-- No reading begins in `u` when `s` follows. -/
def BeginsNowhereIn (p : Pattern) (u s : Text) : Prop := ∀ v, v <:+ u → v ≠ [] → ∀ d, ¬ Derives p (v ++ s) d

/-- A pattern begins nowhere in two texts if it begins in neither, each with what follows it. -/
theorem BeginsNowhereIn.append (hu : BeginsNowhereIn p u (t ++ s)) (ht : BeginsNowhereIn p t s) :
    BeginsNowhereIn p (u ++ t) s := by
  intro v hv hne d
  obtain ⟨x, hx⟩ := hv
  rcases List.append_eq_append_iff.1 hx with ⟨w, rfl, rfl⟩ | ⟨w, rfl, rfl⟩
  · cases w with
    | nil => exact ht t (List.suffix_refl t) hne d
    | cons c w =>
      rw [List.append_assoc]
      exact hu (c :: w) (List.suffix_append x _) (List.cons_ne_nil c w) d
  · exact ht v (List.suffix_append w v) hne d

/-- No reading begins in a stretch of characters with which none begins. -/
theorem BeginsWith.beginsNowhereIn {q : Char → Prop} (hp : BeginsWith p q) (hu : ∀ c ∈ u, ¬ q c) (s : Text) :
    BeginsNowhereIn p u s := by
  intro v hv hne d hd
  obtain ⟨c, r, hcr, hc⟩ := hp hd
  obtain ⟨x, v, rfl⟩ := List.exists_cons_of_ne_nil hne
  obtain rfl : x = c := (List.cons.inj hcr).1
  exact hu x (hv.subset List.mem_cons_self) hc

/-- Every reading of the pattern begins with a text. -/
def OpensWith (p : Pattern) (w : Text) : Prop := ∀ ⦃s : Text⦄ ⦃d : Derivation⦄, Derives p s d → w <+: s

theorem opensWith_lit (w : String) : OpensWith (lit w) w.toList := by
  intro s d hd
  obtain ⟨r, rfl, -⟩ := derives_text_iff.1 hd
  exact List.prefix_append _ _

/-- A sequence opens as its first part does. -/
theorem OpensWith.append {a b : Pattern} {w : Text} (ha : OpensWith a w) : OpensWith (a ++ b) w := by
  intro s d hd
  obtain ⟨e, f, he, -, -⟩ := derives_append_iff.1 hd
  exact ha he

/-- A text whose first character comes back nowhere in it does not reach from one text into another that begins with this
character. -/
theorem prefix_of_prefix_append {c : Char} {r : Text} (hc : c ∉ r) (hu : u ≠ []) (hs : ∀ x ∈ s.head?, x = c)
    (h : c :: r <+: u ++ s) : c :: r <+: u := by
  rcases List.prefix_or_prefix_of_prefix h (List.prefix_append u s) with h' | ⟨w, hw⟩
  · exact h'
  · cases w with
    | nil =>
      obtain rfl : u = c :: r := (List.append_nil u).symm.trans hw
      exact List.prefix_refl _
    | cons x w =>
      obtain ⟨y, u, rfl⟩ := List.exists_cons_of_ne_nil hu
      rw [← hw, List.prefix_append_right_inj] at h
      obtain ⟨z, rfl⟩ := h
      obtain rfl : x = c := hs x rfl
      exact absurd ((List.cons.inj hw).2 ▸ List.mem_append_right u List.mem_cons_self) hc

/-- No reading begins in a stretch without the word that every reading begins with, not even across its end. -/
theorem OpensWith.beginsNowhereIn {c : Char} {r : Text} (hp : OpensWith p (c :: r)) (hc : c ∉ r) (hu : ¬ c :: r <:+: u)
    (hs : ∀ x ∈ s.head?, x = c) : BeginsNowhereIn p u s := by
  intro v hv hne d hd
  exact hu ((prefix_of_prefix_append hc hne hs (hp hd)).isInfix.trans hv.isInfix)

/-- A stretch in which no reading begins is passed over. -/
theorem scanFrom_of_beginsNowhereIn (h : BeginsNowhereIn p u s) (before : Option Char) :
    p.scanFrom anchor before 0 (u ++ s) = p.scanFrom anchor (u.getLast?.or before) 0 s := by
  induction u generalizing before with
  | nil => rfl
  | cons c u ih =>
    have hnone : p.first? (c :: u ++ s) = none :=
      first?_eq_none_iff.2 (h (c :: u) (List.suffix_refl _) (List.cons_ne_nil c u))
    rw [List.cons_append] at hnone ⊢
    rw [scanFrom_none (by rw [hnone, ite_self]), ih fun v hv => h v (hv.trans (List.suffix_cons c u)),
      getLast?_cons_or]

/-- Where a pattern begins nowhere in the first text, its occurrences are those in what follows. -/
theorem occurrences_of_beginsNowhereIn (h : BeginsNowhereIn p u s) :
    p.occurrences .anywhere (u ++ s) = p.occurrences .anywhere s := by
  rw [occurrences, scanFrom_of_beginsNowhereIn h]
  exact scanFrom_anywhere _ _ _ _

theorem occurrences_eq_nil (h : BeginsNowhereIn p u []) : p.occurrences .anywhere u = [] := by
  have hscan := occurrences_of_beginsNowhereIn h
  rwa [List.append_nil] at hscan

/-- Where a reading is preferred, the scan takes it and goes on after it. -/
theorem occurrences_eq_cons {d : Derivation} (h : p.first? (t ++ s) = some d) (hr : d.rest = s) (ht : t ≠ []) :
    p.occurrences .anywhere (t ++ s) = ⟨d, t ++ s⟩ :: p.occurrences .anywhere s := by
  have hlen := length_of_derives_append (derives_of_first? h) hr
  obtain ⟨c, u, rfl⟩ := List.exists_cons_of_ne_nil ht
  have hscan := @scanFrom_some p .anywhere none c u s d h hr hlen
  rw [occurrences, hscan, hr]
  exact congrArg _ (scanFrom_anywhere _ _ _ _)

/-- A scan for an unambiguous pattern takes a written text and goes on after it. -/
theorem Reads.occurrences_eq_cons {cs : List (Field × Text)} (h : Reads p t cs) (hp : Unambiguous p) (ht : t ≠ [])
    (s : Text) :
    ∃ d, p.occurrences .anywhere (t ++ s) = ⟨d, t ++ s⟩ :: p.occurrences .anywhere s ∧ d.captures = cs := by
  obtain ⟨d, hfirst, hr, hc⟩ := h.first?_eq_some hp s
  exact ⟨d, Pattern.occurrences_eq_cons hfirst hr ht, hc⟩

end Pattern

end SourceInventory
