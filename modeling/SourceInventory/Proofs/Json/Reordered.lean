import Mathlib.Data.List.Nodup
import SourceInventory.Proofs.Json.Grammar
import SourceInventory.Proofs.Json.Search

/-!
# Reordered values: objects whose members stand in another order

Two values differ in the order of members if one comes from the other by putting members of objects in another order, at any
depth. Such values mention the same words (`Reordered.mentions_iff`), and what stands under a key in one of them stands under
it in the other, reordered (`Reordered.exists_member`), as no key stands twice in an object that is read (`nodup_of_denotes`).
-/

namespace SourceInventory.Json

/-- A value comes from another by putting members of objects in another order, at any depth. -/
inductive Reordered : Json → Json → Prop where
  | refl (v : Json) : Reordered v v
  | trans {u v w : Json} : Reordered u v → Reordered v w → Reordered u w
  /-- The members of an object in another order. -/
  | order {ms ns : List (CodeText × Json)} : ms.Perm ns → Reordered (.object ms) (.object ns)
  /-- A change in an item of an array. -/
  | item {before after : List Json} {v w : Json} : Reordered v w →
      Reordered (.array (before ++ v :: after)) (.array (before ++ w :: after))
  /-- A change in a member of an object. -/
  | member {before after : List (CodeText × Json)} {k : CodeText} {v w : Json} : Reordered v w →
      Reordered (.object (before ++ (k, v) :: after)) (.object (before ++ (k, w) :: after))

namespace Reordered

variable {v w : Json}

theorem symm (h : Reordered v w) : Reordered w v := by
  induction h with
  | refl v => exact .refl v
  | trans _ _ ih ih' => exact ih'.trans ih
  | order h => exact .order h.symm
  | item _ ih => exact ih.item
  | member _ ih => exact ih.member

/-- The same words are mentioned. -/
theorem mentions_iff (h : Reordered v w) (x : Text) : v.Mentions x ↔ w.Mentions x := by
  induction h with
  | refl v => rfl
  | trans _ _ ih ih' => exact ih.trans ih'
  | order h =>
    rw [mentions_object_iff, mentions_object_iff]
    exact exists_congr fun m => and_congr_left' h.mem_iff
  | item _ ih =>
    simp only [mentions_array_iff, List.mem_append, List.mem_cons, or_and_right, exists_or, exists_eq_left, ih]
  | member _ ih =>
    simp only [mentions_object_iff, List.mem_append, List.mem_cons, or_and_right, exists_or, exists_eq_left, ih]

/-! ## Members -/

/-- An object without a key twice becomes one without a key twice, and what is under a key stays under it, reordered. -/
theorem exists_members (h : Reordered v w) {ms : List (CodeText × Json)} (hv : v = .object ms) (hms : (ms.map (·.1)).Nodup) :
    ∃ ns, w = .object ns ∧ (ns.map (·.1)).Nodup ∧ ∀ k x, (k, x) ∈ ms → ∃ y, (k, y) ∈ ns ∧ Reordered x y := by
  induction h generalizing ms with
  | refl v => exact ⟨ms, hv, hms, fun k x hx => ⟨x, hx, .refl x⟩⟩
  | trans _ _ ih ih' =>
    obtain ⟨ns, hns, hnodup, hmembers⟩ := ih hv hms
    obtain ⟨os, hos, hnodup', hmembers'⟩ := ih' hns hnodup
    refine ⟨os, hos, hnodup', fun k x hx => ?_⟩
    obtain ⟨y, hy, hxy⟩ := hmembers k x hx
    obtain ⟨z, hz, hyz⟩ := hmembers' k y hy
    exact ⟨z, hz, hxy.trans hyz⟩
  | @order _ ns h =>
    obtain rfl := Json.object.inj hv
    exact ⟨ns, rfl, (h.map (·.1)).nodup_iff.1 hms, fun k x hx => ⟨x, h.mem_iff.1 hx, .refl x⟩⟩
  | item _ _ => exact absurd hv (by simp)
  | @member before after k v w h _ =>
    obtain rfl := Json.object.inj hv
    refine ⟨_, rfl, ?_, fun k' x hx => ?_⟩
    · rw [List.map_append, List.map_cons] at hms ⊢
      exact hms
    · rcases List.mem_append.1 hx with hx | hx
      · exact ⟨x, List.mem_append_left _ hx, .refl x⟩
      · rcases List.mem_cons.1 hx with heq | hx
        · obtain ⟨rfl, rfl⟩ := Prod.mk.inj heq
          exact ⟨w, List.mem_append_right _ List.mem_cons_self, h⟩
        · exact ⟨x, List.mem_append_right _ (List.mem_cons_of_mem _ hx), .refl x⟩

end Reordered

/-- Under a key stands what is a member with this key, if no key stands twice. -/
theorem member?_eq_some_iff {ms : List (CodeText × Json)} (h : (ms.map (·.1)).Nodup) {k : CodeText} {v : Json} :
    member? k ms = some v ↔ (k, v) ∈ ms := by
  induction ms with
  | nil => exact iff_of_false (by simp [member?]) List.not_mem_nil
  | cons m ms ih =>
    rw [List.map_cons, List.nodup_cons] at h
    rw [member?, List.mem_cons]
    by_cases hm : m.1 = k
    · rw [List.find?_cons_of_pos (by simpa using hm), Option.map_some, Option.some.injEq, or_iff_left]
      · exact ⟨fun hv => Prod.ext hm.symm hv.symm, fun hmv => congrArg Prod.snd hmv.symm⟩
      · intro hmem
        exact h.1 (hm ▸ List.mem_map_of_mem hmem)
    · rw [List.find?_cons_of_neg (by simpa using hm), or_iff_right fun hmv => hm (congrArg Prod.fst hmv).symm]
      exact ih h.2

/-- What stands under a key of an object stands under it in the reordered object, reordered. -/
theorem Reordered.exists_member {ms : List (CodeText × Json)} {w : Json} (h : Reordered (.object ms) w)
    (hms : (ms.map (·.1)).Nodup) :
    ∃ ns, w = .object ns ∧ (ns.map (·.1)).Nodup ∧
      ∀ k v, member? k ms = some v → ∃ v', member? k ns = some v' ∧ Reordered v v' := by
  obtain ⟨ns, rfl, hns, hmembers⟩ := h.exists_members rfl hms
  refine ⟨ns, rfl, hns, fun k v hv => ?_⟩
  obtain ⟨v', hv', hreordered⟩ := hmembers k v ((member?_eq_some_iff hms).1 hv)
  exact ⟨v', (member?_eq_some_iff hns).2 hv', hreordered⟩

/-! ## Objects that are read -/

/-- A key is added at the end, unless it is there already. -/
theorem map_fst_put (k : CodeText) (v : Json) (ms : List (CodeText × Json)) :
    (put k v ms).map (·.1) = ms.map (·.1) ∨ k ∉ ms.map (·.1) ∧ (put k v ms).map (·.1) = ms.map (·.1) ++ [k] := by
  induction ms with
  | nil => exact Or.inr ⟨List.not_mem_nil, rfl⟩
  | cons m ms ih =>
    rw [put]
    by_cases hm : m.1 = k
    · exact Or.inl (by simp [hm])
    · rw [if_neg hm, List.map_cons, List.map_cons]
      rcases ih with heq | ⟨hk, heq⟩
      · exact Or.inl (by rw [heq])
      · exact Or.inr ⟨fun hmem => (List.mem_cons.1 hmem).elim (fun h => hm h.symm) hk, by rw [heq, List.cons_append]⟩

theorem nodup_put {ms : List (CodeText × Json)} (h : (ms.map (·.1)).Nodup) (k : CodeText) (v : Json) :
    ((put k v ms).map (·.1)).Nodup := by
  rcases map_fst_put k v ms with heq | ⟨hk, heq⟩
  · rwa [heq]
  · rw [heq]
    refine List.nodup_append.2 ⟨h, List.nodup_singleton k, fun x hx y hy => ?_⟩
    rw [List.mem_singleton.1 hy]
    exact fun hxk => hk (hxk ▸ hx)

/-- No key stands twice in the object that members make. -/
theorem nodup_of_ofMembers {ms ns : List (CodeText × Json)} (h : ofMembers ms = .object ns) : (ns.map (·.1)).Nodup := by
  have hfold : ∀ o : List (CodeText × Json), (o.map (·.1)).Nodup →
      ((ms.foldl (fun o m => put m.1 m.2 o) o).map (·.1)).Nodup := by
    clear h
    induction ms with
    | nil => exact fun o ho => ho
    | cons m ms ih => exact fun o ho => ih _ (nodup_put ho m.1 m.2)
  obtain rfl := Json.object.inj h
  exact hfold [] List.nodup_nil

/-- No key stands twice in an object that a text denotes. -/
theorem nodup_of_denotes {limit : ℕ∞} {s : Text} {ms : List (CodeText × Json)} (h : Denotes limit s (.object ms)) :
    (ms.map (·.1)).Nodup := by
  obtain ⟨-, h, -⟩ := h
  generalize hv : Json.object ms = v at h
  cases h with
  | scalar h =>
    cases h with
    | word h =>
      have table : ∀ w ∈ words, ∀ ns, w.2 ≠ .object ns := by simp [words]
      exact absurd hv.symm (table _ h ms)
    | number => exact absurd hv (by simp)
  | string | emptyArray | array => exact absurd hv (by simp)
  | emptyObject =>
    obtain rfl := Json.object.inj hv
    exact List.nodup_nil
  | object => exact nodup_of_ofMembers hv.symm

end SourceInventory.Json
