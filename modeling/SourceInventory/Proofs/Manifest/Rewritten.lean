import SourceInventory.Proofs.Json.Reordered
import SourceInventory.Proofs.Json.Written
import SourceInventory.Proofs.Manifest.Mention

/-!
# Rewritten manifests: what is written otherwise says the same

A manifest may be written in many ways: with other gaps between its tokens, with other ways to write the characters of its
strings, and with the members of its objects in another order. The framework that it names is the same in all of them, and in
none of them is it reported as no JSON text.
-/

namespace SourceInventory

open Json (Reordered)

namespace Manifest

theorem isSection_eq_of_reordered {v w : Json} (h : Reordered v w) : isSection v = isSection w := by
  induction h with
  | refl | order | item | member => rfl
  | trans _ _ ih ih' => exact ih.trans ih'

theorem Names.reordered {ms ns : List (CodeText × Json)} (h : Reordered (.object ms) (.object ns))
    (hms : (ms.map (·.1)).Nodup) {w : Text} (hw : Names ms w) : Names ns w := by
  obtain ⟨_, hns, -, hmembers⟩ := h.exists_member hms
  obtain rfl := Json.object.inj hns
  obtain ⟨n, hn, v, hv, hsection, hmention⟩ := hw
  obtain ⟨v', hv', hreordered⟩ := hmembers _ v hv
  exact ⟨n, hn, v', hv', isSection_eq_of_reordered hreordered ▸ hsection, (hreordered.mentions_iff w).1 hmention⟩

/-- Manifests that differ in the order of members name the same framework. -/
theorem framework?_eq_of_reordered {ms : List (CodeText × Json)} {v : Json} (h : Reordered (.object ms) v)
    (hms : (ms.map (·.1)).Nodup) : framework? v = framework? (.object ms) := by
  obtain ⟨ns, rfl, hns, -⟩ := h.exists_member hms
  have hoccurs : ∀ f ∈ priority,
      Text.occursIn f.name (written (sections ns)) = Text.occursIn f.name (written (sections ms)) := by
    intro f hf
    rw [Bool.eq_iff_iff, occursIn_written_iff (sought_priority f hf), occursIn_written_iff (sought_priority f hf)]
    exact ⟨Names.reordered h.symm hns, Names.reordered h hms⟩
  rw [framework?, framework?]
  exact List.find?_congr hoccurs

end Manifest

namespace Locate

/-- A manifest that denotes a value says the framework that this value names, and nothing is told about it. -/
theorem probeManifest_of_denotes {t : FileTree} {cwd : Location} {dir : Path} {s : Text} {v : Json}
    (hread : t.read cwd (dir.child manifestName).toText = .ok s) (hs : Json.Denotes Json.integerDigits s v) :
    probeManifest t cwd dir = .silent (.ok (Manifest.framework? v)) := by
  rw [probeManifest, probeFile, hread]
  dsimp only
  rw [Json.read_of_denotes hs]

/-- Two manifests that denote an object, up to the order of members at any depth, say the same framework, and neither is
reported as no JSON text: nothing is told about them. How they are written makes no difference. -/
theorem probeManifest_rewritten {t t' : FileTree} {cwd cwd' : Location} {dir dir' : Path} {s s' : Text}
    {ms : List (CodeText × Json)} {v : Json} (hread : t.read cwd (dir.child manifestName).toText = .ok s)
    (hread' : t'.read cwd' (dir'.child manifestName).toText = .ok s') (hs : Json.Denotes Json.integerDigits s (.object ms))
    (hs' : Json.Denotes Json.integerDigits s' v) (hv : Reordered (.object ms) v) :
    probeManifest t cwd dir = .silent (.ok (Manifest.framework? (.object ms))) ∧
      probeManifest t' cwd' dir' = .silent (.ok (Manifest.framework? (.object ms))) := by
  refine ⟨probeManifest_of_denotes hread hs, ?_⟩
  rw [probeManifest_of_denotes hread' hs', Manifest.framework?_eq_of_reordered hv (Json.nodup_of_denotes hs)]

/-- A manifest whose scripts name a framework, and the same with gaps, with an escape and with its members the other way round. -/
theorem probeManifest_rewritten_jest :
    probeManifest (.ofFile [manifestName] "\x7b\"scripts\":[\"jest\"],\"private\":true\x7d".toList) [] ⟨.here, []⟩ =
        .silent (.ok (some .jest)) ∧
      probeManifest (.ofFile [manifestName] "\x7b \"private\" : true ,\n\"scripts\":[\"\\u006aest\"]\x7d".toList) []
        ⟨.here, []⟩ = .silent (.ok (some .jest)) := by
  have hread : FileTree.read (.ofFile [manifestName] "\x7b\"scripts\":[\"jest\"],\"private\":true\x7d".toList) []
      (Path.child ⟨.here, []⟩ manifestName).toText = .ok "\x7b\"scripts\":[\"jest\"],\"private\":true\x7d".toList :=
    FileTree.read_ofFile (by simp) (by decide) (by decide) rfl
  have hread' : FileTree.read
      (.ofFile [manifestName] "\x7b \"private\" : true ,\n\"scripts\":[\"\\u006aest\"]\x7d".toList) []
      (Path.child ⟨.here, []⟩ manifestName).toText =
        .ok "\x7b \"private\" : true ,\n\"scripts\":[\"\\u006aest\"]\x7d".toList :=
    FileTree.read_ofFile (by simp) (by decide) (by decide) rfl
  have htrue : Json.Spells Json.integerDigits "true".toList (.bool true) :=
    .scalar (.word (w := ("true".toList, .bool true)) (by simp [Json.words]))
  have hs : Json.Denotes Json.integerDigits "\x7b\"scripts\":[\"jest\"],\"private\":true\x7d".toList
      (.object [(CodeText.ofText "scripts".toList, .array [.ofText "jest".toList]),
        (CodeText.ofText "private".toList, .bool true)]) :=
    .document Json.gap_nil (.object Json.gap_nil (.cons (Json.spellsString_ofText "scripts".toList) Json.gap_nil Json.gap_nil
      (.array Json.gap_nil (.last (.string (Json.spellsString_ofText "jest".toList)) Json.gap_nil)) Json.gap_nil Json.gap_nil
      (.last (Json.spellsString_ofText "private".toList) Json.gap_nil Json.gap_nil htrue Json.gap_nil))) Json.gap_nil
  have hbreak : Json.Gap ['\n'] := List.forall_mem_singleton.2 rfl
  have hescaped : Json.SpellsString "\"\\u006aest\"".toList (CodeText.ofText "jest".toList) :=
    .quoted (u := "\\u006aest".toList) (.cons (.digits (n := 0x6A) rfl) (.cons (.char (by decide) (by decide) (by decide))
      (.cons (.char (by decide) (by decide) (by decide)) (.cons (.char (by decide) (by decide) (by decide)) .nil))))
  have hs' : Json.Denotes Json.integerDigits "\x7b \"private\" : true ,\n\"scripts\":[\"\\u006aest\"]\x7d".toList
      (.object [(CodeText.ofText "private".toList, .bool true),
        (CodeText.ofText "scripts".toList, .array [.ofText "jest".toList])]) :=
    .document Json.gap_nil (.object Json.gap_blank (.cons (Json.spellsString_ofText "private".toList) Json.gap_blank
      Json.gap_blank htrue Json.gap_blank hbreak
      (.last (Json.spellsString_ofText "scripts".toList) Json.gap_nil Json.gap_nil
        (.array Json.gap_nil (.last (.string hescaped) Json.gap_nil)) Json.gap_nil))) Json.gap_nil
  have hframework : Manifest.framework? (.object [(CodeText.ofText "scripts".toList, .array [.ofText "jest".toList]),
      (CodeText.ofText "private".toList, .bool true)]) = some .jest := rfl
  rw [← hframework]
  exact probeManifest_rewritten hread hread' hs hs' (.order (.swap _ _ _))

end Locate

end SourceInventory
