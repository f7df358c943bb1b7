import ScriptBundler.Proofs.Bundle.Registration
import ScriptBundler.Proofs.Bundle.Running
import ScriptBundler.Proofs.Bundle.Scope
import ScriptBundler.Proofs.Scan.Loads

namespace ScriptBundler

namespace Loader

open ScriptBundler.Thunk (Own)

section Answers

variable {δ : Type}

end Answers

end Loader

theorem Settings.answer_eq_notNeeded_iff {settings : Settings} {load : ModuleLoader} {u : String} :
    settings.answer load u = .ok .notNeeded ↔
      settings.isExternal u = true ∨ load u = .ok .notNeeded := by
  rcases settings.answer_cases load u with ⟨hx, ha⟩ | ⟨hx, ha⟩
  · rw [ha, hx]
    exact iff_of_true rfl (.inl rfl)
  · rw [ha, hx, or_iff_right Bool.false_ne_true]

namespace Scan

variable {load : ModuleLoader} {s : Scan}

structure Left (settings : Settings) (load : ModuleLoader) (s : Scan) (urls : List String) :
    Prop where
  urls_eq : urls = s.graph.urls.filter fun u => s.graph.state? u = some .notNeeded
  met : s.graph.urls =
    distinct (settings.entries ++ s.graph.urls.flatMap (settings.mentions load))
  mem_iff : ∀ u, u ∈ urls ↔ settings.Reaches load u ∧
    (settings.isExternal u = true ∨ load u = .ok .notNeeded)

theorem notNeeded_filter (s : Scan) :
    s.notNeeded = s.graph.urls.filter fun u => s.graph.state? u = some .notNeeded := by
  rw [notNeeded, ← Graph.map_url_modules, List.filter_map]
  congr 1
  apply List.filter_congr
  intro m hm
  have hfind := Graph.find?_of_mem hm
  simp only [Function.comp, Graph.state?, hfind, Option.map_some, Option.some.injEq]

theorem Finished.state_iff (h : Finished load s) {u : String} (hu : u ∈ s.graph.urls) :
    s.graph.state? u = some .notNeeded ↔ s.settings.answer load u = .ok .notNeeded := by
  cases h.invariant.looked_of_all h.all hu with
  | loaded answer _ _ state =>
    rw [answer, state]
    exact iff_of_false (by simp) (by simp)
  | left answer _ state => exact iff_of_true state answer

theorem Finished.left (h : Finished load s) (hmet : s.graph.urls =
    distinct (s.settings.entries ++ s.graph.urls.flatMap (s.settings.mentions load))) :
    Left s.settings load s s.notNeeded := by
  have hurls := notNeeded_filter s
  refine ⟨hurls, hmet, fun u => ?_⟩
  rw [hurls, List.mem_filter, decide_eq_true_eq, ← Settings.answer_eq_notNeeded_iff,
    ← h.invariant.mem_urls_iff h.all]
  exact and_congr_right h.state_iff

end Scan

namespace Build

variable {settings : Settings} {sources : Sources} {bundle : Bundle}

end Build

end ScriptBundler
