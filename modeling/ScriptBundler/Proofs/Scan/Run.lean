import Mathlib.Data.List.Perm.Subperm
import ScriptBundler.Proofs.Scan.Step
import ScriptBundler.Sources

namespace ScriptBundler

open Relation

namespace Scan

variable {load : ModuleLoader} {s : Scan} {limit : Nat}

theorem Invariant.reached_of_taken (h : Invariant load s) {url : String}
    (hu : s.graph.urls[s.graph.taken]? = some url) : s.settings.Reaches load url :=
  h.reached url (List.mem_of_getElem? hu)

theorem Invariant.exists_source (h : Invariant load s) {u : String} (hu : u ∈ s.keys) :
    ∃ source, s.settings.answer load u = .ok (.loaded source) := by
  rcases h.looked_or_waiting (h.keys_known u hu) with hl | hw
  · cases hl with
    | loaded answer => exact ⟨_, answer⟩
    | left _ _ _ not_mem => exact absurd hu not_mem
  · exact absurd hu hw.not_mem

theorem Invariant.mem_keys_iff_loaded (h : Invariant load s) {u : String} :
    u ∈ s.keys ↔ s.graph.state? u = some .loaded := by
  constructor
  · intro hm
    rcases h.looked_or_waiting (h.keys_known u hm) with hl | hw
    · cases hl with
      | loaded _ _ _ state _ => exact state
      | left _ _ _ not_mem => exact absurd hm not_mem
    · exact absurd hm hw.not_mem
  · intro hs
    obtain ⟨m, hm, -⟩ := Option.map_eq_some_iff.1 hs
    rcases h.looked_or_waiting (Graph.mem_urls_of_find? hm) with hl | hw
    · cases hl with
      | loaded _ _ _ _ mem => exact mem
      | left _ _ state _ => cases hs.symm.trans state
    · cases hs.symm.trans hw.state

/-- How a run from `s` ends: all modules were looked at, or something was wrong with one. -/
inductive Ends (load : ModuleLoader) (s : Scan) : Except (List BuildError) Unit → Scan → Prop where
  | done {s' : Scan} (invariant : Invariant load s') (settings : s'.settings = s.settings)
      (all : s'.graph.urls.length ≤ s'.graph.taken) : Ends load s (.ok ()) s'
  | failed {url : String} {es : List BuildError} {s' : Scan} (reached : s.settings.Reaches load url)
      (fault : Fault s.settings load url es) : Ends load s (.error es) s'

theorem Ends.of_settings {s₁ : Scan} (hs : s₁.settings = s.settings)
    {result : Except (List BuildError) Unit} {s' : Scan} (h : Ends load s₁ result s') :
    Ends load s result s' := by
  cases h with
  | done invariant settings all => exact .done invariant (settings.trans hs) all
  | failed reached fault => exact .failed (hs ▸ reached) (hs ▸ fault)

theorem Invariant.run?_ends (h : Invariant load s) {result : Except (List BuildError) Unit}
    {s' : Scan} (hr : run? load limit s = some (result, s')) : Ends load s result s' := by
  fun_induction run? load limit s with
  | case1 limit s hn =>
    obtain ⟨rfl, rfl⟩ := Prod.mk.inj (Option.some.inj hr)
    exact .done h rfl (next?_eq_none hn)
  | case2 limit s url s₁ hn e ha =>
    obtain ⟨hu, rfl⟩ := next?_eq_some hn
    obtain ⟨rfl, rfl⟩ := Prod.mk.inj (Option.some.inj hr)
    exact .failed (h.reached_of_taken hu) (.unloaded ha)
  | case3 limit s url s₁ hn ha ih =>
    obtain ⟨hu, rfl⟩ := next?_eq_some hn
    have hs : (s.taken.leave url).settings = s.settings := rfl
    exact (ih (h.leave hu ha) hr).of_settings hs
  | case4 => cases hr
  | case5 s url s₁ hn source ha n es s₂ hacc =>
    obtain ⟨hu, rfl⟩ := next?_eq_some hn
    have haccept := h.accept hu ha
    rw [hacc] at haccept
    obtain ⟨rfl, rfl⟩ := Prod.mk.inj (Option.some.inj hr)
    cases haccept with
    | error fault => exact .failed (h.reached_of_taken hu) fault
  | case6 s url s₁ hn source ha n s₂ hacc ih =>
    obtain ⟨hu, rfl⟩ := next?_eq_some hn
    obtain ⟨hinv, hset, -⟩ := h.accepted hu ha hacc
    exact (ih hinv hr).of_settings hset

/-- A run ends if no more modules can be loaded than it may load. -/
theorem Invariant.run?_ne_none (h : Invariant load s) {known : List String}
    (hk : ∀ u source, s.settings.Reaches load u →
      s.settings.answer load u = .ok (.loaded source) → u ∈ known)
    (hl : known.length ≤ s.keys.length + limit) : run? load limit s ≠ none := by
  fun_induction run? load limit s with
  | case1 => exact Option.some_ne_none _
  | case2 => exact Option.some_ne_none _
  | case3 limit s url s₁ hn ha ih =>
    obtain ⟨hu, rfl⟩ := next?_eq_some hn
    exact ih (h.leave hu ha) hk hl
  | case4 s url s₁ hn source ha =>
    obtain ⟨hu, rfl⟩ := next?_eq_some hn
    have hw := h.waiting _ _ hu (Nat.le_refl _)
    -- no step is left, but all that can be loaded would have been loaded, and `url` was not
    have hnodup : (s.keys ++ [url]).Nodup := List.concat_eq_append ▸ h.keys_nodup.concat hw.not_mem
    have hsub : s.keys ++ [url] ⊆ known := by
      intro u hm
      rcases List.mem_append.1 hm with hm | hm
      · obtain ⟨source, hs⟩ := h.exists_source hm
        exact hk u source (h.reached u (h.keys_known u hm)) hs
      · exact List.mem_singleton.1 hm ▸ hk url source (h.reached_of_taken hu) ha
    have hlen := (List.subperm_of_subset hnodup hsub).length_le
    rw [List.length_append, List.length_singleton] at hlen
    omega
  | case5 => exact Option.some_ne_none _
  | case6 s url s₁ hn source ha n s₂ hacc ih =>
    obtain ⟨hu, rfl⟩ := next?_eq_some hn
    obtain ⟨hinv, hset, hkeys⟩ := h.accepted hu ha hacc
    refine ih hinv (hset ▸ hk) ?_
    rw [hkeys, List.length_append, List.length_singleton]
    omega

theorem Invariant.looked_of_all (h : Invariant load s)
    (all : s.graph.urls.length ≤ s.graph.taken) {u : String} (hu : u ∈ s.graph.urls) :
    Looked load s u := by
  obtain ⟨i, hi⟩ := List.mem_iff_getElem?.1 hu
  exact h.looked i u hi (Nat.lt_of_lt_of_le (List.getElem?_eq_some_iff.1 hi).1 all)

/-- A finished scan knows just what the entries lead to. -/
theorem Invariant.mem_urls_iff (h : Invariant load s)
    (all : s.graph.urls.length ≤ s.graph.taken) {u : String} :
    u ∈ s.graph.urls ↔ s.settings.Reaches load u := by
  refine ⟨h.reached u, ?_⟩
  rintro ⟨entry, he, hr⟩
  induction hr with
  | refl => exact h.entries entry he
  | tail _ hv ih =>
    rw [← (h.looked_of_all all ih).requires_eq] at hv
    exact Graph.mem_urls_of_required hv

theorem Invariant.looked_of_reaches (h : Invariant load s)
    (all : s.graph.urls.length ≤ s.graph.taken) {u : String} (hu : s.settings.Reaches load u) :
    Looked load s u :=
  h.looked_of_all all ((h.mem_urls_iff all).2 hu)

theorem Invariant.acyclic_of_all (h : Invariant load s)
    (all : s.graph.urls.length ≤ s.graph.taken) {u : String} (hu : s.settings.Reaches load u) :
    ¬ TransGen (fun u v => v ∈ s.settings.deps load u) u u := by
  have hstep {u v : String} (hu : s.settings.Reaches load u) (hv : v ∈ s.settings.deps load u) :
      s.graph.Requires u v := by
    rw [Graph.Requires, (h.looked_of_reaches all hu).requires_eq]
    exact hv
  have hpath {v : String} (ht : TransGen (fun u v => v ∈ s.settings.deps load u) u v) :
      s.settings.Reaches load v ∧ TransGen s.graph.Requires u v := by
    induction ht with
    | single hv => exact ⟨hu.tail hv, .single (hstep hu hv)⟩
    | tail _ hv ih => exact ⟨ih.1.tail hv, ih.2.tail (hstep ih.1 hv)⟩
  exact fun ht => h.acyclic u (hpath ht).2

end Scan

theorem Sources.run?_of_scan {sources : Sources} {settings : Settings} {s : Scan}
    (h : sources.scan settings = (.ok (), s)) :
    Scan.run? sources.load (sources.limit + settings.entries.length) (Scan.start settings) =
      some (.ok (), s) := by
  rw [scan] at h
  cases hr : Scan.run? sources.load (sources.limit + settings.entries.length)
      (Scan.start settings) with
  | none =>
    rw [hr] at h
    cases h
  | some r =>
    rw [hr] at h
    exact congrArg some h

end ScriptBundler
