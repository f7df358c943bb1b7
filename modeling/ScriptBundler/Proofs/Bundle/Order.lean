import ScriptBundler.Bundle
import ScriptBundler.Proofs.Graph.Emission
import ScriptBundler.Proofs.Scan.Cycles

namespace ScriptBundler

open Relation

namespace Scan

variable {load : ModuleLoader} {s : Scan}

def isLoaded (s : Scan) (url : String) : Bool := s.graph.state? url = some .loaded

theorem mem_keys_iff {u : String} : (s.bodies.lookup u).isSome ↔ u ∈ s.keys := by
  simp only [List.lookup_isSome_iff, keys, List.mem_map, beq_iff_eq, @eq_comm _ u]

theorem Invariant.isLoaded_iff (h : Invariant load s) {u : String} :
    s.isLoaded u = true ↔ u ∈ s.keys := by
  rw [isLoaded, decide_eq_true_eq, h.mem_keys_iff_loaded]

theorem modules_toBundle (s : Scan) : s.toBundle.modules =
    (s.graph.emitOrder s.settings.entries).1.filter fun u => (s.bodies.lookup u).isSome := by
  simp only [toBundle, thunks]
  induction (s.graph.emitOrder s.settings.entries).1 with
  | nil => rfl
  | cons u order ih =>
    rw [List.filterMap_cons, List.filter_cons]
    cases s.bodies.lookup u with
    | none => exact ih
    | some body => exact congrArg (u :: ·) ih

/-- A finished scan orders its modules by what they refer to, and knows no others. -/
theorem Invariant.exists_postOrder (h : Invariant load s)
    (all : s.graph.urls.length ≤ s.graph.taken) :
    ∃ order, PostOrder (s.settings.deps load) [] s.settings.entries order ∧
      s.toBundle.modules = order.filter s.isLoaded ∧
      (∀ u, s.settings.Reaches load u → u ∈ order) ∧
      ∀ pre u post, order = pre ++ u :: post → ∀ v ∈ s.settings.deps load u, v ∈ pre := by
  obtain ⟨order, horder, hknown, hemit⟩ := Graph.exists_emitOrder_eq h.entries
  have hnil : s.graph.emittedUrls = [] := List.eq_nil_iff_forall_not_mem.2 fun u hu => by
    rw [Graph.mem_emittedUrls, h.unemitted] at hu
    cases hu
  rw [hnil] at horder
  have hdeps : ∀ u ∈ s.graph.urls, s.graph.requires u = s.settings.deps load u :=
    fun u hu => (h.looked_of_all all hu).requires_eq
  have hbefore : ∀ pre u post, order = pre ++ u :: post →
      ∀ v ∈ s.settings.deps load u, v ∈ pre := by
    intro pre u post he v hv
    have hu : u ∈ order := he ▸ List.mem_append_right _ List.mem_cons_self
    rw [← hdeps u (hknown u hu)] at hv
    exact (horder.before h.acyclic he hv).resolve_left List.not_mem_nil
  refine ⟨order, horder.congr_next (fun _ _ _ => Graph.mem_urls_of_required) hdeps h.entries,
    ?_, ?_, hbefore⟩
  · rw [modules_toBundle, hemit]
    refine List.filter_congr fun u _ => Bool.eq_iff_iff.2 ?_
    rw [mem_keys_iff, h.isLoaded_iff]
  · rintro u ⟨entry, he, hr⟩
    induction hr with
    | refl => exact (horder.covers entry he).resolve_left List.not_mem_nil
    | @tail u v _ hv ih =>
      obtain ⟨pre, post, hsplit⟩ := List.append_of_mem ih
      exact hsplit ▸ List.mem_append_left _ (hbefore pre u post hsplit v hv)

theorem Invariant.modules_nodup (h : Invariant load s)
    (all : s.graph.urls.length ≤ s.graph.taken) : s.toBundle.modules.Nodup := by
  obtain ⟨order, horder, hmodules, -⟩ := h.exists_postOrder all
  rw [hmodules]
  exact horder.nodup.filter _

theorem Invariant.mem_modules_iff (h : Invariant load s)
    (all : s.graph.urls.length ≤ s.graph.taken) {u : String} :
    u ∈ s.toBundle.modules ↔ s.isLoaded u = true := by
  obtain ⟨order, -, hmodules, hreached, -⟩ := h.exists_postOrder all
  rw [hmodules, List.mem_filter]
  refine ⟨And.right, fun hl => ⟨hreached u ?_, hl⟩⟩
  exact h.reached u (h.keys_known u (h.isLoaded_iff.1 hl))

/-- What a module refers to stands before it, where it is a module of the bundle too. -/
theorem Invariant.modules_before (h : Invariant load s)
    (all : s.graph.urls.length ≤ s.graph.taken) {pre post : List String} {u v : String}
    (he : s.toBundle.modules = pre ++ u :: post) (hv : v ∈ s.settings.deps load u)
    (hm : v ∈ s.toBundle.modules) : v ∈ pre := by
  obtain ⟨order, -, hmodules, -, hbefore⟩ := h.exists_postOrder all
  rw [hmodules] at he hm
  obtain ⟨l, l', hsplit, rfl, hrest⟩ := List.filter_eq_append_iff.1 he
  obtain ⟨skipped, l'', rfl, hskipped, -, -⟩ := List.filter_eq_cons_iff.1 hrest
  have hmem : v ∈ l ++ skipped := hbefore _ u l'' (by rw [hsplit, List.append_assoc]) v hv
  have hl := (List.mem_filter.1 hm).2
  -- what is skipped just before `u` was not loaded
  have hv : v ∈ l := (List.mem_append.1 hmem).resolve_right fun hs => hskipped v hs hl
  exact List.mem_filter.2 ⟨hv, hl⟩

end Scan

namespace Build

variable {settings : Settings} {sources : Sources} {bundle : Bundle}

theorem result_of_scan (h : (sources.scan settings).1 = .ok ()) :
    (Build.bundle settings sources).result = .ok (sources.scan settings).2.toBundle := by
  have hscan : sources.scan settings = (.ok (), (sources.scan settings).2) := Prod.ext h rfl
  rw [Build.bundle, hscan]
  rfl

theorem bundle_ok (h : (Build.bundle settings sources).result = .ok bundle) :
    (sources.scan settings).1 = .ok () ∧ bundle = (sources.scan settings).2.toBundle := by
  simp only [Build.bundle] at h
  generalize sources.scan settings = answer at h
  obtain ⟨_ | _, s⟩ := answer
  · cases h
  · exact ⟨rfl, (Except.ok.inj h).symm⟩

/--
The order of the modules of a bundle: the loaded ones of the post-order in which the entries lead
to them. Each stands after all that it refers to, save for what is left to the runtime.
-/
structure IsModuleOrder (settings : Settings) (sources : Sources) (modules : List String) :
    Prop where
  postOrder : ∃ order, PostOrder (settings.deps sources.load) [] settings.entries order ∧
    modules = order.filter (sources.scan settings).2.isLoaded
  nodup : modules.Nodup
  mem_iff : ∀ u, u ∈ modules ↔ (sources.scan settings).2.graph.state? u = some .loaded
  before : ∀ pre u post, modules = pre ++ u :: post → ∀ v ∈ settings.deps sources.load u,
    v ∈ pre ∨ (sources.scan settings).2.graph.state? v = some .notNeeded

theorem bundle_modules_ordered (h : (Build.bundle settings sources).result = .ok bundle) :
    IsModuleOrder settings sources bundle.modules := by
  obtain ⟨hok, rfl⟩ := bundle_ok h
  have hscan : sources.scan settings = (.ok (), (sources.scan settings).2) := Prod.ext hok rfl
  obtain ⟨hinv, hset, hall⟩ := Sources.scan_ok hscan
  obtain ⟨order, horder, hmodules, -⟩ := hinv.exists_postOrder hall
  rw [hset] at horder
  refine ⟨⟨order, horder, hmodules⟩, hinv.modules_nodup hall, fun u => ?_, ?_⟩
  · rw [hinv.mem_modules_iff hall, Scan.isLoaded, decide_eq_true_eq]
  · intro pre u post he v hv
    rw [← hset] at hv
    have hu := (hinv.mem_modules_iff hall).1 (he ▸ List.mem_append_right _ List.mem_cons_self)
    have hreached := hinv.reached u (hinv.keys_known u (hinv.isLoaded_iff.1 hu))
    cases hinv.looked_of_reaches hall (hreached.tail hv) with
    | left _ _ state _ => exact .inr state
    | loaded _ _ _ _ mem =>
      have hm := (hinv.mem_modules_iff hall).2 (hinv.isLoaded_iff.2 mem)
      exact .inl (hinv.modules_before hall he hv hm)

/-- A module that needs two others, one of which needs the other one and one that is not there. -/
def layeredModules : Sources := .ofMemory
  { modules := [("/a.js", "import './c.js';import './b.js'"), ("/b.js", ""),
      ("/c.js", "import './b.js';include('/d.js')")]
    notNeeded := ["/d.js"] }

def layeredSettings : Settings where
  input := ["./a.js"]
  cwd := "/"
  root := "/"
  base := "/"
  external := []
  file := none
  loader := .eager
  bare := false

theorem layered_modules_ordered : ∃ bundle,
    (Build.bundle layeredSettings layeredModules).result = .ok bundle ∧
      IsModuleOrder layeredSettings layeredModules bundle.modules := by
  have hr {u : String} (hu : layeredSettings.Reaches layeredModules.load u) :
      u ∈ ["/d.js", "/b.js", "/c.js", "/a.js"] := hu.mem (by decide +kernel) (by decide +kernel)
  have hs : ∀ u ∈ ["/d.js", "/b.js", "/c.js", "/a.js"],
      layeredSettings.isSound layeredModules.load u = true := by
    decide +kernel
  have hd : ∀ u ∈ ["/d.js", "/b.js", "/c.js", "/a.js"],
      ∀ v ∈ layeredSettings.deps layeredModules.load u,
        ["/d.js", "/b.js", "/c.js", "/a.js"].idxOf v <
          ["/d.js", "/b.js", "/c.js", "/a.js"].idxOf u := by
    decide +kernel
  have hok : (layeredModules.scan layeredSettings).1 = .ok () :=
    (Sources.scan_eq_ok_iff (fun u hu => hs u (hr hu))
      (fun u _ _ ha => Sources.ofMemory_limit _ ha) (Nat.le_refl _)).2
      (Settings.isAcyclic_of_idxOf _ fun u hu => hd u (hr hu))
  have hb := result_of_scan hok
  exact ⟨_, hb, bundle_modules_ordered hb⟩

end Build

end ScriptBundler
