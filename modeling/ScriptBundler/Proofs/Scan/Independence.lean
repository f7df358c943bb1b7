import ScriptBundler.Proofs.Scan.Bodies

namespace ScriptBundler

namespace Settings

variable {settings : Settings} {load : ModuleLoader} {input : List String}

theorem reaches_congr_entries
    (h : ∀ u, u ∈ settings.entries ↔ u ∈ entries { settings with input := input }) {u : String} :
    Reaches { settings with input := input } load u ↔ settings.Reaches load u := by
  simp only [Reaches, h]
  exact Iff.rfl

theorem length_entries_congr
    (h : ∀ u, u ∈ settings.entries ↔ u ∈ entries { settings with input := input }) :
    (entries { settings with input := input }).length = settings.entries.length :=
  ((List.perm_ext_iff_of_nodup (nodup_distinct _) (nodup_distinct _)).2 h).length_eq.symm

end Settings

namespace Scan

variable {load : ModuleLoader} {s s' : Scan}

/-- A scan that looked at all modules. -/
structure Finished (load : ModuleLoader) (s : Scan) : Prop where
  invariant : Invariant load s
  keeps : Keeps load s
  all : s.graph.urls.length ≤ s.graph.taken

/-- Two scans that hold the same of a module. -/
structure SameModule (s s' : Scan) (u : String) : Prop where
  state : s.graph.state? u = s'.graph.state? u
  requires : s.graph.requires u = s'.graph.requires u
  exports : s.graph.exports u = s'.graph.exports u
  bodies : s.bodies.lookup u = s'.bodies.lookup u

/-- Two scans that know the same modules, in orders of their own. -/
structure SameModules (s s' : Scan) : Prop where
  urls : s.graph.urls.Perm s'.graph.urls
  modules : ∀ u, SameModule s s' u
  requiredBy : ∀ u, (s.graph.requiredBy u).Perm (s'.graph.requiredBy u)

section Same

variable (ha : ∀ u, s'.settings.answer load u = s.settings.answer load u)
include ha

theorem Kept.eq {u : String} {body body' : List Stmt} (h : Kept load s u body)
    (h' : Kept load s' u body') (hs : s'.settings.style = s.settings.style) :
    body = body' ∧ s.graph.exports u = s'.graph.exports u := by
  have hstrategy : s'.settings.loader = s.settings.loader := congrArg Thunk.Style.strategy hs
  cases h with
  | mk answer parsed _ body_eq exports =>
    cases h' with
    | mk answer' parsed' _ body_eq' exports' =>
      rw [ha, answer] at answer'
      cases answer'
      rw [parsed] at parsed'
      cases parsed'
      rw [hs, hstrategy, ← body_eq] at body_eq'
      exact ⟨body_eq'.symm, exports.trans exports'.symm⟩

theorem Looked.requires_congr {u : String} (h : Looked load s u) (h' : Looked load s' u) :
    s.graph.requires u = s'.graph.requires u := by
  rw [h.requires_eq, h'.requires_eq]
  simp only [Settings.deps, ha]

/-- Scans that ask for the same texts make the same of a module. -/
theorem SameModule.of_looked (h : Keeps load s) (h' : Keeps load s')
    (hs : s'.settings.style = s.settings.style) {u : String} (hu : Looked load s u)
    (hu' : Looked load s' u) : SameModule s s' u := by
  have hrequires := hu.requires_congr ha hu'
  cases hu with
  | loaded answer _ _ state mem =>
    cases hu' with
    | loaded _ _ _ state' mem' =>
      obtain ⟨body, hbody, hkept⟩ := h.lookup mem
      obtain ⟨body', hbody', hkept'⟩ := h'.lookup mem'
      obtain ⟨rfl, hexports⟩ := hkept.eq ha hkept' hs
      exact ⟨state.trans state'.symm, hrequires, hexports, hbody.trans hbody'.symm⟩
    | left answer' =>
      rw [ha, answer] at answer'
      cases answer'
  | left answer _ state not_mem =>
    cases hu' with
    | loaded answer' =>
      rw [ha, answer] at answer'
      cases answer'
    | left _ _ state' not_mem' =>
      constructor
      · rw [state, state']
      · exact hrequires
      · rw [h.others u not_mem, h'.others u not_mem']
      · rw [lookup_eq_none not_mem, lookup_eq_none not_mem']

omit ha in
theorem SameModule.of_not_mem (h : Finished load s) (h' : Finished load s') {u : String}
    (hu : u ∉ s.graph.urls) (hu' : u ∉ s'.graph.urls) : SameModule s s' u := by
  have hk : u ∉ s.keys := fun hm => hu (h.invariant.keys_known u hm)
  have hk' : u ∉ s'.keys := fun hm => hu' (h'.invariant.keys_known u hm)
  constructor
  · rw [Graph.state?, Graph.state?, Graph.find?_eq_none_iff.2 hu, Graph.find?_eq_none_iff.2 hu']
  · rw [Graph.requires_of_not_mem hu, Graph.requires_of_not_mem hu']
  · rw [h.keeps.others u hk, h'.keeps.others u hk']
  · rw [lookup_eq_none hk, lookup_eq_none hk']

theorem Finished.sameModules (h : Finished load s) (h' : Finished load s')
    (hs : s'.settings.style = s.settings.style)
    (hr : ∀ u, s'.settings.Reaches load u ↔ s.settings.Reaches load u) : SameModules s s' := by
  have hurls (u : String) : u ∈ s.graph.urls ↔ u ∈ s'.graph.urls := by
    rw [h.invariant.mem_urls_iff h.all, h'.invariant.mem_urls_iff h'.all, hr]
  have hmodules (u : String) : SameModule s s' u := by
    by_cases hu : u ∈ s.graph.urls
    · exact .of_looked ha h.keeps h'.keeps hs (h.invariant.looked_of_all h.all hu)
        (h'.invariant.looked_of_all h'.all ((hurls u).1 hu))
    · exact .of_not_mem h h' hu fun hu' => hu ((hurls u).2 hu')
  constructor
  · exact (List.perm_ext_iff_of_nodup s.graph.urls_nodup s'.graph.urls_nodup).2 hurls
  · exact hmodules
  · intro u
    apply (List.perm_ext_iff_of_nodup (s.graph.requiredBy_nodup u)
      (s'.graph.requiredBy_nodup u)).2
    intro v
    rw [Graph.mem_requiredBy_iff, Graph.mem_requiredBy_iff, Graph.Requires, Graph.Requires,
      (hmodules v).requires]

end Same

theorem Finished.sound (h : Finished load s) {u : String} (hu : s.settings.Reaches load u) :
    s.settings.isSound load u = true := by
  cases h.invariant.looked_of_reaches h.all hu with
  | loaded _ _ _ _ mem =>
    obtain ⟨body, -, hkept⟩ := h.keeps.lookup mem
    cases hkept with
    | mk _ _ sound => exact sound
  | left answer => rw [Settings.isSound, answer]

theorem Finished.mem_keys (h : Finished load s) {u source : String}
    (hu : s.settings.Reaches load u) (ha : s.settings.answer load u = .ok (.loaded source)) :
    u ∈ s.keys := by
  cases h.invariant.looked_of_reaches h.all hu with
  | loaded _ _ _ _ mem => exact mem
  | left answer =>
    rw [ha] at answer
    cases answer

end Scan

namespace Sources

variable {sources : Sources} {settings : Settings} {s : Scan}

theorem scan_finished (h : sources.scan settings = (.ok (), s)) :
    Scan.Finished sources.load s ∧ s.settings = settings ∧
      s.keys.length ≤ sources.limit + settings.entries.length := by
  obtain ⟨hinv, hset, hall⟩ := scan_ok h
  obtain ⟨hkeeps, hlen⟩ := scan_keeps h
  exact ⟨⟨hinv, hkeeps, hall⟩, hset, hlen⟩

theorem scan_entries {input : List String}
    (he : ∀ u, u ∈ settings.entries ↔ u ∈ Settings.entries { settings with input := input })
    (h : sources.scan settings = (.ok (), s)) :
    ∃ s', sources.scan { settings with input := input } = (.ok (), s') ∧
      Scan.SameModules s s' := by
  obtain ⟨hfinished, hset, hlen⟩ := scan_finished h
  have hr (u : String) : Settings.Reaches { settings with input := input } sources.load u ↔
      s.settings.Reaches sources.load u := by
    rw [hset]
    exact Settings.reaches_congr_entries he
  have ha (u : String) : Settings.answer { settings with input := input } sources.load u =
      s.settings.answer sources.load u := by
    rw [hset]
    rfl
  have hsound (u : String) (hu : s.settings.Reaches sources.load u) :
      Settings.isSound { settings with input := input } sources.load u = true := by
    have hs := hfinished.sound hu
    rw [hset] at hs
    exact hs
  have hacyclic : Settings.IsAcyclic { settings with input := input } sources.load := by
    intro u hu
    have hn := hfinished.invariant.acyclic_of_all hfinished.all ((hr u).1 hu)
    rw [hset] at hn
    exact hn
  -- what the first scan loaded bounds the steps of the second one, so that its limit is enough too
  have hok : (sources.scan { settings with input := input }).1 = .ok () := by
    apply (scan_eq_ok_iff_within (fun u hu => hsound u ((hr u).1 hu)) ?_ ?_).2 hacyclic
    · exact s.keys
    · intro u source hu hl
      exact hfinished.mem_keys ((hr u).1 hu) ((ha u).symm.trans hl)
    · rw [Settings.length_entries_congr he]
      exact hlen
  generalize hscan : sources.scan { settings with input := input } = answer at hok
  obtain ⟨result, s'⟩ := answer
  obtain rfl := hok
  obtain ⟨hfinished', hset', -⟩ := scan_finished hscan
  rw [← hset'] at ha hr
  have hstyle : s'.settings.style = s.settings.style := by
    rw [hset', hset]
    rfl
  exact ⟨s', rfl, hfinished.sameModules ha hfinished' hstyle hr⟩

/--
Whatever graph a module is linked in, the same comes of it, unless it is refused. So the order of
the entries and their repetitions decide only in which order a scan meets its modules.
-/
theorem independent_of_graph :
    (∀ (origin : String) (style : Thunk.Style) (body : List Stmt) (links links' : Links)
      (result result' : List Stmt),
      Thunk.Unlinked links origin → Thunk.Unlinked links' origin →
      (Thunk.ofBody origin style body links).1 = .ok result →
      (Thunk.ofBody origin style body links').1 = .ok result' →
      result = result' ∧
      (Thunk.ofBody origin style body links).2.graph.requires origin =
        (Thunk.ofBody origin style body links').2.graph.requires origin ∧
      (Thunk.ofBody origin style body links).2.graph.exports origin =
        (Thunk.ofBody origin style body links').2.graph.exports origin) ∧
    ∀ (sources : Sources) (settings : Settings) (input : List String) (s : Scan),
      (∀ u, u ∈ settings.entries ↔ u ∈ Settings.entries { settings with input := input }) →
      sources.scan settings = (.ok (), s) →
      ∃ s', sources.scan { settings with input := input } = (.ok (), s') ∧
        Scan.SameModules s s' := by
  constructor
  · intro origin style body links links' result result' hu hu' h h'
    obtain ⟨rfl, hrequires, hexports⟩ := Thunk.ofBody_eq hu h
    obtain ⟨rfl, hrequires', hexports'⟩ := Thunk.ofBody_eq hu' h'
    exact ⟨rfl, hrequires.trans hrequires'.symm, hexports.trans hexports'.symm⟩
  · intro sources settings input s he h
    exact scan_entries he h

theorem exists_ok {ε α : Type} {r : Except ε α} (h : r.isOk = true) : ∃ a, r = .ok a := by
  cases r with
  | error _ => cases h
  | ok a => exact ⟨a, rfl⟩

def siblingModules : Sources := .ofMemory
  { modules := [("/a.js", "import './c.js'"), ("/b.js", "export * from './c.js'"),
      ("/c.js", "export let x = 1")] }

def siblingSettings : Settings where
  input := ["./a.js", "./b.js"]
  cwd := "/"
  root := "/"
  base := "/"
  external := []
  file := none
  loader := .lazy
  bare := false

theorem siblings_scanned : (siblingModules.scan siblingSettings).1 = .ok () :=
  scan_ofMemory_ok ["/c.js", "/a.js", "/b.js"] (by decide +kernel) (by decide +kernel)
    (by decide +kernel)

/-- The entries can be named the other way round, and a module can stand beside another one. -/
theorem siblings_independent :
    (∃ s s', siblingModules.scan siblingSettings = (.ok (), s) ∧
      siblingModules.scan { siblingSettings with input := ["./b.js", "./a.js"] } = (.ok (), s') ∧
      Scan.SameModules s s') ∧
    ∃ result, (Thunk.ofBody "/a.js" {} [.exportAll none "./c.js" none]
        { graph := Graph.empty.add "/a.js" }).1 = .ok result ∧
      (Thunk.ofBody "/a.js" {} [.exportAll none "./c.js" none]
        { graph := (Graph.empty.add "/c.js").add "/a.js" }).1 = .ok result := by
  obtain ⟨hlowered, hscans⟩ := independent_of_graph
  constructor
  · have hok := siblings_scanned
    generalize hscan : siblingModules.scan siblingSettings = answer at hok
    obtain ⟨result, s⟩ := answer
    obtain rfl := hok
    have he : ∀ u, u ∈ siblingSettings.entries ↔
        u ∈ Settings.entries { siblingSettings with input := ["./b.js", "./a.js"] } := by
      have hentries : siblingSettings.entries = ["/a.js", "/b.js"] := by decide +kernel
      have hentries' : Settings.entries { siblingSettings with input := ["./b.js", "./a.js"] } =
          ["/b.js", "/a.js"] := by decide +kernel
      intro u
      rw [hentries, hentries', List.mem_pair, List.mem_pair, or_comm]
    obtain ⟨s', hscan', hsame⟩ := hscans _ _ _ _ he hscan
    exact ⟨s, s', rfl, hscan', hsame⟩
  · have hu : Thunk.Unlinked { graph := Graph.empty.add "/a.js" } "/a.js" :=
      ⟨by decide, by decide, by decide⟩
    have hu' : Thunk.Unlinked { graph := (Graph.empty.add "/c.js").add "/a.js" } "/a.js" :=
      ⟨by decide, by decide, by decide⟩
    obtain ⟨result, h⟩ := exists_ok (r := (Thunk.ofBody "/a.js" {} [.exportAll none "./c.js" none]
      { graph := Graph.empty.add "/a.js" }).1) (by decide +kernel)
    obtain ⟨result', h'⟩ := exists_ok (r := (Thunk.ofBody "/a.js" {}
      [.exportAll none "./c.js" none] { graph := (Graph.empty.add "/c.js").add "/a.js" }).1)
      (by decide +kernel)
    obtain ⟨rfl, -, -⟩ := hlowered _ _ _ _ _ _ _ hu hu' h h'
    exact ⟨result, h, h'⟩

end Sources

end ScriptBundler
