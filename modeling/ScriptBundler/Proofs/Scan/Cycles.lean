import ScriptBundler.Proofs.Scan.Run

namespace ScriptBundler

open Relation

namespace Settings

variable {settings : Settings} {load : ModuleLoader}

/--
Whether a url is left to the runtime, or its text can be lowered once its modules are linked. A
text that declares an import called `yield` has no declaration that a generator accepts.
-/
def isSound (settings : Settings) (load : ModuleLoader) (url : String) : Bool :=
  match settings.answer load url with
  | .error _ => false
  | .ok .notNeeded => true
  | .ok (.loaded source) =>
    match Program.parse? source with
    | none => false
    | some program =>
      !((Thunk.Scope.ofBody program.body).hasAwait && settings.loader = .eager) &&
        !(Thunk.importedLocals program.body).contains "yield"

/-- No url that the entries lead to leads back to itself. -/
def IsAcyclic (settings : Settings) (load : ModuleLoader) : Prop :=
  ∀ u, settings.Reaches load u → ¬ TransGen (fun u v => v ∈ settings.deps load u) u u

theorem Reaches.mem {urls : List String} {u : String} (h : settings.Reaches load u)
    (he : ∀ entry ∈ settings.entries, entry ∈ urls)
    (hd : ∀ u ∈ urls, ∀ v ∈ settings.deps load u, v ∈ urls) : u ∈ urls := by
  obtain ⟨entry, hm, hr⟩ := h
  induction hr with
  | refl => exact he entry hm
  | tail _ hv ih => exact hd _ ih _ hv

theorem mem_entries {u : String} :
    u ∈ settings.entries ↔ ∃ item ∈ settings.input, Url.resolveEntry settings.base item = u := by
  rw [entries, mem_distinct, List.mem_map]

/-- The order of the entries and their repetitions do not matter for what is reached. -/
theorem reaches_congr {input : List String} (h : ∀ item, item ∈ input ↔ item ∈ settings.input)
    {u : String} : Reaches { settings with input := input } load u ↔ settings.Reaches load u := by
  simp only [Reaches, mem_entries, h]
  exact Iff.rfl

/-- There is no cycle where every url refers to earlier ones of a list. -/
theorem isAcyclic_of_idxOf (urls : List String)
    (h : ∀ u, settings.Reaches load u → ∀ v ∈ settings.deps load u, urls.idxOf v < urls.idxOf u) :
    settings.IsAcyclic load := by
  intro u hu ht
  have hlt {v : String} (ht : TransGen (fun u v => v ∈ settings.deps load u) u v) :
      settings.Reaches load v ∧ urls.idxOf v < urls.idxOf u := by
    induction ht with
    | single hv => exact ⟨hu.tail hv, h _ hu _ hv⟩
    | tail _ hv ih => exact ⟨ih.1.tail hv, (h _ ih.1 _ hv).trans ih.2⟩
  exact Nat.lt_irrefl _ (hlt ht).2

end Settings

theorem Scan.Fault.cycles {settings : Settings} {load : ModuleLoader} {url : String}
    {es : List BuildError} (h : Fault settings load url es)
    (hs : settings.isSound load url = true) :
    es ≠ [] ∧ ∀ e ∈ es, ∃ chain, e = .circularImport chain ∧
      Graph.IsCycle (fun u v => v ∈ settings.deps load u) chain ∧ chain.head? = some url := by
  cases h with
  | circular ne cycles => exact ⟨ne, cycles⟩
  | unloaded answer => simp [Settings.isSound, answer] at hs
  | unparsed answer parsed => simp [Settings.isSound, answer, parsed] at hs
  | awaits answer parsed await eager =>
    simp [Settings.isSound, answer, parsed, await, eager] at hs
  | reserved answer parsed mem => simp [Settings.isSound, answer, parsed, mem] at hs

namespace Sources

variable {sources : Sources} {settings : Settings}

theorem scan_ok {s : Scan} (h : sources.scan settings = (.ok (), s)) :
    Scan.Invariant sources.load s ∧ s.settings = settings ∧
      s.graph.urls.length ≤ s.graph.taken := by
  cases (Scan.Invariant.start sources.load settings).run?_ends (run?_of_scan h) with
  | done invariant hset all => exact ⟨invariant, hset, all⟩

theorem scan_ends_within {known : List String}
    (hk : ∀ u source, settings.Reaches sources.load u →
      settings.answer sources.load u = .ok (.loaded source) → u ∈ known)
    (hl : known.length ≤ sources.limit + settings.entries.length) :
    Scan.Ends sources.load (Scan.start settings) (sources.scan settings).1
      (sources.scan settings).2 := by
  have hstart := Scan.Invariant.start sources.load settings
  have hlen : known.length ≤
      (Scan.start settings).keys.length + (sources.limit + settings.entries.length) := by omega
  have hne := hstart.run?_ne_none hk hlen
  obtain ⟨r, hr⟩ := Option.ne_none_iff_exists'.1 hne
  simp only [scan, hr, Option.getD_some]
  exact hstart.run?_ends hr

theorem scan_ends {known : List String}
    (hk : ∀ u source, settings.Reaches sources.load u →
      settings.answer sources.load u = .ok (.loaded source) → u ∈ known)
    (hl : known.length ≤ sources.limit) :
    Scan.Ends sources.load (Scan.start settings) (sources.scan settings).1
      (sources.scan settings).2 :=
  scan_ends_within hk (hl.trans (Nat.le_add_right _ _))

theorem ofMemory_limit (m : MemoryModules) {u source : String}
    (h : settings.answer (ofMemory m).load u = .ok (.loaded source)) :
    u ∈ m.modules.map (·.1) := by
  simp only [Settings.answer, ofMemory, MemoryModules.load] at h
  split at h
  · cases h
  · split at h
    · cases h
    · split at h
      · next hl =>
        obtain ⟨_, _, he, _⟩ := List.lookup_eq_some_iff.1 hl
        rw [he, List.map_append]
        exact List.mem_append_right _ List.mem_cons_self
      · cases h

theorem scan_eq_ok_iff_within {known : List String}
    (hs : ∀ u, settings.Reaches sources.load u → settings.isSound sources.load u = true)
    (hk : ∀ u source, settings.Reaches sources.load u →
      settings.answer sources.load u = .ok (.loaded source) → u ∈ known)
    (hl : known.length ≤ sources.limit + settings.entries.length) :
    (sources.scan settings).1 = .ok () ↔ settings.IsAcyclic sources.load := by
  have hends := scan_ends_within hk hl
  generalize sources.scan settings = answer at hends
  obtain ⟨result, s⟩ := answer
  cases hends with
  | done invariant hset all =>
    refine ⟨fun _ u hu => ?_, fun _ => rfl⟩
    have := invariant.acyclic_of_all all (u := u)
    rw [hset] at this
    exact this hu
  | failed reached fault =>
    obtain ⟨hne, hc⟩ := fault.cycles (hs _ reached)
    refine ⟨fun h => ?_, fun h => ?_⟩
    · cases h
    -- the reported cycle goes through the module that failed, which the entries lead to
    · obtain ⟨e, he⟩ := List.exists_mem_of_ne_nil _ hne
      obtain ⟨chain, -, hcycle, hhead⟩ := hc e he
      obtain ⟨u, hu, ht⟩ := hcycle.transGen
      rw [hhead] at hu
      cases hu
      exact absurd ht (h _ reached)

theorem scan_eq_ok_iff {known : List String}
    (hs : ∀ u, settings.Reaches sources.load u → settings.isSound sources.load u = true)
    (hk : ∀ u source, settings.Reaches sources.load u →
      settings.answer sources.load u = .ok (.loaded source) → u ∈ known)
    (hl : known.length ≤ sources.limit) :
    (sources.scan settings).1 = .ok () ↔ settings.IsAcyclic sources.load :=
  scan_eq_ok_iff_within hs hk (hl.trans (Nat.le_add_right _ _))

theorem scan_ofMemory_ok {m : MemoryModules} (urls : List String)
    (he : ∀ entry ∈ settings.entries, entry ∈ urls)
    (hs : ∀ u ∈ urls, settings.isSound m.load u = true)
    (hd : ∀ u ∈ urls, ∀ v ∈ settings.deps m.load u, urls.idxOf v < urls.idxOf u) :
    ((ofMemory m).scan settings).1 = .ok () := by
  have hmem {u : String} (hu : settings.Reaches m.load u) : u ∈ urls := by
    apply hu.mem he
    intro u hu v hv
    exact List.idxOf_lt_length_iff.1 ((hd u hu v hv).trans (List.idxOf_lt_length_of_mem hu))
  apply (scan_eq_ok_iff (fun u hu => hs u (hmem hu)) (fun u _ _ ha => ofMemory_limit _ ha)
    (List.length_map _).le).2
  exact Settings.isAcyclic_of_idxOf urls fun u hu => hd u (hmem hu)

/--
Where nothing else is wrong with the modules that the entries lead to, a scan succeeds just when
they have no cycle. It reports cycles and nothing else, and the order of the entries and their
repetitions do not matter.
-/
theorem scan_succeeds_iff_acyclic (sources : Sources) (settings : Settings) (known : List String)
    (hs : ∀ u, settings.Reaches sources.load u → settings.isSound sources.load u = true)
    (hk : ∀ u source, settings.Reaches sources.load u →
      settings.answer sources.load u = .ok (.loaded source) → u ∈ known)
    (hl : known.length ≤ sources.limit) :
    ((sources.scan settings).1 = .ok () ↔ settings.IsAcyclic sources.load) ∧
    (∀ es, (sources.scan settings).1 = .error es → es ≠ [] ∧
      ∀ e ∈ es, ∃ chain, e = .circularImport chain ∧
        Graph.IsCycle (fun u v => v ∈ settings.deps sources.load u) chain) ∧
    (∀ input, (∀ item, item ∈ input ↔ item ∈ settings.input) →
      ((sources.scan { settings with input := input }).1 = .ok () ↔
        (sources.scan settings).1 = .ok ())) := by
  refine ⟨scan_eq_ok_iff hs hk hl, fun es he => ?_, fun input hi => ?_⟩
  · have hends := scan_ends hk hl
    rw [he] at hends
    cases hends with
    | failed reached fault =>
      obtain ⟨hne, hc⟩ := fault.cycles (hs _ reached)
      refine ⟨hne, fun e he => ?_⟩
      obtain ⟨chain, hchain, hcycle, -⟩ := hc e he
      exact ⟨chain, hchain, hcycle⟩
  · have hr (u : String) : Settings.Reaches { settings with input := input } sources.load u ↔
        settings.Reaches sources.load u := Settings.reaches_congr hi
    have hinput : (sources.scan { settings with input := input }).1 = .ok () ↔
        Settings.IsAcyclic { settings with input := input } sources.load :=
      scan_eq_ok_iff (fun u hu => hs u ((hr u).1 hu))
        (fun u source hu ha => hk u source ((hr u).1 hu) ha) hl
    rw [hinput, scan_eq_ok_iff hs hk hl]
    exact forall_congr' fun u => imp_congr (hr u) Iff.rfl

def mutualModules : Sources := .ofMemory
  { modules := [("/a.js", "import './b.js'"), ("/b.js", "import('./a.js')")] }

def mutualSettings : Settings where
  input := ["./a.js"]
  cwd := "/"
  root := "/"
  base := "/"
  external := []
  file := none
  loader := .lazy
  bare := false

theorem mutual_scan_fails : (mutualModules.scan mutualSettings).1 ≠ .ok () ∧
    ∀ es, (mutualModules.scan mutualSettings).1 = .error es → es ≠ [] ∧
      ∀ e ∈ es, ∃ chain, e = .circularImport chain ∧
        Graph.IsCycle (fun u v => v ∈ mutualSettings.deps mutualModules.load u) chain := by
  have hr {u : String} (hu : mutualSettings.Reaches mutualModules.load u) :
      u ∈ ["/a.js", "/b.js"] := hu.mem (by decide +kernel) (by decide +kernel)
  have hs : ∀ u ∈ ["/a.js", "/b.js"], mutualSettings.isSound mutualModules.load u = true := by
    decide +kernel
  obtain ⟨hiff, herrors, -⟩ := scan_succeeds_iff_acyclic mutualModules mutualSettings _
    (fun u hu => hs u (hr hu)) (fun u _ _ ha => ofMemory_limit _ ha) (Nat.le_refl _)
  refine ⟨fun hok => hiff.1 hok "/a.js" ⟨"/a.js", by decide +kernel, .refl⟩ ?_, herrors⟩
  have hb : "/b.js" ∈ mutualSettings.deps mutualModules.load "/a.js" := by decide +kernel
  have ha : "/a.js" ∈ mutualSettings.deps mutualModules.load "/b.js" := by decide +kernel
  exact .tail (.single hb) ha

end Sources

end ScriptBundler
