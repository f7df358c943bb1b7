import ScriptBundler.Proofs.Scan.Invariant

namespace ScriptBundler

namespace Graph

theorem state?_setState (g : Graph) (url u : String) (state : ModuleState) :
    (g.setState url state).state? u =
      if u = url then (g.state? u).map fun _ => state else g.state? u := by
  rw [state?, setState, find?_update, state?]
  split
  · rw [Option.map_map, Option.map_map]
    rfl
  · rfl

theorem sameLinks_setState (g : Graph) (url : String) (state : ModuleState) :
    SameLinks g (g.setState url state) :=
  sameLinks_update g url _

theorem isEmitted_setState (g : Graph) (url u : String) (state : ModuleState) :
    (g.setState url state).isEmitted u = g.isEmitted u :=
  isEmitted_update (by intro m; rfl) g url u

/-- A graph of modules that are all waiting. -/
structure Fresh (g : Graph) : Prop where
  acyclic : g.Acyclic
  taken : g.taken = 0
  requires : ∀ u, g.requires u = []
  unemitted : ∀ u, g.isEmitted u = false
  pending : ∀ u ∈ g.urls, g.state? u = some .pending

theorem Fresh.empty : Graph.empty.Fresh where
  acyclic u h := by
    obtain ⟨v, hv, -⟩ := Relation.TransGen.head'_iff.1 h
    cases hv
  taken := rfl
  requires _ := rfl
  unemitted _ := rfl
  pending _ hu := absurd hu List.not_mem_nil

theorem Fresh.add {g : Graph} (h : g.Fresh) (url : String) : (g.add url).Fresh where
  acyclic := h.acyclic.add url
  taken := (taken_add g url).trans h.taken
  requires u := (requires_add g url u).trans (h.requires u)
  unemitted u := (isEmitted_add g url u).trans (h.unemitted u)
  pending u hu := by
    rw [state?_add]
    split
    · rfl
    · next hn =>
      rcases mem_urls_add.1 hu with hu | rfl
      · exact h.pending u hu
      · exact h.pending u (Decidable.not_not.1 fun hn' => hn ⟨rfl, hn'⟩)

theorem Fresh.foldl_add {g : Graph} (h : g.Fresh) (urls : List String) :
    (urls.foldl Graph.add g).Fresh := by
  induction urls generalizing g with
  | nil => exact h
  | cons url urls ih => exact ih (h.add url)

theorem mem_urls_foldl_add {g : Graph} {urls : List String} {u : String} :
    u ∈ (urls.foldl Graph.add g).urls ↔ u ∈ g.urls ∨ u ∈ urls := by
  induction urls generalizing g with
  | nil => simp only [List.foldl_nil, List.not_mem_nil, or_false]
  | cons url urls ih => simp only [List.foldl_cons, ih, mem_urls_add, List.mem_cons, or_assoc]

end Graph

namespace Scan

variable {load : ModuleLoader} {s s' : Scan} {url : String}

/-- A scan that knows its entries has not looked at any module. -/
theorem Invariant.start (load : ModuleLoader) (settings : Settings) :
    Invariant load (Scan.start settings) := by
  have hfresh : (Scan.start settings).graph.Fresh := Graph.Fresh.empty.foldl_add settings.entries
  have hurls (u : String) : u ∈ (Scan.start settings).graph.urls ↔ u ∈ settings.entries :=
    Graph.mem_urls_foldl_add.trans (or_iff_right List.not_mem_nil)
  exact
    { acyclic := hfresh.acyclic
      entries := fun u => (hurls u).2
      reached := fun u hu => ⟨u, (hurls u).1 hu, .refl⟩
      looked := fun i u _ hi => absurd hi (by rw [hfresh.taken]; exact Nat.not_lt_zero i)
      waiting := fun i u hi _ =>
        ⟨hfresh.requires u, hfresh.pending u (List.mem_of_getElem? hi), List.not_mem_nil⟩
      unemitted := hfresh.unemitted
      keys_known := fun u hu => absurd hu List.not_mem_nil
      keys_nodup := List.nodup_nil }

/-- The scan that has taken one more module. -/
def taken (s : Scan) : Scan :=
  { s with links := { s.links with graph := s.graph.pop } }

theorem next?_eq_some (h : s.next? = some (url, s')) :
    s.graph.urls[s.graph.taken]? = some url ∧ s' = s.taken := by
  simp only [next?, Option.map_eq_some_iff] at h
  obtain ⟨⟨m, g⟩, hn, he⟩ := h
  obtain ⟨hm, rfl⟩ := Graph.next_eq_some_iff.1 hn
  obtain ⟨rfl, rfl⟩ := Prod.mk.inj he
  exact ⟨by rw [← Graph.map_url_modules, List.getElem?_map, hm, Option.map_some], rfl⟩

theorem next?_eq_none (h : s.next? = none) : s.graph.urls.length ≤ s.graph.taken := by
  rw [next?, Option.map_eq_none_iff, Graph.next_eq_none_iff, Graph.size_eq] at h
  exact h

theorem taken_taken (hu : s.graph.urls[s.graph.taken]? = some url) :
    s.taken.graph.taken = s.graph.taken + 1 := by
  apply Graph.taken_pop
  rw [Graph.size_eq]
  exact (List.getElem?_eq_some_iff.1 hu).1

theorem Invariant.leave (h : Invariant load s) (hu : s.graph.urls[s.graph.taken]? = some url)
    (ha : s.settings.answer load url = .ok .notNeeded) :
    Invariant load (s.taken.leave url) := by
  have hw := h.waiting _ _ hu (Nat.le_refl _)
  have hs := Graph.sameLinks_setState s.taken.graph url .notNeeded
  refine h.advance hu
    { settings := rfl
      acyclic := Graph.Acyclic.of_sameLinks (g := s.taken.graph) h.acyclic hs
      joined := ⟨[], by rw [List.append_nil]; exact hs.urls, fun _ hm => absurd hm List.not_mem_nil⟩
      taken := hs.taken.trans (taken_taken hu)
      looked := .left ha ((hs.requires url).trans hw.requires) ?_ hw.not_mem
      others := fun u _ hne => ⟨hs.requires u, ?_, Iff.rfl⟩
      new := fun u hm hn => absurd (hs.urls ▸ hm) hn
      emitted := fun u => Graph.isEmitted_setState _ url u .notNeeded
      keys_known := fun u hm => .inl hm
      keys_nodup := h.keys_nodup }
  · refine (Graph.state?_setState _ url url .notNeeded).trans ?_
    rw [if_pos rfl]
    exact congrArg (Option.map fun _ => _) hw.state
  · exact (Graph.state?_setState _ url u .notNeeded).trans (if_neg hne)

theorem Invariant.loaded (h : Invariant load s) (hu : s.graph.urls[s.graph.taken]? = some url)
    {source : String} {program : Program}
    (ha : s.settings.answer load url = .ok (.loaded source))
    (hp : Program.parse? source = some program) {links : Links}
    (hl : Graph.Linked url s.taken.graph (Thunk.referencesOf url program.body) [] links.graph)
    (hset : s'.settings = s.settings)
    (hgraph : s'.graph = links.graph.setState url .loaded)
    (hkeys : s'.keys = s.keys ++ [url]) : Invariant load s' := by
  have hw := h.waiting _ _ hu (Nat.le_refl _)
  have hurl : url ∈ s.taken.graph.urls := List.mem_of_getElem? hu
  have hx := hl.extension h.acyclic hurl
  have hs : Graph.SameLinks links.graph s'.graph :=
    hgraph ▸ Graph.sameLinks_setState links.graph url .loaded
  have hstate (u : String) : s'.graph.state? u =
      if u = url then (links.graph.state? u).map fun _ => .loaded else links.graph.state? u :=
    hgraph ▸ Graph.state?_setState links.graph url u .loaded
  have hdeps := Settings.deps_eq ha hp
  have hbefore : s.taken.graph.requires url = distinct [] := hw.requires
  have hknown : s.taken.graph.urls = distinct s.graph.urls :=
    (distinct_of_nodup s.graph.urls_nodup).symm
  have hrequires : links.graph.requires url = distinct (Thunk.referencesOf url program.body) :=
    (hl.requires_eq h.acyclic hurl rfl hbefore hknown).1
  have hmem (u : String) : u ∈ s'.keys ↔ u ∈ s.keys ∨ u = url := by
    rw [hkeys, List.mem_append, List.mem_singleton]
  refine h.advance hu
    { settings := hset
      acyclic := hx.acyclic.of_sameLinks hs
      joined := ?_
      taken := hs.taken.trans (hx.taken.trans (taken_taken hu))
      looked := .loaded (hset ▸ ha) hp ((hs.requires url).trans hrequires) ?_
        ((hmem url).2 (.inr rfl))
      others := fun u hm hne => ⟨(hs.requires u).trans (hx.others u hne), ?_, ?_⟩
      new := fun u hm hn => ⟨?_, ?_, fun hk => ?_⟩
      emitted := fun u => ?_
      keys_known := fun u => (hmem u).1
      keys_nodup := ?_ }
  · obtain ⟨more, hmore, hrefs⟩ := hx.joined
    exact ⟨more, hs.urls.trans hmore, fun u hm => hdeps ▸ mem_distinct.2 (hrefs u hm)⟩
  · rw [hstate, if_pos rfl, hx.states url hurl]
    exact congrArg (Option.map fun _ => _) hw.state
  · rw [hstate, if_neg hne]
    exact hx.states u hm
  · exact (hmem u).trans (or_iff_left hne)
  · have hne : u ≠ url := fun he => hn (he ▸ hurl)
    exact (hs.requires u).trans ((hx.others u hne).trans (Graph.requires_of_not_mem hn))
  · have hne : u ≠ url := fun he => hn (he ▸ hurl)
    rw [hstate, if_neg hne]
    exact hx.pending u (hs.urls ▸ hm) hn
  · rcases (hmem u).1 hk with hk | rfl
    · exact hn (h.keys_known u hk)
    · exact hn hurl
  · rw [hgraph]
    exact (Graph.isEmitted_setState _ url u .loaded).trans (hx.emitted u)
  · rw [hkeys, ← List.concat_eq_append]
    exact .concat hw.not_mem h.keys_nodup

/-- What can be wrong with the module at a url, with the errors that are reported then. -/
inductive Fault (settings : Settings) (load : ModuleLoader) (url : String) :
    List BuildError → Prop where
  | unloaded {e : BuildError} (answer : settings.answer load url = .error e) :
    Fault settings load url [e]
  | unparsed {source : String} (answer : settings.answer load url = .ok (.loaded source))
      (parsed : Program.parse? source = none) : Fault settings load url [.parseError url]
  | awaits {source : String} {program : Program}
      (answer : settings.answer load url = .ok (.loaded source))
      (parsed : Program.parse? source = some program)
      (await : (Thunk.Scope.ofBody program.body).hasAwait = true)
      (eager : settings.loader = .eager) : Fault settings load url [.topLevelAwait url]
  | reserved {source : String} {program : Program}
      (answer : settings.answer load url = .ok (.loaded source))
      (parsed : Program.parse? source = some program)
      (mem : "yield" ∈ Thunk.importedLocals program.body) :
    Fault settings load url [.parseError Thunk.ownCode]
  | circular {es : List BuildError} (ne : es ≠ [])
      (cycles : ∀ e ∈ es, ∃ chain, e = .circularImport chain ∧
        Graph.IsCycle (fun u v => v ∈ settings.deps load u) chain ∧ chain.head? = some url) :
    Fault settings load url es

theorem Invariant.circular (h : Invariant load s) (hu : s.graph.urls[s.graph.taken]? = some url)
    {source : String} {program : Program}
    (ha : s.settings.answer load url = .ok (.loaded source))
    (hp : Program.parse? source = some program) {met : List String} {es es' : List BuildError}
    {g : Graph} (initial : met <+: Thunk.referencesOf url program.body)
    (hl : Graph.Linked url s.taken.graph met es g) (ne : es' ≠ []) (subset : es' ⊆ es) :
    Fault s.settings load url es' :=
  .circular ne fun e he => hl.circular h.acyclic (List.mem_of_getElem? hu)
    (fun _ _ => h.mem_deps)
    (fun _ hv => Settings.deps_eq ha hp ▸ mem_distinct.2 (initial.subset hv)) e (subset he)

/-- How taking in the module at `url` ends. -/
inductive Accepts (load : ModuleLoader) (s : Scan) (url : String) :
    Except (List BuildError) Unit → Scan → Prop where
  | ok {s' : Scan} (invariant : Invariant load s') (settings : s'.settings = s.settings)
      (keys : s'.keys = s.keys ++ [url]) : Accepts load s url (.ok ()) s'
  | error {es : List BuildError} {s' : Scan} (fault : Fault s.settings load url es) :
    Accepts load s url (.error es) s'

theorem Invariant.accept (h : Invariant load s) (hu : s.graph.urls[s.graph.taken]? = some url)
    {source : String} (ha : s.settings.answer load url = .ok (.loaded source)) :
    Accepts load s url (s.taken.accept url source).1 (s.taken.accept url source).2 := by
  simp only [Scan.accept]
  cases hp : Program.parse? source with
  | none => exact .error (.unparsed ha hp)
  | some program =>
    have hends := Thunk.ofBody_ends url s.taken.settings.style program.body s.taken.links
    simp only
    generalize Thunk.ofBody url s.taken.settings.style program.body s.taken.links = answer
      at hends
    obtain ⟨outcome, links⟩ := answer
    cases hends with
    | awaits await eager => exact .error (.awaits ha hp await eager)
    | refused initial linked ne subset =>
      exact .error (h.circular hu ha hp initial linked ne subset)
    | reserved _ mem => exact .error (.reserved ha hp mem)
    | done linked _ =>
      have hkeys (body : List Stmt) : (s.bodies ++ [(url, Thunk.compact body)]).map (·.1) =
          s.keys ++ [url] := by
        rw [List.map_append]
        rfl
      exact .ok (h.loaded hu ha hp linked rfl rfl (hkeys _)) rfl (hkeys _)

theorem Invariant.accepted (h : Invariant load s) (hu : s.graph.urls[s.graph.taken]? = some url)
    {source : String} (ha : s.settings.answer load url = .ok (.loaded source)) {s' : Scan}
    (hacc : s.taken.accept url source = (.ok (), s')) :
    Invariant load s' ∧ s'.settings = s.settings ∧ s'.keys = s.keys ++ [url] := by
  have haccept := h.accept hu ha
  rw [hacc] at haccept
  cases haccept with
  | ok invariant settings keys => exact ⟨invariant, settings, keys⟩

end Scan

end ScriptBundler
