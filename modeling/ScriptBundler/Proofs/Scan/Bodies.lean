import ScriptBundler.Proofs.Scan.Cycles
import ScriptBundler.Proofs.Thunk.Independence

namespace ScriptBundler

namespace Graph

theorem exports_setState (g : Graph) (url u : String) (state : ModuleState) :
    (g.setState url state).exports u = g.exports u :=
  congrArg (Option.getD · []) (field_update (by intro m; rfl) g url u)

theorem exports_foldl_add (g : Graph) (urls : List String) (u : String) :
    (urls.foldl Graph.add g).exports u = g.exports u := by
  induction urls generalizing g with
  | nil => rfl
  | cons url urls ih => exact (ih (g.add url)).trans (field_add _ _ rfl)

end Graph

namespace Scan

variable {load : ModuleLoader} {s s' : Scan} {url : String} {limit : Nat}

/-- What was kept of a module, told by its text. -/
inductive Kept (load : ModuleLoader) (s : Scan) (url : String) (body : List Stmt) : Prop where
  | mk {source : String} {program : Program}
      (answer : s.settings.answer load url = .ok (.loaded source))
      (parsed : Program.parse? source = some program)
      (sound : s.settings.isSound load url = true)
      (body_eq : body = Thunk.compact
        ((Thunk.piecesOf url s.settings.style program.body).statements s.settings.loader))
      (exports : s.graph.exports url = Thunk.exportsOf url program.body)

/-- All bodies are told by the texts of their modules, and no other module has exports. -/
structure Keeps (load : ModuleLoader) (s : Scan) : Prop where
  bodies : ∀ p ∈ s.bodies, Kept load s p.1 p.2
  others : ∀ u, u ∉ s.keys → s.graph.exports u = []

theorem Kept.of_exports {body : List Stmt} (h : Kept load s url body)
    (hs : s'.settings = s.settings) (he : s'.graph.exports url = s.graph.exports url) :
    Kept load s' url body := by
  cases h with
  | mk answer parsed sound body_eq exports =>
    rw [← hs] at answer sound body_eq
    exact .mk answer parsed sound body_eq (he.trans exports)

theorem Keeps.start (load : ModuleLoader) (settings : Settings) :
    Keeps load (Scan.start settings) where
  bodies _ hp := absurd hp List.not_mem_nil
  others u _ := Graph.exports_foldl_add Graph.empty settings.entries u

theorem Keeps.leave (h : Keeps load s) (url : String) : Keeps load (s.taken.leave url) := by
  have hexports (u : String) : (s.taken.leave url).graph.exports u = s.graph.exports u :=
    Graph.exports_setState _ url u .notNeeded
  constructor
  · intro p hp
    exact (h.bodies p hp).of_exports rfl (hexports p.1)
  · intro u hu
    exact (hexports u).trans (h.others u hu)

theorem accept_ok {source : String} (h : s.accept url source = (.ok (), s')) :
    ∃ program result links, Program.parse? source = some program ∧
      Thunk.ofBody url s.settings.style program.body s.links = (.ok result, links) ∧
      s'.settings = s.settings ∧ s'.bodies = s.bodies ++ [(url, Thunk.compact result)] ∧
      ∀ u, s'.graph.exports u = links.graph.exports u := by
  rw [accept] at h
  cases hp : Program.parse? source with
  | none =>
    rw [hp] at h
    cases h
  | some program =>
    rw [hp] at h
    simp only at h
    rcases hr : Thunk.ofBody url s.settings.style program.body s.links with ⟨es | result, links⟩
    · rw [hr] at h
      cases h
    · rw [hr] at h
      obtain ⟨-, rfl⟩ := Prod.mk.inj h
      exact ⟨program, result, links, rfl, hr, rfl, rfl,
        fun u => Graph.exports_setState links.graph url u .loaded⟩

theorem Keeps.accept (h : Keeps load s) (hi : Invariant load s)
    (hu : s.graph.urls[s.graph.taken]? = some url) {source : String}
    (ha : s.settings.answer load url = .ok (.loaded source))
    (hacc : s.taken.accept url source = (.ok (), s')) :
    Keeps load s' ∧ s'.keys = s.keys ++ [url] := by
  have hw := hi.waiting _ _ hu (Nat.le_refl _)
  have hurl : url ∈ s.taken.graph.urls := List.mem_of_getElem? hu
  obtain ⟨program, result, links, hp, hr, hset, hbodies, hgraph⟩ := accept_ok hacc
  have hset : s'.settings = s.settings := hset
  have hok := congrArg Prod.fst hr
  obtain ⟨hawait, hyield⟩ := Thunk.ofBody_sound hok
  have hsound : s.settings.isSound load url = true := by
    simp only [Settings.isSound, ha, hp, Bool.and_eq_true, Bool.not_eq_true',
      List.contains_eq_mem, decide_eq_false_iff_not]
    exact ⟨hawait, hyield⟩
  obtain ⟨hresult, -, hexports⟩ := Thunk.ofBody_eq ⟨hurl, hw.requires, h.others url hw.not_mem⟩ hok
  have hothers {u : String} (hne : u ≠ url) := Thunk.exports_ofBody_of_ne hok hne
  rw [hr] at hexports hothers
  have hkeys : s'.keys = s.keys ++ [url] := by
    rw [keys, hbodies, List.map_append]
    rfl
  refine ⟨⟨?_, ?_⟩, hkeys⟩
  · intro p hmem
    rw [hbodies] at hmem
    rcases List.mem_append.1 hmem with hmem | hmem
    -- bodies that were kept before are those of other urls, whose exports stay
    · have hne : p.1 ≠ url := by
        intro he
        exact hw.not_mem (he ▸ List.mem_map.2 ⟨p, hmem, rfl⟩)
      exact (h.bodies p hmem).of_exports hset ((hgraph p.1).trans (hothers hne))
    · obtain rfl := List.mem_singleton.1 hmem
      have hbody : Thunk.compact result = Thunk.compact
          ((Thunk.piecesOf url s'.settings.style program.body).statements s'.settings.loader) := by
        rw [hresult, hset]
        rfl
      rw [← hset] at ha hsound
      exact .mk ha hp hsound hbody ((hgraph url).trans hexports)
  · intro u hmem
    rw [hkeys, List.mem_append, List.mem_singleton, not_or] at hmem
    obtain ⟨hk, hne⟩ := hmem
    exact (hgraph u).trans ((hothers hne).trans (h.others u hk))

theorem Keeps.lookup (h : Keeps load s) (hu : url ∈ s.keys) :
    ∃ body, s.bodies.lookup url = some body ∧ Kept load s url body := by
  obtain ⟨p, hp, rfl⟩ := List.mem_map.1 hu
  have hsome : (s.bodies.lookup p.1).isSome := List.lookup_isSome_iff.2 ⟨p, hp, beq_self_eq_true _⟩
  obtain ⟨body, hbody⟩ := Option.isSome_iff_exists.1 hsome
  obtain ⟨l, l', he, -⟩ := List.lookup_eq_some_iff.1 hbody
  have hmem : (p.1, body) ∈ s.bodies := he ▸ List.mem_append_right _ List.mem_cons_self
  exact ⟨body, hbody, h.bodies _ hmem⟩

theorem lookup_eq_none (hu : url ∉ s.keys) : s.bodies.lookup url = none := by
  rw [List.lookup_eq_none_iff]
  intro p hp
  rw [bne_iff_ne]
  intro he
  exact hu (List.mem_map.2 ⟨p, hp, he.symm⟩)

/-- A finished run keeps the bodies of its modules, and no more of them than it may load. -/
theorem Keeps.run? (h : Keeps load s) (hi : Invariant load s)
    (hr : run? load limit s = some (.ok (), s')) :
    Keeps load s' ∧ s'.keys.length ≤ s.keys.length + limit := by
  fun_induction Scan.run? load limit s with
  | case1 limit s hn =>
    obtain ⟨-, rfl⟩ := Prod.mk.inj (Option.some.inj hr)
    exact ⟨h, Nat.le_add_right _ _⟩
  | case2 => cases Option.some.inj hr
  | case3 limit s url s₁ hn ha ih =>
    obtain ⟨hu, rfl⟩ := next?_eq_some hn
    exact ih (h.leave url) (hi.leave hu ha) hr
  | case4 => cases hr
  | case5 => cases Option.some.inj hr
  | case6 s url s₁ hn source ha n s₂ hacc ih =>
    obtain ⟨hu, rfl⟩ := next?_eq_some hn
    obtain ⟨hkeeps, hkeys⟩ := h.accept hi hu ha hacc
    obtain ⟨hinv, -, -⟩ := hi.accepted hu ha hacc
    obtain ⟨hkeeps', hlen⟩ := ih hkeeps hinv hr
    rw [hkeys, List.length_append, List.length_singleton] at hlen
    exact ⟨hkeeps', by omega⟩

end Scan

theorem Sources.scan_keeps {sources : Sources} {settings : Settings} {s : Scan}
    (h : sources.scan settings = (.ok (), s)) : Scan.Keeps sources.load s ∧
      s.keys.length ≤ sources.limit + settings.entries.length := by
  obtain ⟨hkeeps, hlen⟩ :=
    (Scan.Keeps.start sources.load settings).run? (.start _ settings) (run?_of_scan h)
  have hstart : (Scan.start settings).keys.length = 0 := rfl
  rw [hstart, Nat.zero_add] at hlen
  exact ⟨hkeeps, hlen⟩

end ScriptBundler
