import ScriptBundler.Proofs.Distinct
import ScriptBundler.Proofs.Graph.Basic
import ScriptBundler.Proofs.Graph.Consistency

namespace ScriptBundler.Graph

open Relation

variable {g g' : Graph} {origin url : String} {refs : List String} {es : List BuildError}

theorem eq_of_arena (h : g.arena = g'.arena) : g = g' := by
  cases g
  cases g'
  cases h
  rfl

def Acyclic (g : Graph) : Prop := ∀ u, ¬ TransGen g.Requires u u

theorem acyclic_iff : g.Acyclic ↔ g.arena.Acyclic := by
  constructor
  · intro h i hi
    exact h _ (TransGen.lift g.arena.urlAt (fun _ _ h => requires_urlAt h) _ _ hi)
  · intro h u hu
    obtain ⟨v, huv, hvu⟩ := TransGen.head'_iff.1 hu
    obtain ⟨i, j, hi, hj, hij⟩ := requires_iff.1 huv
    exact h i (.head' hij ((reaches_iff_of_get? hj hi).1 hvu))

theorem Acyclic.congr (h : g.Acyclic) (hr : g'.Requires = g.Requires) : g'.Acyclic := by
  intro u
  rw [hr]
  exact h u

theorem addEdge_of_get? {i j : Nat} (hi : g.arena.get? origin = some i)
    (hj : g.arena.get? url = some j) : (g.addEdge origin url).1 = (g.arena.addEdge i j).1 ∧
      (g.addEdge origin url).2.arena = (g.arena.addEdge i j).2 := by
  simp only [addEdge, index?_of_get? hi, index?_of_get? hj, and_self]

theorem addEdge_of_unknown (h : ¬ (origin ∈ g.urls ∧ url ∈ g.urls)) :
    g.addEdge origin url = (.ok false, g) := by
  rw [addEdge]
  split
  · next i j hi hj =>
    exfalso
    apply h
    constructor
    · by_contra ho
      rw [index?_eq_none ho] at hi
      cases hi
    · by_contra hu
      rw [index?_eq_none hu] at hj
      cases hj
  · rfl

theorem addEdge_cases (ho : origin ∈ g.urls) (hu : url ∈ g.urls) :
    (g.Requires origin url ∧ g.addEdge origin url = (.ok false, g)) ∨
    (¬ g.Requires origin url ∧ ∃ path, IsPath g.Requires url origin path ∧
      g.addEdge origin url = (.error (.circularImport (origin :: path)), g)) ∨
    (¬ g.Requires origin url ∧ ¬ ReflTransGen g.Requires url origin ∧
      g.addEdge origin url = (.ok true, g.join origin url)) := by
  obtain ⟨i, hi⟩ := mem_urls_iff.1 ho
  obtain ⟨j, hj⟩ := mem_urls_iff.1 hu
  have hadd := addEdge_of_get? hi hj
  rw [requires_iff_of_get? hi hj, reaches_iff_of_get? hj hi]
  rcases Arena.addEdge_cases g.wellFormed i j with ⟨hr, he⟩ | ⟨hn, path, hpath, he⟩ | ⟨hn, hr, he⟩
  · rw [he] at hadd
    exact .inl ⟨hr, Prod.ext hadd.1 (eq_of_arena hadd.2)⟩
  · rw [he] at hadd
    have hlt : ∀ k ∈ path, k < g.size := by
      intro k hk
      rcases hpath.eq_or_step hk with rfl | ⟨l, hl⟩
      · exact lt_size_of_get? hi
      · exact Arena.lt_size_of_requires hl
    have hmap : IsPath g.Requires (g.arena.urlAt j) (g.arena.urlAt i) (path.map g.arena.urlAt) :=
      hpath.map (fun _ _ => requires_urlAt) fun k hk l hl => urlAt_inj (hlt k hk) (hlt l hl)
    rw [urlAt_of_get? hi, urlAt_of_get? hj] at hmap
    refine .inr (.inl ⟨hn, path.map g.arena.urlAt, hmap, ?_⟩)
    rw [List.map_cons, urlAt_of_get? hi] at hadd
    exact Prod.ext hadd.1 (eq_of_arena hadd.2)
  · rw [he] at hadd
    refine .inr (.inr ⟨hn, hr, Prod.ext hadd.1 (eq_of_arena ?_)⟩)
    rw [arena_join hi hj]
    exact hadd.2

/-- Where one of the ends is not known, or is the other one, nothing can be recorded. -/
theorem addEdge_result (g : Graph) (origin url : String) :
    g.addEdge origin url = (.ok false, g) ∨
    (∃ chain, g.addEdge origin url = (.error (.circularImport chain), g)) ∨
    g.addEdge origin url = (.ok true, g.join origin url) := by
  by_cases hknown : origin ∈ g.urls ∧ url ∈ g.urls
  · rcases addEdge_cases hknown.1 hknown.2 with ⟨-, he⟩ | ⟨-, path, -, he⟩ | ⟨-, -, he⟩
    · exact .inl he
    · exact .inr (.inl ⟨_, he⟩)
    · exact .inr (.inr he)
  · exact .inl (addEdge_of_unknown hknown)

@[simp] theorem urls_addEdge (g : Graph) (origin url : String) :
    (g.addEdge origin url).2.urls = g.urls := by
  rcases addEdge_result g origin url with he | ⟨_, he⟩ | he
  · rw [he]
  · rw [he]
  · rw [he, urls_join]

@[simp] theorem taken_addEdge (g : Graph) (origin url : String) :
    (g.addEdge origin url).2.taken = g.taken := by
  rcases addEdge_result g origin url with he | ⟨_, he⟩ | he
  · rw [he]
  · rw [he]
  · rw [he, taken_join]

theorem info_addEdge (g : Graph) (origin url v : String) :
    ((g.addEdge origin url).2.find? v).map Module.toModuleInfo =
      (g.find? v).map Module.toModuleInfo := by
  rcases addEdge_result g origin url with he | ⟨_, he⟩ | he
  · rw [he]
  · rw [he]
  · rw [he, info_join]

theorem Acyclic.join (h : g.Acyclic) (ho : origin ∈ g.urls) (hu : url ∈ g.urls)
    (hn : ¬ g.Requires origin url) (hr : ¬ ReflTransGen g.Requires url origin) :
    (g.join origin url).Acyclic := by
  intro u hc
  have hpair : ∀ x y, (g.join origin url).Requires x y →
      g.Requires x y ∨ x = origin ∧ y = url := fun _ _ => (requires_join_iff ho hu hn).1
  rcases Arena.transGen_or_of_pair hpair hc with hc | ⟨huo, htu⟩
  · exact h u hc
  · exact hr (htu.trans huo)

/-- Two graphs with the same urls, requirements and count of what was handed out. -/
structure SameLinks (g g' : Graph) : Prop where
  urls : g'.urls = g.urls
  requires : ∀ u, g'.requires u = g.requires u
  requiredBy : ∀ u, g'.requiredBy u = g.requiredBy u
  taken : g'.taken = g.taken

theorem SameLinks.refl (g : Graph) : SameLinks g g := ⟨rfl, fun _ => rfl, fun _ => rfl, rfl⟩

theorem SameLinks.trans {g'' : Graph} (h : SameLinks g g') (h' : SameLinks g' g'') :
    SameLinks g g'' :=
  ⟨h'.urls.trans h.urls, fun u => (h'.requires u).trans (h.requires u),
    fun u => (h'.requiredBy u).trans (h.requiredBy u), h'.taken.trans h.taken⟩

theorem SameLinks.requires_eq (h : SameLinks g g') : g'.Requires = g.Requires := by
  funext u v
  rw [Requires, h.requires, Requires]

theorem sameLinks_update (g : Graph) (u : String) (f : ModuleInfo → ModuleInfo) :
    SameLinks g (g.update u f) :=
  ⟨urls_update g u f, requires_update g u f, requiredBy_update g u f, taken_update g u f⟩

theorem Acyclic.of_sameLinks (h : g.Acyclic) (hs : SameLinks g g') : g'.Acyclic :=
  h.congr hs.requires_eq

theorem Acyclic.add (h : g.Acyclic) (url : String) : (g.add url).Acyclic :=
  h.congr (requires_rel_add g url)

theorem joinable_add (ho : origin ∈ g.urls) (hn : ¬ g.Requires origin url) :
    origin ∈ (g.add url).urls ∧ url ∈ (g.add url).urls ∧ ¬ (g.add url).Requires origin url := by
  rw [requires_rel_add]
  exact ⟨mem_urls_add.2 (.inl ho), mem_urls_add.2 (.inr rfl), hn⟩

def require (g : Graph) (origin url : String) : Option BuildError × Graph :=
  let answer := (g.add url).addEdge origin url
  match answer.1 with
  | .error e => (some e, answer.2)
  | .ok _ => (none, answer.2)

theorem require_snd (g : Graph) (origin url : String) :
    (g.require origin url).2 = ((g.add url).addEdge origin url).2 := by
  rw [require]
  split <;> rfl

theorem sameLinks_addExport (g : Graph) (url name : String) (binding : Binding) :
    SameLinks g (g.addExport url name binding) :=
  sameLinks_update g url _

theorem mem_urls_of_reaches (h : ReflTransGen g.Requires url origin) (ho : origin ∈ g.urls) :
    url ∈ g.urls := by
  rcases ReflTransGen.cases_head h with rfl | ⟨v, hv, _⟩
  · exact ho
  · exact mem_urls_of_requires hv

/-- A refused requirement leaves the graph as it was: its url is one of a module already. -/
theorem require_cases (ho : origin ∈ g.urls) (url : String) :
    (g.Requires origin url ∧ g.require origin url = (none, g)) ∨
    (∃ path, IsPath g.Requires url origin path ∧
      g.require origin url = (some (.circularImport (origin :: path)), g)) ∨
    (¬ g.Requires origin url ∧ ¬ ReflTransGen g.Requires url origin ∧
      g.require origin url = (none, (g.add url).join origin url)) := by
  have hc := addEdge_cases (g := g.add url) (mem_urls_add.2 (.inl ho)) (mem_urls_add.2 (.inr rfl))
  rw [requires_rel_add] at hc
  simp only [require]
  rcases hc with ⟨hr, he⟩ | ⟨_, path, hp, he⟩ | ⟨hn, hr, he⟩
  · left
    rw [he, add_of_mem (mem_urls_of_required hr)]
    exact ⟨hr, rfl⟩
  · right
    left
    rw [he, add_of_mem (mem_urls_of_reaches hp.reaches ho)]
    exact ⟨path, hp, rfl⟩
  · right
    right
    rw [he]
    exact ⟨hn, hr, rfl⟩

/-- A run of references of the module at `origin`, with what was wrong with some of them, and of
exports in between. -/
inductive Linked (origin : String) (g : Graph) : List String → List BuildError → Graph → Prop where
  | refl : Linked origin g [] [] g
  | require {refs : List String} {es : List BuildError} {g' : Graph}
      (h : Linked origin g refs es g') (url : String) :
      Linked origin g (refs ++ [url]) (es ++ (g'.require origin url).1.toList)
        (g'.require origin url).2
  | addExport {refs : List String} {es : List BuildError} {g' : Graph}
      (h : Linked origin g refs es g') (name : String) (binding : Binding) :
      Linked origin g refs es (g'.addExport origin name binding)

namespace Linked

theorem trans {g'' : Graph} {refs' : List String} {es' : List BuildError}
    (h : Linked origin g refs es g') (h' : Linked origin g' refs' es' g'') :
    Linked origin g (refs ++ refs') (es ++ es') g'' := by
  induction h' with
  | refl => simpa only [List.append_nil] using h
  | require _ url ih =>
    rw [← List.append_assoc, ← List.append_assoc]
    exact ih.require url
  | addExport _ name binding ih => exact ih.addExport name binding

/-- All that can be wrong with a reference is that it closes a chain of requirements. -/
theorem exists_chain (h : Linked origin g refs es g') :
    ∀ e ∈ es, ∃ chain, e = .circularImport chain := by
  induction h with
  | refl => exact fun _ he => absurd he List.not_mem_nil
  | @require refs es g' h url ih =>
    intro e he
    rcases List.mem_append.1 he with he | he
    · exact ih e he
    · rw [Graph.require] at he
      rcases addEdge_result (g'.add url) origin url with ha | ⟨chain, ha⟩ | ha
      · rw [ha] at he
        cases he
      · rw [ha] at he
        exact ⟨chain, List.mem_singleton.1 he⟩
      · rw [ha] at he
        cases he
  | addExport _ _ _ ih => exact ih

/-- What a graph still is after references to `refs`, and which urls can have joined it. -/
structure Extends (origin : String) (refs : List String) (g g' : Graph) : Prop where
  acyclic : g'.Acyclic
  joined : ∃ more, g'.urls = g.urls ++ more ∧ ∀ u ∈ more, u ∈ refs
  taken : g'.taken = g.taken
  added : ∀ u v, g'.Requires u v → g.Requires u v ∨ u = origin ∧ v ∈ refs
  others : ∀ u, u ≠ origin → g'.requires u = g.requires u
  emitted : ∀ u, g'.isEmitted u = g.isEmitted u
  states : ∀ u, u ∈ g.urls → g'.state? u = g.state? u
  pending : ∀ u, u ∈ g'.urls → u ∉ g.urls → g'.state? u = some .pending

theorem Extends.mem_urls (h : Extends origin refs g g') {u : String} (hu : u ∈ g.urls) :
    u ∈ g'.urls := by
  obtain ⟨more, he, _⟩ := h.joined
  exact he ▸ List.mem_append_left _ hu

theorem Extends.weaken (h : Extends origin refs g g') (url : String) :
    Extends origin (refs ++ [url]) g g' :=
  { h with
    joined := let ⟨more, he, hm⟩ := h.joined
      ⟨more, he, fun u hu => List.mem_append_left _ (hm u hu)⟩
    added := fun u v huv =>
      (h.added u v huv).imp id fun h => ⟨h.1, List.mem_append_left _ h.2⟩ }

theorem Extends.require (h : Extends origin refs g g') (ho : origin ∈ g.urls) (url : String) :
    Extends origin (refs ++ [url]) g (g'.require origin url).2 := by
  have ho' := h.mem_urls ho
  rcases require_cases ho' url with ⟨_, he⟩ | ⟨_, _, he⟩ | ⟨hn, hr, he⟩
  · rw [he]
    exact h.weaken url
  · rw [he]
    exact h.weaken url
  · rw [he]
    -- only here the graph changes: `url` is added, unless it is known, and then joined
    obtain ⟨hoa, hua, hna⟩ := joinable_add ho' hn
    have hw := h.weaken url
    exact
      { acyclic := (h.acyclic.add url).join hoa hua hna (requires_rel_add g' url ▸ hr)
        joined := by
          obtain ⟨more, hu, hm⟩ := hw.joined
          rw [urls_join, urls_add]
          split
          · exact ⟨more, hu, hm⟩
          · refine ⟨more ++ [url], by rw [hu, List.append_assoc], fun u hu => ?_⟩
            exact (List.mem_append.1 hu).elim (hm u) (List.mem_append_right _)
        taken := by rw [taken_join, taken_add, h.taken]
        added := fun u v huv => by
          rcases (requires_join_iff hoa hua hna).1 huv with huv | ⟨rfl, rfl⟩
          · exact hw.added u v (requires_rel_add g' url ▸ huv)
          · exact .inr ⟨rfl, List.mem_append_right _ (List.mem_singleton_self _)⟩
        others := fun u hu => by
          rw [requires_join hoa hua hna, if_neg hu, requires_add, h.others u hu]
        emitted := fun u => by rw [isEmitted_join, isEmitted_add, h.emitted]
        states := fun u hu => by
          rw [state?_join, state?_add, if_neg fun hn => hn.2 (hn.1 ▸ h.mem_urls hu), h.states u hu]
        pending := fun u hu hnu => by
          rw [urls_join, mem_urls_add] at hu
          rw [state?_join, state?_add]
          split
          · rfl
          · next hn =>
            refine h.pending u ?_ hnu
            rcases hu with hu | rfl
            · exact hu
            · exact Decidable.not_not.1 fun hn' => hn ⟨rfl, hn'⟩ }

theorem Extends.addExport (h : Extends origin refs g g') (name : String) (binding : Binding) :
    Extends origin refs g (g'.addExport origin name binding) := by
  have hs := sameLinks_addExport g' origin name binding
  have hst (u : String) : (g'.addExport origin name binding).state? u = g'.state? u :=
    state?_update (by intro m; rfl) g' origin u
  exact
    { acyclic := h.acyclic.of_sameLinks hs
      joined := hs.urls ▸ h.joined
      taken := hs.taken.trans h.taken
      added := hs.requires_eq ▸ h.added
      others := fun u hu => (hs.requires u).trans (h.others u hu)
      emitted := fun u => (isEmitted_update (by intro m; rfl) g' origin u).trans (h.emitted u)
      states := fun u hu => (hst u).trans (h.states u hu)
      pending := fun u hu hnu => (hst u).trans (h.pending u (hs.urls ▸ hu) hnu) }

theorem extension (h : Linked origin g refs es g') (hg : g.Acyclic) (ho : origin ∈ g.urls) :
    Extends origin refs g g' := by
  induction h with
  | refl =>
    exact
      { acyclic := hg
        joined := ⟨[], (List.append_nil _).symm, fun _ hu => absurd hu List.not_mem_nil⟩
        taken := rfl
        added := fun _ _ => .inl
        others := fun _ _ => rfl
        emitted := fun _ => rfl
        states := fun _ _ => rfl
        pending := fun _ hu hnu => absurd hu hnu }
  | require _ url ih => exact ih.require ho url
  | addExport _ name binding ih => exact ih.addExport name binding

/-- Where nothing was wrong, every url that was referred to is required, and known. -/
theorem requires_eq (h : Linked origin g refs es g') (hg : g.Acyclic) (ho : origin ∈ g.urls)
    (he : es = []) {before known : List String} (hb : g.requires origin = distinct before)
    (hk : g.urls = distinct known) :
    g'.requires origin = distinct (before ++ refs) ∧ g'.urls = distinct (known ++ refs) := by
  induction h with
  | refl => simpa only [List.append_nil] using ⟨hb, hk⟩
  | @require refs es g' h url ih =>
    obtain ⟨hes, hnone⟩ := List.append_eq_nil_iff.1 he
    obtain ⟨hr, hu⟩ := ih hes
    have hx := h.extension hg ho
    rw [← List.append_assoc, ← List.append_assoc, distinct_concat, distinct_concat]
    have hmr : url ∈ before ++ refs ↔ g'.Requires origin url := by
      rw [Requires, hr, mem_distinct]
    have hmu : url ∈ known ++ refs ↔ url ∈ g'.urls := by rw [hu, mem_distinct]
    rcases require_cases (hx.mem_urls ho) url with ⟨hq, hc⟩ | ⟨_, _, hc⟩ | ⟨hq, _, hc⟩
    · rw [hc, if_pos (hmr.2 hq), if_pos (hmu.2 (mem_urls_of_required hq))]
      exact ⟨hr, hu⟩
    · rw [hc] at hnone
      cases hnone
    · obtain ⟨hoa, hua, hna⟩ := joinable_add (hx.mem_urls ho) hq
      rw [hc, if_neg (hmr.not.2 hq), requires_join hoa hua hna, if_pos rfl, requires_add, hr,
        urls_join, urls_add, ← hu]
      simp only [hmu, and_self]
  | @addExport _ _ g' _ name binding ih =>
    have hs := sameLinks_addExport g' origin name binding
    rw [hs.requires, hs.urls]
    exact ih he

end Linked

/-- A chain of urls, each related to the next one, that ends where it starts. -/
structure IsCycle (r : String → String → Prop) (chain : List String) : Prop where
  steps : chain.IsChain r
  closed : chain.head? = chain.getLast?
  two : 2 ≤ chain.length

theorem IsCycle.transGen {r : String → String → Prop} {chain : List String} (h : IsCycle r chain) :
    ∃ u, chain.head? = some u ∧ TransGen r u u := by
  obtain ⟨u, v, rest, rfl⟩ : ∃ u v rest, chain = u :: v :: rest := by
    match chain, h.two with
    | u :: v :: rest, _ => exact ⟨u, v, rest, rfl⟩
  obtain ⟨huv, hrest⟩ := List.isChain_cons_cons.1 h.steps
  have hl : (v :: rest).getLast (List.cons_ne_nil _ _) = u := by
    have := h.closed
    rw [List.getLast?_cons_cons, List.getLast?_eq_some_getLast (List.cons_ne_nil _ _),
      List.head?_cons] at this
    exact (Option.some.inj this).symm
  have hv := List.relationReflTransGen_of_exists_isChain_cons rest hrest hl
  exact ⟨u, rfl, .head' huv hv⟩

theorem Linked.circular (h : Linked origin g refs es g') (hg : g.Acyclic)
    (ho : origin ∈ g.urls) {r : String → String → Prop} (hr : ∀ u v, g.Requires u v → r u v)
    (hu : ∀ url ∈ refs, r origin url) :
    ∀ e ∈ es, ∃ chain, e = .circularImport chain ∧ IsCycle r chain ∧ chain.head? = some origin := by
  induction h with
  | refl => exact fun _ he => absurd he List.not_mem_nil
  | @require refs es g' h url ih =>
    have hu' : ∀ v ∈ refs, r origin v := fun v hv => hu v (List.mem_append_left _ hv)
    have hx := h.extension hg ho
    intro e he
    rcases List.mem_append.1 he with he | he
    · exact ih hu' e he
    · rcases require_cases (hx.mem_urls ho) url with
        ⟨_, hc⟩ | ⟨path, hp, hc⟩ | ⟨_, _, hc⟩
      · rw [hc] at he
        exact absurd he List.not_mem_nil
      · rw [hc] at he
        obtain rfl := List.mem_singleton.1 he
        have hstep : ∀ u v, g'.Requires u v → r u v := fun u v huv =>
          (hx.added u v huv).elim (hr u v) fun h => h.1 ▸ hu' v h.2
        obtain ⟨rest, rfl⟩ := hp.exists_cons
        refine ⟨_, rfl, ⟨?_, ?_, ?_⟩, rfl⟩
        · exact .cons_cons (hu url (List.mem_append_right _ (List.mem_singleton_self _)))
            (hp.chain.imp hstep)
        · rw [List.getLast?_cons_cons, hp.last, List.head?_cons]
        · simp only [List.length_cons, Nat.le_add_left]
      · rw [hc] at he
        exact absurd he List.not_mem_nil
  | addExport _ _ _ ih => exact ih hu

end ScriptBundler.Graph
