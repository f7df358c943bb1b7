import ScriptBundler.Proofs.Graph.Edges
import ScriptBundler.Proofs.Graph.Walk

namespace ScriptBundler.Graph

variable {g : Graph}

theorem isEmitted_of_not_mem {u : String} (h : u ∉ g.urls) : g.isEmitted u = false := by
  rw [isEmitted, find?_eq_none_iff.2 h, Option.map_none, Option.getD_none]

theorem isEmitted_of_get? {u : String} {i : Nat} (h : g.arena.get? u = some i) :
    g.isEmitted u = g.arena.isEmitted i := by
  rw [isEmitted, find?_of_get? h, getElem?_modules, Option.map_map, Arena.isEmitted]
  rfl

def emittedUrls (g : Graph) : List String := g.urls.filter g.isEmitted

theorem mem_emittedUrls {u : String} : u ∈ g.emittedUrls ↔ g.isEmitted u = true := by
  constructor
  · intro h
    exact (List.mem_filter.1 h).2
  · intro h
    apply List.mem_filter.2 ⟨_, h⟩
    by_contra hu
    rw [isEmitted_of_not_mem hu] at h
    exact Bool.false_ne_true h

def emit (g : Graph) (url : String) : Graph := g.update url fun m => { m with emitted := true }

def emitAll (g : Graph) (order : List String) : Graph := order.foldl emit g

theorem sameLinks_emitAll (g : Graph) (order : List String) : SameLinks g (g.emitAll order) := by
  induction order generalizing g with
  | nil => exact .refl g
  | cons u order ih => exact (sameLinks_update g u _).trans (ih _)

theorem emitAll_append (g : Graph) (order order' : List String) :
    g.emitAll (order ++ order') = (g.emitAll order).emitAll order' :=
  List.foldl_append

theorem arena_emitAll {order : List Nat} (ho : ∀ i ∈ order, i < g.size) :
    (g.emitAll (order.map g.arena.urlAt)).arena = g.arena.emitAll order := by
  induction order generalizing g with
  | nil => rfl
  | cons i order ih =>
    have harena : (g.emit (g.arena.urlAt i)).arena = g.arena.emit i := by
      simp only [emit, update, get?_urlAt (ho i List.mem_cons_self), Arena.emit]
    have hurls : (g.emit (g.arena.urlAt i)).arena.urlAt = g.arena.urlAt := by
      rw [harena]
      exact Arena.urlAt_of_label (Arena.sameLinks_emit g.arena i).label
    have hsize : (g.emit (g.arena.urlAt i)).size = g.size := by
      rw [size_eq, emit, urls_update, size_eq]
    have hrest := @ih (g.emit (g.arena.urlAt i)) fun j hj =>
      hsize ▸ ho j (List.mem_cons_of_mem _ hj)
    rw [hurls, harena] at hrest
    exact hrest

/-- Marking modules as emitted changes no other field, and no other module. -/
theorem modules_emitAll (g : Graph) (order : List String) : (g.emitAll order).modules =
    g.modules.map fun m => { m with emitted := m.emitted || decide (m.url ∈ order) } := by
  induction order generalizing g with
  | nil => simp [emitAll]
  | cons u order ih =>
    change ((g.emit u).emitAll order).modules = _
    rw [ih, emit, modules_update, List.map_map]
    apply List.map_congr_left
    intro m _
    by_cases hm : m.url = u <;> simp [hm, Module.write]

theorem visited_emitAll (g : Graph) (order : List String) :
    (g.emitAll order).arena.visited = g.arena.visited := by
  induction order generalizing g with
  | nil => rfl
  | cons u order ih => exact (ih _).trans (visited_update g u _)

theorem queue_emitAll (g : Graph) (order : List String) :
    (g.emitAll order).arena.queue = g.arena.queue := by
  induction order generalizing g with
  | nil => rfl
  | cons u order ih => exact (ih _).trans (queue_update g u _)

theorem isEmitted_emitAll {order : List String} {u : String} :
    (g.emitAll order).isEmitted u = true ↔ g.isEmitted u = true ∨ u ∈ order ∧ u ∈ g.urls := by
  rw [isEmitted, find?_of_modules (modules_emitAll g order) (visited_emitAll g order), isEmitted]
  cases hm : g.find? u with
  | none =>
    have hu := find?_eq_none_iff.1 hm
    simp [hu]
  | some m =>
    have hu := mem_urls_of_find? hm
    simp [hu, url_of_find? hm]

/-- Known entries are emitted in post-order, and nothing else changes. -/
theorem exists_emitOrder_eq {entries : List String} (he : ∀ u ∈ entries, u ∈ g.urls) :
    ∃ order, PostOrder g.requires g.emittedUrls entries order ∧ (∀ u ∈ order, u ∈ g.urls) ∧
      g.emitOrder entries = (order, g.emitAll order) := by
  have hentries : ∀ i ∈ entries.filterMap g.arena.get?, i < g.size := by
    intro i hi
    obtain ⟨u, -, hu⟩ := List.mem_filterMap.1 hi
    exact lt_size_of_get? hu
  have hnames : (entries.filterMap g.arena.get?).map g.arena.urlAt = entries := by
    induction entries with
    | nil => rfl
    | cons u entries ih =>
      obtain ⟨i, hi⟩ := mem_urls_iff.1 (he u List.mem_cons_self)
      rw [List.filterMap_cons_some hi, List.map_cons, urlAt_of_get? hi]
      apply congrArg
      apply ih
      · exact fun v hv => he v (List.mem_cons_of_mem _ hv)
      · intro j hj
        apply hentries
        rw [List.filterMap_cons_some hi]
        exact List.mem_cons_of_mem _ hj
  obtain ⟨order, horder, hknown, hemit⟩ := Arena.exists_emitOrder_eq g.wellFormed hentries
  refine ⟨order.map g.arena.urlAt, ?_, ?_, ?_⟩
  · rw [← hnames]
    apply PostOrder.map (p := (· < g.size)) _ _ _ horder hentries
    · intro i hi
      rw [mem_emittedUrls, Arena.mem_emittedNodes, isEmitted_of_get? (get?_urlAt hi)]
    · intro i j hi hj
      exact urlAt_inj hi hj
    · intro i hi
      exact requires_of_get? (get?_urlAt hi)
    · intro i _ j hj
      exact g.wellFormed.known i j hj
  · intro u hu
    obtain ⟨i, hi, rfl⟩ := List.mem_map.1 hu
    exact mem_urls_iff.2 ⟨i, get?_urlAt (hknown i hi)⟩
  · apply Prod.ext
    · exact congrArg (fun r => r.1.map g.arena.urlAt) hemit
    · apply eq_of_arena
      rw [arena_emitAll hknown]
      exact congrArg Prod.snd hemit

/-- How a graph emits modules from `entries` on: what comes out, and the graph afterwards. -/
structure Emits (g : Graph) (entries order : List String) (g' : Graph) : Prop where
  postOrder : ∀ order', PostOrder g.requires g.emittedUrls entries order' ↔ order' = order
  nodup : order.Nodup
  mem_iff : ∀ v, v ∈ order ↔ ∃ u ∈ entries, g.isEmitted u = false ∧
    Relation.ReflTransGen (fun a b => g.Requires a b ∧ g.isEmitted b = false) u v
  before : ∀ pre v post, order = pre ++ v :: post →
    ∀ w ∈ g.requires v, g.isEmitted w = true ∨ w ∈ pre
  emitted : g'.modules =
    g.modules.map fun m => { m with emitted := m.emitted || decide (m.url ∈ order) }
  unchanged : g'.arena.visited = g.arena.visited ∧ g'.arena.queue = g.arena.queue

variable {entries more order : List String}

theorem emits_of_postOrder (hg : g.Acyclic)
    (h : PostOrder g.requires g.emittedUrls entries order) :
    Emits g entries order (g.emitAll order) := by
  have hn {u : String} : u ∉ g.emittedUrls ↔ g.isEmitted u = false := by
    rw [mem_emittedUrls, Bool.not_eq_true]
  constructor
  · intro order'
    constructor
    · intro h'
      exact h'.unique h
    · rintro rfl
      exact h
  · exact h.nodup
  · intro v
    rw [h.mem_iff]
    simp only [hn, Requires]
  · intro pre v post he w hw
    rw [← mem_emittedUrls]
    exact h.before hg he hw
  · exact modules_emitAll g order
  · exact ⟨visited_emitAll g order, queue_emitAll g order⟩

theorem emitOrder_append (he : ∀ u ∈ entries, u ∈ g.urls)
    (hm : ∀ u ∈ more, u ∈ g.urls) : g.emitOrder (entries ++ more) =
      ((g.emitOrder entries).1 ++ ((g.emitOrder entries).2.emitOrder more).1,
        ((g.emitOrder entries).2.emitOrder more).2) := by
  obtain ⟨order, h, hknown, hemit⟩ := exists_emitOrder_eq he
  have hs := sameLinks_emitAll g order
  have hm' : ∀ u ∈ more, u ∈ (g.emitAll order).urls := by
    rw [hs.urls]
    exact hm
  obtain ⟨order', h', -, hemit'⟩ := exists_emitOrder_eq hm'
  have hseen : ∀ u, u ∈ (g.emitAll order).emittedUrls ↔ u ∈ order ++ g.emittedUrls := by
    intro u
    rw [mem_emittedUrls, isEmitted_emitAll, List.mem_append, mem_emittedUrls, or_comm]
    exact or_congr_left (and_iff_left_of_imp (hknown u))
  have hrest : PostOrder g.requires (order ++ g.emittedUrls) more order' := by
    rw [← show (g.emitAll order).requires = g.requires from funext hs.requires]
    exact h'.congr_seen hseen
  have hall : ∀ u ∈ entries ++ more, u ∈ g.urls := List.forall_mem_append.2 ⟨he, hm⟩
  obtain ⟨order'', h'', -, hemit''⟩ := exists_emitOrder_eq hall
  obtain rfl := h''.unique (h.append hrest)
  rw [hemit'', hemit, hemit', emitAll_append]

/-- Every graph emits modules in the post-order of what they require, whatever was done to it and
whichever of its modules count as emitted; and from more entries as if it were asked twice. -/
theorem Reached.emits {past : Arena.History} (h : Reached past g) (he : ∀ u ∈ entries, u ∈ g.urls)
    (hm : ∀ u ∈ more, u ∈ g.urls) :
    Emits g entries (g.emitOrder entries).1 (g.emitOrder entries).2 ∧
      g.emitOrder (entries ++ more) =
        ((g.emitOrder entries).1 ++ ((g.emitOrder entries).2.emitOrder more).1,
          ((g.emitOrder entries).2.emitOrder more).2) := by
  have hg : g.Acyclic := acyclic_iff.2 h.tracks.acyclic
  obtain ⟨order, horder, -, hemit⟩ := exists_emitOrder_eq he
  constructor
  · rw [hemit]
    exact emits_of_postOrder hg horder
  · exact emitOrder_append he hm

def partlyEmitted : Graph :=
  let g := ((((empty.add "/a.js").add "/b.js").add "/c.js").addEdge "/a.js" "/b.js").2
  let g := ((g.emitOrder ["/a.js"]).2.addEdge "/b.js" "/c.js").2
  (g.addEdge "/a.js" "/c.js").2.update "/a.js" fun m => { m with emitted := false }

/-- An edge that was recorded after an emission, and a module that counts as not emitted again. -/
theorem emits_after_emission : ∃ past g, Reached past g ∧ g.emittedUrls = ["/b.js"] ∧
    (∀ u ∈ ["/a.js", "/a.js"], u ∈ g.urls) ∧ (∀ u ∈ ["/b.js", "/c.js"], u ∈ g.urls) ∧
    (g.emitOrder ["/a.js", "/a.js"]).1 = ["/c.js", "/a.js"] ∧
    Emits g ["/a.js", "/a.js"] (g.emitOrder ["/a.js", "/a.js"]).1
      (g.emitOrder ["/a.js", "/a.js"]).2 ∧
    g.emitOrder (["/a.js", "/a.js"] ++ ["/b.js", "/c.js"]) =
      ((g.emitOrder ["/a.js", "/a.js"]).1 ++
        ((g.emitOrder ["/a.js", "/a.js"]).2.emitOrder ["/b.js", "/c.js"]).1,
          ((g.emitOrder ["/a.js", "/a.js"]).2.emitOrder ["/b.js", "/c.js"]).2) := by
  have h := (((((((Arena.Reached.empty.use (.getOrCreate "/a.js") trivial).use
    (.getOrCreate "/b.js") trivial).use (.getOrCreate "/c.js") trivial).use (.addEdge 0 1)
      (by decide)).use (.emitOrder [0]) trivial).use (.addEdge 1 2) (by decide)).use (.addEdge 0 2)
        (by decide)).use (.write 0 fun m => { m with emitted := false }) trivial
  exact ⟨_, partlyEmitted, h, by decide, by decide, by decide, by decide,
    Reached.emits h (by decide) (by decide)⟩

end ScriptBundler.Graph
