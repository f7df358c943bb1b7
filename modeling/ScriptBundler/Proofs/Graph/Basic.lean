import ScriptBundler.Graph
import ScriptBundler.Proofs.Graph.Search

namespace ScriptBundler

def Module.write (f : ModuleInfo → ModuleInfo) (m : Module) : Module :=
  { m with toModuleInfo := f m.toModuleInfo }

/-- A module after the edge from `origin` to `url` was recorded. -/
def Module.withEdge (origin url : String) (m : Module) : Module :=
  { m with
    requires := if m.url = origin then m.requires ++ [url] else m.requires
    requiredBy := if m.url = url then m.requiredBy ++ [origin] else m.requiredBy }

namespace Graph

open Relation

variable {g g' : Graph} {u v origin url : String} {i j : Nat}

theorem size_eq : g.size = g.urls.length := by
  rw [urls, List.length_map, size, Arena.size]

theorem getElem?_urls : g.urls[i]? = some u ↔ g.arena.get? u = some i := by
  rw [urls, List.getElem?_map]
  exact (g.wellFormed.get?_iff u i).symm

theorem mem_urls_iff : u ∈ g.urls ↔ ∃ i, g.arena.get? u = some i := by
  simp only [List.mem_iff_getElem?, getElem?_urls]

theorem get?_eq_none_iff : g.arena.get? u = none ↔ u ∉ g.urls := by
  rw [mem_urls_iff, not_exists, Option.eq_none_iff_forall_ne_some]

theorem urls_nodup (g : Graph) : g.urls.Nodup := by
  apply List.nodup_iff_getElem?_ne_getElem?.2
  intro i j hij hj he
  obtain ⟨u, hu⟩ := List.getElem?_eq_some_iff.1 (List.getElem?_eq_getElem hj)
  rw [List.getElem?_eq_getElem hj] at he
  have hi := getElem?_urls.1 he
  rw [getElem?_urls.1 (List.getElem?_eq_getElem hj)] at hi
  exact Nat.ne_of_gt hij (Option.some.inj hi)

theorem urlAt_of_get? (h : g.arena.get? u = some i) : g.arena.urlAt i = u := by
  rw [Arena.urlAt, (g.wellFormed.get?_iff u i).1 h, Option.getD_some]

theorem get?_urlAt (h : i < g.size) : g.arena.get? (g.arena.urlAt i) = some i := by
  rw [g.wellFormed.get?_iff, Arena.urlAt, List.getElem?_eq_getElem h, Option.map_some,
    Option.getD_some]

theorem lt_size_of_get? (h : g.arena.get? u = some i) : i < g.size :=
  g.wellFormed.lt_size_of_get? h

theorem urlAt_inj (hi : i < g.size) (hj : j < g.size) (h : g.arena.urlAt i = g.arena.urlAt j) :
    i = j := by
  have hget := get?_urlAt hi
  rw [h, get?_urlAt hj] at hget
  exact (Option.some.inj hget).symm

theorem index?_of_get? (h : g.arena.get? u = some i) :
    g.index? u = some ⟨i, lt_size_of_get? h⟩ := by
  simp only [index?, h, Option.pmap_some]

theorem index?_eq_none (h : u ∉ g.urls) : g.index? u = none := by
  rw [index?, Option.pmap_eq_none_iff]
  exact get?_eq_none_iff.2 h

theorem getElem?_modules (g : Graph) (i : Nat) :
    g.modules[i]? = (g.arena.nodes[i]?).map g.arena.moduleOf :=
  List.getElem?_map

theorem map_url_modules (g : Graph) : g.modules.map (·.url) = g.urls := by
  rw [modules, List.map_map]
  rfl

theorem find?_of_get? (h : g.arena.get? u = some i) : g.find? u = g.modules[i]? := by
  rw [find?, h, Option.bind_some]

theorem find?_eq_some_iff {m : Module} :
    g.find? u = some m ↔ ∃ i, g.arena.get? u = some i ∧ g.modules[i]? = some m :=
  Option.bind_eq_some_iff

theorem url_of_find? {m : Module} (h : g.find? u = some m) : m.url = u := by
  obtain ⟨i, hi, hm⟩ := find?_eq_some_iff.1 h
  have hu := getElem?_urls.2 hi
  rw [← map_url_modules, List.getElem?_map, hm] at hu
  exact Option.some.inj hu

theorem mem_modules_of_find? {m : Module} (h : g.find? u = some m) : m ∈ g.modules := by
  obtain ⟨i, -, hm⟩ := find?_eq_some_iff.1 h
  exact List.mem_of_getElem? hm

theorem mem_urls_of_find? {m : Module} (h : g.find? u = some m) : u ∈ g.urls := by
  rw [← map_url_modules, ← url_of_find? h]
  exact List.mem_map_of_mem (mem_modules_of_find? h)

theorem exists_find?_of_mem (h : u ∈ g.urls) : ∃ m, g.find? u = some m := by
  obtain ⟨i, hi⟩ := mem_urls_iff.1 h
  refine ⟨_, (find?_of_get? hi).trans (List.getElem?_eq_getElem ?_)⟩
  rw [modules, List.length_map]
  exact lt_size_of_get? hi

theorem find?_eq_none_iff : g.find? u = none ↔ u ∉ g.urls := by
  constructor
  · intro h hu
    obtain ⟨m, hm⟩ := exists_find?_of_mem hu
    rw [h] at hm
    cases hm
  · intro h
    rw [find?, get?_eq_none_iff.2 h, Option.bind_none]

theorem find?_of_mem {m : Module} (hm : m ∈ g.modules) : g.find? m.url = some m := by
  obtain ⟨i, hi⟩ := List.mem_iff_getElem?.1 hm
  apply find?_eq_some_iff.2 ⟨i, ?_, hi⟩
  rw [← getElem?_urls, ← map_url_modules, List.getElem?_map, hi, Option.map_some]

/-- The state of the module at a url, if there is one. -/
def state? (g : Graph) (url : String) : Option ModuleState := (g.find? url).map (·.state)

/-- The module at `u` requires the one at `v`. -/
def Requires (g : Graph) (u v : String) : Prop := v ∈ g.requires u

theorem requires_of_not_mem (h : u ∉ g.urls) : g.requires u = [] := by
  rw [requires, find?_eq_none_iff.2 h, Option.map_none, Option.getD_none]

theorem requiredBy_of_not_mem (h : u ∉ g.urls) : g.requiredBy u = [] := by
  rw [requiredBy, find?_eq_none_iff.2 h, Option.map_none, Option.getD_none]

theorem mem_urls_of_requires (h : g.Requires u v) : u ∈ g.urls := by
  by_contra hu
  rw [Requires, requires_of_not_mem hu] at h
  exact List.not_mem_nil h

theorem requires_of_get? (h : g.arena.get? u = some i) :
    g.requires u = (g.arena.requires i).map g.arena.urlAt := by
  have hi := List.getElem?_eq_getElem (lt_size_of_get? h)
  rw [requires, find?_of_get? h, getElem?_modules, Arena.requires, hi]
  rfl

theorem requiredBy_of_get? (h : g.arena.get? u = some i) :
    g.requiredBy u = (g.arena.requiredBy i).map g.arena.urlAt := by
  have hi := List.getElem?_eq_getElem (lt_size_of_get? h)
  rw [requiredBy, find?_of_get? h, getElem?_modules, Arena.requiredBy, hi]
  rfl

theorem requires_iff : g.Requires u v ↔
    ∃ i j, g.arena.get? u = some i ∧ g.arena.get? v = some j ∧ g.arena.Requires i j := by
  constructor
  · intro h
    obtain ⟨i, hi⟩ := mem_urls_iff.1 (mem_urls_of_requires h)
    rw [Requires, requires_of_get? hi] at h
    obtain ⟨j, hj, rfl⟩ := List.mem_map.1 h
    exact ⟨i, j, hi, get?_urlAt (g.wellFormed.known i j hj), hj⟩
  · rintro ⟨i, j, hi, hj, hr⟩
    rw [Requires, requires_of_get? hi, ← urlAt_of_get? hj]
    exact List.mem_map_of_mem hr

theorem requires_urlAt (h : g.arena.Requires i j) :
    g.Requires (g.arena.urlAt i) (g.arena.urlAt j) := by
  apply requires_iff.2 ⟨i, j, _, _, h⟩
  · exact get?_urlAt (Arena.lt_size_of_requires h)
  · exact get?_urlAt (g.wellFormed.known i j h)

theorem requires_iff_of_get? (hi : g.arena.get? u = some i) (hj : g.arena.get? v = some j) :
    g.Requires u v ↔ g.arena.Requires i j := by
  constructor
  · intro h
    obtain ⟨i', j', hi', hj', hr⟩ := requires_iff.1 h
    rw [hi] at hi'
    rw [hj] at hj'
    cases hi'
    cases hj'
    exact hr
  · intro h
    exact requires_iff.2 ⟨i, j, hi, hj, h⟩

theorem reaches_iff_of_get? (hi : g.arena.get? u = some i) (hj : g.arena.get? v = some j) :
    ReflTransGen g.Requires u v ↔ ReflTransGen g.arena.Requires i j := by
  constructor
  · intro h
    induction h generalizing j with
    | refl =>
      rw [hi] at hj
      cases hj
      exact .refl
    | tail _ hr ih =>
      obtain ⟨k, j', hk, hj', hr⟩ := requires_iff.1 hr
      rw [hj] at hj'
      cases hj'
      exact (ih hk).tail hr
  · intro h
    rw [← urlAt_of_get? hi, ← urlAt_of_get? hj]
    exact ReflTransGen.lift g.arena.urlAt (fun _ _ h => requires_urlAt h) _ _ h

theorem mem_urls_of_required (h : g.Requires u v) : v ∈ g.urls := by
  obtain ⟨-, j, -, hj, -⟩ := requires_iff.1 h
  exact mem_urls_iff.2 ⟨j, hj⟩

theorem requiredBy_nodup (g : Graph) (u : String) : (g.requiredBy u).Nodup := by
  by_cases hu : u ∈ g.urls
  · obtain ⟨i, hi⟩ := mem_urls_iff.1 hu
    rw [requiredBy_of_get? hi]
    apply (g.wellFormed.requiredBy_nodup i).map_on
    intro j hj k hk
    exact urlAt_inj (g.wellFormed.lt_size_of_requiredBy hj) (g.wellFormed.lt_size_of_requiredBy hk)
  · rw [requiredBy_of_not_mem hu]
    exact List.nodup_nil

theorem mem_requiredBy_iff : u ∈ g.requiredBy v ↔ g.Requires u v := by
  constructor
  · intro h
    have hv : v ∈ g.urls := by
      by_contra hv
      rw [requiredBy_of_not_mem hv] at h
      exact List.not_mem_nil h
    obtain ⟨j, hj⟩ := mem_urls_iff.1 hv
    rw [requiredBy_of_get? hj] at h
    obtain ⟨i, hi, rfl⟩ := List.mem_map.1 h
    rw [← urlAt_of_get? hj]
    exact requires_urlAt ((g.wellFormed.inverse i j).2 hi)
  · intro h
    obtain ⟨i, j, hi, hj, hr⟩ := requires_iff.1 h
    rw [requiredBy_of_get? hj, ← urlAt_of_get? hi]
    exact List.mem_map_of_mem ((g.wellFormed.inverse i j).1 hr)

theorem add_of_mem (h : u ∈ g.urls) : g.add u = g := by
  obtain ⟨i, hi⟩ := mem_urls_iff.1 h
  simp only [add, Arena.getOrCreate, hi]

theorem arena_add (h : u ∉ g.urls) : (g.add u).arena = g.arena.create u := by
  simp only [add, Arena.getOrCreate, get?_eq_none_iff.2 h]

theorem urls_add (g : Graph) (u : String) :
    (g.add u).urls = if u ∈ g.urls then g.urls else g.urls ++ [u] := by
  split
  · next h => rw [add_of_mem h]
  · next h => rw [urls, arena_add h, Arena.create, List.map_append, urls, List.map_singleton]

theorem mem_urls_add : v ∈ (g.add u).urls ↔ v ∈ g.urls ∨ v = u := by
  rw [urls_add]
  split
  · next h =>
    constructor
    · exact .inl
    · rintro (hv | rfl)
      · exact hv
      · exact h
  · rw [List.mem_append, List.mem_singleton]

theorem modules_add (h : u ∉ g.urls) : (g.add u).modules = g.modules ++ [{ url := u }] := by
  have hkept : ∀ n ∈ g.arena.nodes, (g.arena.create u).moduleOf n = g.arena.moduleOf n := by
    intro n hn
    obtain ⟨i, hi⟩ := List.mem_iff_getElem?.1 hn
    have hurl (j : Nat) (hj : j < g.arena.size) : (g.arena.create u).urlAt j = g.arena.urlAt j := by
      rw [Arena.urlAt, Arena.getElem?_create, if_neg (Nat.ne_of_lt hj), Arena.urlAt]
    have hrequires : g.arena.requires i = n.requires := by
      rw [Arena.requires, hi, Option.map_some, Option.getD_some]
    have hrequiredBy : g.arena.requiredBy i = n.requiredBy := by
      rw [Arena.requiredBy, hi, Option.map_some, Option.getD_some]
    rw [Arena.moduleOf, Arena.moduleOf, ← hrequires, ← hrequiredBy]
    congr 1
    · apply List.map_congr_left
      intro j hj
      exact hurl j (g.wellFormed.known i j hj)
    · apply List.map_congr_left
      intro j hj
      exact hurl j (g.wellFormed.lt_size_of_requiredBy hj)
  rw [modules, arena_add h, Arena.create, List.map_append]
  exact congrArg (· ++ _) (List.map_congr_left hkept)

theorem find?_add (g : Graph) (u v : String) :
    (g.add u).find? v = if v = u ∧ u ∉ g.urls then some { url := u } else g.find? v := by
  by_cases hu : u ∈ g.urls
  · rw [add_of_mem hu, if_neg fun h => h.2 hu]
  · rw [find?, arena_add hu, Arena.get?_create, modules_add hu]
    have hlen : g.arena.size = g.modules.length := by rw [modules, List.length_map, Arena.size]
    by_cases hv : v = u
    · rw [if_pos hv, if_pos ⟨hv, hu⟩, Option.bind_some, hlen]
      exact List.getElem?_concat_length
    · rw [if_neg hv, if_neg fun h => hv h.1, find?]
      apply Option.bind_congr
      intro i hi
      apply List.getElem?_append_left
      rw [← hlen]
      exact lt_size_of_get? hi

@[simp] theorem taken_add (g : Graph) (u : String) : (g.add u).taken = g.taken := by
  by_cases hu : u ∈ g.urls
  · rw [add_of_mem hu]
  · rw [taken, size, arena_add hu, Arena.size_create, Arena.create, List.length_append,
      List.length_singleton, Nat.add_sub_add_right, taken, size]

/-- What a new module has of a field is what a missing one counts for. -/
theorem field_add {α : Type} (field : Module → α) (d : α) (hd : field { url := u } = d) :
    (((g.add u).find? v).map field).getD d = ((g.find? v).map field).getD d := by
  rw [find?_add]
  split
  · next h => rw [h.1, find?_eq_none_iff.2 h.2]; exact hd
  · rfl

@[simp] theorem requires_add (g : Graph) (u v : String) : (g.add u).requires v = g.requires v :=
  field_add _ _ rfl

@[simp] theorem isEmitted_add (g : Graph) (u v : String) : (g.add u).isEmitted v = g.isEmitted v :=
  field_add _ _ rfl

theorem requires_rel_add (g : Graph) (url : String) : (g.add url).Requires = g.Requires := by
  funext u v
  rw [Requires, requires_add, Requires]

theorem state?_add (g : Graph) (u v : String) :
    (g.add u).state? v = if v = u ∧ u ∉ g.urls then some .pending else g.state? v := by
  simp only [state?, find?_add]
  split <;> rfl

theorem find?_of_modules {f : Module → Module} (hm : g'.modules = g.modules.map f)
    (hv : g'.arena.visited = g.arena.visited) (u : String) :
    g'.find? u = (g.find? u).map f := by
  rw [find?, Arena.get?, hv, hm, find?, Arena.get?]
  cases g.arena.visited.lookup u with
  | none => rfl
  | some i => rw [Option.bind_some, Option.bind_some, List.getElem?_map]

theorem visited_update (g : Graph) (u : String) (f : ModuleInfo → ModuleInfo) :
    (g.update u f).arena.visited = g.arena.visited := by
  rw [update]
  split <;> rfl

theorem moduleOf_eq {a a' : Arena} (h : a'.urlAt = a.urlAt) : a'.moduleOf = a.moduleOf := by
  funext n
  rw [Arena.moduleOf, h, Arena.moduleOf]

/-- A node is the one at a position just if it has the url of that position. -/
theorem url_eq_iff {n : ModuleNode} (hu : g.arena.get? u = some i)
    (hn : g.arena.nodes[j]? = some n) : n.url = u ↔ i = j := by
  have hj : g.arena.get? n.url = some j := by
    rw [g.wellFormed.get?_iff, hn, Option.map_some]
  constructor
  · intro he
    rw [he, hu] at hj
    exact Option.some.inj hj
  · rintro rfl
    rw [← urlAt_of_get? hj, urlAt_of_get? hu]

theorem queue_update (g : Graph) (u : String) (f : ModuleInfo → ModuleInfo) :
    (g.update u f).arena.queue = g.arena.queue := by
  rw [update]
  split <;> rfl

theorem modules_update (g : Graph) (u : String) (f : ModuleInfo → ModuleInfo) :
    (g.update u f).modules = g.modules.map fun m => if m.url = u then m.write f else m := by
  cases hu : g.arena.get? u with
  | none =>
    have hother : ∀ m ∈ g.modules, (if m.url = u then m.write f else m) = m := by
      intro m hm
      apply if_neg
      rintro rfl
      exact get?_eq_none_iff.1 hu (mem_urls_of_find? (find?_of_mem hm))
    rw [List.map_congr_left hother, List.map_id', update, hu]
  | some i =>
    have hmodule : (g.arena.update i f).moduleOf = g.arena.moduleOf :=
      moduleOf_eq (Arena.urlAt_of_label (Arena.sameLinks_update g.arena i f).label)
    have harena : (g.update u f).arena = g.arena.update i f := by simp only [update, hu]
    apply List.ext_getElem?
    intro j
    rw [getElem?_modules, harena, hmodule, Arena.update, Arena.getElem?_modify, List.getElem?_map,
      getElem?_modules]
    cases hn : g.arena.nodes[j]? with
    | none => rfl
    | some n =>
      simp only [Option.map_some, Arena.moduleOf, url_eq_iff hu hn]
      split <;> rfl

theorem find?_update (g : Graph) (u : String) (f : ModuleInfo → ModuleInfo) (v : String) :
    (g.update u f).find? v = if v = u then (g.find? v).map (Module.write f) else g.find? v := by
  rw [find?_of_modules (modules_update g u f) (visited_update g u f)]
  cases hm : g.find? v with
  | none => split <;> rfl
  | some m =>
    rw [Option.map_some, url_of_find? hm]
    split <;> rfl

@[simp] theorem urls_update (g : Graph) (u : String) (f : ModuleInfo → ModuleInfo) :
    (g.update u f).urls = g.urls := by
  rw [← map_url_modules, modules_update, List.map_map, ← map_url_modules]
  apply List.map_congr_left
  intro m _
  rw [Function.comp]
  split <;> rfl

@[simp] theorem taken_update (g : Graph) (u : String) (f : ModuleInfo → ModuleInfo) :
    (g.update u f).taken = g.taken := by
  rw [taken, size_eq, urls_update, taken, size_eq, update]
  split <;> rfl

/-- A change that keeps a field of its module keeps it everywhere. -/
theorem field_update {α : Type} {field : Module → α} {f : ModuleInfo → ModuleInfo}
    (hk : ∀ m : Module, field (m.write f) = field m) (g : Graph) (u v : String) :
    ((g.update u f).find? v).map field = (g.find? v).map field := by
  rw [find?_update]
  split
  · rw [Option.map_map]
    exact Option.map_congr fun m _ => hk m
  · rfl

@[simp] theorem requires_update (g : Graph) (u : String) (f : ModuleInfo → ModuleInfo)
    (v : String) : (g.update u f).requires v = g.requires v :=
  congrArg (Option.getD · []) (field_update (fun _ => rfl) g u v)

@[simp] theorem requiredBy_update (g : Graph) (u : String) (f : ModuleInfo → ModuleInfo)
    (v : String) : (g.update u f).requiredBy v = g.requiredBy v :=
  congrArg (Option.getD · []) (field_update (fun _ => rfl) g u v)

theorem isEmitted_update {f : ModuleInfo → ModuleInfo} (hk : ∀ m, (f m).emitted = m.emitted)
    (g : Graph) (u v : String) : (g.update u f).isEmitted v = g.isEmitted v :=
  congrArg (Option.getD · false) (field_update (fun m => hk m.toModuleInfo) g u v)

theorem state?_update {f : ModuleInfo → ModuleInfo} (hk : ∀ m, (f m).state = m.state)
    (g : Graph) (u v : String) : (g.update u f).state? v = g.state? v :=
  field_update (fun m => hk m.toModuleInfo) g u v

theorem queue_eq (g : Graph) : g.arena.queue = (List.range g.size).drop g.taken := by
  have hq := List.suffix_iff_eq_drop.1 g.wellFormed.queue
  rw [List.length_range] at hq
  exact hq

theorem next_eq (g : Graph) : g.next = (g.modules[g.taken]?).map fun m => (m, g.pop) := by
  have hlen : g.modules.length = g.size := List.length_map _
  rw [next, Arena.nextPending, queue_eq, List.head?_drop]
  by_cases h : g.taken < g.size
  · rw [List.getElem?_range h, Option.bind_some]
  · have hle : g.size ≤ g.taken := Nat.le_of_not_lt h
    rw [List.getElem?_eq_none (by rwa [List.length_range]), Option.bind_none,
      List.getElem?_eq_none (by rwa [hlen])]

theorem next_eq_some_iff {m : Module} {g' : Graph} :
    g.next = some (m, g') ↔ g.modules[g.taken]? = some m ∧ g' = g.pop := by
  rw [next_eq, Option.map_eq_some_iff]
  constructor
  · rintro ⟨m', hm, he⟩
    obtain ⟨rfl, rfl⟩ := Prod.mk.inj he
    exact ⟨hm, rfl⟩
  · rintro ⟨hm, rfl⟩
    exact ⟨m, hm, rfl⟩

theorem next_eq_none_iff : g.next = none ↔ g.size ≤ g.taken := by
  rw [next_eq, Option.map_eq_none_iff, List.getElem?_eq_none_iff, modules, List.length_map]
  rfl

theorem taken_pop (h : g.taken < g.size) : g.pop.taken = g.taken + 1 := by
  have hle : g.arena.queue.length ≤ g.size := by
    rw [queue_eq, List.length_drop, List.length_range]
    exact Nat.sub_le _ _
  change g.size - g.arena.queue.tail.length = g.taken + 1
  rw [List.length_tail]
  rw [taken] at h ⊢
  omega

/-- The graph in which `origin` requires `url` as well. -/
def join (g : Graph) (origin url : String) : Graph :=
  match g.index? origin, g.index? url with
  | some i, some j => ⟨g.arena.link i j, g.wellFormed.link i.2 j.2⟩
  | _, _ => g

theorem arena_join (hi : g.arena.get? origin = some i) (hj : g.arena.get? url = some j) :
    (g.join origin url).arena = g.arena.link i j := by
  simp only [join, index?_of_get? hi, index?_of_get? hj]

theorem visited_join (g : Graph) (origin url : String) :
    (g.join origin url).arena.visited = g.arena.visited := by
  rw [join]
  split <;> rfl

theorem queue_join (g : Graph) (origin url : String) :
    (g.join origin url).arena.queue = g.arena.queue := by
  rw [join]
  split <;> rfl

theorem map_insertLast_of_not_mem {α β : Type} [DecidableEq α] {x : α} {s : List α} (h : x ∉ s)
    (f : α → β) : (insertLast x s).map f = s.map f ++ [f x] := by
  rw [insertLast, if_neg h, List.map_append, List.map_singleton]

theorem modules_join (ho : origin ∈ g.urls) (hu : url ∈ g.urls) (hn : ¬ g.Requires origin url) :
    (g.join origin url).modules = g.modules.map (.withEdge origin url) := by
  obtain ⟨i, hi⟩ := mem_urls_iff.1 ho
  obtain ⟨j, hj⟩ := mem_urls_iff.1 hu
  have hurls : (g.arena.link i j).urlAt = g.arena.urlAt :=
    Arena.urlAt_of_label (Arena.label_link g.arena i j)
  have hij : j ∉ g.arena.requires i := (requires_iff_of_get? hi hj).not.1 hn
  have hji : i ∉ g.arena.requiredBy j := (g.wellFormed.inverse i j).not.1 hij
  apply List.ext_getElem?
  intro k
  rw [getElem?_modules, arena_join hi hj, moduleOf_eq hurls, Arena.getElem?_link,
    List.getElem?_map, getElem?_modules]
  cases hk : g.arena.nodes[k]? with
  | none => rfl
  | some n =>
    have hrequires : k = i → j ∉ n.requires := by
      rintro rfl
      rwa [Arena.requires, hk] at hij
    have hrequiredBy : k = j → i ∉ n.requiredBy := by
      rintro rfl
      rwa [Arena.requiredBy, hk] at hji
    simp only [Option.map_some, Arena.moduleOf, Module.withEdge, url_eq_iff hi hk,
      url_eq_iff hj hk, eq_comm (a := k)]
    congr 2
    · split
      · next h => rw [map_insertLast_of_not_mem (hrequires h.symm), urlAt_of_get? hj]
      · rfl
    · split
      · next h => rw [map_insertLast_of_not_mem (hrequiredBy h.symm), urlAt_of_get? hi]
      · rfl

theorem find?_join (ho : origin ∈ g.urls) (hu : url ∈ g.urls) (hn : ¬ g.Requires origin url)
    (v : String) : (g.join origin url).find? v = (g.find? v).map (.withEdge origin url) :=
  find?_of_modules (modules_join ho hu hn) (visited_join g origin url) v

@[simp] theorem urls_join (g : Graph) (origin url : String) :
    (g.join origin url).urls = g.urls := by
  rw [join]
  split
  · next i j _ _ =>
    apply List.ext_getElem?
    intro k
    rw [urls, urls, List.getElem?_map, List.getElem?_map]
    exact Arena.map_url_of_label (Arena.label_link g.arena i j k)
  · rfl

@[simp] theorem taken_join (g : Graph) (origin url : String) :
    (g.join origin url).taken = g.taken := by
  rw [taken, size_eq, urls_join, queue_join, taken, size_eq]

/-- An edge is not written down with its modules. -/
theorem info_join (g : Graph) (origin url v : String) :
    ((g.join origin url).find? v).map Module.toModuleInfo =
      (g.find? v).map Module.toModuleInfo := by
  have hinfo (i : Nat) : ((g.join origin url).modules[i]?).map Module.toModuleInfo =
      (g.modules[i]?).map Module.toModuleInfo := by
    rw [getElem?_modules, getElem?_modules, Option.map_map, Option.map_map, join]
    split
    · rw [Arena.getElem?_link, Option.map_map]
      rfl
    · rfl
  rw [find?, Arena.get?, visited_join, find?, Arena.get?]
  cases g.arena.visited.lookup v with
  | none => rfl
  | some i => exact hinfo i

theorem isEmitted_join (g : Graph) (origin url v : String) :
    (g.join origin url).isEmitted v = g.isEmitted v := by
  have hinfo := congrArg (Option.map ModuleInfo.emitted) (info_join g origin url v)
  rw [Option.map_map, Option.map_map] at hinfo
  exact congrArg (Option.getD · false) hinfo

theorem state?_join (g : Graph) (origin url v : String) :
    (g.join origin url).state? v = g.state? v := by
  have hinfo := congrArg (Option.map ModuleInfo.state) (info_join g origin url v)
  rwa [Option.map_map, Option.map_map] at hinfo

/-- A new edge adds a last url to what one module has of a field, and to nothing else. -/
theorem field_join (ho : origin ∈ g.urls) (hu : url ∈ g.urls) (hn : ¬ g.Requires origin url)
    {field : Module → List String} {place last : String}
    (hf : ∀ m, field (m.withEdge origin url) =
      if m.url = place then field m ++ [last] else field m) (hp : place ∈ g.urls) (v : String) :
    (((g.join origin url).find? v).map field).getD [] =
      if v = place then ((g.find? place).map field).getD [] ++ [last]
      else ((g.find? v).map field).getD [] := by
  rw [find?_join ho hu hn, Option.map_map]
  by_cases hv : v = place
  · subst hv
    obtain ⟨m, hm⟩ := exists_find?_of_mem hp
    rw [if_pos rfl, hm, Option.map_some, Option.map_some, Option.getD_some, Option.getD_some,
      Function.comp, hf, if_pos (url_of_find? hm)]
  · rw [if_neg hv]
    apply congrArg (Option.getD · [])
    apply Option.map_congr
    intro m hm
    rw [Function.comp, hf, url_of_find? hm, if_neg hv]

theorem requires_join (ho : origin ∈ g.urls) (hu : url ∈ g.urls) (hn : ¬ g.Requires origin url)
    (v : String) : (g.join origin url).requires v =
      if v = origin then g.requires origin ++ [url] else g.requires v :=
  field_join ho hu hn (fun _ => rfl) ho v

theorem requiredBy_join (ho : origin ∈ g.urls) (hu : url ∈ g.urls) (hn : ¬ g.Requires origin url)
    (v : String) : (g.join origin url).requiredBy v =
      if v = url then g.requiredBy url ++ [origin] else g.requiredBy v :=
  field_join ho hu hn (fun _ => rfl) hu v

theorem requires_join_iff (ho : origin ∈ g.urls) (hu : url ∈ g.urls)
    (hn : ¬ g.Requires origin url) :
    (g.join origin url).Requires u v ↔ g.Requires u v ∨ u = origin ∧ v = url := by
  rw [Requires, requires_join ho hu hn]
  split
  · next h => subst h; simp only [List.mem_append, List.mem_singleton, true_and, Requires]
  · next h => simp only [h, false_and, or_false, Requires]

end Graph

end ScriptBundler
