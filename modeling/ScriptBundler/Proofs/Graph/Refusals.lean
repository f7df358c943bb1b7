import ScriptBundler.Proofs.Graph.Linking

namespace ScriptBundler

def ModuleNode.withoutExports (n : ModuleNode) : ModuleNode := { n with exports := [] }

namespace Arena

variable {a a' : Arena}

def withoutExports (a : Arena) : Arena := { a with nodes := a.nodes.map .withoutExports }

theorem field_withoutExports {α : Type} {field : ModuleNode → α}
    (hf : ∀ n : ModuleNode, field n.withoutExports = field n) (a : Arena) (i : Nat) :
    (a.withoutExports.nodes[i]?).map field = (a.nodes[i]?).map field := by
  rw [withoutExports, List.getElem?_map, Option.map_map]
  exact Option.map_congr fun n _ => hf n

theorem sameLinks_withoutExports (a : Arena) : SameLinks a a.withoutExports where
  label := field_withoutExports (by intro n; rfl) a
  requires i := congrArg (Option.getD · []) (field_withoutExports (by intro n; rfl) a i)
  requiredBy i := congrArg (Option.getD · []) (field_withoutExports (by intro n; rfl) a i)
  visited := rfl
  queue := rfl
  size := List.length_map _

theorem create_withoutExports (a : Arena) (url : String) :
    a.withoutExports.create url = (a.create url).withoutExports := by
  have hsize := (sameLinks_withoutExports a).size
  rw [create, hsize, withoutExports, withoutExports, create, List.map_append]
  rfl

theorem getOrCreate_withoutExports (a : Arena) (url : String) :
    (a.withoutExports.getOrCreate url).2 = (a.getOrCreate url).2.withoutExports := by
  have hget : a.withoutExports.get? url = a.get? url := rfl
  rw [getOrCreate, getOrCreate, hget]
  split
  · rfl
  · exact create_withoutExports a url

theorem modify_withoutExports {f : ModuleNode → ModuleNode}
    (hf : ∀ n : ModuleNode, f n.withoutExports = (f n).withoutExports) (a : Arena) (i : Nat) :
    a.withoutExports.modify i f = (a.modify i f).withoutExports := by
  have hnodes : (a.withoutExports.modify i f).nodes = (a.modify i f).withoutExports.nodes := by
    apply List.ext_getElem?
    intro j
    rw [getElem?_modify, withoutExports, withoutExports, List.getElem?_map, List.getElem?_map,
      getElem?_modify, Option.map_map, Option.map_map]
    apply Option.map_congr
    intro n _
    simp only [Function.comp, apply_ite ModuleNode.withoutExports, hf]
  simp only [modify, withoutExports] at hnodes ⊢
  rw [hnodes]

theorem link_withoutExports (a : Arena) (origin target : Nat) :
    a.withoutExports.link origin target = (a.link origin target).withoutExports := by
  rw [link, modify_withoutExports (by intro n; rfl), modify_withoutExports (by intro n; rfl), link]

theorem search_congr (hr : ∀ i, a'.requires i = a.requires i) (target n : Nat) (s : Search) :
    a'.search target n s = a.search target n s := by
  induction n generalizing s with
  | zero => rfl
  | succ n ih => simp only [search, hr, ih]

theorem findPath_congr (h : SameLinks a a') (start target : Nat) :
    a'.findPath start target = a.findPath start target := by
  rw [findPath, search_congr h.requires, h.size, findPath]

/-- Requirements alone decide which edges are refused. -/
theorem addEdge_withoutExports (a : Arena) (origin target : Nat) :
    a.withoutExports.addEdge origin target =
      ((a.addEdge origin target).1, (a.addEdge origin target).2.withoutExports) := by
  have hs := sameLinks_withoutExports a
  rw [addEdge, addEdge, hs.requires, findPath_congr hs, urlAt_of_label hs.label]
  split
  · rfl
  · cases a.findPath target origin with
    | some path => rfl
    | none => exact Prod.ext rfl (link_withoutExports a origin target)

theorem update_withoutExports {f : ModuleInfo → ModuleInfo}
    (hf : ∀ m, { f m with exports := [] } = { m with exports := [] }) (a : Arena) (i : Nat) :
    (a.update i f).withoutExports = a.withoutExports := by
  have hnodes : (a.update i f).withoutExports.nodes = a.withoutExports.nodes := by
    apply List.ext_getElem?
    intro j
    rw [withoutExports, List.getElem?_map, update, getElem?_modify, Option.map_map, withoutExports,
      List.getElem?_map]
    apply Option.map_congr
    intro n _
    rw [Function.comp]
    split
    · simp only [ModuleNode.withoutExports, hf]
    · rfl
  simp only [update, modify, withoutExports] at hnodes ⊢
  rw [hnodes]

end Arena

namespace Graph

variable {g g' : Graph} {origin : String} {refs : List String} {es : List BuildError}

def withoutExports (g : Graph) : Graph :=
  ⟨g.arena.withoutExports, g.wellFormed.of_sameLinks (Arena.sameLinks_withoutExports g.arena)⟩

theorem add_withoutExports (g : Graph) (url : String) :
    g.withoutExports.add url = (g.add url).withoutExports :=
  eq_of_arena (Arena.getOrCreate_withoutExports g.arena url)

theorem urls_withoutExports (g : Graph) : g.withoutExports.urls = g.urls :=
  List.map_map

theorem addExport_withoutExports (g : Graph) (url name : String) (binding : Binding) :
    (g.addExport url name binding).withoutExports = g.withoutExports := by
  rw [addExport, update]
  split
  · next i _ =>
    apply eq_of_arena
    exact Arena.update_withoutExports (by intro m; rfl) g.arena i
  · rfl

theorem addEdge_withoutExports (g : Graph) (origin url : String) :
    g.withoutExports.addEdge origin url =
      ((g.addEdge origin url).1, (g.addEdge origin url).2.withoutExports) := by
  by_cases hknown : origin ∈ g.urls ∧ url ∈ g.urls
  · obtain ⟨i, hi⟩ := mem_urls_iff.1 hknown.1
    obtain ⟨j, hj⟩ := mem_urls_iff.1 hknown.2
    have hedge := addEdge_of_get? hi hj
    have hedge' := addEdge_of_get? (g := g.withoutExports) hi hj
    have hsame := Arena.addEdge_withoutExports g.arena i j
    apply Prod.ext
    · exact hedge'.1.trans ((congrArg Prod.fst hsame).trans hedge.1.symm)
    · apply eq_of_arena
      exact hedge'.2.trans
        ((congrArg Prod.snd hsame).trans (congrArg Arena.withoutExports hedge.2.symm))
  · rw [addEdge_of_unknown hknown, addEdge_of_unknown]
    rwa [urls_withoutExports]

theorem require_withoutExports (g : Graph) (origin url : String) :
    g.withoutExports.require origin url =
      ((g.require origin url).1, (g.require origin url).2.withoutExports) := by
  rw [require, require, add_withoutExports, addEdge_withoutExports]
  cases ((g.add url).addEdge origin url).1 <;> rfl

/-- What is wrong with references of the module at `origin`, and the graph with the others. -/
def refuse (g : Graph) (origin : String) : List String → List BuildError × Graph
  | [] => ([], g)
  | url :: urls =>
    let (wrong, g) := g.require origin url
    let (es, g) := g.refuse origin urls
    (wrong.toList ++ es, g)

theorem refuse_concat (g : Graph) (origin : String) (urls : List String) (url : String) :
    g.refuse origin (urls ++ [url]) =
      ((g.refuse origin urls).1 ++ ((g.refuse origin urls).2.require origin url).1.toList,
        ((g.refuse origin urls).2.require origin url).2) := by
  induction urls generalizing g with
  | nil => simp only [List.nil_append, refuse, List.append_nil]
  | cons u urls ih => simp only [List.cons_append, refuse, ih, List.append_assoc]

theorem refuse_withoutExports (g : Graph) (origin : String) (urls : List String) :
    g.withoutExports.refuse origin urls =
      ((g.refuse origin urls).1, (g.refuse origin urls).2.withoutExports) := by
  induction urls generalizing g with
  | nil => rfl
  | cons url urls ih => simp only [refuse, require_withoutExports, ih]

/-- However exports are recorded meanwhile, the same references are refused. -/
theorem Linked.refuse_eq (h : Linked origin g refs es g') :
    g.withoutExports.refuse origin refs = (es, g'.withoutExports) := by
  induction h with
  | refl => rfl
  | require h url ih => rw [refuse_concat, ih, require_withoutExports]
  | addExport h name binding ih => rw [ih, addExport_withoutExports]

end Graph

end ScriptBundler
