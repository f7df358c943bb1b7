import Mathlib.Logic.Function.Basic
import ScriptBundler.Proofs.Thunk.Publication

namespace ScriptBundler

theorem Stmt.names_exports (name : String → String) (scope : Thunk.Scope)
    (hidden : String → String) (s : Stmt) :
    (s.exports name scope hidden).map (·.1) = (s.bindings name scope).map (·.1) := by
  cases s with
  | exportDecl d => simp only [exports, bindings, List.map_map, Function.comp_def]
  | exportNames specifiers source =>
    cases source <;> simp only [exports, bindings, List.map_map, Function.comp_def]
  | exportAll exported source attributes => cases exported <;> rfl
  | exportDefaultFunction f =>
    simp only [exports, bindings]
    cases f.name? <;> rfl
  | exportDefaultClass c =>
    simp only [exports, bindings]
    cases c.name? <;> rfl
  | _ => rfl

namespace Thunk

abbrev Own (δ : Type) := String → Option δ

section Objects

variable {δ : Type} (value : Expr → δ) (passed : Expr → Own δ)

def ownProperty? : Property → Option (String × Expr)
  | .keyValue key isShorthand e =>
    (nameOf? key).bind fun name =>
      if name = "__proto__" && !isShorthand then none else some (name, e)
  | _ => none

def literal (properties : List Property) : Own δ :=
  (properties.filterMap ownProperty?).foldl
    (fun o p => Function.update o p.1 (some (value p.2))) fun _ => none

/-- Sets all properties of an object on another one. -/
def assign (target source : Own δ) : Own δ := fun name =>
  if name = "__proto__" then target name else (source name).or (target name)

def objectOf : Expr → Own δ
  | .object properties => literal value properties
  | e => passed e

def exportsObject (items : List Expr) : Own δ :=
  (items.map (objectOf value passed)).foldl assign fun _ => none

variable {value passed} {name : String} {d : Descriptor} {entries : List (String × Descriptor)}

theorem foldl_assign_proto (maps : List (Own δ)) (target : Own δ) :
    maps.foldl assign target "__proto__" = target "__proto__" := by
  induction maps generalizing target with
  | nil => rfl
  | cons m maps ih => exact (ih (assign target m)).trans (if_pos rfl)

theorem exportsObject_proto (items : List Expr) :
    exportsObject value passed items "__proto__" = none :=
  foldl_assign_proto _ _

theorem foldl_assign_of_none {maps : List (Own δ)} (h : ∀ m ∈ maps, m name = none)
    (target : Own δ) : maps.foldl assign target name = target name := by
  induction maps generalizing target with
  | nil => rfl
  | cons m maps ih =>
    obtain ⟨hm, hmaps⟩ := List.forall_mem_cons.1 h
    rw [List.foldl_cons, ih hmaps, assign, hm, Option.none_or, ite_self]

theorem exportsObject_concat {before after : List Expr} {e : Expr} {v : δ}
    (hn : name ≠ "__proto__") (he : objectOf value passed e name = some v)
    (hafter : ∀ e ∈ after, objectOf value passed e name = none) :
    exportsObject value passed (before ++ e :: after) name = some v := by
  have hnone : ∀ m ∈ after.map (objectOf value passed), m name = none := by
    intro m hm
    obtain ⟨e, he, rfl⟩ := List.mem_map.1 hm
    exact hafter e he
  rw [exportsObject, List.map_append, List.map_cons, List.foldl_append, List.foldl_cons,
    foldl_assign_of_none hnone, assign, if_neg hn, he, Option.some_or]

theorem ownProperty?_property (n : String) (d : Descriptor) :
    ownProperty? (property (n, d)) = if n = "__proto__" then none else some (n, d.toExpr) := by
  simp only [property, ownProperty?, nameOf?_keyOf, Option.bind_some, Bool.not_false,
    Bool.and_true, decide_eq_true_eq]

theorem literal_of_not_mem (h : name ∉ entries.map (·.1)) :
    literal value (entries.map property) name = none := by
  induction entries using List.reverseRecOn with
  | nil => rfl
  | append_singleton entries e ih =>
    obtain ⟨n, d⟩ := e
    rw [List.map_append, List.mem_append, not_or] at h
    obtain ⟨hentries, hn⟩ := h
    have hne : name ≠ n := fun he => hn (he ▸ List.mem_singleton_self _)
    rw [literal, List.map_append, List.filterMap_append, List.foldl_append, List.map_singleton,
      List.filterMap_cons, ownProperty?_property]
    split
    · exact ih hentries
    · next hp =>
      split at hp
      · cases hp
      · obtain rfl := Option.some.inj hp
        exact (Function.update_of_ne hne _ _).trans (ih hentries)

theorem literal_of_mem (hn : name ≠ "__proto__") (hmem : (name, d) ∈ entries)
    (hd : (entries.map (·.1)).Nodup) :
    literal value (entries.map property) name = some (value d.toExpr) := by
  -- from the last entry on, which is the one that counts if it has the name
  induction entries using List.reverseRecOn with
  | nil => cases hmem
  | append_singleton entries e ih =>
    obtain ⟨n, d'⟩ := e
    rw [List.map_append, List.nodup_append] at hd
    obtain ⟨hentries, -, hdisjoint⟩ := hd
    rw [literal, List.map_append, List.filterMap_append, List.foldl_append, List.map_singleton,
      List.filterMap_cons, ownProperty?_property]
    rcases List.mem_append.1 hmem with hmem | hmem
    · have hne : name ≠ n := fun he =>
        hdisjoint name (List.mem_map.2 ⟨_, hmem, rfl⟩) n (List.mem_singleton_self _) he
      split
      · exact ih hmem hentries
      · next hp =>
        split at hp
        · cases hp
        · obtain rfl := Option.some.inj hp
          exact (Function.update_of_ne hne _ _).trans (ih hmem hentries)
    · obtain ⟨rfl, rfl⟩ := Prod.mk.inj (List.mem_singleton.1 hmem)
      rw [if_neg hn]
      exact Function.update_self ..

theorem exportsObject_of_mem (value : Expr → δ) (passed : Expr → Own δ) {body : List Stmt}
    {s : Stmt} {url : String → String} {scope : Scope} {hidden : String → String}
    (passes : List Expr)
    (hnames : (body.flatMap fun s => (s.exports url scope hidden).map (·.1)).Nodup) (hs : s ∈ body)
    (hmem : (name, d) ∈ s.exports url scope hidden) (hn : name ≠ "__proto__") :
    ∃ ps ∈ body.flatMap (objectsOf url scope hidden),
      literal value ps name = some (value d.toExpr) ∧
      exportsObject value passed
        (passes ++ (body.flatMap (objectsOf url scope hidden)).map .object) name =
          some (value d.toExpr) := by
  obtain ⟨before, after, rfl⟩ := List.append_of_mem hs
  rw [List.flatMap_append, List.flatMap_cons, List.nodup_append, List.nodup_append] at hnames
  obtain ⟨-, ⟨hown, -, hdisjoint⟩, -⟩ := hnames
  have hobjects : objectsOf url scope hidden s = [(s.exports url scope hidden).map property] := by
    rw [objectsOf, if_neg]
    intro hempty
    rw [List.isEmpty_iff.1 hempty] at hmem
    cases hmem
  have hliteral : literal value ((s.exports url scope hidden).map property) name =
      some (value d.toExpr) := literal_of_mem hn hmem hown
  rw [List.flatMap_append, List.flatMap_cons, hobjects, List.singleton_append, List.map_append,
    List.map_cons, ← List.append_assoc]
  refine ⟨_, List.mem_append_right _ List.mem_cons_self, hliteral, ?_⟩
  -- no other statement exports the name, so none of the later objects has it
  apply exportsObject_concat (e := .object _) hn hliteral
  intro e he
  obtain ⟨ps, hps, rfl⟩ := List.mem_map.1 he
  obtain ⟨s', hs', hps⟩ := List.mem_flatMap.1 hps
  rw [objectsOf] at hps
  split at hps
  · cases hps
  · obtain rfl := List.mem_singleton.1 hps
    apply literal_of_not_mem
    intro hname
    exact hdisjoint name (List.mem_map.2 ⟨_, hmem, rfl⟩) name
      (List.mem_flatMap.2 ⟨s', hs', hname⟩) rfl

end Objects

section Bodies

variable {δ : Type} {value : Expr → δ} {passed : Expr → Own δ} {origin : String}
  {strategy : LoaderStrategy} {body result : List Stmt} {links links' : Links}

/-- The values that the default exports of a body have. -/
def IsDefault (origin : String) (body : List Stmt) (e : Expr) : Prop :=
  ∃ s ∈ body, ∃ value, s.defaultValue? = some value ∧ e = value.renamed (Url.resolve origin)

theorem exists_of_forall₂ {α β : Type} {R : α → β → Prop} {l : List α} {l' : List β}
    (h : List.Forall₂ R l l') {a : α} (ha : a ∈ l) : ∃ b ∈ l', R a b := by
  induction h with
  | nil => cases ha
  | cons hab _ ih =>
    rcases List.mem_cons.1 ha with rfl | ha
    · exact ⟨_, List.mem_cons_self, hab⟩
    · obtain ⟨b, hb, hr⟩ := ih ha
      exact ⟨b, List.mem_cons_of_mem _ hb, hr⟩

/-- How the exports object describes the entries of an export map. -/
structure Exposure (value : Expr → δ) (passed : Expr → Own δ) (origin : String)
    (strategy : LoaderStrategy) (body : List Stmt) (exports : ExportMap) (ss : List Stmt) :
    Prop where
  own : ∀ name binding, (name, binding) ∈ exports → name ≠ "__proto__" → ∃ ps descriptor,
    .object ps ∈ handedOut ss ∧ literal value ps name = some (value descriptor) ∧
    exportsObject value passed (handedOut ss) name = some (value descriptor) ∧
    Mirrors (Holds strategy ss) (IsDefault origin body) binding descriptor
  proto : exportsObject value passed (handedOut ss) "__proto__" = none

theorem Exposure.compact {exports : ExportMap} {ss : List Stmt}
    (h : Exposure value passed origin strategy body exports ss) :
    Exposure value passed origin strategy body exports (compact ss) := by
  constructor
  · rw [holds_compact, handedOut_compact]
    exact h.own
  · rw [handedOut_compact]
    exact h.proto

theorem exists_export (strategy : LoaderStrategy) {s : Stmt} {name : String} {binding : Binding}
    (hs : s ∈ body) (h : (name, binding) ∈ s.bindings (Url.resolve origin) (Scope.ofBody body)) :
    ∃ d, (name, d) ∈ s.exports (Url.resolve origin) (Scope.ofBody body)
        (fun url => ImportGroup.hiddenName ((importedUrls origin body).idxOf url)) ∧
      Mirrors (Holds strategy ((piecesOf origin ⟨strategy, false⟩ body).statements strategy))
        (IsDefault origin body) binding d.toExpr := by
  have hdefault (value : Expr) (hv : s.defaultValue? = some value) :
      IsDefault origin body (value.renamed (Url.resolve origin)) := ⟨s, hs, value, hv, rfl⟩
  have hentries : List.Forall₂
      (Entry (Holds strategy ((piecesOf origin ⟨strategy, false⟩ body).statements strategy))
        (IsDefault origin body))
      (s.bindings (Url.resolve origin) (Scope.ofBody body))
      ((s.exports (Url.resolve origin) (Scope.ofBody body) fun url =>
        ImportGroup.hiddenName ((importedUrls origin body).idxOf url)).map property) :=
    entries_mirror (fun source hu hn => holds_hiddenName hs hu hn) hdefault
  obtain ⟨p, hp, hentry⟩ := exists_of_forall₂ hentries h
  obtain ⟨⟨n, d⟩, hd, rfl⟩ := List.mem_map.1 hp
  cases hentry with
  | mk hk hmirrors =>
    obtain rfl := Option.some.inj ((nameOf?_keyOf n).symm.trans hk)
    exact ⟨d, hd, hmirrors⟩

/-- Each export of a module but one called `__proto__` is a property of its exports object. -/
theorem ofBody_exposes (value : Expr → δ) (passed : Expr → Own δ) {source : String}
    {program : Program} (hp : Program.parse? source = some program) (ho : origin ∈ links.graph.urls)
    (he : links.graph.exports origin = [])
    (h : ofBody origin ⟨strategy, false⟩ program.body links = (.ok result, links')) :
    Exposure value passed origin strategy program.body (links'.graph.exports origin) result ∧
      Exposure value passed origin strategy program.body (links'.graph.exports origin)
        (compact result) := by
  obtain ⟨-, hquiet⟩ := Program.topLevel_of_parse? hp
  have hnodup := nodup_bindings origin hp
  obtain ⟨rfl, -, -⟩ := ofBody_ok (congrArg Prod.fst h)
  rw [exports_of_parse? hp ho he h]
  suffices hexposure : Exposure value passed origin strategy program.body _ _ from
    ⟨hexposure, hexposure.compact⟩
  constructor
  · intro name binding hmem hn
    obtain ⟨s, hs, hbinding⟩ := List.mem_flatMap.1 hmem
    obtain ⟨d, hd, hmirrors⟩ := exists_export strategy hs hbinding
    rw [List.map_flatMap] at hnodup
    simp only [← Stmt.names_exports _ _ fun url =>
      ImportGroup.hiddenName ((importedUrls origin program.body).idxOf url)] at hnodup
    obtain ⟨ps, hps, hliteral, hobject⟩ := exportsObject_of_mem value passed _ hnodup hs hd hn
    rw [handedOut_statements hquiet]
    exact ⟨ps, _, List.mem_append_right _ (List.mem_map.2 ⟨ps, hps, rfl⟩), hliteral, hobject,
      hmirrors⟩
  · exact exportsObject_proto _

/-- A module with exports of all kinds, where the values of its exports are not told apart. -/
theorem exportingSource_exposes : ∃ program result links',
    Program.parse? exportingSource = some program ∧
      ofBody "/a.js" ⟨.lazy, false⟩ program.body { graph := Graph.empty.add "/a.js" } =
        (.ok result, links') ∧
      (links'.graph.exports "/a.js").map (·.1) = ["x", "z", "v", "default", "q-r", "ns"] ∧
      Exposure (fun _ => ()) (fun _ _ => some ()) "/a.js" .lazy program.body
        (links'.graph.exports "/a.js") result ∧
      Exposure (fun _ => ()) (fun _ _ => some ()) "/a.js" .lazy program.body
        (links'.graph.exports "/a.js") (compact result) := by
  obtain ⟨program, result, links', hp, hr, hnames⟩ := exists_lowered exportingSource "/a.js"
    ["x", "z", "v", "default", "q-r", "ns"] (by decide +kernel)
  obtain ⟨hresult, hcompact⟩ :=
    ofBody_exposes (fun _ => ()) (fun _ _ => some ()) hp (by decide) (by decide) hr
  exact ⟨program, result, links', hp, hr, hnames, hresult, hcompact⟩

def protoSource : String := "const a = 1; export \x7b a as __proto__ \x7d;"

/-- The name is in the export map, and no property of the exports object. -/
theorem protoSource_loses_export : ∃ program result links',
    Program.parse? protoSource = some program ∧
      ofBody "/main.js" ⟨.lazy, false⟩ program.body { graph := Graph.empty.add "/main.js" } =
        (.ok result, links') ∧
      (links'.graph.exports "/main.js").map (·.1) = ["__proto__"] ∧
      ∀ (δ : Type) (value : Expr → δ) (passed : Expr → Own δ),
        exportsObject value passed (handedOut result) "__proto__" = none := by
  obtain ⟨program, result, links', hp, hr, hnames⟩ :=
    exists_lowered protoSource "/main.js" ["__proto__"] (by decide +kernel)
  exact ⟨program, result, links', hp, hr, hnames, fun _ _ _ => exportsObject_proto _⟩

end Bodies

end Thunk

end ScriptBundler
