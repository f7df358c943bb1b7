import Mathlib.Data.List.Flatten
import ScriptBundler.Proofs.Syntax.Names
import ScriptBundler.Proofs.Thunk.Exports
import ScriptBundler.Proofs.Thunk.HandedOut
import ScriptBundler.Proofs.Thunk.Lowering

namespace ScriptBundler.Thunk

/-- The local of a body that is declared as the exports object of the module at `url`. -/
def Holds (strategy : LoaderStrategy) (ss : List Stmt) (url localName : String) : Prop :=
  .declares .constKind (.mk (.name localName) (some (includeExpr strategy url))) ∈ trace ss

/-- An expression that reads a property of a local. -/
inductive Reads (localName name : String) : Expr → Prop where
  | member : Reads localName name (.member (.ident localName) name)
  | index : Reads localName name (.index (.ident localName) (.string name))

/--
The descriptors that mirror a binding, where `holds` says which locals hold the exports of a url,
and `isDefault` which value the default export has.
-/
inductive Mirrors (holds : String → String → Prop) (isDefault : Expr → Prop) :
    Binding → Expr → Prop where
  | mutable {l param : String} (h : param ≠ l) :
    Mirrors holds isDefault ⟨.localName l, true⟩ (.object
      [named "get" (.lambda [] (.ident l)),
        named "set" (.lambda [.name param] (.assign none (.name l) (.ident param))),
        named "enumerable" (.bool true)])
  | immutable (l : String) :
    Mirrors holds isDefault ⟨.localName l, false⟩ (.object
      [named "get" (.lambda [] (.ident l)), named "enumerable" (.bool true)])
  | reexport {url name l : String} {e : Expr} (hl : holds url l) (he : Reads l name e) :
    Mirrors holds isDefault ⟨.reexport url name, false⟩ (.object
      [named "get" (.lambda [] e), named "enumerable" (.bool true)])
  | star {url l : String} (hl : holds url l) :
    Mirrors holds isDefault ⟨.star url, false⟩ (.object
      [named "value" (.ident l), named "enumerable" (.bool true)])
  | default {e : Expr} (he : isDefault e) :
    Mirrors holds isDefault ⟨.defaultExpression, false⟩ (.object
      [named "value" e, named "enumerable" (.bool true)])

def nameOf? : Key → Option String
  | .ident name => some name
  | .string value false => some value
  | _ => none

/-- The property that hands out an entry of an export map. -/
inductive Entry (holds : String → String → Prop) (isDefault : Expr → Prop) :
    String × Binding → Property → Prop where
  | mk {name : String} {binding : Binding} {key : Key} {descriptor : Expr}
      (hk : nameOf? key = some name) (hd : Mirrors holds isDefault binding descriptor) :
    Entry holds isDefault (name, binding) (.keyValue key false descriptor)

section Entries

variable {name : String → String} {scope : Scope} {hidden : String → String} {s : Stmt}
  {holds : String → String → Prop} {isDefault : Expr → Prop}

theorem nameOf?_keyOf (name : String) : nameOf? (keyOf name) = some name := by
  rw [keyOf]
  split <;> rfl

theorem reads_propertyOf (l name : String) : Reads l name (propertyOf (.ident l) name) := by
  rw [propertyOf]
  split
  · exact .member
  · exact .index

theorem parameter_ne (l : String) : Descriptor.parameter l ≠ l := by
  rw [Descriptor.parameter]
  split
  · next h =>
    subst h
    decide
  · next h => exact Ne.symm h

theorem binding_mirrors (l : String) (isMutable : Bool) :
    Mirrors holds isDefault ⟨.localName l, isMutable⟩ (Descriptor.binding l isMutable).toExpr := by
  cases isMutable with
  | true => exact .mutable (parameter_ne l)
  | false => exact .immutable l

def property : String × Descriptor → Property
  | (name, d) => .keyValue (keyOf name) false d.toExpr

theorem entry_property {n : String} {binding : Binding} {d : Descriptor}
    (h : Mirrors holds isDefault binding d.toExpr) :
    Entry holds isDefault (n, binding) (property (n, d)) :=
  .mk (nameOf?_keyOf n) h

theorem entries_map {α : Type} {l : List α} {f : α → String × Binding}
    {g : α → String × Descriptor} (h : ∀ a, Entry holds isDefault (f a) (property (g a))) :
    List.Forall₂ (Entry holds isDefault) (l.map f) ((l.map g).map property) := by
  rw [List.map_map, List.forall₂_map_left_iff, List.forall₂_map_right_iff]
  exact List.forall₂_same.2 fun a _ => h a

theorem entries_mirror
    (hheld : ∀ source, s.source? = some source → (∀ d, s ≠ .importDecl d) →
      holds (name source) (hidden (name source)))
    (hdefault : ∀ value, s.defaultValue? = some value → isDefault (value.renamed name)) :
    List.Forall₂ (Entry holds isDefault) (s.bindings name scope)
      ((s.exports name scope hidden).map property) := by
  cases s with
  | exportDecl d => exact entries_map fun n => entry_property (binding_mirrors n _)
  | exportNames specifiers source =>
    cases source with
    | some source =>
      have hl := hheld source rfl nofun
      exact entries_map fun s => entry_property (.reexport hl (reads_propertyOf _ _))
    | none => exact entries_map fun s => entry_property (binding_mirrors _ _)
  | exportAll exported source attributes =>
    cases exported with
    | some exported => exact .cons (entry_property (.star (hheld source rfl nofun))) .nil
    | none => exact .nil
  | exportDefaultFunction f =>
    cases hn : f.name? with
    | some n =>
      simp only [Stmt.bindings, Stmt.exports, hn]
      exact .cons (entry_property (binding_mirrors n false)) .nil
    | none =>
      simp only [Stmt.bindings, Stmt.exports, hn]
      exact .cons (entry_property (.default (hdefault _ (by simp [hn])))) .nil
  | exportDefaultClass c =>
    cases hn : c.name? with
    | some n =>
      simp only [Stmt.bindings, Stmt.exports, hn]
      exact .cons (entry_property (binding_mirrors n false)) .nil
    | none =>
      simp only [Stmt.bindings, Stmt.exports, hn]
      exact .cons (entry_property (.default (hdefault _ (by simp [hn])))) .nil
  | exportDefault e => exact .cons (entry_property (.default (hdefault e rfl))) .nil
  | _ => exact .nil

end Entries

section Bodies

variable {origin : String} {strategy : LoaderStrategy} {scope : Scope} {hidden : String → String}
  {name : String → String} {s : Stmt}

def objectsOf (name : String → String) (scope : Scope) (hidden : String → String) (s : Stmt) :
    List (List Property) :=
  if (s.exports name scope hidden).isEmpty then []
  else [(s.exports name scope hidden).map property]

theorem flatten_objectsOf :
    (objectsOf name scope hidden s).flatten = (s.exports name scope hidden).map property := by
  rw [objectsOf]
  split
  · next h => rw [List.isEmpty_iff.1 h]; rfl
  · exact List.flatten_singleton

theorem handedOut_published : handedOut (s.published name false scope hidden) =
    (objectsOf name scope hidden s).map .object := by
  rw [Stmt.published, objectsOf]
  cases (s.exports name scope hidden).isEmpty <;> rfl

theorem handedOut_kept (h : s.IsQuiet) : handedOut (s.kept name false) = [] := by
  refine handedOut_eq_nil fun t ht => ?_
  rw [Stmt.kept, if_neg Bool.false_ne_true, List.append_nil, Option.mem_toList,
    Option.map_eq_some_iff] at ht
  obtain ⟨s', hs', rfl⟩ := ht
  refine Stmt.IsQuiet.renamed ?_
  cases s with
  | expr e =>
    obtain rfl := Option.some.inj hs'
    exact h
  | exportDecl d =>
    rw [Stmt.stripped?] at hs'
    split at hs'
    · cases hs'
    · obtain rfl := Option.some.inj hs'
      exact True.intro
  | exportDefaultFunction f =>
    obtain ⟨_, -, rfl⟩ := Option.map_eq_some_iff.1 hs'
    exact True.intro
  | exportDefaultClass c =>
    obtain ⟨_, -, rfl⟩ := Option.map_eq_some_iff.1 hs'
    exact True.intro
  | importDecl _ | exportNames _ _ | exportAll _ _ _ | exportDefault _ => cases hs'
  | _ =>
    obtain rfl := Option.some.inj hs'
    exact h

def passedUrl? (origin : String) : Stmt → Option String
  | .exportAll none source _ => some (Url.resolve origin source)
  | _ => none

/-- What is handed out for all exports of the object called `l`. -/
def PassesOn (l : String) (item : Expr) : Prop := passThrough l = .expr (.yield (some item))

theorem passed_passesOn {holds : String → String → Prop}
    (hheld : ∀ source, s.source? = some source → (∀ d, s ≠ .importDecl d) →
      holds (Url.resolve origin source) (hidden (Url.resolve origin source))) :
    List.Forall₂ (fun url item => ∃ l, holds url l ∧ PassesOn l item) (passedUrl? origin s).toList
      (handedOut (s.passed (Url.resolve origin) false hidden)) := by
  cases s with
  | exportAll exported source attributes =>
    cases exported with
    | some _ => exact .nil
    | none => exact .cons ⟨_, hheld source rfl nofun, rfl⟩ .nil
  | _ => exact .nil

end Bodies

/-- How a body hands out the exports of a module. -/
structure Publication (origin : String) (strategy : LoaderStrategy) (body : List Stmt)
    (exports : ExportMap) (ss : List Stmt) : Prop where
  items : ∃ (passes : List Expr) (objects : List (List Property)),
    handedOut ss = passes ++ objects.map .object ∧
    List.Forall₂ (fun url item => ∃ l, Holds strategy ss url l ∧ PassesOn l item)
      (body.filterMap (passedUrl? origin)) passes ∧
    List.Forall₂ (Entry (Holds strategy ss) fun e => ∃ s ∈ body, ∃ value,
      s.defaultValue? = some value ∧ e = value.renamed (Url.resolve origin)) exports objects.flatten
  declarations : ∀ d, .exportDecl d ∈ body → (∀ n, n ∈ d.names ↔ d.Binds n) ∧
    ∃ before after,
      exports = before ++ d.names.map (fun n => (n, ⟨.localName n, d.isMutable⟩)) ++ after

section Publish

variable {origin : String} {style : Style} {strategy : LoaderStrategy} {body result : List Stmt}
  {links links' : Links}

theorem holds_compact (ss : List Stmt) : Holds strategy (compact ss) = Holds strategy ss := by
  funext url l
  rw [Holds, Holds, trace_compact]

theorem handedOut_compact (ss : List Stmt) : handedOut (compact ss) = handedOut ss := by
  rw [handedOut, handedOut, trace_compact]

theorem Publication.compact {exports : ExportMap} {ss : List Stmt}
    (h : Publication origin strategy body exports ss) :
    Publication origin strategy body exports (compact ss) := by
  refine ⟨?_, h.declarations⟩
  rw [holds_compact, handedOut_compact]
  exact h.items

theorem forall₂_flatMap {α β γ : Type} {l : List α} {f : α → List β} {g : α → List γ}
    {R : β → γ → Prop} (h : ∀ a ∈ l, List.Forall₂ R (f a) (g a)) :
    List.Forall₂ R (l.flatMap f) (l.flatMap g) := by
  have hself : List.Forall₂ (fun a b => a = b ∧ a ∈ l) l l :=
    List.forall₂_same.2 fun a ha => ⟨rfl, ha⟩
  refine List.rel_flatMap hself ?_
  rintro a _ ⟨rfl, ha⟩
  exact h a ha

theorem holds_hiddenName {s : Stmt} {source : String} (hs : s ∈ body)
    (hu : s.source? = some source) (hn : ∀ d, s ≠ .importDecl d) :
    Holds strategy ((piecesOf origin ⟨strategy, false⟩ body).statements strategy)
      (Url.resolve origin source)
      (ImportGroup.hiddenName ((importedUrls origin body).idxOf (Url.resolve origin source))) := by
  have hurl : s.sourceUrl? origin = some (Url.resolve origin source) := by
    rw [Stmt.sourceUrl?, hu, Option.map_some]
  have hreexported : Url.resolve origin source ∈ reexportedUrls origin body := by
    refine List.mem_filterMap.2 ⟨s, hs, ?_⟩
    cases s with
    | importDecl d => exact absurd rfl (hn d)
    | _ => exact hurl
  have hmem : Url.resolve origin source ∈ importedUrls origin body := by
    rw [importedUrls, mem_distinct]
    exact List.mem_filterMap.2 ⟨s, hs, hurl⟩
  have hhidden : (groupOf origin false ((importedUrls origin body).idxOf ·)
      (Url.resolve origin source) body).hidden = _ :=
    hidden_groupOf.trans (if_pos ⟨rfl, hreexported⟩)
  refine List.mem_flatMap.2 ⟨_, List.mem_append_left _ (List.mem_append_left _
    (List.mem_map.2 ⟨_, List.mem_map.2 ⟨_, hmem, rfl⟩, rfl⟩)), ?_⟩
  simp only [ImportGroup.toStmt, ImportGroup.declarators, hhidden]
  rw [Stmt.events_vars rfl, List.map_cons]
  exact List.mem_cons_self

theorem handedOut_statements (hq : ∀ s ∈ body, s.IsQuiet) :
    handedOut ((piecesOf origin ⟨strategy, false⟩ body).statements strategy) =
      (body.flatMap fun s => handedOut (s.passed (Url.resolve origin) false fun url =>
        ImportGroup.hiddenName ((importedUrls origin body).idxOf url))) ++
      (body.flatMap (objectsOf (Url.resolve origin) (Scope.ofBody body) fun url =>
        ImportGroup.hiddenName ((importedUrls origin body).idxOf url))).map .object := by
  have himports (l : List (String × ImportGroup)) :
      handedOut (l.map fun p => p.2.toStmt (includeExpr strategy p.1)) = [] := by
    refine handedOut_eq_nil fun s hs => ?_
    obtain ⟨⟨url, g⟩, -, rfl⟩ := List.mem_map.1 hs
    exact True.intro
  rw [Pieces.statements, handedOut_append, handedOut_append, himports, List.nil_append, piecesOf,
    Pieces.ofBody, handedOut_flatMap, handedOut_flatMap, List.map_flatMap]
  congr 1
  refine List.flatMap_congr fun s hs => ?_
  rw [handedOut_append, handedOut_kept (hq s hs), handedOut_published, List.nil_append]

theorem nodup_bindings (origin : String) {source : String} {program : Program}
    (hp : Program.parse? source = some program) : ((program.body.flatMap
      (Stmt.bindings (Url.resolve origin) (Scope.ofBody program.body))).map (·.1)).Nodup := by
  obtain ⟨hnames, -⟩ := Program.topLevel_of_parse? hp
  rw [List.map_flatMap]
  exact List.Nodup.sublist (.flatMap_right _ fun s _ => s.names_bindings _ _) hnames

/-- The export map of a module that had no exports before. -/
theorem exports_of_parse? {source : String} {program : Program}
    (hp : Program.parse? source = some program) (ho : origin ∈ links.graph.urls)
    (he : links.graph.exports origin = [])
    (h : ofBody origin style program.body links = (.ok result, links')) :
    links'.graph.exports origin =
      program.body.flatMap (Stmt.bindings (Url.resolve origin) (Scope.ofBody program.body)) := by
  have hexports := exports_ofBody ho (congrArg Prod.fst h)
  rw [h, he, ExportMap.record_nil (nodup_bindings origin hp)] at hexports
  exact hexports

theorem ofBody_publishes {source : String} {program : Program}
    (hp : Program.parse? source = some program) (ho : origin ∈ links.graph.urls)
    (he : links.graph.exports origin = [])
    (h : ofBody origin ⟨strategy, false⟩ program.body links = (.ok result, links')) :
    Publication origin strategy program.body (links'.graph.exports origin) result ∧
      Publication origin strategy program.body (links'.graph.exports origin) (compact result) := by
  obtain ⟨-, hquiet⟩ := Program.topLevel_of_parse? hp
  obtain ⟨rfl, -, -⟩ := ofBody_ok (congrArg Prod.fst h)
  rw [exports_of_parse? hp ho he h]
  suffices hpub : Publication origin strategy program.body _ _ from ⟨hpub, hpub.compact⟩
  refine ⟨⟨_, _, handedOut_statements hquiet, ?_, ?_⟩, fun d hd => ⟨fun n => d.mem_names_iff, ?_⟩⟩
  · rw [List.filterMap_eq_flatMap_toList]
    exact forall₂_flatMap fun s hs => passed_passesOn fun source hu hn => holds_hiddenName hs hu hn
  · rw [← List.flatMap_id, List.flatMap_assoc]
    refine forall₂_flatMap fun s hs => ?_
    rw [List.flatMap_id, flatten_objectsOf]
    exact entries_mirror (fun source hu hn => holds_hiddenName hs hu hn)
      fun value hv => ⟨s, hs, value, hv, rfl⟩
  · obtain ⟨before, after, hbody⟩ := List.append_of_mem hd
    rw [hbody, List.flatMap_append, List.flatMap_cons, ← List.append_assoc]
    exact ⟨_, _, rfl⟩

theorem exists_lowered (source origin : String) (names : List String)
    (h : ((Program.parse? source).map fun program =>
      let lowered := ofBody origin ⟨.lazy, false⟩ program.body { graph := Graph.empty.add origin }
      (lowered.1.isOk, (lowered.2.graph.exports origin).map (·.1))) = some (true, names)) :
    ∃ program result links', Program.parse? source = some program ∧
      ofBody origin ⟨.lazy, false⟩ program.body { graph := Graph.empty.add origin } =
        (.ok result, links') ∧ (links'.graph.exports origin).map (·.1) = names := by
  obtain ⟨program, hp, hrun⟩ := Option.map_eq_some_iff.1 h
  obtain ⟨hok, hnames⟩ := Prod.mk.inj hrun
  rcases hr : ofBody origin ⟨.lazy, false⟩ program.body { graph := Graph.empty.add origin } with
    ⟨e | result, links'⟩
  · rw [hr] at hok
    cases hok
  · rw [hr] at hnames
    exact ⟨program, result, links', hp, hr, hnames⟩

end Publish

def exportingSource : String :=
  "import a from './b.js'; export * from './c.js'; export let \x7bx, y: [z, ...v]\x7d = a;" ++
    "export default a + 1; export \x7bp as 'q-r'\x7d from './d.js'; export * as ns from './c.js'"

theorem exportingSource_publishes : ∃ program result links',
    Program.parse? exportingSource = some program ∧
      ofBody "/a.js" ⟨.lazy, false⟩ program.body { graph := Graph.empty.add "/a.js" } =
        (.ok result, links') ∧
      (links'.graph.exports "/a.js").map (·.1) = ["x", "z", "v", "default", "q-r", "ns"] ∧
      Publication "/a.js" .lazy program.body (links'.graph.exports "/a.js") result ∧
      Publication "/a.js" .lazy program.body (links'.graph.exports "/a.js") (compact result) := by
  obtain ⟨program, result, links', hp, hr, hnames⟩ := exists_lowered exportingSource "/a.js"
    ["x", "z", "v", "default", "q-r", "ns"] (by decide +kernel)
  obtain ⟨hresult, hcompact⟩ := ofBody_publishes hp (by decide) (by decide) hr
  exact ⟨program, result, links', hp, hr, hnames, hresult, hcompact⟩

end ScriptBundler.Thunk
