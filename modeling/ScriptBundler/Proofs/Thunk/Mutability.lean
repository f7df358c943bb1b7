import ScriptBundler.Proofs.Syntax.Hoisting
import ScriptBundler.Proofs.Syntax.Names
import ScriptBundler.Proofs.Thunk.Awaits
import ScriptBundler.Proofs.Thunk.Exports
import ScriptBundler.Proofs.Thunk.Hygiene

namespace ScriptBundler

open Node

namespace ExportMap

theorem mem_of_mem_insert {m : ExportMap} {name : String} {binding : Binding}
    {e : String × Binding} (h : e ∈ m.insert name binding) : e = (name, binding) ∨ e ∈ m := by
  induction m with
  | nil => exact .inl (List.mem_singleton.1 h)
  | cons e' m ih =>
    rw [insert] at h
    split at h
    · next hname =>
      rw [hname] at h
      exact (List.mem_cons.1 h).imp_right (List.mem_cons_of_mem _)
    · rcases List.mem_cons.1 h with rfl | h
      · exact .inr List.mem_cons_self
      · exact (ih h).imp_right (List.mem_cons_of_mem _)

theorem mem_of_mem_record {m entries : ExportMap} {e : String × Binding}
    (h : e ∈ m.record entries) : e ∈ m ∨ e ∈ entries := by
  induction entries generalizing m with
  | nil => exact .inl h
  | cons e' entries ih =>
    rcases ih h with h | h
    · rcases mem_of_mem_insert h with rfl | h
      · exact .inr List.mem_cons_self
      · exact .inl h
    · exact .inr (List.mem_cons_of_mem _ h)

end ExportMap

namespace Thunk

namespace Scope

variable {name : String}

theorem mem_mutableNames_note (n : Node) (st : Scope) :
    name ∈ ((n.note visitor).run st).2.mutableNames ↔
      name ∈ st.mutableNames ∨ name ∈ n.ownVarNames := by
  have hnone {names : List String} : name ∈ names ↔ name ∈ names ∨ name ∈ ([] : List String) := by
    rw [or_iff_left List.not_mem_nil]
  cases n with
  | decl d =>
    cases d with
    | vars kind ds => cases kind <;> first | exact List.mem_append | exact hnone
    | _ => exact hnone
  | head h =>
    cases h with
    | vars kind ds => cases kind <;> first | exact List.mem_append | exact hnone
    | _ => exact hnone
  | stmt s =>
    cases s with
    | forOf isAwait left right body => cases isAwait <;> exact hnone
    | _ => exact hnone
  | _ => exact hnone

theorem not_hoists_of_isScope {n : Node} (hs : n.isScope = true) :
    ¬ ∃ inside, Hoists name inside n := by
  rintro ⟨inside, h⟩
  cases h with
  | here h => cases n <;> first | cases h | cases hs
  | part hs' hm h =>
    rw [hs] at hs'
    cases hs'

theorem exists_hoists_iff {n : Node} (hs : n.isScope = false) :
    (∃ inside, Hoists name inside n) ↔
      name ∈ n.ownVarNames ∨ ∃ m ∈ n.parts, ∃ inside, Hoists name inside m := by
  constructor
  · rintro ⟨inside, h⟩
    cases h with
    | here h => exact .inl h
    | part hs' hm h => exact .inr ⟨_, hm, _, h⟩
  · rintro (h | ⟨m, hm, inside, h⟩)
    · exact ⟨false, .here h⟩
    · exact ⟨_, .part hs hm h⟩

/-- A walk takes down each name that a `var` declares outside of functions. -/
theorem mem_mutableNames_walk (n : Node) (st : Scope) :
    name ∈ ((n.walk visitor).run st).2.mutableNames ↔
      name ∈ st.mutableNames ∨ ∃ inside, Hoists name inside n := by
  induction n using parts_induction generalizing st with
  | node n ih =>
    cases hs : n.isScope with
    | true =>
      rw [walk_of_isScope hs, or_iff_left (not_hoists_of_isScope hs)]
      rfl
    | false =>
      rcases run_walk n hs st with ⟨-, ⟨place, e, rfl⟩, hrun⟩ | ⟨-, hrun⟩
      · have hnot : ¬ ∃ inside, Hoists name inside (.expr place e) := by
          rintro ⟨inside, h⟩
          exact not_hoists_of_isValue rfl h
        rw [hrun, or_iff_left hnot]
      · rw [hrun, walkAll_collects (P := fun st : Scope => name ∈ st.mutableNames) ih,
          mem_mutableNames_note, exists_hoists_iff hs, or_assoc]

theorem mem_mutableNames_iff (body : List Stmt) :
    name ∈ (Scope.ofBody body).mutableNames ↔
      name ∈ body.flatMap letNames ∨ ∃ s ∈ body, ∃ inside, Hoists name inside (.stmt s) := by
  have hscan : (Scope.ofBody body).mutableNames =
      body.flatMap letNames ++ ((walkAll visitor (body.map .stmt)).run {}).2.mutableNames := by
    rw [← stmts_walk]
    rfl
  rw [hscan, List.mem_append,
    walkAll_collects (P := fun st : Scope => name ∈ st.mutableNames)
      fun n _ => mem_mutableNames_walk n]
  simp only [List.not_mem_nil, false_or, List.mem_map, exists_exists_and_eq_and]

end Scope

variable {origin name localName : String} {style : Style} {body result : List Stmt} {links : Links}
  {isMutable : Bool} {s : Stmt}

/-- A `let` at the top level declares the name, exported or not. -/
def DeclaredByLet (body : List Stmt) (name : String) : Prop :=
  ∃ ds, (.decl (.vars .letKind ds) ∈ body ∨ .exportDecl (.vars .letKind ds) ∈ body) ∧
    (Decl.vars .letKind ds).Binds name

def IsVariable (body : List Stmt) (name : String) : Prop :=
  DeclaredByLet body name ∨ name ∈ body.flatMap Stmt.varNames

/-- The name is that of a variable of a namespace. -/
def InNamespace (body : List Stmt) (name : String) : Prop :=
  ∃ s ∈ body, Hoists name true (.stmt s)

theorem mem_letNames_iff : name ∈ body.flatMap Scope.letNames ↔ DeclaredByLet body name := by
  constructor
  · intro h
    obtain ⟨s, hs, hn⟩ := List.mem_flatMap.1 h
    unfold Scope.letNames at hn
    split at hn
    · exact ⟨_, .inl hs, Decl.mem_names_iff.1 hn⟩
    · exact ⟨_, .inr hs, Decl.mem_names_iff.1 hn⟩
    · cases hn
  · rintro ⟨ds, hs | hs, hb⟩
    · exact List.mem_flatMap.2 ⟨_, hs, Decl.mem_names_iff.2 hb⟩
    · exact List.mem_flatMap.2 ⟨_, hs, Decl.mem_names_iff.2 hb⟩

/-- The scan takes the variables of namespaces for those of the module. -/
theorem contains_mutableNames_iff : (Scope.ofBody body).mutableNames.contains name = true ↔
    IsVariable body name ∨ InNamespace body name := by
  rw [List.contains_iff_mem, Scope.mem_mutableNames_iff, mem_letNames_iff, IsVariable, or_assoc]
  apply or_congr_right
  constructor
  · rintro ⟨s, hs, _ | _, h⟩
    · exact .inl (List.mem_flatMap.2 ⟨s, hs, hoists_iff.1 h⟩)
    · exact .inr ⟨s, hs, h⟩
  · rintro (h | ⟨s, hs, h⟩)
    · obtain ⟨s, hs, hn⟩ := List.mem_flatMap.1 h
      exact ⟨s, hs, false, hoists_iff.2 hn⟩
    · exact ⟨s, hs, true, h⟩

/-- How a statement exports a local, and whether it can be assigned to. -/
inductive ExportsLocal (scope : Scope) : Stmt → String → String → Bool → Prop where
  | declaration {d : Decl} {n : String} (h : n ∈ d.names) :
      ExportsLocal scope (.exportDecl d) n n d.isMutable
  | specifier {specifiers : List ExportSpecifier} {s : ExportSpecifier} (h : s ∈ specifiers) :
      ExportsLocal scope (.exportNames specifiers none) s.exported.text s.localName.text
        (scope.mutableNames.contains s.localName.text)
  | function {f : Function} {n : String} (h : f.name? = some n) :
      ExportsLocal scope (.exportDefaultFunction f) "default" n false
  | classDef {c : Class} {n : String} (h : c.name? = some n) :
      ExportsLocal scope (.exportDefaultClass c) "default" n false

theorem exportsLocal_of_mem_bindings {scope : Scope} {f : String → String}
    (h : (name, ⟨.localName localName, isMutable⟩) ∈ s.bindings f scope) :
    ExportsLocal scope s name localName isMutable := by
  cases s with
  | exportDecl d =>
    obtain ⟨n, hn, he⟩ := List.mem_map.1 h
    cases he
    exact .declaration hn
  | exportNames specifiers source =>
    cases source with
    | some source =>
      obtain ⟨specifier, hs, he⟩ := List.mem_map.1 h
      cases he
    | none =>
      obtain ⟨specifier, hs, he⟩ := List.mem_map.1 h
      cases he
      exact .specifier hs
  | exportAll exported source attributes =>
    cases exported with
    | some exported => cases List.mem_singleton.1 h
    | none => cases h
  | exportDefaultFunction f =>
    cases hf : f.name? with
    | some n =>
      simp only [Stmt.bindings, hf] at h
      cases List.mem_singleton.1 h
      exact .function hf
    | none =>
      simp only [Stmt.bindings, hf] at h
      cases List.mem_singleton.1 h
  | exportDefaultClass c =>
    cases hc : c.name? with
    | some n =>
      simp only [Stmt.bindings, hc] at h
      cases List.mem_singleton.1 h
      exact .classDef hc
    | none =>
      simp only [Stmt.bindings, hc] at h
      cases List.mem_singleton.1 h
  | exportDefault e => cases List.mem_singleton.1 h
  | _ => cases h

theorem ExportsLocal.mem_exports {scope : Scope} (f hidden : String → String)
    (h : ExportsLocal scope s name localName isMutable) :
    (name, .binding localName isMutable) ∈ s.exports f scope hidden := by
  cases h with
  | declaration h => exact List.mem_map_of_mem h
  | specifier h => exact List.mem_map_of_mem h
  | function h =>
    rw [Stmt.exports, h]
    exact List.mem_singleton_self _
  | classDef h =>
    rw [Stmt.exports, h]
    exact List.mem_singleton_self _

/-- Where names are declared once, only `let` declares a variable lexically. -/
theorem IsVariable.eq_let (h : IsVariable body name) (hu : (scopeNames body).Nodup) (hs : s ∈ body)
    (hn : name ∈ s.lexicalNames) :
    ∃ ds, s = .decl (.vars .letKind ds) ∨ s = .exportDecl (.vars .letKind ds) := by
  obtain ⟨hlexical, -, hdisjoint⟩ := List.nodup_append.1 hu
  have hunique {s' : Stmt} (hs' : s' ∈ body) (hn' : name ∈ s'.lexicalNames) : s = s' := by
    by_contra hne
    have hpairs := (List.nodup_flatMap.1 hlexical).2
    have hsymm : Std.Symm (Function.onFun List.Disjoint Stmt.lexicalNames) :=
      ⟨fun _ _ h => List.disjoint_symm h⟩
    exact hpairs.forall hs hs' hne hn hn'
  rcases h with ⟨ds, hd | hd, hb⟩ | h
  · exact ⟨ds, .inl (hunique hd (Decl.mem_names_iff.2 hb))⟩
  · exact ⟨ds, .inr (hunique hd (Decl.mem_names_iff.2 hb))⟩
  · exact absurd rfl (hdisjoint name (List.mem_flatMap.2 ⟨s, hs, hn⟩) name h)

theorem not_isVariable (hu : (scopeNames body).Nodup) (hs : s ∈ body) (hn : name ∈ s.lexicalNames)
    (hdecl : ∀ ds, s ≠ .decl (.vars .letKind ds))
    (hexport : ∀ ds, s ≠ .exportDecl (.vars .letKind ds)) : ¬ IsVariable body name := by
  intro hv
  obtain ⟨ds, he | he⟩ := hv.eq_let hu hs hn
  · exact hdecl ds he
  · exact hexport ds he

theorem ExportsLocal.isMutable_iff (h : ExportsLocal (Scope.ofBody body) s name localName isMutable)
    (hu : (scopeNames body).Nodup) (hs : s ∈ body) (hn : ¬ InNamespace body localName) :
    isMutable = true ↔ IsVariable body localName := by
  cases h with
  | @declaration d _ h =>
    have hconst (hl : name ∈ (Stmt.exportDecl d).lexicalNames)
        (hne : ∀ ds, d ≠ .vars .letKind ds) : ¬ IsVariable body name :=
      not_isVariable hu hs hl nofun fun ds he => hne ds (Stmt.exportDecl.inj he)
    cases d with
    | vars kind ds =>
      cases kind with
      | letKind => exact iff_of_true rfl (.inl ⟨ds, .inr hs, Decl.mem_names_iff.1 h⟩)
      | varKind => exact iff_of_true rfl (.inr (List.mem_flatMap.2 ⟨_, hs, h⟩))
      | _ => exact iff_of_false Bool.false_ne_true (hconst h nofun)
    | _ => exact iff_of_false Bool.false_ne_true (hconst h nofun)
  | specifier h => rw [contains_mutableNames_iff, or_iff_left hn]
  | function h =>
    have hconst := not_isVariable hu hs (Option.mem_toList.2 h) nofun nofun
    exact iff_of_false Bool.false_ne_true hconst
  | classDef h =>
    have hconst := not_isVariable hu hs (Option.mem_toList.2 h) nofun nofun
    exact iff_of_false Bool.false_ne_true hconst

/-- How a lowered module tells of its exported locals whether they can be assigned to. -/
structure FlagsVariables (origin : String) (style : Style) (body result : List Stmt)
    (links : Links) : Prop where
  flag : ∀ name localName isMutable, (name, ⟨.localName localName, isMutable⟩) ∈
    (ofBody origin style body links).2.graph.exports origin → ¬ InNamespace body localName →
      (isMutable = true ↔ IsVariable body localName)
  agree : ∀ name name' localName isMutable isMutable',
    (name, ⟨.localName localName, isMutable⟩) ∈
      (ofBody origin style body links).2.graph.exports origin →
    (name', ⟨.localName localName, isMutable'⟩) ∈
      (ofBody origin style body links).2.graph.exports origin →
    ¬ InNamespace body localName → isMutable = isMutable'
  published : style.bare = false → ∀ name localName isMutable,
    (name, ⟨.localName localName, isMutable⟩) ∈
      (ofBody origin style body links).2.graph.exports origin →
    ∃ exports, publish exports ∈ result ∧ (name, .binding localName isMutable) ∈ exports

theorem ofBody_flagsVariables (ho : origin ∈ links.graph.urls)
    (he : links.graph.exports origin = []) (hu : (scopeNames body).Nodup)
    (h : (ofBody origin style body links).1 = .ok result) :
    FlagsVariables origin style body result links := by
  have hlocal {name localName : String} {isMutable : Bool}
      (hm : (name, ⟨.localName localName, isMutable⟩) ∈
        (ofBody origin style body links).2.graph.exports origin) :
      ∃ s ∈ body, ExportsLocal (Scope.ofBody body) s name localName isMutable := by
    rw [exports_ofBody ho h, he] at hm
    have hentry := (ExportMap.mem_of_mem_record hm).resolve_left List.not_mem_nil
    obtain ⟨s, hs, hb⟩ := List.mem_flatMap.1 hentry
    exact ⟨s, hs, exportsLocal_of_mem_bindings hb⟩
  have hflag : ∀ name localName isMutable, (name, ⟨.localName localName, isMutable⟩) ∈
      (ofBody origin style body links).2.graph.exports origin → ¬ InNamespace body localName →
        (isMutable = true ↔ IsVariable body localName) := by
    intro name localName isMutable hm hn
    obtain ⟨s, hs, hexports⟩ := hlocal hm
    exact hexports.isMutable_iff hu hs hn
  constructor
  · exact hflag
  · intro name name' localName isMutable isMutable' hm hm' hn
    rw [Bool.eq_iff_iff, hflag _ _ _ hm hn, hflag _ _ _ hm' hn]
  · intro hbare name localName isMutable hm
    obtain ⟨s, hs, hexports⟩ := hlocal hm
    obtain ⟨imports, passThroughs, rest, rfl, hp⟩ := ofBody_partition h
    let hidden := fun url => ImportGroup.hiddenName ((importedUrls origin body).idxOf url)
    have hmem := hexports.mem_exports (Url.resolve origin) hidden
    refine ⟨_, ?_, hmem⟩
    rw [hp.remains]
    apply List.mem_append_right
    refine List.mem_flatMap.2 ⟨s, hs, List.mem_append_right _ ?_⟩
    have hnonempty :
        (!(s.exports (Url.resolve origin) (Scope.ofBody body) hidden).isEmpty) = true := by
      rw [Bool.not_eq_true', List.isEmpty_eq_false_iff]
      exact List.ne_nil_of_mem hmem
    rw [Stmt.published, hbare, hnonempty]
    exact List.mem_singleton_self _

def variablesBody : List Stmt := [
  .exportDecl (.vars .letKind [.mk (.object [.keyed (.ident "p") false (.array [.name "a"])])
    (some (.ident "source"))]),
  .forOf false (.vars .varKind [.mk (.name "b") none]) (.array []) (.block [
    .decl (.vars .varKind [.mk (.name "c") none]), .decl (.vars .letKind [.mk (.name "d") none])]),
  .decl (.vars .constKind [.mk (.name "d") (some (.number "1"))]),
  .exportNames [⟨.ident "a", .ident "default"⟩, ⟨.ident "b", .ident "b"⟩, ⟨.ident "c", .ident "c"⟩,
    ⟨.ident "d", .ident "d"⟩] none]

theorem variablesBody_flagged : ∃ result,
    (ofBody "/a.js" {} variablesBody { graph := Graph.empty.add "/a.js" }).1 = .ok result ∧
    (ofBody "/a.js" {} variablesBody { graph := Graph.empty.add "/a.js" }).2.graph.exports "/a.js" =
      [("a", ⟨.localName "a", true⟩), ("default", ⟨.localName "a", true⟩),
        ("b", ⟨.localName "b", true⟩), ("c", ⟨.localName "c", true⟩),
        ("d", ⟨.localName "d", false⟩)] ∧
    FlagsVariables "/a.js" {} variablesBody result { graph := Graph.empty.add "/a.js" } :=
  ⟨_, rfl, rfl, ofBody_flagsVariables (by decide) rfl (by decide) rfl⟩

def namespaceBody : List Stmt := [
  .exportDecl (.namespaceBlock "namespace" "N" []
    [.decl (.vars .varKind [.mk (.name "x") (some (.number "1"))])]),
  .decl (.vars .constKind [.mk (.name "x") (some (.number "2"))]),
  .exportNames [⟨.ident "x", .ident "x"⟩] none]

/-- The constant is handed out with a setter. -/
theorem namespaceBody_misflagged : ¬ ∀ origin style body links result name localName isMutable,
    origin ∈ links.graph.urls → links.graph.exports origin = [] → (scopeNames body).Nodup →
    (ofBody origin style body links).1 = .ok result →
    (name, ⟨.localName localName, isMutable⟩) ∈
      (ofBody origin style body links).2.graph.exports origin →
    (isMutable = true ↔ IsVariable body localName) := by
  intro h
  have hconst : ¬ IsVariable namespaceBody "x" := by
    rintro (⟨ds, hd | hd, hb⟩ | hv)
    · simp [namespaceBody] at hd
    · simp [namespaceBody] at hd
    · revert hv
      decide
  have hentry : ("x", ⟨.localName "x", true⟩) ∈ (ofBody "/main.js" {} namespaceBody
      { graph := Graph.empty.add "/main.js" }).2.graph.exports "/main.js" :=
    List.mem_singleton_self _
  exact hconst ((h "/main.js" {} namespaceBody { graph := Graph.empty.add "/main.js" } _ _ _ _
    (by decide) rfl (by decide) rfl hentry).1 rfl)

end Thunk

end ScriptBundler
