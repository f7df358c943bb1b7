import ScriptBundler.Proofs.Syntax.Declared
import ScriptBundler.Proofs.Thunk.Lowering
import ScriptBundler.Syntax.Parser

namespace ScriptBundler

namespace Stmt

variable {name : String → String} {bare : Bool}

theorem lexicalNames_renamed (s : Stmt) : (s.renamed name).lexicalNames = s.lexicalNames :=
  s.lexicalNames_descend _ _

theorem varNames_renamed (s : Stmt) : (s.renamed name).varNames = s.varNames :=
  s.varNames_descend _ _

theorem flatMap_kept {f : Stmt → List String} (hexpr : ∀ e, f (.expr e) = [])
    (hrenamed : ∀ s : Stmt, f (s.renamed name) = f s) (s : Stmt) :
    (s.kept name bare).flatMap f = s.stripped?.toList.flatMap f := by
  have hvalue : (if bare then (s.defaultValue?.map fun e => Stmt.expr (e.renamed name)).toList
      else []).flatMap f = [] := by
    split
    · cases s.defaultValue? with
      | none => rfl
      | some e => exact (List.append_nil _).trans (hexpr _)
    · rfl
  rw [kept, List.flatMap_append, hvalue, List.append_nil]
  cases s.stripped? with
  | none => rfl
  | some s' => exact congrArg (· ++ []) (hrenamed s')

theorem lexicalNames_stripped (s : Stmt) :
    s.stripped?.toList.flatMap lexicalNames ++ s.importedLocals = s.lexicalNames := by
  have hself (s : Stmt) : [s].flatMap lexicalNames ++ [] = s.lexicalNames := by
    rw [List.append_nil, List.flatMap_singleton]
  cases s with
  | importDecl d => rfl
  | exportDecl d =>
    rw [stripped?]
    split
    · next hd => cases d <;> first | rfl | cases hd
    · exact hself (.decl d)
  | exportDefaultFunction f =>
    cases hn : f.name? with
    | none =>
      simp only [stripped?, lexicalNames, hn]
      rfl
    | some n =>
      simp only [stripped?, hn, Option.map_some]
      exact hself (.decl (.function f))
  | exportDefaultClass c =>
    cases hn : c.name? with
    | none =>
      simp only [stripped?, lexicalNames, hn]
      rfl
    | some n =>
      simp only [stripped?, hn, Option.map_some]
      exact hself (.decl (.classDef c))
  | exportNames _ _ | exportAll _ _ _ | exportDefault _ => rfl
  | _ => exact hself _

theorem varNames_stripped (s : Stmt) : s.stripped?.toList.flatMap varNames = s.varNames := by
  cases s with
  | exportDecl d =>
    rw [stripped?]
    split
    · next hd => cases d <;> first | rfl | cases hd
    · exact List.flatMap_singleton ..
  | exportDefaultFunction f => cases hn : f.name? <;> simp only [stripped?, hn] <;> rfl
  | exportDefaultClass c => cases hn : c.name? <;> simp only [stripped?, hn] <;> rfl
  | importDecl _ | exportNames _ _ | exportAll _ _ _ | exportDefault _ => rfl
  | _ => exact List.flatMap_singleton ..

end Stmt

namespace Thunk

/-- The names that a body declares as those of its own blocks. -/
def lexicalNames (ss : List Stmt) : List String := ss.flatMap Stmt.lexicalNames

def scopeNames (ss : List Stmt) : List String := lexicalNames ss ++ ss.flatMap Stmt.varNames

section Hidden

variable {origin : String} {style : Style} {body : List Stmt}

theorem nodup_addedLocals : (addedLocals origin style body).Nodup := by
  rw [addedLocals]
  split
  · exact List.nodup_nil
  · refine (nodup_importedUrls.filter _).map_on fun url hurl url' _ h => ?_
    exact (List.idxOf_inj (List.mem_filter.1 hurl).1).1 (hiddenName_injective h)

theorem not_mem_addedLocals {name : String} (h : name.toList.head? ≠ some '_') :
    name ∉ addedLocals origin style body := by
  rw [addedLocals]
  split
  · exact List.not_mem_nil
  · intro hm
    obtain ⟨url, -, he⟩ := List.mem_map.1 hm
    exact ne_hiddenName h _ he.symm

end Hidden

section Statements

variable {origin : String} {style : Style} {body : List Stmt} {f : Stmt → List String}

/-- What expressions have no part in comes of the imports and of what stays of the source. -/
theorem flatMap_statements (hexpr : ∀ e, f (.expr e) = [])
    (hrenamed : ∀ s : Stmt, f (s.renamed (Url.resolve origin)) = f s) :
    ((piecesOf origin style body).statements style.strategy).flatMap f =
      (piecesOf origin style body).imports.flatMap
        (fun (url, g) => f (g.toStmt (includeExpr style.strategy url))) ++
      body.flatMap fun s => s.stripped?.toList.flatMap f := by
  have hpassed (hidden : String → String) (s : Stmt) :
      (s.passed (Url.resolve origin) style.bare hidden).flatMap f = [] := by
    refine List.flatMap_eq_nil_iff.2 fun s' hs' => ?_
    unfold Stmt.passed at hs'
    split at hs'
    · split at hs'
      · cases hs'
      · rw [List.mem_singleton.1 hs']
        exact hexpr _
    · cases hs'
  have hpublished (hidden : String → String) (s : Stmt) :
      (s.published (Url.resolve origin) style.bare (Scope.ofBody body) hidden).flatMap f = [] := by
    rw [Stmt.published]
    split
    · exact (List.flatMap_singleton ..).trans (hexpr _)
    · rfl
  rw [Pieces.statements, List.flatMap_append, List.flatMap_append, List.flatMap_map, piecesOf,
    Pieces.ofBody, List.flatMap_assoc, List.flatMap_assoc]
  simp only [hpassed, List.flatMap_append, hpublished, List.append_nil,
    Stmt.flatMap_kept hexpr hrenamed]
  rw [List.flatMap_eq_nil_iff.2 fun _ _ => rfl, List.append_nil]

/-- A lowered body declares the names of its source and the hidden locals. -/
theorem lexicalNames_statements :
    (lexicalNames ((piecesOf origin style body).statements style.strategy)).Perm
      (lexicalNames body ++ addedLocals origin style body) := by
  refine List.perm_iff_count.2 fun name => ?_
  have himports : ((piecesOf origin style body).imports.flatMap fun (url, g) =>
      (g.toStmt (includeExpr style.strategy url)).lexicalNames).Perm
        ((piecesOf origin style body).imports.flatMap (·.2.locals)) :=
    List.Perm.flatMap_left _ fun p _ => names_declarators _
  have himported := count_imported origin style (Scope.ofBody body) name body
  rw [foldl_take] at himported
  have hsource : ((body.flatMap fun s => s.stripped?.toList.flatMap Stmt.lexicalNames) ++
      body.flatMap Stmt.importedLocals).Perm (lexicalNames body) := by
    refine (List.flatMap_append_perm _ _ _).trans (.of_eq ?_)
    exact List.flatMap_congr fun s _ => s.lexicalNames_stripped
  -- counted for each name: a local that is imported moves from its import into a group
  rw [lexicalNames, flatMap_statements (fun _ => rfl) Stmt.lexicalNames_renamed, List.count_append,
    himports.count_eq, count_locals, List.count_append, ← hsource.count_eq, List.count_append,
    ← himported, ← hiddenLocals_piecesOf, piecesOf]
  omega

theorem varNames_statements :
    ((piecesOf origin style body).statements style.strategy).flatMap Stmt.varNames =
      body.flatMap Stmt.varNames := by
  have himports : ((piecesOf origin style body).imports.flatMap fun (url, g) =>
      (g.toStmt (includeExpr style.strategy url)).varNames) = [] :=
    List.flatMap_eq_nil_iff.2 fun _ _ => rfl
  rw [flatMap_statements (fun _ => rfl) Stmt.varNames_renamed, himports, List.nil_append]
  exact List.flatMap_congr fun s _ => s.varNames_stripped

end Statements

theorem ImportGroup.declarators_eq_cons (g : ImportGroup) (exports : Expr) :
    ∃ p ds, g.declarators exports = .mk p (some exports) :: ds := by
  rw [declarators]
  split
  · exact ⟨_, _, rfl⟩
  · next hh =>
    rw [nameDeclarators]
    split
    · exact ⟨_, _, rfl⟩
    · rw [hh, Option.isSome_none, Bool.and_false]
      exact ⟨_, _, rfl⟩

/-- What a lowered body refers to and declares in its own scope. -/
structure Hygienic (origin : String) (style : Style) (body result : List Stmt) : Prop where
  /-- All that is imported is included by statements of the body itself. -/
  includes : ∀ url ∈ importedUrls origin body, ∃ p ds,
    Stmt.decl (.vars .constKind (.mk p (some (includeExpr style.strategy url)) :: ds)) ∈ result
  passes : style.bare = false → ∀ source attributes, .exportAll none source attributes ∈ body →
    ∃ l ∈ addedLocals origin style body, passThrough l ∈ result
  outside : ∀ name ∈ ["include", "Object"], name ∉ scopeNames body → name ∉ scopeNames result
  once : (∀ name ∈ addedLocals origin style body, name ∉ scopeNames body) →
    (∀ name ∈ addedLocals origin style body, (scopeNames result).count name = 1) ∧
      ∀ name, 2 ≤ (lexicalNames result).count name → 2 ≤ (lexicalNames body).count name

section Whole

variable {origin : String} {style : Style} {body result : List Stmt} {links : Links}

theorem count_scopeNames (name : String) :
    (scopeNames ((piecesOf origin style body).statements style.strategy)).count name =
      (scopeNames body).count name + (addedLocals origin style body).count name := by
  rw [scopeNames, List.count_append, lexicalNames_statements.count_eq, varNames_statements,
    List.count_append, scopeNames, List.count_append]
  omega

theorem exists_include {url : String} (hurl : url ∈ importedUrls origin body) : ∃ p ds,
    Stmt.decl (.vars .constKind (.mk p (some (includeExpr style.strategy url)) :: ds)) ∈
      (piecesOf origin style body).statements style.strategy := by
  obtain ⟨p, ds, hds⟩ := (groupOf origin style.bare ((importedUrls origin body).idxOf ·) url
    body).declarators_eq_cons (includeExpr style.strategy url)
  refine ⟨p, ds, List.mem_append_left _ (List.mem_append_left _ ?_)⟩
  refine List.mem_map.2 ⟨_, List.mem_map.2 ⟨url, hurl, rfl⟩, ?_⟩
  exact congrArg (fun ds => Stmt.decl (.vars .constKind ds)) hds

theorem exists_passThrough (hb : style.bare = false) {source : String}
    {attributes : Option ImportAttributes} (hs : .exportAll none source attributes ∈ body) :
    ∃ l ∈ addedLocals origin style body,
      passThrough l ∈ (piecesOf origin style body).statements style.strategy := by
  have hurl : Url.resolve origin source ∈ importedUrls origin body :=
    mem_distinct.2 (List.mem_filterMap.2 ⟨_, hs, rfl⟩)
  have hreexported : Url.resolve origin source ∈ reexportedUrls origin body :=
    List.mem_filterMap.2 ⟨_, hs, rfl⟩
  refine ⟨ImportGroup.hiddenName ((importedUrls origin body).idxOf (Url.resolve origin source)),
    ?_, ?_⟩
  · rw [addedLocals, hb]
    exact List.mem_map.2 ⟨_, List.mem_filter.2 ⟨hurl, decide_eq_true hreexported⟩, rfl⟩
  · refine List.mem_append_left _ (List.mem_append_right _ (List.mem_flatMap.2 ⟨_, hs, ?_⟩))
    rw [Stmt.passed, hb]
    exact List.mem_singleton_self _

theorem ofBody_hygienic (h : (ofBody origin style body links).1 = .ok result) :
    Hygienic origin style body result := by
  obtain ⟨rfl, -, -⟩ := ofBody_ok h
  refine ⟨fun url hurl => exists_include hurl, fun hb source attributes hs =>
    exists_passThrough hb hs, fun name hn hs => ?_, fun hfree =>
      ⟨fun name hn => ?_, fun name htwice => ?_⟩⟩
  · have hhead : ∀ name ∈ ["include", "Object"], name.toList.head? ≠ some '_' := by decide
    have hadded : name ∉ addedLocals origin style body := not_mem_addedLocals (hhead name hn)
    rw [← List.count_eq_zero] at hs hadded ⊢
    rw [count_scopeNames, hs, hadded]
  · rw [count_scopeNames, List.count_eq_zero.2 (hfree name hn), Nat.zero_add]
    exact List.count_eq_one_of_mem nodup_addedLocals hn
  · rw [lexicalNames_statements.count_eq, List.count_append] at htwice
    by_cases hn : name ∈ addedLocals origin style body
    · -- a hidden local is declared by lowering alone, and there once
      have hbody : (lexicalNames body).count name = 0 :=
        List.count_eq_zero.2 fun hm => hfree name hn (List.mem_append_left _ hm)
      have hadded := List.count_eq_one_of_mem nodup_addedLocals hn
      omega
    · rwa [List.count_eq_zero.2 hn, Nat.add_zero] at htwice

def scopedSource : String :=
  "import a from './b.js'; export * from './c.js'; const [x] = a; \x7b let y = x; var z = y \x7d"

theorem scopedSource_hygienic : ∃ program result,
    Program.parse? scopedSource = some program ∧
      (ofBody "/a.js" {} program.body { graph := Graph.empty.add "/a.js" }).1 = .ok result ∧
      Hygienic "/a.js" {} program.body result ∧
      "include" ∉ scopeNames result ∧ "Object" ∉ scopeNames result ∧
      addedLocals "/a.js" {} program.body = ["__stitch_dep1__"] ∧
      (scopeNames result).count "__stitch_dep1__" = 1 := by
  have hrun : ((Program.parse? scopedSource).map fun program =>
      ((ofBody "/a.js" {} program.body { graph := Graph.empty.add "/a.js" }).1.isOk,
        addedLocals "/a.js" {} program.body, scopeNames program.body)) =
          some (true, ["__stitch_dep1__"], ["a", "x", "z"]) := by
    decide +kernel
  obtain ⟨program, hp, hrun⟩ := Option.map_eq_some_iff.1 hrun
  simp only [Prod.mk.injEq] at hrun
  obtain ⟨hok, hadded, hscope⟩ := hrun
  cases hr : (ofBody "/a.js" {} program.body { graph := Graph.empty.add "/a.js" }).1 with
  | error e =>
    rw [hr] at hok
    cases hok
  | ok result =>
    have hygienic := ofBody_hygienic hr
    have hincluded := hygienic.outside "include" (by decide) (by rw [hscope]; decide)
    have hobject := hygienic.outside "Object" (by decide) (by rw [hscope]; decide)
    have hfree : ∀ name ∈ addedLocals "/a.js" {} program.body, name ∉ scopeNames program.body := by
      rw [hadded, hscope]
      decide
    have honce := (hygienic.once hfree).1 "__stitch_dep1__" (by rw [hadded]; decide)
    exact ⟨program, result, hp, hr, hygienic, hincluded, hobject, hadded, honce⟩

/-- A module that declares all names that lowering uses itself. -/
def clashingSource : String :=
  "export const __stitch_dep0__ = 1; const include = 2; let Object = 3; export * from './d.js'"

/-- Lowering does not make sure that a module leaves it the names. -/
theorem clashingSource_declares_twice : ∃ program result,
    Program.parse? clashingSource = some program ∧
      (ofBody "/a.js" ⟨.eager, false⟩ program.body { graph := Graph.empty.add "/a.js" }).1 =
        .ok result ∧
      lexicalNames program.body = ["__stitch_dep0__", "include", "Object"] ∧
      lexicalNames result = ["__stitch_dep0__", "__stitch_dep0__", "include", "Object"] ∧
      ∃ p ds, Stmt.decl (.vars .constKind
        (.mk p (some (.call (.ident "include") [.string "/d.js"])) :: ds)) ∈ result := by
  have hrun : ((Program.parse? clashingSource).map fun program =>
      let lowered := ofBody "/a.js" ⟨.eager, false⟩ program.body
        { graph := Graph.empty.add "/a.js" }
      (lowered.1.toOption.map lexicalNames, lexicalNames program.body,
        importedUrls "/a.js" program.body)) =
          some (some ["__stitch_dep0__", "__stitch_dep0__", "include", "Object"],
            ["__stitch_dep0__", "include", "Object"], ["/d.js"]) := by
    decide +kernel
  obtain ⟨program, hp, hrun⟩ := Option.map_eq_some_iff.1 hrun
  simp only [Prod.mk.injEq] at hrun
  obtain ⟨hresult, hbody, hurls⟩ := hrun
  cases hr : (ofBody "/a.js" ⟨.eager, false⟩ program.body
      { graph := Graph.empty.add "/a.js" }).1 with
  | error e =>
    rw [hr] at hresult
    cases hresult
  | ok result =>
    rw [hr] at hresult
    have hmem : "/d.js" ∈ importedUrls "/a.js" program.body := by
      rw [hurls]
      decide
    refine ⟨program, result, hp, hr, hbody, Option.some.inj hresult, ?_⟩
    obtain ⟨rfl, -, -⟩ := ofBody_ok hr
    exact exists_include hmem

end Whole

end Thunk

end ScriptBundler
