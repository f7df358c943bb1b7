import Mathlib.Data.List.Perm.Basic
import ScriptBundler.Proofs.Thunk.Imports

namespace ScriptBundler.Thunk

def Pieces.statements (strategy : LoaderStrategy) (p : Pieces) : List Stmt :=
  p.imports.map (fun (url, g) => g.toStmt (includeExpr strategy url)) ++ p.passThroughs ++ p.body

def piecesOf (origin : String) (style : Style) (body : List Stmt) : Pieces :=
  .ofBody origin style (Scope.ofBody body) ((importedUrls origin body).idxOf ·) body

def referencesOf (origin : String) (body : List Stmt) : List String :=
  body.flatMap (Stmt.references origin)

def importedLocals (body : List Stmt) : List String := body.flatMap Stmt.importedLocals

def addedLocals (origin : String) (style : Style) (body : List Stmt) : List String :=
  if style.bare then []
  else ((importedUrls origin body).filter (· ∈ reexportedUrls origin body)).map fun url =>
    ImportGroup.hiddenName ((importedUrls origin body).idxOf url)

variable {origin : String} {style : Style} {body : List Stmt} {links : Links}

theorem hiddenLocals_piecesOf :
    hiddenLocals (piecesOf origin style body).imports = addedLocals origin style body := by
  rw [hiddenLocals, piecesOf, Pieces.ofBody, List.filterMap_map, addedLocals,
    ← List.filterMap_eq_map, List.filterMap_filter]
  have hgroup (url : String) :
      (groupOf origin style.bare ((importedUrls origin body).idxOf ·) url body).hidden =
        if style.bare = false ∧ url ∈ reexportedUrls origin body
          then some (ImportGroup.hiddenName ((importedUrls origin body).idxOf url)) else none :=
    hidden_groupOf
  simp only [Function.comp_def, hgroup]
  split
  · next hb =>
    refine List.filterMap_eq_nil_iff.2 fun url _ => ?_
    rw [if_neg fun h => Bool.noConfusion (hb.symm.trans h.1)]
  · next hb =>
    simp only [hb, true_and, decide_eq_true_eq]

theorem forM_statement_effect (origin : String) (style : Style) (scope : Scope)
    (body : List Stmt) :
    Drafting.Effect origin (referencesOf origin body)
      (fun p => ((), body.foldl (Pieces.take origin style scope) p))
      (body.forM (Drafting.statement origin style scope)) :=
  .forM fun s _ => Drafting.statement_effect s

inductive Ends (origin : String) (style : Style) (body : List Stmt) (links : Links) :
    Except (List BuildError) (List Stmt) → Links → Prop where
  | awaits (await : (Scope.ofBody body).hasAwait = true) (eager : style.strategy = .eager) :
    Ends origin style body links (.error [.topLevelAwait origin]) links
  | refused {met : List String} {es es' : List BuildError} {links' : Links}
      (initial : met <+: referencesOf origin body)
      (linked : Graph.Linked origin links.graph met es links'.graph)
      (ne : es' ≠ []) (subset : es' ⊆ es) : Ends origin style body links (.error es') links'
  | reserved {links' : Links}
      (linked : Graph.Linked origin links.graph (referencesOf origin body) [] links'.graph)
      (mem : "yield" ∈ importedLocals body) :
      Ends origin style body links (.error [.parseError ownCode]) links'
  | done {links' : Links}
      (linked : Graph.Linked origin links.graph (referencesOf origin body) [] links'.graph)
      (not_mem : "yield" ∉ importedLocals body) : Ends origin style body links
        (.ok ((piecesOf origin style body).statements style.strategy)) links'

theorem any_locals_yield (origin : String) (style : Style) (scope : Scope) (body : List Stmt) :
    (body.foldl (Pieces.take origin style scope) {}).imports.any
      (fun (_, g) => g.locals.contains "yield") = true ↔ "yield" ∈ importedLocals body := by
  have hne : "yield".toList.head? ≠ some '_' := by decide
  have hcount := count_imports origin style scope (ne_hiddenName hne) body
  rw [importedLocals, ← List.count_pos_iff, ← hcount, List.count_pos_iff, List.any_eq_true,
    List.mem_flatMap]
  simp only [List.contains_iff_mem]

/-- Where nothing fails on the way, errors and the name `yield` decide how a lowering ends. -/
theorem finish_eq {d : Draft} (h : (body.forM (Drafting.statement origin style
      (Scope.ofBody body))).run.run { links := links } = (.ok (), d)) :
    d.finish style.strategy = if d.errors = [] then
        if "yield" ∈ importedLocals body then .error [.parseError ownCode]
        else .ok ((piecesOf origin style body).statements style.strategy)
      else .error d.errors := by
  have heffect := forM_statement_effect origin style (Scope.ofBody body) body { links := links }
  rw [h] at heffect
  cases heffect with
  | ok linked errors pieces =>
    by_cases hes : d.errors = []
    · have hp : d.pieces = body.foldl (Pieces.take origin style (Scope.ofBody body)) {} :=
        congrArg Prod.snd (pieces hes)
      have hi : d.imports =
          (body.foldl (Pieces.take origin style (Scope.ofBody body)) {}).imports :=
        congrArg Pieces.imports hp
      have hy := any_locals_yield origin style (Scope.ofBody body) body
      have hs : d.imports.map (fun (url, g) => g.toStmt (includeExpr style.strategy url)) ++
          d.passThroughs ++ d.body = (piecesOf origin style body).statements style.strategy := by
        rw [piecesOf, ← foldl_take, ← hp]
        rfl
      rw [← hi] at hy
      simp only [Draft.finish, hes, List.isEmpty_nil, Bool.not_true, Bool.false_eq_true,
        ↓reduceIte, hy, hs]
    · have he : (!d.errors.isEmpty) = true := by
        rw [Bool.not_eq_true', List.isEmpty_eq_false_iff]
        exact hes
      rw [Draft.finish, if_pos he, if_neg hes]

theorem ofBody_ends (origin : String) (style : Style) (body : List Stmt) (links : Links) :
    Ends origin style body links (ofBody origin style body links).1
      (ofBody origin style body links).2 := by
  simp only [ofBody]
  split
  · next h =>
    rw [Bool.and_eq_true, decide_eq_true_eq] at h
    exact .awaits h.1 h.2
  · have heffect := forM_statement_effect origin style (Scope.ofBody body) body { links := links }
    rcases hrun : (body.forM (Drafting.statement origin style (Scope.ofBody body))).run.run
      { links := links } with ⟨result, d⟩
    rw [hrun] at heffect
    cases heffect with
    | error initial linked mem =>
      exact .refused initial linked (List.cons_ne_nil _ _) fun _ h =>
        List.mem_singleton.1 h ▸ mem
    | @ok es _ _ linked errors pieces =>
      obtain rfl : d.errors = es := errors
      change Ends origin style body links (d.finish style.strategy) d.links
      rw [finish_eq hrun]
      split
      · next hes =>
        rw [hes] at linked
        split
        · next hm => exact .reserved linked hm
        · next hm => exact .done linked hm
      · next hes => exact .refused List.prefix_rfl linked hes (List.Subset.refl _)

theorem ofBody_ok {result : List Stmt} (h : (ofBody origin style body links).1 = .ok result) :
    result = (piecesOf origin style body).statements style.strategy ∧
      Graph.Linked origin links.graph (referencesOf origin body) []
        (ofBody origin style body links).2.graph ∧
      "yield" ∉ importedLocals body := by
  have hends := ofBody_ends origin style body links
  rw [h] at hends
  cases hends with
  | done linked not_mem => exact ⟨rfl, linked, not_mem⟩

/-- What the imports, the exports that are passed on and the rest of a lowered body are. -/
structure Partition (origin : String) (style : Style) (body imports passThroughs rest : List Stmt) :
    Prop where
  declarations : List.Forall₂ (fun url s => (∃ ds, s = .decl (.vars .constKind ds)) ∧
    s.calls id = [url]) (importedUrls origin body) imports
  locals : ∀ name, (imports.flatMap Stmt.declaredNames).count name =
    (importedLocals body).count name + (addedLocals origin style body).count name
  passed : passThroughs = body.flatMap
    (Stmt.passed (Url.resolve origin) style.bare fun url =>
      ImportGroup.hiddenName ((importedUrls origin body).idxOf url))
  remains : rest = body.flatMap fun s => s.kept (Url.resolve origin) style.bare ++
    s.published (Url.resolve origin) style.bare (Scope.ofBody body) fun url =>
      ImportGroup.hiddenName ((importedUrls origin body).idxOf url)
  verbatim : ∀ s ∈ body, ∀ s', s.stripped? = some s' → s'.calls (Url.resolve origin) = [] →
    s' ∈ rest

/-- A lowered body declares all imports, passes exports on, and keeps what is left in its order. -/
theorem ofBody_partition {result : List Stmt}
    (h : (ofBody origin style body links).1 = .ok result) :
    ∃ imports passThroughs rest, result = imports ++ passThroughs ++ rest ∧
      Partition origin style body imports passThroughs rest := by
  obtain ⟨rfl, -, -⟩ := ofBody_ok h
  refine ⟨_, _, _, rfl, ⟨?_, fun name => ?_, rfl, rfl, fun s hs s' hs' hc => ?_⟩⟩
  · rw [piecesOf, Pieces.ofBody, List.map_map, List.forall₂_map_right_iff]
    exact List.forall₂_same.2 fun url _ => ⟨⟨_, rfl⟩, calls_toStmt id _ url _⟩
  · have hdeclared : (((piecesOf origin style body).imports.map fun (url, g) =>
        g.toStmt (includeExpr style.strategy url)).flatMap Stmt.declaredNames).Perm
          ((piecesOf origin style body).imports.flatMap (·.2.locals)) := by
      rw [List.flatMap_map]
      exact List.Perm.flatMap_left _ fun p _ => names_declarators _
    have himported := count_imported origin style (Scope.ofBody body) name body
    rw [foldl_take] at himported
    rw [hdeclared.count_eq, count_locals, hiddenLocals_piecesOf, importedLocals, ← himported]
    rfl
  · refine List.mem_flatMap.2 ⟨s, hs, List.mem_append_left _ (List.mem_append_left _ ?_)⟩
    rw [hs', Option.map_some, renamed_of_calls_eq_nil hc]
    exact List.mem_singleton_self s'

def mixedBody : List Stmt := [
  .exportDecl (.vars .constKind [.mk (.name "x") (some (.number "1"))]),
  .importDecl ⟨none, some [.default "d", .named (.ident "a") "b"], "./b.js", none⟩,
  .exportAll none "./c.js" none,
  .exportDefault (.importCall none [.string "./b.js"])]

theorem partition_of_mixedBody : ∃ result imports passThroughs rest,
    (ofBody "/a.js" {} mixedBody { graph := Graph.empty.add "/a.js" }).1 = .ok result ∧
      result = imports ++ passThroughs ++ rest ∧
      Partition "/a.js" {} mixedBody imports passThroughs rest := by
  obtain ⟨result, h⟩ : ∃ result,
    (ofBody "/a.js" {} mixedBody { graph := Graph.empty.add "/a.js" }).1 = .ok result := ⟨_, rfl⟩
  obtain ⟨imports, passThroughs, rest, hp⟩ := ofBody_partition h
  exact ⟨result, imports, passThroughs, rest, h, hp⟩

/-- What only type checkers read does not stay, without its `export` either. -/
theorem exported_type_not_kept : ∃ result,
    (ofBody "/a.js" {} [.exportDecl (.typeOnly "type A = 1;")]
      { graph := Graph.empty.add "/a.js" }).1 = .ok result ∧
    Stmt.decl (.typeOnly "type A = 1;") ∉ result :=
  ⟨[], rfl, List.not_mem_nil⟩

end ScriptBundler.Thunk
