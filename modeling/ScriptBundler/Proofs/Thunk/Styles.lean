import ScriptBundler.Proofs.Syntax.Yields.Program
import ScriptBundler.Proofs.Thunk.Awaits
import ScriptBundler.Proofs.Thunk.Leftover
import ScriptBundler.Proofs.Thunk.Lockstep
import ScriptBundler.Proofs.Thunk.Publication

namespace ScriptBundler

open Node

/-- Lets the first of several declarators take a value, or nothing at all. -/
def Declarator.takeValue (value : Option Expr) : List Declarator → List Declarator
  | [] => [.mk (.object []) value]
  | .mk p _ :: ds => .mk p value :: ds

def Stmt.withoutLocal (localName : String) : Stmt → Stmt
  | .decl (.vars kind (.mk (.name n) value :: ds)) =>
    .decl (.vars kind (if n = localName then Declarator.takeValue value ds
      else .mk (.name n) value :: ds))
  | s => s

namespace Thunk

def includeCall (url : String) : Expr := .call (.ident "include") [.string url]

/-- Statements that start with a declaration for each url, which awaits its include or does not. -/
inductive AwaitsRemoved : List String → List Stmt → List Stmt → Prop where
  | rest (ss : List Stmt) : AwaitsRemoved [] ss ss
  | include {urls : List String} {awaiting plain : List Stmt} (url : String) (p : Pattern)
      (ds : List Declarator) (h : AwaitsRemoved urls awaiting plain) :
    AwaitsRemoved (url :: urls)
      (.decl (.vars .constKind (.mk p (some (.await (includeCall url))) :: ds)) :: awaiting)
      (.decl (.vars .constKind (.mk p (some (includeCall url)) :: ds)) :: plain)

/-- What comes of the statements of a body with their exports, and without them. -/
inductive ExportsRemoved (origin : String) : List Stmt → List Stmt → List Stmt → Prop where
  | nil : ExportsRemoved origin [] [] []
  | publish {s : Stmt} {exports : List (String × Descriptor)} {body full bare : List Stmt}
      (hs : s.defaultValue? = none) (he : ∀ p ∈ exports, p.2.IsReference)
      (h : ExportsRemoved origin body full bare) :
    ExportsRemoved origin (s :: body)
      ((s.stripped?.map (Stmt.renamed (Url.resolve origin))).toList ++
        (if exports.isEmpty then [] else [publish exports]) ++ full)
      ((s.stripped?.map (Stmt.renamed (Url.resolve origin))).toList ++ bare)
  | value {s : Stmt} {e : Expr} {body full bare : List Stmt}
      (hs : s.defaultValue? = some e) (h : ExportsRemoved origin body full bare) :
    ExportsRemoved origin (s :: body)
      (publish [("default", .value (e.renamed (Url.resolve origin)))] :: full)
      (.expr (e.renamed (Url.resolve origin)) :: bare)

/-- A lowered body, and the same without its exports and what they need. -/
inductive Bared (origin : String) (body : List Stmt) : List Stmt → List Stmt → Prop where
  | mk {imports passThroughs full bare : List Stmt}
      (count : imports.length = (importedUrls origin body).length)
      (passed : ∀ s ∈ passThroughs, ∃ dependency, s = passThrough dependency)
      (removed : ExportsRemoved origin body full bare) :
    Bared origin body (imports ++ passThroughs ++ full)
      (imports.mapIdx (fun i s => s.withoutLocal (ImportGroup.hiddenName i)) ++ bare)

section Groups

variable {origin url : String} {index : String → Nat} {body : List Stmt}

namespace ImportGroup

def dropHidden (g : ImportGroup) : ImportGroup := { g with hidden := none }

theorem dropHidden_addSpecifier (g : ImportGroup) (s : ImportSpecifier) :
    (g.addSpecifier s).dropHidden = g.dropHidden.addSpecifier s := by
  cases s <;> rfl

theorem dropHidden_foldl_addSpecifier (l : List ImportSpecifier) (g : ImportGroup) :
    (l.foldl addSpecifier g).dropHidden = l.foldl addSpecifier g.dropHidden := by
  induction l generalizing g with
  | nil => rfl
  | cons s l ih => rw [List.foldl_cons, ih, dropHidden_addSpecifier, List.foldl_cons]

theorem dropHidden_fill (s : Stmt) (i : Nat) (g : ImportGroup) :
    (s.fill false i g).dropHidden = s.fill true i g.dropHidden := by
  cases s with
  | importDecl d => exact dropHidden_foldl_addSpecifier _ g
  | exportNames specifiers source => cases source <;> rfl
  | _ => rfl

end ImportGroup

theorem groupOf_bare : groupOf origin true index url body =
    (groupOf origin false index url body).dropHidden := by
  induction body using List.reverseRecOn with
  | nil => rfl
  | append_singleton body s ih =>
    rw [groupOf_concat, groupOf_concat, ih]
    split
    · rw [ImportGroup.dropHidden_fill]
    · rfl

theorem withoutLocal_toStmt {g : ImportGroup} {localName : String}
    (h : ∀ hidden ∈ g.hidden, hidden = localName) (exports : Expr) :
    (g.toStmt exports).withoutLocal localName = g.dropHidden.toStmt exports := by
  obtain ⟨hidden, namespaces, names⟩ := g
  cases hidden with
  | none =>
    cases namespaces with
    | nil => cases names <;> rfl
    | cons first others => rfl
  | some hidden =>
    obtain rfl := h hidden rfl
    simp only [ImportGroup.toStmt, ImportGroup.declarators, Stmt.withoutLocal, ↓reduceIte]
    cases namespaces with
    | nil => cases names <;> rfl
    | cons first others => rfl

theorem declarators_eq (g : ImportGroup) :
    ∃ p ds, ∀ exports, g.declarators exports = .mk p (some exports) :: ds := by
  obtain ⟨hidden, namespaces, names⟩ := g
  cases hidden with
  | some hidden => exact ⟨_, _, fun _ => rfl⟩
  | none =>
    cases namespaces with
    | cons first others => exact ⟨_, _, fun _ => rfl⟩
    | nil => cases names <;> exact ⟨_, _, fun _ => rfl⟩

end Groups

section Bodies

variable {origin : String} {body : List Stmt}

theorem awaitsRemoved_imports (imports : List (String × ImportGroup)) (rest : List Stmt) :
    AwaitsRemoved (imports.map (·.1))
      (imports.map (fun (url, g) => g.toStmt (includeExpr .lazy url)) ++ rest)
      (imports.map (fun (url, g) => g.toStmt (includeExpr .eager url)) ++ rest) := by
  induction imports with
  | nil => exact .rest rest
  | cons entry imports ih =>
    obtain ⟨url, g⟩ := entry
    obtain ⟨p, ds, hg⟩ := declarators_eq g
    simp only [List.map_cons, List.cons_append, ImportGroup.toStmt, hg]
    exact .include url p ds ih

theorem awaitsRemoved_statements (bare : Bool) :
    AwaitsRemoved (importedUrls origin body)
      ((piecesOf origin ⟨.lazy, bare⟩ body).statements .lazy)
      ((piecesOf origin ⟨.eager, bare⟩ body).statements .eager) := by
  have hurls : (piecesOf origin ⟨.lazy, bare⟩ body).imports.map (·.1) =
      importedUrls origin body := by
    rw [piecesOf, Pieces.ofBody, List.map_map]
    exact List.map_id _
  have h := awaitsRemoved_imports (piecesOf origin ⟨.lazy, bare⟩ body).imports
    ((piecesOf origin ⟨.lazy, bare⟩ body).passThroughs ++ (piecesOf origin ⟨.lazy, bare⟩ body).body)
  rw [hurls, ← List.append_assoc, ← List.append_assoc] at h
  exact h

theorem exportsRemoved_flatMap (scope : Scope) (hidden : String → String) (body : List Stmt) :
    ExportsRemoved origin body
      (body.flatMap fun s => s.kept (Url.resolve origin) false ++
        s.published (Url.resolve origin) false scope hidden)
      (body.flatMap fun s => s.kept (Url.resolve origin) true ++
        s.published (Url.resolve origin) true scope hidden) := by
  induction body with
  | nil => exact .nil
  | cons s body ih =>
    have hpublished : s.published (Url.resolve origin) false scope hidden =
        if (s.exports (Url.resolve origin) scope hidden).isEmpty then []
        else [publish (s.exports (Url.resolve origin) scope hidden)] := by
      rw [Stmt.published]
      cases (s.exports (Url.resolve origin) scope hidden).isEmpty <;> rfl
    have hdropped : s.published (Url.resolve origin) true scope hidden = [] := rfl
    rw [List.flatMap_cons, List.flatMap_cons, hpublished, hdropped, List.append_nil]
    cases hs : s.defaultValue? with
    | none =>
      have hkept (bare : Bool) : s.kept (Url.resolve origin) bare =
          (s.stripped?.map (Stmt.renamed (Url.resolve origin))).toList := by
        rw [Stmt.kept, hs, Option.map_none, Option.toList_none, ite_self, List.append_nil]
      rw [hkept, hkept]
      exact .publish hs (fun p hp => isReference_of_mem_exports hs hp) ih
    | some e =>
      obtain ⟨hstripped, hexports⟩ := exports_of_defaultValue? hs
      rw [Stmt.kept, Stmt.kept, hs, hstripped, hexports]
      exact .value hs ih

theorem bared_statements (strategy : LoaderStrategy) :
    Bared origin body ((piecesOf origin ⟨strategy, false⟩ body).statements strategy)
      ((piecesOf origin ⟨strategy, true⟩ body).statements strategy) := by
  have himports : (piecesOf origin ⟨strategy, true⟩ body).imports.map
        (fun (url, g) => g.toStmt (includeExpr strategy url)) =
      ((piecesOf origin ⟨strategy, false⟩ body).imports.map
        (fun (url, g) => g.toStmt (includeExpr strategy url))).mapIdx
          fun i s => s.withoutLocal (ImportGroup.hiddenName i) := by
    apply List.ext_getElem
    · simp only [piecesOf, Pieces.ofBody, List.length_mapIdx, List.length_map]
    · intro i hi hi'
      simp only [piecesOf, Pieces.ofBody, List.getElem_mapIdx, List.getElem_map]
      rw [groupOf_bare, withoutLocal_toStmt]
      intro hidden hh
      rw [eq_hiddenName hh, nodup_importedUrls.idxOf_getElem]
  have hpassed : (piecesOf origin ⟨strategy, true⟩ body).passThroughs = [] := by
    apply List.flatMap_eq_nil_iff.2
    intro s _
    unfold Stmt.passed
    split <;> rfl
  rw [Pieces.statements, Pieces.statements, himports, hpassed, List.append_nil]
  apply Bared.mk
  · simp only [piecesOf, Pieces.ofBody, List.length_map]
  · intro s hs
    obtain ⟨s', -, hs⟩ := List.mem_flatMap.1 hs
    exact exists_of_mem_passed hs
  · exact exportsRemoved_flatMap _ _ body

theorem isPlain_kept {s : Stmt} (h : s.IsPlain) (name : String → String) (bare : Bool) :
    ∀ t ∈ s.kept name bare, t.IsPlain := by
  intro t ht hhas
  rcases List.mem_append.1 ht with ht | ht
  · obtain ⟨s', hs', rfl⟩ := Option.map_eq_some_iff.1 (Option.mem_toList.1 ht)
    have hleft : Node.stmt s' ∈ s.leftover :=
      List.mem_append_left _ (List.mem_map_of_mem (Option.mem_toList.2 hs'))
    exact h (Stmt.has_of_leftover hleft (Stmt.has_renamed.1 hhas))
  · split at ht
    · obtain ⟨e, he, rfl⟩ := Option.map_eq_some_iff.1 (Option.mem_toList.1 ht)
      have hleft : Node.expr .operand e ∈ s.leftover :=
        List.mem_append_right _ (List.mem_map_of_mem (Option.mem_toList.2 he))
      rw [has_plain_iff rfl rfl] at hhas
      exact h (Stmt.has_of_leftover hleft (Expr.has_renamed.1 (hasAny_singleton.1 hhas)))
    · cases ht

theorem isPlain_statements_bare (strategy : LoaderStrategy) (h : ∀ s ∈ body, s.IsPlain) :
    ∀ s ∈ (piecesOf origin ⟨strategy, true⟩ body).statements strategy, s.IsPlain := by
  intro s hs
  rw [Pieces.statements, List.append_assoc, List.mem_append, List.mem_append] at hs
  rcases hs with hs | hs | hs
  · obtain ⟨⟨url, g⟩, -, rfl⟩ := List.mem_map.1 hs
    intro hhas
    obtain ⟨-, -, hmark⟩ := of_has_includeExpr (has_of_has_toStmt hhas)
    cases hmark
  · obtain ⟨s', -, hs⟩ := List.mem_flatMap.1 hs
    unfold Stmt.passed at hs
    split at hs <;> cases hs
  · obtain ⟨s', hs', hs⟩ := List.mem_flatMap.1 hs
    have hdropped : s ∈ s'.kept (Url.resolve origin) true :=
      (List.mem_append.1 hs).resolve_right List.not_mem_nil
    exact isPlain_kept (h s' hs') _ _ s hdropped

theorem ofBody_agree (h : (Scope.ofBody body).hasAwait = false) (origin : String) (links : Links)
    (style style' : Style) :
    (ofBody origin style body links).2 = (ofBody origin style' body links).2 ∧
      ((∃ es, (ofBody origin style body links).1 = .error es ∧
          (ofBody origin style' body links).1 = .error es) ∨
        ((ofBody origin style body links).1 =
            .ok ((piecesOf origin style body).statements style.strategy) ∧
          (ofBody origin style' body links).1 =
            .ok ((piecesOf origin style' body).statements style'.strategy))) := by
  have hsteps : Drafting.Lockstep
      (body.forM (Drafting.statement origin style (Scope.ofBody body)))
      (body.forM (Drafting.statement origin style' (Scope.ofBody body))) :=
    .forM fun s => Drafting.statement_lockstep s
  obtain ⟨hresult, hdraft⟩ := hsteps { links := links } { links := links } ⟨rfl, rfl⟩
  -- both runs stop at the same error, or end with drafts that `finish_eq` tells apart alike
  simp only [ofBody, h, Bool.false_and, Bool.false_eq_true, ↓reduceIte]
  rcases hrun : (body.forM (Drafting.statement origin style (Scope.ofBody body))).run.run
    { links := links } with ⟨result, d⟩
  rcases hrun' : (body.forM (Drafting.statement origin style' (Scope.ofBody body))).run.run
    { links := links } with ⟨result', d'⟩
  rw [hrun, hrun'] at hresult hdraft
  obtain rfl : result = result' := hresult
  cases result with
  | error e => exact ⟨hdraft.links, .inl ⟨[e], rfl, rfl⟩⟩
  | ok value =>
    have herrors : d.errors = d'.errors := hdraft.errors
    refine ⟨hdraft.links, ?_⟩
    simp only [finish_eq hrun, finish_eq hrun', herrors]
    split
    · split
      · exact .inl ⟨_, rfl, rfl⟩
      · exact .inr ⟨rfl, rfl⟩
    · exact .inl ⟨_, rfl, rfl⟩

/-- What the styles make of one body. -/
structure SideBySide (origin : String) (body : List Stmt) (result : Style → List Stmt) : Prop where
  eager : ∀ bare,
    AwaitsRemoved (importedUrls origin body) (result ⟨.lazy, bare⟩) (result ⟨.eager, bare⟩)
  bared : ∀ strategy, Bared origin body (result ⟨strategy, false⟩) (result ⟨strategy, true⟩)
  noYield : ∀ strategy, ¬ HasAny Mark.IsOuterYield none ((result ⟨strategy, true⟩).map .stmt)

/--
All styles link a module that awaits nothing outside of its functions alike. They refuse it for the
same reasons, or what they make of it differs in how imports are awaited and in what serves exports.
-/
theorem ofBody_styles {source : String} {keepsComments : Bool} {program : Program}
    (hp : Program.parse? source keepsComments = some program)
    (hawait : ¬ HasAny Mark.IsOuterAwait none (program.body.map .stmt)) (origin : String)
    (links : Links) :
    (∃ links', ∀ style, (ofBody origin style program.body links).2 = links') ∧
      ((∃ es, ∀ style, (ofBody origin style program.body links).1 = .error es) ∨
        ∃ result, (∀ style, (ofBody origin style program.body links).1 = .ok (result style)) ∧
          SideBySide origin program.body result) := by
  rw [← Scope.hasAwait_iff, Bool.not_eq_true] at hawait
  have hagree (style : Style) := ofBody_agree hawait origin links style ⟨.lazy, false⟩
  refine ⟨⟨_, fun style => (hagree style).1⟩, ?_⟩
  cases hr : (ofBody origin ⟨.lazy, false⟩ program.body links).1 with
  | error es =>
    refine .inl ⟨es, fun style => ?_⟩
    rcases (hagree style).2 with ⟨es', hs, hs'⟩ | ⟨-, hs'⟩
    · rw [hs, ← hs', hr]
    · rw [hr] at hs'
      cases hs'
  | ok ss =>
    refine .inr ⟨fun style => (piecesOf origin style program.body).statements style.strategy,
      fun style => ?_, awaitsRemoved_statements, bared_statements, fun strategy => ?_⟩
    · rcases (hagree style).2 with ⟨es', -, hs'⟩ | ⟨hs, -⟩
      · rw [hr] at hs'
        cases hs'
      · exact hs
    · rintro ⟨n, hn, hhas⟩
      obtain ⟨s, hs, rfl⟩ := List.mem_map.1 hn
      exact isPlain_statements_bare strategy (Program.isPlain_of_parse? hp) s hs hhas

/-- All four lowerings of a module with exports of all kinds succeed. -/
theorem exportingSource_sideBySide : ∃ program links' result,
    Program.parse? exportingSource = some program ∧
      ¬ HasAny Mark.IsOuterAwait none (program.body.map .stmt) ∧
      (∀ style, ofBody "/a.js" style program.body { graph := Graph.empty.add "/a.js" } =
        (.ok (result style), links')) ∧
      SideBySide "/a.js" program.body result := by
  have hrun : ((Program.parse? exportingSource).map fun program =>
      ((Scope.ofBody program.body).hasAwait,
        (ofBody "/a.js" {} program.body { graph := Graph.empty.add "/a.js" }).1.isOk)) =
        some (false, true) := by
    decide +kernel
  obtain ⟨program, hp, hrun⟩ := Option.map_eq_some_iff.1 hrun
  obtain ⟨hscan, hok⟩ := Prod.mk.inj hrun
  have hawait : ¬ HasAny Mark.IsOuterAwait none (program.body.map .stmt) := by
    rw [← Scope.hasAwait_iff, hscan]
    decide
  obtain ⟨⟨links', hlinks⟩, ⟨es, herror⟩ | ⟨result, hresult, hside⟩⟩ :=
    ofBody_styles hp hawait "/a.js" { graph := Graph.empty.add "/a.js" }
  · rw [herror] at hok
    cases hok
  · exact ⟨program, links', result, hp, hawait,
      fun style => Prod.ext (hresult style) (hlinks style), hside⟩

end Bodies

end Thunk

end ScriptBundler
