import ScriptBundler.Proofs.Graph.Refusals
import ScriptBundler.Proofs.Thunk.Lockstep
import ScriptBundler.Proofs.Thunk.Lowering

namespace ScriptBundler.Thunk

variable {origin : String} {style : Style} {scope : Scope} {body : List Stmt} {links : Links}

/-- What is collected from the calls of a statement, what ends the lowering there, and the graph
with its references. -/
def examine (origin : String) (g : Graph) (s : Stmt) :
    (List BuildError × Option BuildError) × Graph :=
  match s.source? with
  | some source =>
    let (wrong, g) := g.require origin (Url.resolve origin source)
    (([], wrong), g)
  | none =>
    let (es, g) := g.refuse origin (s.references origin)
    ((es, none), g)

def diagnose (origin : String) : Graph → List Stmt → List BuildError × Option BuildError
  | _, [] => ([], none)
  | g, s :: body =>
    match examine origin g s with
    | ((es, some e), _) => (es, some e)
    | ((es, none), g) =>
      let (es', stop) := diagnose origin g body
      (es ++ es', stop)

theorem examine_withoutExports (g : Graph) (s : Stmt) :
    examine origin g.withoutExports s =
      ((examine origin g s).1, (examine origin g s).2.withoutExports) := by
  unfold examine
  cases s.source? with
  | none => simp only [Graph.refuse_withoutExports]
  | some source => simp only [Graph.require_withoutExports]

theorem diagnose_withoutExports (g : Graph) (body : List Stmt) :
    diagnose origin g.withoutExports body = diagnose origin g body := by
  induction body generalizing g with
  | nil => rfl
  | cons s body ih =>
    rw [diagnose, diagnose, examine_withoutExports]
    generalize examine origin g s = answer
    obtain ⟨⟨es, _ | e⟩, g'⟩ := answer
    · exact congrArg (fun rest => (es ++ rest.1, rest.2)) (ih g')
    · rfl

/-- Exports apart, graphs that are the same give the same diagnosis. -/
theorem diagnose_congr {g g' : Graph} (h : g'.withoutExports = g.withoutExports)
    (body : List Stmt) : diagnose origin g' body = diagnose origin g body := by
  rw [← diagnose_withoutExports, h, diagnose_withoutExports]

/-- How a step ends that only one thing can be wrong with. -/
def answerOf : Option BuildError → Except BuildError Unit
  | some e => .error e
  | none => .ok ()

namespace Drafting

variable {α β : Type}

/-- Steps that never fail. -/
def Succeeds (m : Drafting α) : Prop := ∀ d, ∃ a, (m.run.run d).1 = .ok a

theorem Silent.succeeds {m : Drafting α} (h : Silent m) : Succeeds m := fun d => (h d).1

namespace Succeeds

protected theorem bind {m : Drafting α} {k : α → Drafting β} (hm : Succeeds m)
    (hk : ∀ a, Succeeds (k a)) : Succeeds (m >>= k) := by
  intro d
  obtain ⟨a, ha⟩ := hm d
  rw [run_bind]
  generalize m.run.run d = answer at ha
  obtain ⟨result, d'⟩ := answer
  obtain rfl := ha
  exact hk a d'

protected theorem forM {l : List β} {k : β → Drafting PUnit} (hk : ∀ b, Succeeds (k b)) :
    Succeeds (l.forM k) := by
  induction l with
  | nil => exact fun _ => ⟨_, rfl⟩
  | cons b l ih => exact (hk b).bind fun _ => ih

end Succeeds

theorem recordExport_succeeds (name : String) (binding : Binding) :
    Succeeds (recordExport origin name binding) := fun _ => ⟨_, rfl⟩

theorem keep_succeeds (s : Stmt) : Succeeds (keep origin s) := fun _ => ⟨_, rfl⟩

theorem publish_succeeds (exports : List (String × Descriptor)) :
    Succeeds (publish style exports) := (publish_silent exports).succeeds

theorem exportDeclaration_succeeds (d : Decl) : Succeeds (exportDeclaration origin style d) := by
  apply (keep_succeeds _).bind
  intro _
  apply (Succeeds.forM fun name => recordExport_succeeds name _).bind
  intro _
  exact publish_succeeds _

theorem exportLocals_succeeds (specifiers : List ExportSpecifier) :
    Succeeds (exportLocals origin style scope specifiers) := by
  apply (Succeeds.forM fun specifier => recordExport_succeeds _ _).bind
  intro _
  exact publish_succeeds _

theorem exportNamedDefault_succeeds (name : String) (d : Decl) :
    Succeeds (exportNamedDefault origin style name d) := by
  apply (keep_succeeds _).bind
  intro _
  apply (recordExport_succeeds _ _).bind
  intro _
  exact publish_succeeds _

theorem exportValue_succeeds (e : Expr) : Succeeds (exportValue origin style e) := by
  have hwalk : Succeeds (redirectCalls ((CallSites.visitor origin).walkExpr e)) :=
    fun _ => ⟨_, rfl⟩
  apply hwalk.bind
  intro e
  apply (recordExport_succeeds _ _).bind
  intro _
  split
  · exact (append_silent _).succeeds
  · exact publish_succeeds _

/-- Steps that fail just if the module must not be required that `source` names. -/
def NeedsOnly (origin source : String) (m : Drafting Unit) : Prop :=
  ∀ d, (m.run.run d).1 = answerOf (d.links.graph.require origin (Url.resolve origin source)).1

theorem linked_needsOnly (source : String) {k : String → Drafting Unit}
    (hk : ∀ url, Succeeds (k url)) :
    NeedsOnly origin source (do let url ← require origin source; group url id; k url) := by
  intro d
  have hrun : (require origin source).run.run d =
      ((d.links.require origin source).1,
        { d with links := (d.links.require origin source).2 }) := rfl
  have hr := result_require d.links origin source
  rw [run_bind, hrun]
  generalize d.links.require origin source = answer at hr
  obtain ⟨result, links⟩ := answer
  cases he : (d.links.graph.require origin (Url.resolve origin source)).1 with
  | some e =>
    rw [he] at hr
    obtain rfl := hr
    rfl
  | none =>
    rw [he] at hr
    obtain rfl := hr
    have hrest : Succeeds (do
        group (Url.resolve origin source) id
        k (Url.resolve origin source)) :=
      (group_silent _ id).succeeds.bind fun _ => hk _
    obtain ⟨value, hok⟩ := hrest { d with links := links }
    exact hok

theorem importModule_needsOnly (d : ImportDecl) :
    NeedsOnly origin d.source (importModule origin d) := by
  apply linked_needsOnly
  intro url
  apply Succeeds.forM
  intro s
  cases s <;> exact (group_silent url _).succeeds

theorem reexport_needsOnly (specifiers : List ExportSpecifier) (source : String) :
    NeedsOnly origin source (reexport origin style specifiers source) := by
  apply linked_needsOnly
  intro url
  apply (Succeeds.forM fun specifier => recordExport_succeeds _ _).bind
  intro _
  exact (publishHidden_silent style url _).succeeds

theorem exportAll_needsOnly (exported : Option ModuleName) (source : String) :
    NeedsOnly origin source (exportAll origin style exported source) := by
  apply linked_needsOnly
  intro url
  cases exported with
  | some name =>
    apply (recordExport_succeeds _ _).bind
    intro _
    exact (publishHidden_silent style url _).succeeds
  | none => exact (passHidden_silent style url).succeeds

theorem statement_needsOnly {s : Stmt} {source : String} (hs : s.source? = some source) :
    NeedsOnly origin source (statement origin style scope s) := by
  cases s with
  | importDecl d =>
    cases hs
    exact importModule_needsOnly d
  | exportNames specifiers named =>
    obtain rfl : named = some source := hs
    exact reexport_needsOnly specifiers source
  | exportAll exported named attributes =>
    cases hs
    exact exportAll_needsOnly exported source
  | _ => cases hs

theorem statement_succeeds {s : Stmt} (hs : s.source? = none) :
    Succeeds (statement origin style scope s) := by
  cases s with
  | importDecl d => cases hs
  | exportDecl d =>
    simp only [statement]
    split
    · exact fun _ => ⟨_, rfl⟩
    · exact exportDeclaration_succeeds d
  | exportNames specifiers source =>
    obtain rfl : source = none := hs
    exact exportLocals_succeeds specifiers
  | exportAll exported source attributes => cases hs
  | exportDefaultFunction f =>
    simp only [statement]
    split
    · exact exportNamedDefault_succeeds _ _
    · exact exportValue_succeeds _
  | exportDefaultClass c =>
    simp only [statement]
    split
    · exact exportNamedDefault_succeeds _ _
    · exact exportValue_succeeds _
  | exportDefault e => exact exportValue_succeeds e
  | _ => exact keep_succeeds _

theorem collected_of_ok {s : Stmt} {d d' : Draft} {result : Except BuildError Unit}
    (hrun : (statement origin style scope s).run.run d = (result, d')) (hok : result = .ok ()) :
    d'.errors = d.errors ++ (d.links.graph.refuse origin (s.references origin)).1 ∧
      d'.links.graph.withoutExports =
        (d.links.graph.refuse origin (s.references origin)).2.withoutExports := by
  have heffect : Outcome origin (s.references origin) d _
      ((statement origin style scope s).run.run d).1
      ((statement origin style scope s).run.run d).2 := statement_effect s d
  rw [hrun] at heffect
  subst hok
  cases heffect with
  | ok linked errors pieces =>
    have hrefuse := linked.refuse_eq
    rw [Graph.refuse_withoutExports, Prod.mk.injEq] at hrefuse
    rw [errors, hrefuse.1, hrefuse.2]
    exact ⟨rfl, rfl⟩

theorem run_statement_examined {s : Stmt} {d d' : Draft} {result : Except BuildError Unit}
    (hrun : (statement origin style scope s).run.run d = (result, d')) :
    result = answerOf (examine origin d.links.graph s).1.2 ∧
      ((examine origin d.links.graph s).1.2 = none →
        d'.errors = d.errors ++ (examine origin d.links.graph s).1.1 ∧
          d'.links.graph.withoutExports =
            (examine origin d.links.graph s).2.withoutExports) := by
  unfold examine
  cases hs : s.source? with
  | none =>
    have hsucceeds : Succeeds (statement origin style scope s) := statement_succeeds hs
    obtain ⟨value, hok⟩ := hsucceeds d
    rw [hrun] at hok
    exact ⟨hok, fun _ => collected_of_ok hrun hok⟩
  | some source =>
    have hrefs : s.references origin = [Url.resolve origin source] := by
      rw [Stmt.references, hs]
    have hneeds : NeedsOnly origin source (statement origin style scope s) :=
      statement_needsOnly hs
    replace hneeds := hneeds d
    rw [hrun] at hneeds
    refine ⟨hneeds, fun hstop => ?_⟩
    change (d.links.graph.require origin (Url.resolve origin source)).1 = none at hstop
    rw [hstop] at hneeds
    have hcollected := collected_of_ok hrun hneeds
    simp only [hrefs, Graph.refuse, hstop, Option.toList_none, List.append_nil] at hcollected
    refine ⟨?_, hcollected.2⟩
    rw [hcollected.1, List.append_nil]

theorem run_statements_diagnosed (origin : String) (style : Style) (scope : Scope)
    (body : List Stmt) (d : Draft) :
    ((body.forM (statement origin style scope)).run.run d).1 =
        answerOf (diagnose origin d.links.graph body).2 ∧
      ((diagnose origin d.links.graph body).2 = none →
        ((body.forM (statement origin style scope)).run.run d).2.errors =
          d.errors ++ (diagnose origin d.links.graph body).1) := by
  induction body generalizing d with
  | nil => exact ⟨rfl, fun _ => (List.append_nil _).symm⟩
  | cons s body ih =>
    have hcons : (s :: body).forM (statement origin style scope) =
        statement origin style scope s >>= fun _ => body.forM (statement origin style scope) := rfl
    rw [hcons, run_bind, diagnose]
    rcases hrun : (statement origin style scope s).run.run d with ⟨result, d'⟩
    obtain ⟨hanswer, hexamined⟩ := run_statement_examined hrun
    -- the statement that stops the run is the one that the diagnosis stops at
    rcases hexamine : examine origin d.links.graph s with ⟨⟨es, _ | e⟩, g⟩
    · rw [hexamine] at hanswer hexamined
      obtain ⟨herrors, hgraph⟩ := hexamined rfl
      obtain rfl := hanswer
      obtain ⟨hresult, hcollected⟩ := ih d'
      rw [diagnose_congr hgraph] at hresult hcollected
      refine ⟨hresult, fun hstop => ?_⟩
      have hall := hcollected hstop
      rw [herrors, List.append_assoc] at hall
      exact hall
    · rw [hexamine] at hanswer
      obtain rfl := hanswer
      refine ⟨rfl, fun hstop => ?_⟩
      cases hstop

end Drafting

def report (origin : String) (style : Style) (body : List Stmt) :
    List BuildError × Option BuildError → Except (List BuildError) (List Stmt)
  | (_, some e) => .error [e]
  | ([], none) =>
    if "yield" ∈ importedLocals body then .error [.parseError ownCode]
    else .ok ((piecesOf origin style body).statements style.strategy)
  | (es, none) => .error es

/-- A lowering reports what ended it, or else all that it collected, in the order of the text. -/
theorem ofBody_reports (h : (Scope.ofBody body).hasAwait = true → style.strategy = .lazy) :
    (ofBody origin style body links).1 =
      report origin style body (diagnose origin links.graph body) := by
  have hawait : ((Scope.ofBody body).hasAwait && decide (style.strategy = .eager)) = false := by
    cases ha : (Scope.ofBody body).hasAwait with
    | false => rfl
    | true => rw [h ha]; rfl
  obtain ⟨hresult, hcollected⟩ :=
    Drafting.run_statements_diagnosed origin style (Scope.ofBody body) body { links := links }
  simp only [ofBody, hawait, Bool.false_eq_true, ↓reduceIte]
  rcases hrun : (body.forM (Drafting.statement origin style (Scope.ofBody body))).run.run
    { links := links } with ⟨result, d⟩
  rw [hrun] at hresult hcollected
  obtain rfl := hresult
  rcases hd : diagnose origin links.graph body with ⟨es, _ | e⟩
  · rw [hd] at hrun hcollected
    change d.finish style.strategy = _
    rw [finish_eq hrun, hcollected rfl]
    cases es <;> rfl
  · rfl

def requiredMain : Graph :=
  (((Graph.empty.add "/main.js").add "/a.js").require "/a.js" "/main.js").2

def cyclicCalls : List Stmt := [
  .expr (.call (.ident "include") [.string "./a.js"]),
  .expr (.call (.ident "include") [.string "./main.js"])]

theorem cyclicCalls_reported : (Scope.ofBody cyclicCalls).hasAwait = false ∧
    (ofBody "/main.js" ⟨.eager, false⟩ cyclicCalls { graph := requiredMain }).1 =
      .error [.circularImport ["/main.js", "/a.js", "/main.js"],
        .circularImport ["/main.js", "/main.js"]] :=
  ⟨rfl, ofBody_reports (by decide)⟩

def selfImport : List Stmt := [
  .expr (.call (.ident "include") [.string "./a.js"]),
  .importDecl ⟨none, none, "./main.js", none⟩]

/-- The import ends the lowering, and what was wrong with the call before it is not reported. -/
theorem selfImport_hides_cycle : ¬ ∀ origin style body links es,
    ((Scope.ofBody body).hasAwait = true → style.strategy = .lazy) →
    (ofBody origin style body links).1 = .error es →
    ((diagnose origin links.graph body).1 ++
      (diagnose origin links.graph body).2.toList).Sublist es := by
  intro h
  have hd : diagnose "/main.js" requiredMain selfImport =
      ([.circularImport ["/main.js", "/a.js", "/main.js"]],
        some (.circularImport ["/main.js", "/main.js"])) := rfl
  have hrun : (ofBody "/main.js" {} selfImport { graph := requiredMain }).1 =
      .error [.circularImport ["/main.js", "/main.js"]] := rfl
  have hsub := h _ _ _ _ _ (by decide) hrun
  rw [hd] at hsub
  exact absurd hsub.length_le (by decide)

end ScriptBundler.Thunk
