import ScriptBundler.Proofs.Graph.Linking
import ScriptBundler.Proofs.Syntax.InStep
import ScriptBundler.Thunk

namespace ScriptBundler

def Expr.specifier? : Expr → Option String
  | .importCall _ [.string specifier _] => some specifier
  | .call callee [.string specifier _] _ _ => if callee.isInclude then some specifier else none
  | _ => none

def Expr.withUrl (url : String) : Expr → Expr
  | .importCall _ _ => .windowInclude url
  | .call callee [.string _ lone] isOptional isPure =>
    .call callee [.string url lone] isOptional isPure
  | e => e

namespace Thunk

def naming (name : String → String) : Visitor (List String) where
  onExpr e := fun names =>
    match e.specifier? with
    | some specifier => (some (e.withUrl (name specifier)), names ++ [name specifier])
    | none => (none, names)

end Thunk

namespace Stmt

def calls (name : String → String) (s : Stmt) : List String :=
  ((s.descend (Thunk.naming name)).run []).2

def renamed (name : String → String) (s : Stmt) : Stmt := ((s.descend (Thunk.naming name)).run []).1

@[simp] def source? : Stmt → Option String
  | .importDecl d => some d.source
  | .exportNames _ source => source
  | .exportAll _ source _ => some source
  | _ => none

/-- Whether a statement exports what only type checkers read. -/
def isTypeOnly : Stmt → Bool
  | .exportDecl d => d.isTypeOnly
  | _ => false

def references (origin : String) (s : Stmt) : List String :=
  match s.source? with
  | some source => [Url.resolve origin source]
  | none => if s.isTypeOnly then [] else s.calls (Url.resolve origin)

end Stmt

def Expr.renamed (name : String → String) (e : Expr) : Expr :=
  (((Thunk.naming name).walkExpr e).run []).1

namespace Thunk

variable {origin : String} {name : String → String}

theorem run_visit_naming (e : Expr) (m : StateM (List String) Expr) (names : List String) :
    ((naming name).visit e m).run names = match e.specifier? with
      | some specifier => (e.withUrl (name specifier), names ++ [name specifier])
      | none => m.run names := by
  simp only [Visitor.visit, naming, StateT.run, bind, StateT.bind]
  cases e.specifier? <;> rfl

/-- What was collected before has no part in a walk. -/
theorem naming_agree (before : List String) :
    Visitor.Agree (fun names names' => names = before ++ names') (fun _ => True)
      (naming name) (naming name) := by
  refine ⟨InStep.combines _ _, rfl, fun e h names names' hn => ?_, fun _ h => h,
    fun _ _ => .pure rfl, .pure rfl⟩
  subst hn
  rw [run_visit_naming, run_visit_naming]
  cases e.specifier? with
  | none => exact h _ names' rfl
  | some specifier => exact ⟨List.append_assoc _ _ _, fun _ => ⟨trivial, rfl⟩⟩

theorem naming_related : Visitor.Related
    (fun a m _ => InStep (fun _ _ => True) (· = []) Eq m (pure a : StateM Unit _))
    (naming name) (naming name) where
  pure _ := .pure rfl
  map _ h := h.map
  map₂ _ h h' := h.map₂ h'
  scopes := rfl
  expr e h names _ _ := by
    rw [run_visit_naming]
    cases e.specifier? with
    | none => exact h names () trivial
    | some specifier =>
      exact ⟨trivial, fun hn => absurd (List.append_eq_nil_iff.1 hn).2 (List.cons_ne_nil _ _)⟩
  body _ h := h
  declarations _ _ := .pure rfl
  forAwait := .pure rfl

theorem renamed_of_calls_eq_nil {s : Stmt} (h : s.calls name = []) : s.renamed name = s :=
  ((Stmt.descend_related naming_related s [] () trivial).2 h).2

section Require

variable (l : Links) (origin specifier : String)

theorem graph_require :
    (l.require origin specifier).2.graph =
      (l.graph.require origin (Url.resolve origin specifier)).2 := by
  rw [Links.require, Graph.require_snd]
  split
  · rfl
  · split <;> rfl

theorem result_require :
    (l.require origin specifier).1 =
      match (l.graph.require origin (Url.resolve origin specifier)).1 with
      | some e => .error e
      | none => .ok (Url.resolve origin specifier) := by
  rw [Links.require, Graph.require]
  cases ((l.graph.add (Url.resolve origin specifier)).addEdge origin
      (Url.resolve origin specifier)).1 <;> rfl

end Require

namespace CallSites

theorem run_require (origin : String) (cs : CallSites) (specifier : String) :
    ∃ log, (require origin specifier).run cs =
      let answer := cs.links.graph.require origin (Url.resolve origin specifier)
      (if answer.1.isSome then none else some (Url.resolve origin specifier),
        ⟨⟨answer.2, log⟩, cs.errors ++ answer.1.toList⟩) := by
  have hg := graph_require cs.links origin specifier
  have hr := result_require cs.links origin specifier
  refine ⟨(cs.links.require origin specifier).2.log, ?_⟩
  simp only [require, StateT.run, ← hg]
  generalize cs.links.require origin specifier = answer at hr
  obtain ⟨result, links⟩ := answer
  cases he : (cs.links.graph.require origin (Url.resolve origin specifier)).1 with
  | none =>
    rw [he] at hr
    obtain rfl := hr
    simp only [Option.toList_none, List.append_nil, Option.isSome_none, Bool.false_eq_true,
      ↓reduceIte]
  | some e =>
    rw [he] at hr
    obtain rfl := hr
    rfl

/-- A call that names a module is redirected, unless the module must not be required. -/
theorem run_redirect? (origin : String) (cs : CallSites) {e : Expr} {specifier : String}
    (he : e.specifier? = some specifier) :
    ∃ log, (redirect? origin e).run cs =
      let answer := cs.links.graph.require origin (Url.resolve origin specifier)
      (if answer.1.isSome then none else some (e.withUrl (Url.resolve origin specifier)),
        ⟨⟨answer.2, log⟩, cs.errors ++ answer.1.toList⟩) := by
  obtain ⟨log, hr⟩ := run_require origin cs specifier
  simp only [StateT.run] at hr
  unfold Expr.specifier? at he
  split at he
  · obtain rfl := Option.some.inj he
    simp only [redirect?, StateT.run, bind, StateT.bind, hr]
    cases (cs.links.graph.require origin (Url.resolve origin _)).1 with
    | none => exact ⟨_, rfl⟩
    | some e => exact ⟨log, rfl⟩
  · split at he
    · next hi =>
      obtain rfl := Option.some.inj he
      simp only [redirect?, hi, Bool.not_true, Bool.false_eq_true, ↓reduceIte, StateT.run, bind,
        StateT.bind, hr]
      cases (cs.links.graph.require origin (Url.resolve origin _)).1 with
      | none => exact ⟨_, rfl⟩
      | some e => exact ⟨log, rfl⟩
    · cases he
  · cases he

theorem run_redirect?_none (cs : CallSites) {e : Expr} (he : e.specifier? = none) :
    (redirect? origin e).run cs = (none, cs) := by
  unfold redirect?
  split
  · cases he
  · simp only [Expr.specifier?, ite_eq_right_iff, reduceCtorEq, imp_false] at he
    simp only [he, Bool.not_false, ↓reduceIte]
    rfl
  · rfl

/-- A call that names a module has no parts that do. -/
theorem run_descend_of_specifier? (cs : CallSites) {e : Expr} {specifier : String}
    (he : e.specifier? = some specifier) :
    ((e.descend (visitor origin)).run cs) = (e, cs) := by
  unfold Expr.specifier? at he
  split at he
  · rfl
  · split at he
    · next hi =>
      unfold Expr.isInclude at hi
      split at hi
      · rfl
      · rfl
      · cases hi
    · cases he
  · cases he

theorem onExpr_visitor (origin : String) : (visitor origin).onExpr = redirect? origin := rfl

theorem run_visit (origin : String) (cs : CallSites) {e : Expr} {specifier : String}
    (he : e.specifier? = some specifier) :
    ∃ log, ((visitor origin).visit e (e.descend (visitor origin))).run cs =
      let answer := cs.links.graph.require origin (Url.resolve origin specifier)
      (if answer.1.isSome then e else e.withUrl (Url.resolve origin specifier),
        ⟨⟨answer.2, log⟩, cs.errors ++ answer.1.toList⟩) := by
  obtain ⟨log, hr⟩ := run_redirect? origin cs he
  refine ⟨log, ?_⟩
  simp only [Visitor.visit, StateT.run_bind, onExpr_visitor, hr]
  cases (cs.links.graph.require origin (Url.resolve origin specifier)).1 with
  | none => rfl
  | some _ => exact run_descend_of_specifier? _ he

theorem run_visit_none (cs : CallSites) {e : Expr} (he : e.specifier? = none)
    (m : StateM CallSites Expr) : ((visitor origin).visit e m).run cs = m.run cs := by
  simp only [Visitor.visit, StateT.run_bind, onExpr_visitor, run_redirect?_none cs he]
  rfl

/-- What a walk has done since `start`: it referred to `urls`, and noted what was wrong. -/
def Since (origin : String) (start cs : CallSites) (urls : List String) : Prop :=
  ∃ es, cs.errors = start.errors ++ es ∧
    Graph.Linked origin start.links.graph urls es cs.links.graph

theorem Since.refl (origin : String) (cs : CallSites) : Since origin cs cs [] :=
  ⟨[], (List.append_nil _).symm, .refl⟩

theorem visitor_agree (start : CallSites) :
    Visitor.Agree (Since origin start) (fun cs => cs.errors = [])
      (visitor origin) (naming (Url.resolve origin)) := by
  refine ⟨InStep.combines _ _, rfl, fun e h cs urls hs => ?_, fun _ h => h,
    fun _ _ => .pure rfl, .pure rfl⟩
  rw [run_visit_naming]
  cases he : e.specifier? with
  | none =>
    rw [run_visit_none cs he]
    exact h cs urls hs
  | some specifier =>
    obtain ⟨es, hes, hl⟩ := hs
    obtain ⟨log, hr⟩ := run_visit origin cs he
    rw [hr]
    refine ⟨⟨_, (congrArg (· ++ _) hes).trans (List.append_assoc _ _ _), hl.require _⟩,
      fun hg => ?_⟩
    obtain ⟨hcs, hnone⟩ := List.append_eq_nil_iff.1 hg
    exact ⟨hcs, if_neg (Option.not_isSome_iff_eq_none.2 (Option.toList_eq_nil_iff.1 hnone))⟩

end CallSites

end Thunk

end ScriptBundler
