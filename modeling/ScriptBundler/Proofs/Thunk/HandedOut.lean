import ScriptBundler.Proofs.Syntax.TopLevel
import ScriptBundler.Proofs.Thunk.Pieces

namespace ScriptBundler

section Renaming

variable {name : String → String}

namespace Expr

theorem run_descendAll_cons (e : Expr) (es : List Expr) (names : List String) :
    ∃ e' names', ((Expr.descendAll (Thunk.naming name) (e :: es)).run names).1 =
        e' :: ((Expr.descendAll (Thunk.naming name) es).run names').1 ∧
      ((∃ value, e' = .spread value) ∨
        e' = (((Thunk.naming name).walkExpr e).run names).1) := by
  cases e
  case spread value => exact ⟨_, _, rfl, .inl ⟨_, rfl⟩⟩
  all_goals exact ⟨_, _, rfl, .inr rfl⟩

mutual

theorem events?_walk : ∀ (e : Expr) (names : List String), e.events? = none →
    (((Thunk.naming name).walkExpr e).run names).1.events? = none := by
  intro e names h
  rw [Visitor.walkExpr, Thunk.run_visit_naming]
  cases he : e.specifier? with
  | some specifier =>
    unfold Expr.specifier? at he
    split at he
    · rfl
    · rfl
    · cases he
  | none =>
    cases e with
    | «yield» value => cases value <;> cases h
    | yieldAll source =>
      obtain ⟨own, -, hown, -⟩ := (IsYield.all source).yielded
      rw [hown] at h
      cases h
    | sequence items => exact sequenceEvents?_walk items names h
    | paren inner => exact events?_walk inner names h
    | _ => rfl

theorem sequenceEvents?_walk : ∀ (es : List Expr) (names : List String),
    sequenceEvents? es = none →
    sequenceEvents? ((Expr.descendAll (Thunk.naming name) es).run names).1 = none := by
  intro es names h
  cases es with
  | nil => rfl
  | cons e es =>
    obtain ⟨e', names', hr, he⟩ := run_descendAll_cons e es names
    rw [hr]
    cases es with
    | nil =>
      rcases he with ⟨value, rfl⟩ | rfl
      · rfl
      · exact events?_walk e names h
    | cons next es =>
      have hnext : sequenceEvents? (next :: es) = none := Option.map_eq_none_iff.1 h
      have htail := sequenceEvents?_walk (next :: es) names' hnext
      obtain ⟨next', names'', hr', -⟩ := run_descendAll_cons next es names'
      rw [hr'] at htail ⊢
      rw [sequenceEvents?_cons e' (List.cons_ne_nil _ _), htail]
      rfl

end

end Expr

theorem Stmt.IsQuiet.renamed {s : Stmt} (h : s.IsQuiet) : (s.renamed name).IsQuiet := by
  cases s with
  | expr e => exact Expr.events?_walk e [] h
  | forOf isAwait left right body => cases isAwait <;> exact True.intro
  | tryCatch body handler finalizer =>
    rcases handler with _ | ⟨_ | _, _⟩ <;> exact True.intro
  | _ => exact True.intro

end Renaming

/-- What is handed out, among other events. -/
def Event.item? : Event → Option Expr
  | .handsOut item => some item
  | _ => none

namespace Thunk

/-- What a body hands out, in its order. -/
def handedOut (ss : List Stmt) : List Expr := (trace ss).filterMap Event.item?

theorem handedOut_append (ss ts : List Stmt) :
    handedOut (ss ++ ts) = handedOut ss ++ handedOut ts := by
  simp only [handedOut, trace, List.flatMap_append, List.filterMap_append]

theorem handedOut_flatMap {α : Type} (l : List α) (f : α → List Stmt) :
    handedOut (l.flatMap f) = l.flatMap fun a => handedOut (f a) := by
  induction l with
  | nil => rfl
  | cons a l ih => rw [List.flatMap_cons, handedOut_append, ih, List.flatMap_cons]

theorem handedOut_of_quiet {s : Stmt} (h : s.IsQuiet) : handedOut [s] = [] := by
  have hevents : s.events.filterMap Event.item? = [] := by
    cases s with
    | expr e =>
      have he : e.events? = none := h
      rw [Stmt.events, he]
      rfl
    | decl d =>
      cases d with
      | vars kind ds =>
        have hdeclares (kind : VarKind) :
            (ds.map (Event.declares kind)).filterMap Event.item? = [] := by
          rw [List.filterMap_map]
          exact List.filterMap_eq_nil_iff.2 fun _ _ => rfl
        cases kind <;> first | exact hdeclares _ | rfl
      | _ => rfl
    | _ => rfl
  rw [handedOut, trace, List.flatMap_singleton, hevents]

theorem handedOut_eq_nil {ss : List Stmt} (h : ∀ s ∈ ss, s.IsQuiet) : handedOut ss = [] := by
  induction ss with
  | nil => rfl
  | cons s ss ih =>
    obtain ⟨hs, hss⟩ := List.forall_mem_cons.1 h
    rw [← List.singleton_append, handedOut_append, handedOut_of_quiet hs, ih hss]
    rfl

end Thunk

end ScriptBundler
