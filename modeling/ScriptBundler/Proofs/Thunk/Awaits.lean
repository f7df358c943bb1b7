import ScriptBundler.Proofs.Syntax.Occurrence
import ScriptBundler.Thunk.Scope

namespace ScriptBundler

open Node

def Mark.IsOuterAwait (around : Option Bool) (mark : Mark) : Prop :=
  around = none ∧ mark = .await

namespace Thunk.Scope

/-- A walk comes to the parts of a node after it took down what is there, save for an await. -/
theorem run_walk (n : Node) (hs : n.isScope = false) (st : Scope) :
    (n.mark? = some .await ∧ (∃ place e, n = .expr place e) ∧
      ((n.walk visitor).run st).2 = { st with hasAwait := true }) ∨
      ((n.mark? = some .await → ∀ place e, n ≠ .expr place e) ∧ ((n.walk visitor).run st).2 =
        ((walkAll visitor n.parts).run ((n.note visitor).run st).2).2) := by
  have hparts := congrArg (fun m => (StateT.run m st).2) (parts_descend (v := visitor) hs)
  have hdescend : (n.mark? = some .await ∧ (∃ place e, n = .expr place e) ∧
      ((n.walk visitor).run st).2 = { st with hasAwait := true }) ∨
      ((n.mark? = some .await → ∀ place e, n ≠ .expr place e) ∧
        ((n.walk visitor).run st).2 = ((n.descend visitor).run st).2) := by
    cases n with
    | expr place e =>
      cases place with
      | operand => cases e <;> first | exact .inl ⟨rfl, ⟨_, _, rfl⟩, rfl⟩ | exact .inr ⟨nofun, rfl⟩
      | item => cases e <;> first | exact .inl ⟨rfl, ⟨_, _, rfl⟩, rfl⟩ | exact .inr ⟨nofun, rfl⟩
      | element => exact .inr ⟨nofun, rfl⟩
    | _ => exact .inr ⟨fun _ _ _ => nofun, rfl⟩
  exact hdescend.imp_right fun h => ⟨h.1, h.2.trans hparts⟩

theorem hasAwait_note_iff {n : Node} (hn : n.mark? = some .await → ∀ place e, n ≠ .expr place e)
    (st : Scope) : ((n.note visitor).run st).2.hasAwait = true ↔
      st.hasAwait = true ∨ n.mark? = some .await := by
  cases n with
  | expr place e => exact (or_iff_left fun h => hn h _ _ rfl).symm
  | decl d =>
    cases d with
    | vars kind ds =>
      cases kind with
      | awaitUsingKind => exact iff_of_true rfl (.inr rfl)
      | _ => exact (or_iff_left nofun).symm
    | _ => exact (or_iff_left nofun).symm
  | head left =>
    cases left with
    | vars kind ds =>
      cases kind with
      | awaitUsingKind => exact iff_of_true rfl (.inr rfl)
      | _ => exact (or_iff_left nofun).symm
    | _ => exact (or_iff_left nofun).symm
  | stmt s =>
    cases s with
    | forOf isAwait left right body =>
      cases isAwait with
      | true => exact iff_of_true rfl (.inr rfl)
      | false => exact (or_iff_left nofun).symm
    | _ => exact (or_iff_left nofun).symm
  | _ => exact (or_iff_left nofun).symm

theorem walk_of_isScope {n : Node} (hs : n.isScope = true) : n.walk visitor = pure n := by
  have hdescend := descend_of_isScope (v := visitor) rfl hs
  cases n with
  | expr place e =>
    cases e with
    | arrow => cases place <;> exact hdescend
    | arrowBlock => cases place <;> exact hdescend
    | _ => cases hs
  | _ => exact hdescend

theorem not_has_outerAwait_of_isScope {n : Node} (hs : n.isScope = true) :
    ¬ Has Mark.IsOuterAwait none n := by
  rcases n.scope_cases with ⟨hs', -⟩ | ⟨-, isAsync, hscope⟩
  · rw [hs] at hs'
    cases hs'
  · rw [has_iff_parts (mark?_of_isScope hs), hscope]
    rintro ⟨m, hm, h⟩
    exact not_has_some (fun _ _ h => nomatch h.1) isAsync m h

theorem hasAwait_walk_iff (n : Node) (st : Scope) :
    ((n.walk visitor).run st).2.hasAwait = true ↔
      st.hasAwait = true ∨ Has Mark.IsOuterAwait none n := by
  induction n using parts_induction generalizing st with
  | node n ih =>
    cases hs : n.isScope with
    | true =>
      rw [walk_of_isScope hs, or_iff_left (not_has_outerAwait_of_isScope hs)]
      rfl
    | false =>
      rcases run_walk n hs st with ⟨hn, -, hrun⟩ | ⟨hn, hrun⟩
      · rw [hrun]
        exact iff_of_true rfl (.inr (.here hn ⟨rfl, rfl⟩))
      · have hmark : (∃ mark, n.mark? = some mark ∧ mark.IsOuterAwait none) ↔
            n.mark? = some .await := by
          simp only [Mark.IsOuterAwait, true_and, exists_eq_right]
        rw [hrun, walkAll_collects (P := fun st : Scope => st.hasAwait = true) ih,
          hasAwait_note_iff hn, has_iff, hmark, scope_of_isScope hs, or_assoc]
        rfl

/-- A body is told to await just if there is an await outside of its functions. -/
theorem hasAwait_iff (body : List Stmt) :
    (Scope.ofBody body).hasAwait = true ↔ HasAny Mark.IsOuterAwait none (body.map .stmt) := by
  have hscan : (Scope.ofBody body).hasAwait =
      ((walkAll visitor (body.map .stmt)).run {}).2.hasAwait := by
    rw [← stmts_walk]
    rfl
  rw [hscan, walkAll_collects (P := fun st : Scope => st.hasAwait = true)
    fun n _ => hasAwait_walk_iff n]
  exact or_iff_right (by decide)

theorem not_has_of_hasAwait {body : List Stmt} (h : (Scope.ofBody body).hasAwait = false) :
    ¬ HasAny Mark.IsOuterAwait none (body.map .stmt) := by
  rw [← hasAwait_iff, h]
  decide

end Thunk.Scope

end ScriptBundler
