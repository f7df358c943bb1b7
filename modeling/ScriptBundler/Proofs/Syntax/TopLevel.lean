import ScriptBundler.Proofs.Syntax.Yields.Program
import ScriptBundler.Proofs.Thunk.Compaction

namespace ScriptBundler

open Node

/-- An expression that does not end in a yield. -/
def Expr.IsQuiet (e : Expr) : Prop := e.events? = none

def Stmt.IsQuiet : Stmt → Prop
  | .expr e => e.IsQuiet
  | _ => True

theorem Expr.sequenceEvents?_eq_none {es : List Expr} (h : ∀ e ∈ es, e.IsQuiet) :
    sequenceEvents? es = none := by
  rcases List.eq_nil_or_concat' es with rfl | ⟨leading, last, rfl⟩
  · rfl
  · have hl : last.events? = none :=
      h last (List.mem_append_right _ (List.mem_singleton_self last))
    rw [sequenceEvents?_append, hl]
    rfl

theorem Expr.IsPlain.isQuiet {e : Expr} (h : e.IsPlain) : e.IsQuiet := by
  cases e with
  | «yield» value => exact absurd (.here rfl ⟨rfl, rfl⟩) h
  | yieldAll source => exact absurd (.here rfl ⟨rfl, rfl⟩) h
  | sequence items =>
    apply Expr.sequenceEvents?_eq_none
    intro e he
    have hlt := List.sizeOf_lt_of_mem he
    have hitem : e.IsPlain := isPlain_item.1 (h.part rfl (List.mem_map_of_mem he))
    exact hitem.isQuiet
  | paren inner =>
    have hinner : inner.IsPlain := h.part rfl (List.mem_singleton_self _)
    exact hinner.isQuiet
  | _ => rfl
termination_by sizeOf e

theorem Stmt.IsPlain.isQuiet {s : Stmt} (h : s.IsPlain) : s.IsQuiet := by
  cases s with
  | expr e =>
    have he : e.IsPlain := h.part rfl (List.mem_singleton_self _)
    exact he.isQuiet
  | _ => exact True.intro

theorem Parser.program_exports (hashbang : Option String) (depth : Nat) :
    Ensures (program hashbang depth) fun p => (p.body.flatMap Stmt.exportedNames).Nodup := by
  exact .skip fun _ => .skip fun _ => .skip fun _ => .skip fun _ => .skip fun _ => .skip fun _ =>
    .skip fun _ => (EnsuresIn.require _).bind fun _ hn => .skip fun _ => .skip fun _ =>
      .pure (of_decide_eq_true hn)

theorem Program.topLevel_of_parse? {source : String} {keepsComments : Bool} {p : Program}
    (h : Program.parse? source keepsComments = some p) :
    (p.body.flatMap Stmt.exportedNames).Nodup ∧ ∀ s ∈ p.body, s.IsQuiet := by
  have hplain := Program.isPlain_of_parse? h
  obtain ⟨⟨p', s⟩, hr, rfl⟩ := Option.map_eq_some_iff.1 h
  exact ⟨Parser.program_exports _ _ _ _ _ _ rfl hr, fun s hs => (hplain s hs).isQuiet⟩

end ScriptBundler
