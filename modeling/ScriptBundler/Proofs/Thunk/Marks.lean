import ScriptBundler.Proofs.Syntax.Occurrence
import ScriptBundler.Proofs.Thunk.Compaction
import ScriptBundler.Proofs.Thunk.Lowering

namespace ScriptBundler

open Node

variable {Q : Option Bool → Mark → Prop} {around : Option Bool}

section Naming

variable {name : String → String}

theorem Expr.not_has_of_specifier? {e : Expr} {specifier : String} (place : Place)
    (h : e.specifier? = some specifier) : ¬ Has Q around (.expr place e) := by
  unfold specifier? at h
  split at h
  · cases place <;> simp [has_iff, mark?, Node.parts, Expr.parts, scope]
  · split at h
    · next hi =>
      unfold isInclude at hi
      split at hi
      · cases place <;> simp [has_iff, mark?, Node.parts, Expr.parts, scope]
      · cases place <;> simp [has_iff, mark?, Node.parts, Expr.parts, scope]
      · cases hi
    · cases h
  · cases h

theorem Expr.specifier?_withUrl {e : Expr} {specifier : String} (url : String)
    (h : e.specifier? = some specifier) : (e.withUrl url).specifier? = some url := by
  unfold specifier? at h
  split at h
  · rfl
  · split at h
    · next hi => exact if_pos hi
    · cases h
  · cases h

variable {n m : Node}

/-- A walk goes on into the parts of a node, unless the node names a module. -/
theorem Node.run_walk_naming (n : Node) (names : List String) :
    ((n.walk (Thunk.naming name)).run names).1 =
        ((n.descend (Thunk.naming name)).run names).1 ∨
      ∃ place e specifier, n = .expr place e ∧ e.specifier? = some specifier ∧
        ((n.walk (Thunk.naming name)).run names).1 = .expr place (e.withUrl (name specifier)) := by
  have hvisit (place : Place) (e : Expr) :
      (((do return .expr place (← (Thunk.naming name).visit e (e.descend (Thunk.naming name)))) :
          StateM (List String) Node).run names).1 =
        (((Node.expr place e).descend (Thunk.naming name)).run names).1 ∨
      ∃ place' e' specifier, Node.expr place e = .expr place' e' ∧ e'.specifier? = some specifier ∧
        (((do return .expr place (← (Thunk.naming name).visit e (e.descend (Thunk.naming name)))) :
          StateM (List String) Node).run names).1 = .expr place' (e'.withUrl (name specifier)) := by
    simp only [StateT.run_bind, Thunk.run_visit_naming]
    cases hs : e.specifier? with
    | none => exact .inl rfl
    | some specifier => exact .inr ⟨place, e, specifier, rfl, hs, rfl⟩
  cases n with
  | expr place e =>
    cases place with
    | operand => exact hvisit .operand e
    | item =>
      cases e with
      | spread value => exact .inl rfl
      | _ => exact hvisit .item _
    | element => exact .inl rfl
  | _ => exact .inl rfl

theorem Node.parts_descend_naming (name : String → String) (n : Node) (names : List String) :
    ∃ names', ((n.descend (Thunk.naming name)).run names).1.parts =
      ((walkAll (Thunk.naming name) n.parts).run names').1 := by
  have hparts := parts_descend_of_enters (v := Thunk.naming name) rfl (fun _ _ => rfl) n
  have hrun := congrArg (fun m => (StateT.run m names).1) hparts
  exact ⟨((n.note (Thunk.naming name)).run names).2, hrun⟩

theorem Node.has_of_has_walk {names : List String} (h : Has Q around m)
    (hm : m = ((n.walk (Thunk.naming name)).run names).1) : Has Q around n := by
  induction h generalizing n names with
  | @here around m mark hmark hq =>
    rcases n.run_walk_naming names with hw | ⟨place, e, specifier, rfl, hs, hw⟩
    · rw [hm, hw, mark?_descend] at hmark
      exact .here hmark hq
    · rw [hm, hw] at hmark
      exact absurd (.here hmark hq)
        (Expr.not_has_of_specifier? place (Expr.specifier?_withUrl _ hs))
  | @part around m m' hpart h ih =>
    rcases n.run_walk_naming names with hw | ⟨place, e, specifier, rfl, hs, hw⟩
    · rw [hm, hw, scope_descend] at h ih
      obtain ⟨names', hp⟩ := n.parts_descend_naming name names
      rw [hm, hw, hp] at hpart
      obtain ⟨n', hn', names'', he⟩ := mem_walkAll hpart
      exact .part hn' (ih he)
    · rw [hm, hw] at hpart h
      exact absurd (.part hpart h) (Expr.not_has_of_specifier? place (Expr.specifier?_withUrl _ hs))

theorem Node.has_walk_of_has (h : Has Q around n) (names : List String) :
    Has Q around ((n.walk (Thunk.naming name)).run names).1 := by
  induction h generalizing names with
  | @here around n mark hmark hq =>
    rcases n.run_walk_naming names with hw | ⟨place, e, specifier, rfl, hs, -⟩
    · rw [hw]
      exact .here (by rw [mark?_descend, hmark]) hq
    · exact absurd (.here hmark hq) (Expr.not_has_of_specifier? place hs)
  | @part around n n' hpart h ih =>
    rcases n.run_walk_naming names with hw | ⟨place, e, specifier, rfl, hs, -⟩
    · rw [hw]
      obtain ⟨names', hp⟩ := n.parts_descend_naming name names
      obtain ⟨names'', hmem⟩ := walk_mem_walkAll (v := Thunk.naming name) names' hpart
      rw [← hp] at hmem
      rw [← scope_descend (v := Thunk.naming name) n names] at ih
      exact .part hmem (ih names'')
    · exact absurd (.part hpart h) (Expr.not_has_of_specifier? place hs)

theorem Node.has_walk_iff (names : List String) :
    Has Q around ((n.walk (Thunk.naming name)).run names).1 ↔ Has Q around n := by
  constructor
  · intro h
    exact has_of_has_walk h rfl
  · intro h
    exact has_walk_of_has h names

theorem Stmt.has_renamed {s : Stmt} :
    Has Q around (.stmt (s.renamed name)) ↔ Has Q around (.stmt s) :=
  Node.has_walk_iff (n := .stmt s) []

theorem Expr.has_renamed {e : Expr} :
    Has Q around (.expr .operand (e.renamed name)) ↔ Has Q around (.expr .operand e) :=
  Node.has_walk_iff (n := .expr .operand e) []

end Naming

section Merging

variable (hy : ¬ Q around .yield)
include hy

theorem Expr.has_yield (value : Option Expr) : Has Q around (.expr .operand (.yield value)) ↔
    HasAny Q around (value.toList.map (.expr .operand)) := by
  rw [has_iff_mark rfl, or_iff_right hy]
  rfl

theorem Expr.has_yieldAll (source : Expr) : Has Q around (.expr .operand (.yieldAll source)) ↔
    Has Q around (.expr .operand source) := by
  rw [has_iff_mark rfl, or_iff_right hy]
  exact hasAny_singleton

theorem Expr.has_yielded {e : Expr} {items : List Expr} (h : e.yielded? = some items) :
    HasAny Q around (items.map (.expr .item)) ↔ Has Q around (.expr .operand e) := by
  unfold yielded? at h
  split at h
  · obtain rfl := Option.some.inj h
    simp [has_yield hy, has_iff, mark?, Node.parts, Expr.parts, scope]
  · obtain rfl := Option.some.inj h
    simp only [has_yield hy, Option.toList_some, List.map_singleton, hasAny_singleton, has_item]
  · obtain rfl := Option.some.inj h
    rw [has_yieldAll hy, has_plain_iff rfl rfl]
    rfl
  · next source _ =>
    obtain rfl := Option.some.inj h
    rw [has_yieldAll hy, List.map_singleton, hasAny_singleton]
    exact has_part_iff rfl rfl rfl
  · cases h

theorem Expr.has_appendYield {e e' : Expr} {items : List Expr}
    (h : e.appendYield? items = some e') : Has Q around (.expr .operand e') ↔
      Has Q around (.expr .operand e) ∨ HasAny Q around (items.map (.expr .item)) := by
  have hyield {e e' : Expr} (he : e.IsYield) (h : e.appendYield? items = some e') :
      Has Q around (.expr .operand e') ↔
        Has Q around (.expr .operand e) ∨ HasAny Q around (items.map (.expr .item)) := by
    obtain ⟨own, hown, -, happend⟩ := he.yielded
    obtain rfl := Option.some.inj ((happend items).symm.trans h)
    rw [has_yieldAll hy, has_plain_iff rfl rfl, ← has_yielded hy hown, ← hasAny_append,
      ← List.map_append]
    rfl
  have hends := endsInYield_of_appendYield? h
  induction hends generalizing e' with
  | value value => exact hyield (.value value) h
  | all source => exact hyield (.all source) h
  | @sequence leading last _ ih =>
    obtain ⟨es, hes, rfl⟩ := Option.map_eq_some_iff.1 h
    rw [appendYieldLast?_append] at hes
    obtain ⟨last', hlast, rfl⟩ := Option.map_eq_some_iff.1 hes
    have hmap (last : Expr) : Has Q around (.expr .operand (.sequence (leading ++ [last]))) ↔
        HasAny Q around (leading.map (.expr .item)) ∨ Has Q around (.expr .operand last) := by
      rw [has_plain_iff rfl rfl]
      simp only [Node.parts, Expr.parts, List.map_append, hasAny_append, List.map_singleton,
        hasAny_singleton, has_item]
    rw [hmap, hmap, or_assoc]
    exact or_congr_right (ih hlast)
  | @paren inner _ ih =>
    obtain ⟨inner', hinner, rfl⟩ := Option.map_eq_some_iff.1 h
    have hparen (inner : Expr) :
        Has Q around (.expr .operand (.paren inner)) ↔ Has Q around (.expr .operand inner) := by
      exact has_part_iff rfl rfl rfl
    rw [hparen, hparen]
    exact ih hinner

theorem Stmt.has_merge {s t m : Stmt} (h : s.merge? t = some m) :
    Has Q around (.stmt m) ↔ Has Q around (.stmt s) ∨ Has Q around (.stmt t) := by
  have hexpr (e : Expr) : Has Q around (.stmt (.expr e)) ↔ Has Q around (.expr .operand e) :=
    has_part_iff rfl rfl rfl
  rcases merge?_cases h with ⟨kind, ds, ds', hk, rfl, rfl, rfl⟩ |
    ⟨e, e', items, merged, rfl, rfl, hitems, hmerged, rfl⟩
  · have hmark (ds : List Declarator) : (Node.decl (.vars kind ds)).mark? = none := by
      rcases isMergeable_iff.1 hk with rfl | rfl | rfl <;> rfl
    have hvars (ds : List Declarator) :
        Has Q around (.stmt (.decl (.vars kind ds))) ↔ HasAny Q around (ds.map .declarator) := by
      refine (has_part_iff rfl rfl rfl).trans ?_
      rw [has_plain_iff (hmark ds) rfl]
      rfl
    rw [hvars, hvars, hvars, List.map_append, hasAny_append]
  · rw [hexpr, hexpr, hexpr, Expr.has_appendYield hy hmerged, Expr.has_yielded hy hitems]

/-- Merging statements keeps what is marked in them. -/
theorem Thunk.hasAny_compact (ss : List Stmt) :
    HasAny Q around ((compact ss).map .stmt) ↔ HasAny Q around (ss.map .stmt) := by
  have hprepend (s : Stmt) (ss : List Stmt) : HasAny Q around ((prepend s ss).map .stmt) ↔
      Has Q around (.stmt s) ∨ HasAny Q around (ss.map .stmt) := by
    cases ss with
    | nil => exact hasAny_cons
    | cons t ss =>
      cases h : s.merge? t with
      | none =>
        rw [prepend_of_not_mergeable (Stmt.merge?_eq_none_iff.1 h)]
        exact hasAny_cons
      | some m =>
        rw [prepend_of_merge? h]
        simp only [List.map_cons, hasAny_cons, Stmt.has_merge hy h, or_assoc]
  induction ss with
  | nil => rfl
  | cons s ss ih =>
    rw [compact_cons, hprepend, List.map_cons, hasAny_cons]
    exact or_congr_right ih

end Merging

end ScriptBundler
