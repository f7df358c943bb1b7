import ScriptBundler.Proofs.Syntax.Rebuilding
import ScriptBundler.Proofs.Thunk.Texts

namespace ScriptBundler

open Node

section Holes

variable {put : Node → Option Node}

/-- There is a hole in a tree: a node that `put` puts something into. -/
inductive Node.HasHole (put : Node → Option Node) : Node → Prop where
  | here {n n' : Node} (h : put n = some n') : HasHole put n
  | part {n m : Node} (hm : m ∈ n.parts) (h : HasHole put m) : HasHole put n

/--
A tree with its first hole filled and all else as it was. The parts of a node come before the node:
a function in a parameter comes before the function that has the parameter.
-/
inductive Node.FillsFirst (put : Node → Option Node) : Node → Node → Prop where
  | here {n n' : Node} (hclear : ∀ m ∈ n.parts, ¬ m.HasHole put) (h : put n = some n') :
    FillsFirst put n n'
  | part {n n' m m' : Node} {before after : List Node} (hn : n.parts = before ++ m :: after)
    (hclear : ∀ k ∈ before, ¬ k.HasHole put) (h : FillsFirst put m m')
    (hparts : n'.parts = before ++ m' :: after) (hrest : n.rebuild n'.parts = n') :
    FillsFirst put n n'

/-- The same for trees one after the other, which stay as they are where there is no hole. -/
inductive Node.FillsOnce (put : Node → Option Node) : List Node → List Node → Prop where
  | clear {ns : List Node} (h : ∀ n ∈ ns, ¬ n.HasHole put) : FillsOnce put ns ns
  | filled {n n' : Node} {before after : List Node} (hclear : ∀ k ∈ before, ¬ k.HasHole put)
    (h : n.FillsFirst put n') : FillsOnce put (before ++ n :: after) (before ++ n' :: after)

variable {n n' n'' : Node} {ns ns' ns'' : List Node}

theorem Node.FillsFirst.hasHole (h : n.FillsFirst put n') : n.HasHole put := by
  induction h with
  | here _ h => exact .here h
  | part hn _ _ _ _ ih => exact .part (hn ▸ List.mem_append_cons_self) ih

theorem append_cons_unique {α : Type} {p : α → Prop} {a a' : α} {l l' r r' : List α}
    (h : l ++ a :: r = l' ++ a' :: r') (hl : ∀ b ∈ l, ¬ p b) (ha : p a) (hl' : ∀ b ∈ l', ¬ p b)
    (ha' : p a') : l = l' ∧ a = a' ∧ r = r' := by
  induction l generalizing l' with
  | nil =>
    cases l' with
    | nil => exact ⟨rfl, List.cons.inj h⟩
    | cons b l' =>
      obtain ⟨rfl, -⟩ := List.cons.inj h
      exact absurd ha (hl' a List.mem_cons_self)
  | cons b l ih =>
    cases l' with
    | nil =>
      obtain ⟨rfl, -⟩ := List.cons.inj h
      exact absurd ha' (hl b List.mem_cons_self)
    | cons b' l' =>
      obtain ⟨rfl, htail⟩ := List.cons.inj h
      obtain ⟨rfl, hrest⟩ := ih htail (fun c hc => hl c (List.mem_cons_of_mem _ hc))
        fun c hc => hl' c (List.mem_cons_of_mem _ hc)
      exact ⟨rfl, hrest⟩

theorem Node.FillsFirst.unique (h : n.FillsFirst put n') (h' : n.FillsFirst put n'') :
    n' = n'' := by
  induction h generalizing n'' with
  | here hclear h =>
    cases h' with
    | here _ h' => exact Option.some.inj (h.symm.trans h')
    | part hn _ h' _ _ =>
      exact absurd h'.hasHole (hclear _ (hn ▸ List.mem_append_cons_self))
  | part hn hclear h hparts hrest ih =>
    cases h' with
    | here hclear' _ =>
      exact absurd h.hasHole (hclear' _ (hn ▸ List.mem_append_cons_self))
    | part hn' hclear' h' hparts' hrest' =>
      obtain ⟨rfl, rfl, rfl⟩ := append_cons_unique (hn.symm.trans hn') hclear h.hasHole hclear'
        h'.hasHole
      rw [← hrest, ← hrest', hparts, hparts', ih h']

theorem Node.FillsOnce.unique (h : FillsOnce put ns ns') (h' : FillsOnce put ns ns'') :
    ns' = ns'' := by
  generalize hns : ns = ms at h'
  cases h with
  | clear h =>
    cases h' with
    | clear h' => exact hns
    | filled _ h' =>
      exact absurd h'.hasHole (h _ (hns ▸ List.mem_append_cons_self))
  | filled hclear h =>
    cases h' with
    | clear h' =>
      exact absurd h.hasHole (h' _ (hns ▸ List.mem_append_cons_self))
    | filled hclear' h' =>
      obtain ⟨rfl, rfl, rfl⟩ := append_cons_unique hns hclear h.hasHole hclear' h'.hasHole
      rw [h.unique h']

end Holes

section Fillers

variable {π : Type} {put : π → Node → Option Node} {v : Visitor (Option π)} {x : π}

def Node.offer (put : π → Node → Option Node) (n : Node) : StateM (Option π) Node
  | some x => match put x n with
    | some n' => (n', none)
    | none => (n, some x)
  | none => (n, none)

theorem Node.offer_eq_pure {n : Node} (h : ∀ x, put x n = none) : n.offer put = pure n := by
  funext st
  cases st with
  | none => rfl
  | some x =>
    rw [offer, h]
    rfl

/-- A walk that is done with all parts of a node before it puts something into the node. -/
structure Visitor.Fills (v : Visitor (Option π)) (put : π → Node → Option Node) : Prop where
  walk_eq (n : Node) : n.walk v = do (n.rebuild (← walkAll v n.parts)).offer put
  parts_eq (n : Node) : (do return (n.rebuild (← walkAll v n.parts)).parts) = walkAll v n.parts

theorem Visitor.walk_eq_offer {n : Node}
    (hwalk : n.walk v = do return n.rebuild (← walkAll v n.parts))
    (hput : ∀ ns x, put x (n.rebuild ns) = none) :
    n.walk v = (do (n.rebuild (← walkAll v n.parts)).offer put) := by
  rw [hwalk]
  exact bind_congr fun ns => (offer_eq_pure (hput ns)).symm

/-- What a walk makes of a node with something to put in, and what it has left. -/
inductive Node.Offered (put : π → Node → Option Node) (x : π) (n : Node) :
    Node × Option π → Prop where
  | kept (h : ¬ n.HasHole (put x)) : Offered put x n (n, some x)
  | filled {n' : Node} (h : n.FillsFirst (put x) n') : Offered put x n (n', none)

inductive Node.OfferedAll (put : π → Node → Option Node) (x : π) :
    List Node → List Node × Option π → Prop where
  | kept {ns : List Node} (h : ∀ n ∈ ns, ¬ n.HasHole (put x)) : OfferedAll put x ns (ns, some x)
  | filled {n n' : Node} (before : List Node) {after : List Node}
    (hclear : ∀ k ∈ before, ¬ k.HasHole (put x)) (h : n.FillsFirst (put x) n') :
    OfferedAll put x (before ++ n :: after) (before ++ n' :: after, none)

theorem Node.run_walkAll_cons (n : Node) (ns : List Node) (st : Option π) :
    (walkAll v (n :: ns)).run st =
      (((n.walk v).run st).1 :: ((walkAll v ns).run ((n.walk v).run st).2).1,
        ((walkAll v ns).run ((n.walk v).run st).2).2) := rfl

theorem Node.walkAll_none {ns : List Node} (h : ∀ n ∈ ns, (n.walk v).run none = (n, none)) :
    (walkAll v ns).run none = (ns, none) := by
  induction ns with
  | nil => rfl
  | cons n ns ih =>
    rw [run_walkAll_cons, h n List.mem_cons_self, ih fun m hm => h m (List.mem_cons_of_mem _ hm)]

namespace Visitor.Fills

variable (hv : v.Fills put)
include hv

theorem parts_of_run {n : Node} {ns : List Node} {st st' : Option π}
    (h : (walkAll v n.parts).run st = (ns, st')) : (n.rebuild ns).parts = ns := by
  have hparts : (n.rebuild ((walkAll v n.parts).run st).1).parts =
      ((walkAll v n.parts).run st).1 :=
    congrArg Prod.fst (congrFun (hv.parts_eq n) st)
  rwa [h] at hparts

theorem run_walk (n : Node) (st : Option π) :
    (n.walk v).run st = ((n.rebuild ((walkAll v n.parts).run st).1).offer put).run
      ((walkAll v n.parts).run st).2 :=
  congrFun (hv.walk_eq n) st

/-- With nothing left to put in, a walk changes nothing. -/
theorem walk_none (n : Node) : (n.walk v).run none = (n, none) := by
  induction n using parts_induction with
  | node n ih =>
    have hparts := walkAll_none ih
    rw [hv.run_walk, hparts, rebuild_parts]
    rfl

theorem walkAll_offered {ns : List Node}
    (h : ∀ n ∈ ns, n.Offered put x ((n.walk v).run (some x))) :
    OfferedAll put x ns ((walkAll v ns).run (some x)) := by
  induction ns with
  | nil => exact .kept nofun
  | cons n ns ih =>
    have hn := h n List.mem_cons_self
    have hns := ih fun m hm => h m (List.mem_cons_of_mem _ hm)
    rw [run_walkAll_cons]
    generalize (n.walk v).run (some x) = r at hn ⊢
    cases hn with
    | filled hfill =>
      rw [walkAll_none fun m _ => hv.walk_none m]
      exact .filled [] nofun hfill
    | kept hkept =>
      generalize (walkAll v ns).run (some x) = rs at hns ⊢
      cases hns with
      | kept hall => exact .kept (List.forall_mem_cons.2 ⟨hkept, hall⟩)
      | filled before hclear hfill =>
        exact .filled (n :: before) (List.forall_mem_cons.2 ⟨hkept, hclear⟩) hfill

theorem walk_offered (n : Node) : n.Offered put x ((n.walk v).run (some x)) := by
  induction n using parts_induction with
  | node n ih =>
    -- the node is offered what its parts leave, so a hole in one of them comes first
    have hparts := hv.walkAll_offered ih
    rw [hv.run_walk]
    generalize hns : n.parts = ns at hparts ⊢
    generalize hr : (walkAll v ns).run (some x) = r at hparts ⊢
    cases hparts with
    | filled before hclear hfill =>
      have hn' := hv.parts_of_run (hns ▸ hr)
      exact .filled (.part hns hclear hfill hn' (by rw [hn']))
    | kept hall =>
      rw [← hns, rebuild_parts]
      cases hput : put x n with
      | none =>
        have hkept : ¬ n.HasHole (put x) := by
          rintro (⟨h⟩ | ⟨hm, h⟩)
          · exact nomatch hput.symm.trans h
          · exact hall _ (hns ▸ hm) h
        simpa only [StateT.run, offer, hput] using Offered.kept hkept
      | some n' =>
        simpa only [StateT.run, offer, hput] using Offered.filled (.here (hns ▸ hall) hput)

theorem fillsOnce (ss : List Stmt) :
    FillsOnce (put x) (ss.map .stmt) (((Stmt.descendAll v ss).run (some x)).1.map .stmt) := by
  have hwalk : (walkAll v (ss.map .stmt)).run (some x) =
      (((Stmt.descendAll v ss).run (some x)).1.map .stmt,
        ((Stmt.descendAll v ss).run (some x)).2) :=
    (congrFun (stmts_walk ss) (some x)).symm
  have hall := hv.walkAll_offered fun n (_ : n ∈ ss.map .stmt) => hv.walk_offered (x := x) n
  rw [hwalk] at hall
  generalize ((Stmt.descendAll v ss).run (some x)).1.map Node.stmt = ns at hall ⊢
  generalize ((Stmt.descendAll v ss).run (some x)).2 = st at hall
  generalize ss.map Node.stmt = ms at hall ⊢
  cases hall with
  | kept h => exact .clear h
  | filled _ hclear h => exact .filled hclear h

end Visitor.Fills

end Fillers

namespace Template

open ScriptBundler.Thunk (publishText valueText defaultPlaceholder publish
  generatorStatements?_default)

def nameFilled (placeholder : String) (e : Expr) : Node → Option Node
  | .expr .element _ => none
  | .expr place (.ident name) => if name = placeholder then some (.expr place e) else none
  | _ => none

/-- What is put in where a function has no statements. Its directives stay. -/
def bodyFilled (body : List Stmt) : Node → Option Node
  | .function (.mk isAsync isGenerator isPure name params directives []) =>
    some (.function (.mk isAsync isGenerator isPure name params directives body))
  | .expr place (.arrowBlock isAsync isPure params directives []) =>
    some (.expr place (.arrowBlock isAsync isPure params directives body))
  | _ => none

theorem descend_expressionFiller (placeholder : String) (n : Node) :
    n.descend (expressionFiller placeholder) =
      (do return n.rebuild (← walkAll (expressionFiller placeholder) n.parts)) := by
  rw [descend_eq rfl, note_eq (fun _ _ => rfl) rfl, pure_bind, walkParts_eq fun _ _ => rfl]

theorem walk_name (placeholder name : String) {place : Place} (hp : place ≠ .element) :
    (Node.expr place (.ident name)).walk (expressionFiller placeholder) =
      (Node.expr place (.ident name)).offer (nameFilled placeholder) := by
  funext st
  cases place with
  | element => contradiction
  | operand | item =>
    cases st with
    | none => rfl
    | some e =>
      by_cases h : name = placeholder
      all_goals
        simp only [walk, Visitor.visit, expressionFiller, offer, nameFilled, h, ↓reduceIte]
        rfl

theorem expressionFiller_fills (placeholder : String) :
    (expressionFiller placeholder).Fills (nameFilled placeholder) := by
  refine ⟨fun n => ?_, fun n => parts_rebuild rfl (note_eq (fun _ _ => rfl) rfl n)⟩
  have hother (hwalk : n.walk (expressionFiller placeholder) =
      n.descend (expressionFiller placeholder))
      (hput : ∀ ns e, nameFilled placeholder e (n.rebuild ns) = none) :=
    Visitor.walk_eq_offer (hwalk.trans (descend_expressionFiller placeholder n)) hput
  cases n with
  | expr place e =>
    cases place with
    | element => exact hother rfl fun _ _ => rfl
    | operand | item =>
      cases e with
      | ident name => exact walk_name placeholder name nofun
      | _ => exact hother rfl fun _ _ => rfl
  | _ => exact hother rfl fun _ _ => rfl

theorem visitBody_nil : bodyFiller.visitBody [] (pure []) = fun
    | some body => (body, none)
    | none => ([], none) := by
  funext st
  cases st <;> rfl

theorem visitBody_cons (s : Stmt) (ss : List Stmt) (m : StateM (Option (List Stmt)) (List Stmt)) :
    bodyFiller.visitBody (s :: ss) m = m := by
  funext st
  cases st <;> rfl

theorem visitBody_offer {f : List Pattern → List Stmt → Node}
    (hput : ∀ body ps ss, bodyFilled body (f ps ss) = if ss.isEmpty then some (f ps body) else none)
    (params : List Pattern) (body : List Stmt) : (do
      let params ← Pattern.descendAll bodyFiller params
      return f params (← bodyFiller.visitBody body (Stmt.descendAll bodyFiller body))) = (do
      let params ← Pattern.descendAll bodyFiller params
      (f params (← Stmt.descendAll bodyFiller body)).offer bodyFilled) := by
  refine bind_congr fun params => ?_
  cases body with
  | nil =>
    rw [Stmt.descendAll, visitBody_nil, pure_bind]
    funext st
    cases st with
    | none => rfl
    | some ss =>
      rw [offer, hput]
      rfl
  | cons s ss =>
    rw [visitBody_cons]
    refine bind_stmts_congr fun ss' hs => (offer_eq_pure fun body => ?_).symm
    cases ss' with
    | nil => cases hs
    | cons => rw [hput]; rfl

theorem walk_bodyFiller (n : Node) : n.walk bodyFiller = n.descend bodyFiller := by
  cases n with
  | expr place e =>
    cases place with
    | item => cases e <;> rfl
    | _ => rfl
  | _ => rfl

theorem bodyFiller_fills : bodyFiller.Fills bodyFilled := by
  refine ⟨fun n => ?_, fun n => parts_rebuild rfl (note_eq (fun _ _ => rfl) rfl n)⟩
  have hother (hparts : n.walkParts bodyFiller = walkAll bodyFiller n.parts)
      (hput : ∀ ns body, bodyFilled body (n.rebuild ns) = none) :=
    Visitor.walk_eq_offer (v := bodyFiller) (by
      rw [walk_bodyFiller, descend_eq rfl, note_eq (fun _ _ => rfl) rfl, pure_bind, hparts]) hput
  cases n with
  | function f =>
    obtain ⟨isAsync, isGenerator, isPure, name, params, directives, body⟩ := f
    refine (visitBody_offer
      (f := fun ps ss => .function (.mk isAsync isGenerator isPure name ps directives ss))
      (fun _ _ ss => by cases ss <;> rfl) params body).trans ?_
    simp [parts, Function.parts, walkAll_append, ← patterns_walk, ← stmts_walk, rebuild,
      Function.rebuild, Function.comp_def]
  | expr place e =>
    cases e with
    | arrowBlock isAsync isPure params directives body =>
      rw [walk_bodyFiller]
      refine (visitBody_offer
        (f := fun ps ss => .expr place (.arrowBlock isAsync isPure ps directives ss))
        (fun _ _ ss => by cases ss <;> rfl) params body).trans ?_
      simp [parts, Expr.parts, walkAll_append, ← patterns_walk, ← stmts_walk, rebuild,
        Expr.rebuild, Function.comp_def]
    | _ => exact hother rfl fun _ _ => rfl
  | _ => exact hother rfl fun _ _ => rfl

theorem fillExpression_fillsOnce (placeholder : String) (e : Expr) (ss : List Stmt) :
    FillsOnce (nameFilled placeholder e) (ss.map .stmt)
      ((fillExpression placeholder e ss).map .stmt) :=
  (expressionFiller_fills placeholder).fillsOnce ss

theorem fillBody_fillsOnce (body ss : List Stmt) :
    FillsOnce (bodyFilled body) (ss.map .stmt) ((fillBody body ss).map .stmt) :=
  bodyFiller_fills.fillsOnce ss

theorem eq_of_fillsOnce {put : Node → Option Node} {ss ss' ss'' : List Stmt}
    (h : FillsOnce put (ss.map .stmt) (ss'.map .stmt))
    (h' : FillsOnce put (ss.map .stmt) (ss''.map .stmt)) : ss' = ss'' :=
  List.map_injective_iff.2 (fun _ _ => Node.stmt.inj) (h.unique h')

/--
Filling in an expression is filling the first place, and no other, that the placeholder names;
filling in statements is filling the first function, and no other, that has none. So a module hands
out the value of any expression as it is, also where it mentions the placeholder.
-/
theorem fill_iff_fillsOnce :
    (∀ placeholder e ss ss', fillExpression placeholder e ss = ss' ↔
      FillsOnce (nameFilled placeholder e) (ss.map .stmt) (ss'.map .stmt)) ∧
    (∀ body ss ss', fillBody body ss = ss' ↔
      FillsOnce (bodyFilled body) (ss.map .stmt) (ss'.map .stmt)) ∧
    ∀ e, (generatorStatements?
        (publishText [("default", valueText defaultPlaceholder)])).map
      (fillExpression defaultPlaceholder e) = some [publish [("default", .value e)]] := by
  refine ⟨fun placeholder e ss ss' => ⟨?_, fun h => ?_⟩, fun body ss ss' => ⟨?_, fun h => ?_⟩,
    generatorStatements?_default⟩
  · rintro rfl
    exact fillExpression_fillsOnce placeholder e ss
  · exact eq_of_fillsOnce (fillExpression_fillsOnce placeholder e ss) h
  · rintro rfl
    exact fillBody_fillsOnce body ss
  · exact eq_of_fillsOnce (fillBody_fillsOnce body ss) h

example : fillBody [.expr (.ident "x")]
    [.expr (.arrowBlock false false [.withDefault (.name "a") (.arrowBlock false false [] [] [])]
      ["use strict"] [])] =
    [.expr (.arrowBlock false false
      [.withDefault (.name "a") (.arrowBlock false false [] [] [.expr (.ident "x")])]
      ["use strict"] [])] := by
  rfl

end Template

end ScriptBundler
