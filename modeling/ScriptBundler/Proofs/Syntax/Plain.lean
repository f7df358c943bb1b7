import ScriptBundler.Proofs.Syntax.Occurrence
import ScriptBundler.Syntax.Parser.Target
import ScriptBundler.Syntax.Purity

namespace ScriptBundler

/-- A yield outside of all functions. -/
def Mark.IsOuterYield (around : Option Bool) (mark : Mark) : Prop :=
  around = none ∧ mark = .yield

namespace Node

/-- A node without a yield outside of functions. -/
def IsPlain (n : Node) : Prop := ¬ Has Mark.IsOuterYield none n

variable {n m : Node}

theorem IsPlain.of_isScope (h : n.isScope = true) (hn : n.mark? = none) : n.IsPlain := by
  intro hhas
  rw [has_iff_parts hn] at hhas
  obtain ⟨m, -, hm⟩ := hhas
  rcases n.scope_cases with ⟨hs, -⟩ | ⟨-, isAsync, hs⟩
  · rw [h] at hs
    cases hs
  · rw [hs] at hm
    exact not_has_some (fun _ _ h => nomatch h.1) isAsync m hm

/-- Only a yield is not plain if its parts are. -/
theorem IsPlain.of_parts (hn : n.mark? ≠ some .yield) (h : ∀ m ∈ n.parts, m.IsPlain) :
    n.IsPlain := by
  intro hhas
  rcases has_iff.1 hhas with ⟨mark, hm, -, rfl⟩ | ⟨m, hm, hhas⟩
  · exact hn hm
  · rcases n.scope_cases with ⟨-, hs⟩ | ⟨-, isAsync, hs⟩
    · rw [hs] at hhas
      exact h m hm hhas
    · rw [hs] at hhas
      exact not_has_some (fun _ _ h => nomatch h.1) isAsync m hhas

theorem IsPlain.of_unmarked (hn : n.mark? = none) (h : ∀ m ∈ n.parts, m.IsPlain) :
    n.IsPlain := by
  apply IsPlain.of_parts _ h
  rw [hn]
  exact (Option.some_ne_none _).symm

theorem IsPlain.part (h : n.IsPlain) (hs : n.isScope = false) (hm : m ∈ n.parts) : m.IsPlain := by
  intro hhas
  rw [← scope_of_isScope hs none] at hhas
  exact h (.part hm hhas)

theorem forall_toList_isPlain {α : Type} {o : Option α} {f : α → Node}
    (h : ∀ a ∈ o, (f a).IsPlain) : ∀ m ∈ o.toList.map f, m.IsPlain :=
  List.forall_mem_map.2 fun a ha => h a (Option.mem_toList.1 ha)

@[simp] theorem isPlain_item {e : Expr} :
    (Node.expr .item e).IsPlain ↔ (Node.expr .operand e).IsPlain :=
  not_congr has_item

@[simp] theorem isPlain_function (f : Function) : (Node.function f).IsPlain :=
  .of_isScope rfl rfl

end Node

section Trees

open Node

abbrev Expr.IsPlain (e : Expr) : Prop := (Node.expr .operand e).IsPlain

abbrev Pattern.IsPlain (p : Pattern) : Prop := (Node.pattern p).IsPlain

abbrev Property.IsPlain (p : Property) : Prop := (Node.property p).IsPlain

abbrev PatternProperty.IsPlain (p : PatternProperty) : Prop := (Node.patternProperty p).IsPlain

abbrev Decl.IsPlain (d : Decl) : Prop := (Node.decl d).IsPlain

abbrev Stmt.IsPlain (s : Stmt) : Prop := (Node.stmt s).IsPlain

/-- An element of a chain, or what is assigned to, is as plain as the expression. -/
theorem Expr.IsPlain.element {e : Expr} (h : e.IsPlain) : (Node.expr .element e).IsPlain := by
  have hscope : (Node.expr .element e).isScope = (Node.expr .operand e).isScope := by
    cases e <;> rfl
  cases hs : (Node.expr .operand e).isScope with
  | true => exact .of_isScope (hscope.trans hs) rfl
  | false => exact .of_parts nofun fun m hm => h.part hs hm

theorem Pattern.isPlain_target {e : Expr} (h : e.IsPlain) : (Pattern.target e).IsPlain :=
  .of_parts nofun (List.forall_mem_singleton.2 h.element)

theorem Pattern.isPlain_name (name : String) : (Pattern.name name).IsPlain :=
  .of_parts nofun (List.forall_mem_nil _)

theorem Expr.isPlain_paren {e : Expr} (h : (Expr.paren e).IsPlain) : e.IsPlain :=
  h.part rfl (List.mem_singleton_self _)

theorem Expr.isPlain_simpleTarget {e : Expr} {p : Pattern} (he : e.IsPlain)
    (h : e.simpleTarget? = some p) : p.IsPlain := by
  cases e with
  | ident name =>
    cases h
    exact Pattern.isPlain_name name
  | member base property isOptional =>
    cases h
    exact Pattern.isPlain_target he
  | index base property isOptional =>
    cases h
    exact Pattern.isPlain_target he
  | privateMember base name isOptional =>
    cases h
    exact Pattern.isPlain_target he
  | paren inner => exact isPlain_simpleTarget (isPlain_paren he) h
  | _ => cases h
termination_by sizeOf e

theorem Expr.element?_cases {e : Expr} {r : Pattern × Nat} (h : e.element? = some r) :
    (∃ op target value, e = .assign op target value ∧ r = (.withDefault target value, 0)) ∨
      (e = .hole ∧ r = (.hole, 0)) ∨ e.target? = some r := by
  cases e with
  | assign op target value => exact .inl ⟨op, target, value, rfl, (Option.some.inj h).symm⟩
  | hole => exact .inr (.inl ⟨rfl, (Option.some.inj h).symm⟩)
  | _ => exact .inr (.inr h)

mutual

theorem Expr.isPlain_of_target? {e : Expr} {r : Pattern × Nat} (he : e.IsPlain)
    (h : e.target? = some r) : r.1.IsPlain := by
  cases e with
  | ident name =>
    cases h
    exact Pattern.isPlain_name name
  | member base property isOptional =>
    cases h
    exact Pattern.isPlain_target he
  | index base property isOptional =>
    cases h
    exact Pattern.isPlain_target he
  | privateMember base name isOptional =>
    cases h
    exact Pattern.isPlain_target he
  | paren inner =>
    obtain ⟨p, hp, rfl⟩ := Option.map_eq_some_iff.1 h
    exact Expr.isPlain_simpleTarget (Expr.isPlain_paren he) hp
  | array items finalComma =>
    obtain ⟨⟨ps, n⟩, hps, rfl⟩ := Option.map_eq_some_iff.1 h
    have hitems : ∀ e ∈ items, e.IsPlain := by
      intro e hm
      exact isPlain_item.1 (he.part rfl (List.mem_map_of_mem hm))
    have hps := Expr.isPlain_of_targetItems? hitems hps
    exact .of_parts nofun (List.forall_mem_map.2 hps)
  | object properties =>
    obtain ⟨⟨ps, n⟩, hps, rfl⟩ := Option.map_eq_some_iff.1 h
    have hproperties : ∀ p ∈ properties, p.IsPlain := by
      intro p hm
      exact he.part rfl (List.mem_map_of_mem hm)
    have hps := Property.isPlain_of_targets? hproperties hps
    exact .of_parts nofun (List.forall_mem_map.2 hps)
  | _ => cases h
termination_by (sizeOf e, 0)

theorem Expr.isPlain_of_element? {e : Expr} {r : Pattern × Nat} (he : e.IsPlain)
    (h : e.element? = some r) : r.1.IsPlain := by
  rcases Expr.element?_cases h with ⟨op, target, value, rfl, rfl⟩ | ⟨rfl, rfl⟩ | h
  · exact .of_parts nofun fun m hm => he.part rfl hm
  · exact .of_parts nofun (List.forall_mem_nil _)
  · exact Expr.isPlain_of_target? he h
termination_by (sizeOf e, 1)

theorem Expr.isPlain_of_targetItems? {finalComma : Bool} {items : List Expr}
    {r : List Pattern × Nat} (hitems : ∀ e ∈ items, e.IsPlain)
    (h : Expr.targetItems? finalComma items = some r) : ∀ p ∈ r.1, p.IsPlain := by
  unfold Expr.targetItems? at h
  split at h
  · cases h
    nofun
  · next e =>
    split at h
    · cases h
    · obtain ⟨⟨p, n⟩, hp, rfl⟩ := Option.map_eq_some_iff.1 h
      have he : e.IsPlain :=
        (hitems _ (List.mem_singleton_self _)).part rfl (List.mem_singleton_self _)
      have hrest : (Pattern.rest p).IsPlain :=
        .of_parts nofun (List.forall_mem_singleton.2 (Expr.isPlain_of_target? he hp))
      exact List.forall_mem_singleton.2 hrest
  · next e es _ =>
    obtain ⟨⟨p, n⟩, hp, h⟩ := Option.bind_eq_some_iff.1 h
    obtain ⟨⟨ps, m⟩, hps, h⟩ := Option.bind_eq_some_iff.1 h
    cases h
    obtain ⟨he, hes⟩ := List.forall_mem_cons.1 hitems
    exact List.forall_mem_cons.2 ⟨Expr.isPlain_of_element? he hp,
      Expr.isPlain_of_targetItems? hes hps⟩
termination_by (sizeOf items, 0)

theorem Property.isPlain_of_targets? {properties : List Property}
    {r : List PatternProperty × Nat} (hproperties : ∀ p ∈ properties, p.IsPlain)
    (h : Property.targets? properties = some r) : ∀ p ∈ r.1, p.IsPlain := by
  unfold Property.targets? at h
  split at h
  · cases h
    nofun
  · next e =>
    obtain ⟨p, hp, rfl⟩ := Option.map_eq_some_iff.1 h
    have he : e.IsPlain :=
      (hproperties _ (List.mem_singleton_self _)).part rfl (List.mem_singleton_self _)
    have hrest : (PatternProperty.rest p).IsPlain :=
      .of_parts nofun (List.forall_mem_singleton.2 (Expr.isPlain_simpleTarget he hp))
    exact List.forall_mem_singleton.2 hrest
  · next key isShorthand value rest =>
    obtain ⟨⟨p, n⟩, hp, h⟩ := Option.bind_eq_some_iff.1 h
    obtain ⟨⟨ps, m⟩, hps, h⟩ := Option.bind_eq_some_iff.1 h
    cases h
    obtain ⟨hproperty, hrest⟩ := List.forall_mem_cons.1 hproperties
    have hkey : (Node.key key).IsPlain := hproperty.part rfl List.mem_cons_self
    have hvalue : value.IsPlain :=
      hproperty.part rfl (List.mem_cons_of_mem _ (List.mem_singleton_self _))
    have hp := Expr.isPlain_of_element? hvalue hp
    have hfirst : (PatternProperty.keyed key isShorthand p).IsPlain :=
      .of_parts nofun (List.forall_mem_cons.2 ⟨hkey, List.forall_mem_singleton.2 hp⟩)
    exact List.forall_mem_cons.2 ⟨hfirst, Property.isPlain_of_targets? hrest hps⟩
  · cases h
termination_by (sizeOf properties, 0)

end

/-- Marks of purity are no syntax. -/
theorem Expr.IsPlain.asPureCall {e : Expr} (h : e.IsPlain) : e.asPureCall.IsPlain := by
  induction e using Expr.asPureCall.induct with
  | case1 callee args isOptional isPure => exact .of_parts nofun fun m hm => h.part rfl hm
  | case2 callee args isPure => exact .of_parts nofun fun m hm => h.part rfl hm
  | case3 inner ih =>
    exact .of_parts nofun (List.forall_mem_singleton.2 (ih (isPlain_paren h)))
  | case4 op left right ih =>
    have hleft : left.IsPlain := h.part rfl List.mem_cons_self
    have hright : right.IsPlain := h.part rfl (List.mem_cons_of_mem _ (List.mem_singleton_self _))
    exact .of_parts nofun (List.forall_mem_cons.2 ⟨ih hleft, List.forall_mem_singleton.2 hright⟩)
  | case5 test consequent alternate ih =>
    have htest : test.IsPlain := h.part rfl List.mem_cons_self
    have hrest : ∀ m ∈ [Node.expr .operand consequent, .expr .operand alternate], m.IsPlain :=
      fun m hm => h.part rfl (List.mem_cons_of_mem _ hm)
    exact .of_parts nofun (List.forall_mem_cons.2 ⟨ih htest, hrest⟩)
  | case6 callee args isOptional isPure =>
    have hcall : (Node.expr .element (.call callee args isOptional isPure)).IsPlain :=
      h.part rfl (List.mem_singleton_self _)
    have hpure : (Node.expr .element (.call callee args isOptional true)).IsPlain :=
      .of_parts nofun fun m hm => hcall.part rfl hm
    exact .of_parts nofun (List.forall_mem_singleton.2 hpure)
  | case7 e =>
    rw [Expr.asPureCall] <;> assumption

theorem Expr.IsPlain.asPureFunction {e : Expr} (h : e.IsPlain) : e.asPureFunction.IsPlain := by
  cases e with
  | function f => exact .of_parts nofun (List.forall_mem_singleton.2 (isPlain_function _))
  | arrow isAsync isPure params value => exact .of_isScope rfl rfl
  | arrowBlock isAsync isPure params directives body => exact .of_isScope rfl rfl
  | _ => exact h

theorem Decl.IsPlain.asPureFunction {d : Decl} (h : d.IsPlain) : d.asPureFunction.IsPlain := by
  cases d with
  | function f => exact .of_parts nofun (List.forall_mem_singleton.2 (isPlain_function _))
  | vars kind ds =>
    cases kind with
    | constKind =>
      have hds : ∀ d ∈ ds, (Node.declarator d).IsPlain :=
        fun d hd => h.part rfl (List.mem_map_of_mem hd)
      have hfirst : ∀ d ∈ Declarator.firstAsPure ds, (Node.declarator d).IsPlain := by
        unfold Declarator.firstAsPure
        split
        · next p value ds =>
          obtain ⟨hd, hds⟩ := List.forall_mem_cons.1 hds
          have hp : p.IsPlain := hd.part rfl List.mem_cons_self
          have hvalue : value.IsPlain :=
            hd.part rfl (List.mem_cons_of_mem _ (List.mem_singleton_self _))
          have hpure : (Node.declarator (.mk p (some value.asPureFunction))).IsPlain :=
            .of_parts nofun
              (List.forall_mem_cons.2 ⟨hp, List.forall_mem_singleton.2 hvalue.asPureFunction⟩)
          exact List.forall_mem_cons.2 ⟨hpure, hds⟩
        · exact hds
      exact .of_parts nofun (List.forall_mem_map.2 hfirst)
    | _ => exact h
  | _ => exact h

theorem Stmt.IsPlain.asPureFunction {s : Stmt} (h : s.IsPlain) : s.asPureFunction.IsPlain := by
  have hpart {m : Node} (hm : m ∈ (Node.stmt s).parts) : m.IsPlain := h.part rfl hm
  cases s with
  | decl d =>
    have hd : d.IsPlain := hpart (List.mem_singleton_self _)
    exact .of_parts nofun (List.forall_mem_singleton.2 hd.asPureFunction)
  | exportDecl d =>
    have hd : d.IsPlain := hpart (List.mem_singleton_self _)
    exact .of_parts nofun (List.forall_mem_singleton.2 hd.asPureFunction)
  | exportDefaultFunction f =>
    exact .of_parts nofun (List.forall_mem_singleton.2 (isPlain_function _))
  | exportDefault e =>
    have he : e.IsPlain := hpart (List.mem_singleton_self _)
    exact .of_parts nofun (List.forall_mem_singleton.2 he.asPureFunction)
  | _ => exact h

end Trees

end ScriptBundler
