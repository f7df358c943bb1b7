import ScriptBundler.Proofs.Syntax.Parts

namespace ScriptBundler

/-- Syntax that only some functions, generators or modules may contain. -/
inductive Mark where
  | await
  | yield
  | importMeta
  | moduleItem
  deriving DecidableEq

namespace Node

def mark? : Node → Option Mark
  | .expr .element _ => none
  | .expr _ (.await _) => some .await
  | .expr _ (.yield _) => some .yield
  | .expr _ (.yieldAll _) => some .yield
  | .expr _ .importMeta => some .importMeta
  | .decl (.vars .awaitUsingKind _) => some .await
  | .head (.vars .awaitUsingKind _) => some .await
  | .stmt (.forOf true _ _ _) => some .await
  | .stmt (.importDecl _) => some .moduleItem
  | .stmt (.exportDecl _) => some .moduleItem
  | .stmt (.exportNames _ _) => some .moduleItem
  | .stmt (.exportAll _ _ _) => some .moduleItem
  | .stmt (.exportDefaultFunction _) => some .moduleItem
  | .stmt (.exportDefaultClass _) => some .moduleItem
  | .stmt (.exportDefault _) => some .moduleItem
  | _ => none

/-- A mark that satisfies `Q` occurs in a node, given the function around the node. -/
inductive Has (Q : Option Bool → Mark → Prop) : Option Bool → Node → Prop where
  | here {around : Option Bool} {n : Node} {mark : Mark} (hn : n.mark? = some mark)
      (hq : Q around mark) : Has Q around n
  | part {around : Option Bool} {n m : Node} (hm : m ∈ n.parts) (h : Has Q (n.scope around) m) :
      Has Q around n

/-- A mark that satisfies `Q` occurs in one of several nodes. -/
def HasAny (Q : Option Bool → Mark → Prop) (around : Option Bool) (ns : List Node) : Prop :=
  ∃ n ∈ ns, Has Q around n

variable {σ : Type} {v : Visitor σ} {Q : Option Bool → Mark → Prop} {around : Option Bool}
  {n m : Node}

@[simp] theorem hasAny_nil : HasAny Q around [] ↔ False := by
  simp only [HasAny, List.not_mem_nil, false_and, exists_false]

@[simp] theorem hasAny_cons {ns : List Node} :
    HasAny Q around (n :: ns) ↔ Has Q around n ∨ HasAny Q around ns := by
  simp only [HasAny, List.mem_cons, exists_eq_or_imp]

@[simp] theorem hasAny_singleton : HasAny Q around [n] ↔ Has Q around n := by
  rw [hasAny_cons, hasAny_nil, or_false]

@[simp] theorem hasAny_append {ns ms : List Node} :
    HasAny Q around (ns ++ ms) ↔ HasAny Q around ns ∨ HasAny Q around ms := by
  simp only [HasAny, List.mem_append, or_and_right, exists_or]

theorem has_iff : Has Q around n ↔
    (∃ mark, n.mark? = some mark ∧ Q around mark) ∨ HasAny Q (n.scope around) n.parts := by
  constructor
  · intro h
    cases h with
    | here hn hq => exact .inl ⟨_, hn, hq⟩
    | part hm h => exact .inr ⟨_, hm, h⟩
  · rintro (⟨mark, hn, hq⟩ | ⟨m, hm, h⟩)
    · exact .here hn hq
    · exact .part hm h

theorem hasAny_flatMap {α : Type} {l : List α} {f : α → List Node} :
    HasAny Q around (l.flatMap f) ↔ ∃ a ∈ l, HasAny Q around (f a) := by
  induction l with
  | nil => simp only [List.flatMap_nil, hasAny_nil, List.not_mem_nil, false_and, exists_false]
  | cons a l ih => simp only [List.flatMap_cons, hasAny_append, ih, List.mem_cons,
      exists_eq_or_imp]

/-- A node leaves the function around its parts as it is, or is one itself. -/
theorem scope_cases (n : Node) :
    (n.isScope = false ∧ ∀ around, n.scope around = around) ∨
      (n.isScope = true ∧ ∃ isAsync, ∀ around, n.scope around = some isAsync) := by
  cases n with
  | expr place e =>
    cases e with
    | arrow isAsync isPure params value => exact .inr ⟨rfl, isAsync, fun _ => rfl⟩
    | arrowBlock isAsync isPure params directives body => exact .inr ⟨rfl, isAsync, fun _ => rfl⟩
    | _ => exact .inl ⟨rfl, fun _ => rfl⟩
  | function f =>
    obtain ⟨isAsync, isGenerator, isPure, name, params, directives, body⟩ := f
    exact .inr ⟨rfl, isAsync, fun _ => rfl⟩
  | member m =>
    cases m with
    | staticBlock body => exact .inr ⟨rfl, false, fun _ => rfl⟩
    | _ => exact .inl ⟨rfl, fun _ => rfl⟩
  | _ => exact .inl ⟨rfl, fun _ => rfl⟩

theorem has_iff_mark {mark : Mark} (hn : n.mark? = some mark) :
    Has Q around n ↔ Q around mark ∨ HasAny Q (n.scope around) n.parts := by
  rw [has_iff, hn]
  simp only [Option.some.injEq, exists_eq_left']

theorem has_iff_parts (hn : n.mark? = none) :
    Has Q around n ↔ HasAny Q (n.scope around) n.parts := by
  rw [has_iff, hn]
  simp only [reduceCtorEq, false_and, exists_false, false_or]

theorem scope_of_isScope (hn : n.isScope = false) (around : Option Bool) :
    n.scope around = around := by
  rcases n.scope_cases with ⟨-, hs⟩ | ⟨hs, -⟩
  · exact hs around
  · rw [hn] at hs
    cases hs

theorem mark?_of_isScope (hn : n.isScope = true) : n.mark? = none := by
  cases n with
  | expr place e =>
    cases e with
    | arrow => cases place <;> rfl
    | arrowBlock => cases place <;> rfl
    | _ => cases hn
  | function => rfl
  | member => rfl
  | _ => cases hn

theorem has_plain_iff (hn : n.mark? = none) (hs : n.isScope = false) :
    Has Q around n ↔ HasAny Q around n.parts := by
  rw [has_iff_parts hn, scope_of_isScope hs]

theorem has_part_iff (hn : n.mark? = none) (hs : n.isScope = false) (hm : n.parts = [m]) :
    Has Q around n ↔ Has Q around m := by
  rw [has_plain_iff hn hs, hm, hasAny_singleton]

theorem has_item {e : Expr} : Has Q around (.expr .item e) ↔ Has Q around (.expr .operand e) := by
  have hmark : (Node.expr .item e).mark? = (Node.expr .operand e).mark? := by cases e <;> rfl
  have hscope : (Node.expr .item e).scope around = (Node.expr .operand e).scope around := by
    cases e <;> rfl
  rw [has_iff, has_iff, hmark, hscope]
  rfl

theorem not_has_some (hq : ∀ isAsync mark, ¬ Q (some isAsync) mark) (isAsync : Bool) (n : Node) :
    ¬ Has Q (some isAsync) n := by
  intro h
  generalize ha : some isAsync = around at h
  induction h generalizing isAsync with
  | here _ h => exact hq _ _ (ha ▸ h)
  | @part around n m _ _ ih =>
    subst ha
    rcases n.scope_cases with ⟨-, hs⟩ | ⟨-, b, hs⟩
    · exact ih isAsync (hs _).symm
    · exact ih b (hs _).symm

section Walks

theorem mark?_descend (n : Node) (st : σ) : ((n.descend v).run st).1.mark? = n.mark? := by
  cases n with
  | expr place e =>
    cases e with
    | arrow =>
      simp only [descend, Expr.descend, Visitor.enter]
      cases place <;> split <;> rfl
    | arrowBlock =>
      simp only [descend, Expr.descend, Visitor.enter]
      cases place <;> split <;> rfl
    | _ => cases place <;> rfl
  | member m => cases m <;> rfl
  | declarator d =>
    cases d
    rfl
  | decl d =>
    cases d with
    | vars kind ds => cases kind <;> rfl
    | _ => rfl
  | head left =>
    cases left with
    | vars kind ds => cases kind <;> rfl
    | _ => rfl
  | case c =>
    cases c
    rfl
  | stmt s =>
    cases s with
    | forOf isAwait left right body => cases isAwait <;> rfl
    | tryCatch body handler finalizer => rcases handler with _ | ⟨_ | param, handler⟩ <;> rfl
    | _ => rfl
  | _ => rfl

theorem scope_descend (n : Node) (st : σ) (around : Option Bool) :
    ((n.descend v).run st).1.scope around = n.scope around := by
  cases n with
  | expr place e =>
    cases e with
    | arrow =>
      simp only [descend, Expr.descend, Visitor.enter]
      split <;> rfl
    | arrowBlock =>
      simp only [descend, Expr.descend, Visitor.enter]
      split <;> rfl
    | _ => rfl
  | function f =>
    cases f
    simp only [descend, Function.descend, Visitor.enter]
    split <;> rfl
  | member m =>
    cases m with
    | staticBlock body =>
      simp only [descend, Member.descend, Visitor.enter]
      split <;> rfl
    | _ => rfl
  | declarator d =>
    cases d
    rfl
  | case c =>
    cases c
    rfl
  | _ => rfl

end Walks

end Node

end ScriptBundler
