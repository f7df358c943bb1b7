import ScriptBundler.Proofs.Syntax.Walk

namespace ScriptBundler

/-- Where an expression stands, which decides how a walk comes to it. -/
inductive Place where
  | operand
  | item
  | element
  deriving DecidableEq

/-- All that can be part of a program. -/
inductive Node where
  | expr (place : Place) (e : Expr)
  | key (k : Key)
  | property (p : Property)
  | pattern (p : Pattern)
  | patternProperty (p : PatternProperty)
  | function (f : Function)
  | classDef (c : Class)
  | member (m : Member)
  | declarator (d : Declarator)
  | decl (d : Decl)
  | head (h : ForHead)
  | case (c : Case)
  | stmt (s : Stmt)

def Expr.parts : Expr → List Node
  | .template _ values => values.map (.expr .item)
  | .taggedTemplate tag _ values => .expr .operand tag :: values.map (.expr .item)
  | .array items _ => items.map (.expr .item)
  | .spread value => [.expr .operand value]
  | .object properties => properties.map .property
  | .function f => [.function f]
  | .arrow _ _ params value => params.map .pattern ++ [.expr .operand value]
  | .arrowBlock _ _ params _ body => params.map .pattern ++ body.map .stmt
  | .classExpr c => [.classDef c]
  | .unary _ operand => [.expr .operand operand]
  | .update _ _ target => [.pattern target]
  | .binary _ left right => [.expr .operand left, .expr .operand right]
  | .privateIn _ base => [.expr .operand base]
  | .conditional test consequent alternate =>
    [.expr .operand test, .expr .operand consequent, .expr .operand alternate]
  | .assign _ target value => [.pattern target, .expr .operand value]
  | .sequence items => items.map (.expr .item)
  | .member base _ _ => [.expr .operand base]
  | .index base property _ => [.expr .operand base, .expr .operand property]
  | .privateMember base _ _ => [.expr .operand base]
  | .call callee args _ _ => .expr .operand callee :: args.map (.expr .item)
  | .new callee args _ => .expr .operand callee :: args.map (.expr .item)
  | .chain element => [.expr .element element]
  | .importCall _ args => args.map (.expr .item)
  | .await operand => [.expr .operand operand]
  | .yield value => value.toList.map (.expr .operand)
  | .yieldAll source => [.expr .operand source]
  | .paren inner => [.expr .operand inner]
  | .commented _ value => value.toList.map (.expr .operand)
  | .ident _ | .thisValue | .superValue | .null | .bool _ | .number _ | .bigint _ | .string _ _
  | .regex _ _ | .hole | .importMeta | .newTarget => []

def Key.parts : Key → List Node
  | .computed e => [.expr .operand e]
  | _ => []

def Property.parts : Property → List Node
  | .keyValue key _ value => [.key key, .expr .operand value]
  | .method _ key f => [.key key, .function f]
  | .spread value => [.expr .operand value]

def Pattern.parts : Pattern → List Node
  | .target m => [.expr .element m]
  | .object properties => properties.map .patternProperty
  | .array items => items.map .pattern
  | .withDefault p value => [.pattern p, .expr .operand value]
  | .rest p => [.pattern p]
  | .name _ | .hole => []

def PatternProperty.parts : PatternProperty → List Node
  | .keyed key _ p => [.key key, .pattern p]
  | .rest p => [.pattern p]

def Function.parts : Function → List Node
  | .mk _ _ _ _ params _ body => params.map .pattern ++ body.map .stmt

def Class.parts : Class → List Node
  | .mk decorators _ _ superClass members =>
    decorators.map (.expr .item) ++ superClass.toList.map (.expr .operand) ++ members.map .member

def Member.parts : Member → List Node
  | .method decorators _ _ key _ f => decorators.map (.expr .item) ++ [.key key, .function f]
  | .field decorators _ key _ value =>
    decorators.map (.expr .item) ++ .key key :: value.toList.map (.expr .operand)
  | .staticBlock body => body.map .stmt
  | .commented _ m => [.member m]

def Declarator.parts : Declarator → List Node
  | .mk pattern init => .pattern pattern :: init.toList.map (.expr .operand)

def Decl.parts : Decl → List Node
  | .vars _ ds => ds.map .declarator
  | .function f => [.function f]
  | .classDef c => [.classDef c]
  | .typeOnly _ => []
  | .namespaceBlock _ _ _ body => body.map .stmt

def ForHead.parts : ForHead → List Node
  | .none => []
  | .vars _ ds => ds.map .declarator
  | .expr e => [.expr .operand e]
  | .target p => [.pattern p]

def Case.parts : Case → List Node
  | .mk test body => test.toList.map (.expr .operand) ++ body.map .stmt

def Stmt.parts : Stmt → List Node
  | .expr e => [.expr .operand e]
  | .decl d => [.decl d]
  | .block body => body.map .stmt
  | .ifElse test consequent alternate =>
    .expr .operand test :: .stmt consequent :: alternate.toList.map .stmt
  | .whileLoop test body => [.expr .operand test, .stmt body]
  | .doWhile body test => [.stmt body, .expr .operand test]
  | .forLoop init test update body =>
    .head init :: (test.toList ++ update.toList).map (.expr .operand) ++ [.stmt body]
  | .forIn left right body => [.head left, .expr .operand right, .stmt body]
  | .forOf _ left right body => [.head left, .expr .operand right, .stmt body]
  | .switch discriminant cases => .expr .operand discriminant :: cases.map .case
  | .tryCatch body none finalizer => (body ++ finalizer.getD []).map .stmt
  | .tryCatch body (some (param, handler)) finalizer =>
    body.map .stmt ++ param.toList.map .pattern ++ (handler ++ finalizer.getD []).map .stmt
  | .throwValue value => [.expr .operand value]
  | .returnValue value => value.toList.map (.expr .operand)
  | .labeled _ body => [.stmt body]
  | .withObject object body => [.expr .operand object, .stmt body]
  | .exportDecl d => [.decl d]
  | .exportDefaultFunction f => [.function f]
  | .exportDefaultClass c => [.classDef c]
  | .exportDefault value => [.expr .operand value]
  | .commented _ s => s.toList.map .stmt
  | .empty | .breakTo _ | .continueTo _ | .debugger | .importDecl _ | .exportNames _ _
  | .exportAll _ _ _ => []

namespace Node

def parts : Node → List Node
  | .expr _ e => e.parts
  | .key k => k.parts
  | .property p => p.parts
  | .pattern p => p.parts
  | .patternProperty p => p.parts
  | .function f => f.parts
  | .classDef c => c.parts
  | .member m => m.parts
  | .declarator d => d.parts
  | .decl d => d.parts
  | .head h => h.parts
  | .case c => c.parts
  | .stmt s => s.parts

/--
The function around the parts of a node, if there is one, told by whether it is asynchronous, given
the one around the node. A static block is like a function that is not.
-/
def scope (around : Option Bool) : Node → Option Bool
  | .expr _ (.arrow isAsync _ _ _) => some isAsync
  | .expr _ (.arrowBlock isAsync _ _ _ _) => some isAsync
  | .function (.mk isAsync _ _ _ _ _ _) => some isAsync
  | .member (.staticBlock _) => some false
  | _ => around

/-- Whether walks can be told to leave a node as it is. -/
def isScope : Node → Bool
  | .expr _ (.arrow _ _ _ _) => true
  | .expr _ (.arrowBlock _ _ _ _ _) => true
  | .function _ => true
  | .member (.staticBlock _) => true
  | _ => false

variable {σ : Type} (v : Visitor σ)

/-- What a walk does to a node whose parts it comes to. -/
def descend : Node → StateM σ Node
  | .expr place e => return .expr place (← e.descend v)
  | .key k => return .key (← k.descend v)
  | .property p => return .property (← p.descend v)
  | .pattern p => return .pattern (← p.descend v)
  | .patternProperty p => return .patternProperty (← p.descend v)
  | .function f => return .function (← f.descend v)
  | .classDef c => return .classDef (← c.descend v)
  | .member m => return .member (← m.descend v)
  | .declarator (.mk p init) => do
    let p ← p.descend v
    return .declarator (.mk p (← Expr.descendOption v init))
  | .decl d => return .decl (← d.descend v)
  | .head h => return .head (← h.descend v)
  | .case (.mk test body) => do
    let test ← Expr.descendOption v test
    return .case (.mk test (← Stmt.descendAll v body))
  | .stmt s => return .stmt (← s.descend v)

def walk : Node → StateM σ Node
  | .expr .operand e => return .expr .operand (← v.visit e (e.descend v))
  | .expr .item (.spread value) => (Node.expr .item (.spread value)).descend v
  | .expr .item e => return .expr .item (← v.visit e (e.descend v))
  | n => n.descend v

def walkAll : List Node → StateM σ (List Node)
  | [] => return []
  | n :: ns => do
    let n ← n.walk v
    return n :: (← walkAll ns)

/-- What happens at a node before its parts are walked. -/
def note : Node → StateM σ Unit
  | .decl (.vars kind ds) => v.onVariables kind ds
  | .head (.vars kind ds) => v.onVariables kind ds
  | .stmt (.forOf true _ _ _) => v.onForAwait
  | _ => pure ()

variable {v}

theorem walkAll_append (ns ms : List Node) :
    walkAll v (ns ++ ms) = do let ns ← walkAll v ns; return ns ++ (← walkAll v ms) := by
  induction ns with
  | nil => rfl
  | cons n ns ih =>
    rw [List.cons_append, walkAll, ih]
    rfl

/-- What a walk takes down in several nodes, given what it takes down in each of them. -/
theorem walkAll_collects {P : σ → Prop} {Q : Node → Prop} {ns : List Node}
    (hns : ∀ n ∈ ns, ∀ st, P ((n.walk v).run st).2 ↔ P st ∨ Q n) (st : σ) :
    P ((walkAll v ns).run st).2 ↔ P st ∨ ∃ n ∈ ns, Q n := by
  induction ns generalizing st with
  | nil =>
    simp only [List.not_mem_nil, false_and, exists_false, or_false]
    rfl
  | cons n ns ih =>
    obtain ⟨hn, hns⟩ := List.forall_mem_cons.1 hns
    have hrest := ih hns ((n.walk v).run st).2
    rw [hn st] at hrest
    simp only [List.mem_cons, exists_eq_or_imp, ← or_assoc]
    exact hrest

section Lists

/-- A list of nodes of one kind is walked one by one. -/
theorem walkAll_map {α : Type} {all : List α → StateM σ (List α)} {part : α → Node}
    (hnil : (do return (← all []).map part) = walkAll v [])
    (hcons : ∀ a as, (do return (← all (a :: as)).map part) =
      (do let n ← (part a).walk v; let as ← all as; return n :: as.map part))
    (as : List α) : (do return (← all as).map part) = walkAll v (as.map part) := by
  induction as with
  | nil => exact hnil
  | cons a as ih =>
    rw [List.map_cons, walkAll, ← ih]
    exact (hcons a as).trans rfl

theorem items_walk (es : List Expr) :
    (do return (← Expr.descendAll v es).map (.expr .item)) = walkAll v (es.map (.expr .item)) :=
  walkAll_map rfl (fun e _ => by cases e <;> rfl) es

theorem operands_walk (e : Option Expr) :
    (do return (← Expr.descendOption v e).toList.map (.expr .operand)) =
      walkAll v (e.toList.map (.expr .operand)) := by
  cases e <;> rfl

theorem properties_walk (ps : List Property) :
    (do return (← Property.descendAll v ps).map .property) = walkAll v (ps.map .property) :=
  walkAll_map rfl (fun _ _ => rfl) ps

theorem patterns_walk (ps : List Pattern) :
    (do return (← Pattern.descendAll v ps).map .pattern) = walkAll v (ps.map .pattern) :=
  walkAll_map rfl (fun _ _ => rfl) ps

theorem patternProperties_walk (ps : List PatternProperty) :
    (do return (← PatternProperty.descendAll v ps).map .patternProperty) =
      walkAll v (ps.map .patternProperty) :=
  walkAll_map rfl (fun _ _ => rfl) ps

theorem members_walk (ms : List Member) :
    (do return (← Member.descendAll v ms).map .member) = walkAll v (ms.map .member) :=
  walkAll_map rfl (fun _ _ => rfl) ms

theorem declarators_walk (ds : List Declarator) :
    (do return (← Declarator.descendAll v ds).map .declarator) = walkAll v (ds.map .declarator) :=
  walkAll_map rfl (fun | .mk _ _, _ => rfl) ds

theorem cases_walk (cs : List Case) :
    (do return (← Case.descendAll v cs).map .case) = walkAll v (cs.map .case) :=
  walkAll_map rfl (fun | .mk _ _, _ => rfl) cs

theorem stmts_walk (ss : List Stmt) :
    (do return (← Stmt.descendAll v ss).map .stmt) = walkAll v (ss.map .stmt) :=
  walkAll_map rfl (fun _ _ => rfl) ss

end Lists

/-- Where a walk does not come to a scope, it walks the parts of a node. -/
theorem parts_descend {n : Node} (h : n.isScope = false) :
    (do return (← n.descend v).parts) = (do n.note v; walkAll v n.parts) := by
  cases n with
  | expr place e =>
    cases e with
    | template quasis values => exact items_walk values
    | taggedTemplate tag quasis values =>
      simp only [parts, Expr.parts, walkAll, ← items_walk]
      rfl
    | array items finalComma => exact items_walk items
    | sequence items => exact items_walk items
    | importCall phase args => exact items_walk args
    | object properties => exact properties_walk properties
    | call callee args isOptional isPure =>
      simp only [parts, Expr.parts, walkAll, ← items_walk]
      rfl
    | new callee args isPure =>
      simp only [parts, Expr.parts, walkAll, ← items_walk]
      rfl
    | «yield» value => exact operands_walk value
    | commented comments value => exact operands_walk value
    | arrow => cases h
    | arrowBlock => cases h
    | _ => rfl
  | key k => cases k <;> rfl
  | property p => cases p <;> rfl
  | pattern p =>
    cases p with
    | object properties => exact patternProperties_walk properties
    | array items => exact patterns_walk items
    | _ => rfl
  | patternProperty p => cases p <;> rfl
  | function f => cases h
  | classDef c =>
    obtain ⟨decorators, types, name, superClass, members⟩ := c
    simp only [parts, Class.parts, walkAll_append, ← items_walk, ← operands_walk, ← members_walk]
    rfl
  | member m =>
    cases m with
    | method decorators modifiers kind key mark f =>
      simp only [parts, Member.parts, walkAll_append, ← items_walk]
      rfl
    | field decorators modifiers key mark value =>
      simp only [parts, Member.parts, walkAll_append, walkAll, ← items_walk, ← operands_walk]
      rfl
    | staticBlock body => cases h
    | commented comments m => rfl
  | declarator d =>
    obtain ⟨p, init⟩ := d
    simp only [parts, Declarator.parts, walkAll, ← operands_walk]
    rfl
  | decl d =>
    cases d with
    | vars kind ds =>
      simp only [parts, Decl.parts, ← declarators_walk]
      rfl
    | namespaceBlock keyword name directives body => exact stmts_walk body
    | _ => rfl
  | head left =>
    cases left with
    | vars kind ds =>
      simp only [parts, ForHead.parts, ← declarators_walk]
      rfl
    | _ => rfl
  | case c =>
    obtain ⟨test, body⟩ := c
    simp only [parts, Case.parts, walkAll_append, ← operands_walk, ← stmts_walk]
    rfl
  | stmt s =>
    cases s with
    | block body => exact stmts_walk body
    | switch discriminant cases =>
      simp only [parts, Stmt.parts, walkAll, ← cases_walk]
      rfl
    | returnValue value => exact operands_walk value
    | ifElse test consequent alternate => cases alternate <;> rfl
    | forLoop init test update body => cases test <;> cases update <;> rfl
    | forOf isAwait left right body => cases isAwait <;> rfl
    | tryCatch body handler finalizer =>
      rcases handler with _ | ⟨_ | param, handler⟩ <;> cases finalizer <;>
        simp only [parts, Stmt.parts, List.map_append, walkAll_append, ← stmts_walk] <;> rfl
    | commented comments s => cases s <;> rfl
    | _ => rfl

/-- A walk that comes to all scopes, and replaces no bodies, walks the parts of every node. -/
theorem parts_descend_of_enters (hs : v.entersScopes = true)
    (hb : ∀ ss m, v.visitBody ss m = m) (n : Node) :
    (do return (← n.descend v).parts) = (do n.note v; walkAll v n.parts) := by
  cases hn : n.isScope with
  | false => exact parts_descend hn
  | true =>
    cases n with
    | expr place e =>
      cases e with
      | arrow isAsync isPure params value =>
        simp only [descend, Expr.descend, Visitor.enter, hs, ↓reduceIte, parts, Expr.parts,
          walkAll_append, walkAll, ← patterns_walk]
        rfl
      | arrowBlock isAsync isPure params directives body =>
        simp only [descend, Expr.descend, Visitor.enter, hs, ↓reduceIte, hb, parts, Expr.parts,
          walkAll_append, ← patterns_walk, ← stmts_walk]
        rfl
      | _ => cases hn
    | function f =>
      obtain ⟨isAsync, isGenerator, isPure, name, params, directives, body⟩ := f
      simp only [descend, Function.descend, Visitor.enter, hs, ↓reduceIte, hb, parts,
        Function.parts, walkAll_append, ← patterns_walk, ← stmts_walk]
      rfl
    | member m =>
      cases m with
      | staticBlock body =>
        simp only [descend, Member.descend, Visitor.enter, hs, ↓reduceIte, parts, Member.parts,
          ← stmts_walk]
        rfl
      | _ => cases hn
    | _ => cases hn

theorem descend_of_isScope (hs : v.entersScopes = false) {n : Node} (h : n.isScope = true) :
    n.descend v = pure n := by
  have henter {α : Type} (a : α) (m : StateM σ α) : v.enter a m = pure a := by
    rw [Visitor.enter, hs]
    rfl
  cases n with
  | expr place e =>
    cases e with
    | arrow => rw [descend, Expr.descend, henter, pure_bind]
    | arrowBlock => rw [descend, Expr.descend, henter, pure_bind]
    | _ => cases h
  | function f =>
    cases f
    rw [descend, Function.descend, henter, pure_bind]
  | member m =>
    cases m with
    | staticBlock body => rw [descend, Member.descend, henter, pure_bind]
    | _ => cases h
  | _ => cases h

variable {n m : Node} {ns : List Node}

/-- Each node that comes of a walk comes of one of the nodes that were walked. -/
theorem mem_walkAll {st : σ} (h : m ∈ ((walkAll v ns).run st).1) :
    ∃ n ∈ ns, ∃ st', m = ((n.walk v).run st').1 := by
  induction ns generalizing st with
  | nil => cases h
  | cons n ns ih =>
    rcases List.mem_cons.1 h with rfl | h
    · exact ⟨n, List.mem_cons_self, st, rfl⟩
    · obtain ⟨n', hn', st', rfl⟩ := ih h
      exact ⟨n', List.mem_cons_of_mem _ hn', st', rfl⟩

theorem walk_mem_walkAll (st : σ) (h : n ∈ ns) :
    ∃ st', ((n.walk v).run st').1 ∈ ((walkAll v ns).run st).1 := by
  induction ns generalizing st with
  | nil => cases h
  | cons n' ns ih =>
    rcases List.mem_cons.1 h with rfl | h
    · exact ⟨st, List.mem_cons_self⟩
    · obtain ⟨st', hm⟩ := ih ((n'.walk v).run st).2 h
      exact ⟨st', List.mem_cons_of_mem _ hm⟩

section Related

variable {σ τ : Type} {rel : {α : Type} → α → StateM σ α → StateM τ α → Prop} {v : Visitor σ}
  {w : Visitor τ}

theorem descend_related (h : Visitor.Related rel v w) (n : Node) :
    rel n (n.descend v) (n.descend w) := by
  cases n with
  | expr place e => exact h.map _ (Expr.descend_related h e)
  | key k => exact h.map _ (Key.descend_related h k)
  | property p => exact h.map _ (Property.descend_related h p)
  | pattern p => exact h.map _ (Pattern.descend_related h p)
  | patternProperty p => exact h.map _ (PatternProperty.descend_related h p)
  | function f => exact h.map _ (Function.descend_related h f)
  | classDef c => exact h.map _ (Class.descend_related h c)
  | member m => exact h.map _ (Member.descend_related h m)
  | declarator d =>
    obtain ⟨p, init⟩ := d
    exact h.map₂ (fun p init => Node.declarator (.mk p init)) (Pattern.descend_related h p)
      (Expr.descendOption_related h init)
  | decl d => exact h.map _ (Decl.descend_related h d)
  | head left => exact h.map _ (ForHead.descend_related h left)
  | case c =>
    obtain ⟨test, body⟩ := c
    exact h.map₂ (fun test body => Node.case (.mk test body)) (Expr.descendOption_related h test)
      (Stmt.descendAll_related h body)
  | stmt s => exact h.map _ (Stmt.descend_related h s)

theorem walk_related (h : Visitor.Related rel v w) (n : Node) :
    rel n (n.walk v) (n.walk w) := by
  cases n with
  | expr place e =>
    cases place with
    | operand => exact h.map _ (h.expr e (Expr.descend_related h e))
    | item =>
      cases e with
      | spread value => exact descend_related h (.expr .item (.spread value))
      | _ => exact h.map _ (h.expr _ (Expr.descend_related h _))
    | element => exact descend_related h (.expr .element e)
  | _ => exact descend_related h _

theorem walkAll_related (h : Visitor.Related rel v w) (ns : List Node) :
    rel ns (walkAll v ns) (walkAll w ns) := by
  induction ns with
  | nil => exact h.pure _
  | cons n ns ih => exact h.map₂ List.cons (walk_related h n) ih

end Related

section Size

noncomputable def size : Node → Nat
  | .expr _ e => sizeOf e
  | .key k => sizeOf k
  | .property p => sizeOf p
  | .pattern p => sizeOf p
  | .patternProperty p => sizeOf p
  | .function f => sizeOf f
  | .classDef c => sizeOf c
  | .member m => sizeOf m
  | .declarator d => sizeOf d
  | .decl d => sizeOf d
  | .head h => sizeOf h
  | .case c => sizeOf c
  | .stmt s => sizeOf s

theorem forall_mem_sizeOf_lt {α : Type} [SizeOf α] {l : List α} {k : Nat} (h : sizeOf l ≤ k) :
    ∀ a ∈ l, sizeOf a < k :=
  fun _ ha => Nat.lt_of_lt_of_le (List.sizeOf_lt_of_mem ha) h

theorem forall_toList_sizeOf_lt {α : Type} [SizeOf α] {o : Option α} {k : Nat} (h : sizeOf o ≤ k) :
    ∀ a ∈ o.toList, sizeOf a < k := by
  intro a ha
  obtain rfl := Option.mem_toList.1 ha
  rw [Option.some.sizeOf_spec] at h
  omega

theorem size_lt_of_mem_parts : ∀ m ∈ n.parts, m.size < n.size := by
  cases n
  case' expr place e => cases e
  case' key k => cases k
  case' property p => cases p
  case' pattern p => cases p
  case' patternProperty p => cases p
  case' function f => cases f
  case' classDef c => cases c
  case' member m => cases m
  case' declarator d => cases d
  case' decl d => cases d
  case' head left => cases left
  case' case c => cases c
  case' stmt s => cases s
  case' stmt.tryCatch body handler finalizer =>
    rcases handler with _ | ⟨_ | param, handler⟩ <;> cases finalizer
  all_goals
    simp only [parts, Expr.parts, Key.parts, Property.parts, Pattern.parts, PatternProperty.parts,
      Function.parts, Class.parts, Member.parts, Declarator.parts, Decl.parts, ForHead.parts,
      Case.parts, Stmt.parts, List.map_append, List.forall_mem_cons, List.forall_mem_append,
      List.forall_mem_map, size, Option.getD]
    repeat' apply And.intro
  all_goals first
    | apply forall_toList_sizeOf_lt
      simp <;> omega
    | apply forall_mem_sizeOf_lt
      simp <;> omega
    | simp <;> omega

@[elab_as_elim]
theorem parts_induction {motive : Node → Prop}
    (node : ∀ n, (∀ m ∈ n.parts, motive m) → motive n) (n : Node) : motive n := by
  induction hk : n.size using Nat.strongRecOn generalizing n with
  | ind k ih => exact node n fun m hm => ih m.size (hk ▸ size_lt_of_mem_parts m hm) m rfl

end Size

end Node

end ScriptBundler
