import Mathlib.Data.List.Basic
import ScriptBundler.Proofs.Syntax.Parts

namespace ScriptBundler

namespace Node

@[simp]
def expr? : Node → Option Expr
  | .expr _ e => some e
  | _ => none

@[simp]
def key? : Node → Option Key
  | .key k => some k
  | _ => none

@[simp]
def property? : Node → Option Property
  | .property p => some p
  | _ => none

@[simp]
def pattern? : Node → Option Pattern
  | .pattern p => some p
  | _ => none

@[simp]
def patternProperty? : Node → Option PatternProperty
  | .patternProperty p => some p
  | _ => none

@[simp]
def function? : Node → Option Function
  | .function f => some f
  | _ => none

@[simp]
def classDef? : Node → Option Class
  | .classDef c => some c
  | _ => none

@[simp]
def member? : Node → Option Member
  | .member m => some m
  | _ => none

@[simp]
def declarator? : Node → Option Declarator
  | .declarator d => some d
  | _ => none

@[simp]
def decl? : Node → Option Decl
  | .decl d => some d
  | _ => none

@[simp]
def head? : Node → Option ForHead
  | .head h => some h
  | _ => none

@[simp]
def case? : Node → Option Case
  | .case c => some c
  | _ => none

@[simp]
def stmt? : Node → Option Stmt
  | .stmt s => some s
  | _ => none

@[simp]
def exprsOf (ns : List Node) : List Expr := ns.filterMap expr?

@[simp]
def patternsOf (ns : List Node) : List Pattern := ns.filterMap pattern?

@[simp]
def stmtsOf (ns : List Node) : List Stmt := ns.filterMap stmt?

end Node

open Node (key? property? patternProperty? function? classDef? member? declarator? decl? head? case?
  exprsOf patternsOf stmtsOf)

section Rebuild

variable (ns : List Node)

def Expr.rebuild : Expr → Expr
  | .template quasis _ => .template quasis (exprsOf ns)
  | .taggedTemplate tag quasis _ =>
    .taggedTemplate ((exprsOf ns).headD tag) quasis (exprsOf ns).tail
  | .array _ finalComma => .array (exprsOf ns) finalComma
  | .spread value => .spread ((exprsOf ns).headD value)
  | .object _ => .object (ns.filterMap property?)
  | .function f => .function ((ns.filterMap function?).headD f)
  | .arrow isAsync isPure _ value =>
    .arrow isAsync isPure (patternsOf ns) ((exprsOf ns).headD value)
  | .arrowBlock isAsync isPure _ directives _ =>
    .arrowBlock isAsync isPure (patternsOf ns) directives (stmtsOf ns)
  | .classExpr c => .classExpr ((ns.filterMap classDef?).headD c)
  | .unary op operand => .unary op ((exprsOf ns).headD operand)
  | .update op isPrefix target => .update op isPrefix ((patternsOf ns).headD target)
  | .binary op left right =>
    .binary op ((exprsOf ns).getD 0 left) ((exprsOf ns).getD 1 right)
  | .privateIn name base => .privateIn name ((exprsOf ns).headD base)
  | .conditional test consequent alternate =>
    .conditional ((exprsOf ns).getD 0 test) ((exprsOf ns).getD 1 consequent)
      ((exprsOf ns).getD 2 alternate)
  | .assign op target value =>
    .assign op ((patternsOf ns).headD target) ((exprsOf ns).headD value)
  | .sequence _ => .sequence (exprsOf ns)
  | .member base property isOptional =>
    .member ((exprsOf ns).headD base) property isOptional
  | .index base property isOptional =>
    .index ((exprsOf ns).getD 0 base) ((exprsOf ns).getD 1 property) isOptional
  | .privateMember base name isOptional =>
    .privateMember ((exprsOf ns).headD base) name isOptional
  | .call callee _ isOptional isPure =>
    .call ((exprsOf ns).headD callee) (exprsOf ns).tail isOptional isPure
  | .new callee _ isPure =>
    .new ((exprsOf ns).headD callee) (exprsOf ns).tail isPure
  | .chain element => .chain ((exprsOf ns).headD element)
  | .importCall phase _ => .importCall phase (exprsOf ns)
  | .await operand => .await ((exprsOf ns).headD operand)
  | .yield _ => .yield (exprsOf ns).head?
  | .yieldAll source => .yieldAll ((exprsOf ns).headD source)
  | .paren inner => .paren ((exprsOf ns).headD inner)
  | .commented comments _ => .commented comments (exprsOf ns).head?
  | e => e

def Key.rebuild : Key → Key
  | .computed e => .computed ((exprsOf ns).headD e)
  | k => k

def Property.rebuild : Property → Property
  | .keyValue key isShorthand value =>
    .keyValue ((ns.filterMap key?).headD key) isShorthand ((exprsOf ns).headD value)
  | .method kind key f =>
    .method kind ((ns.filterMap key?).headD key) ((ns.filterMap function?).headD f)
  | .spread value => .spread ((exprsOf ns).headD value)

def Pattern.rebuild : Pattern → Pattern
  | .target m => .target ((exprsOf ns).headD m)
  | .object _ => .object (ns.filterMap patternProperty?)
  | .array _ => .array (patternsOf ns)
  | .withDefault p value =>
    .withDefault ((patternsOf ns).headD p) ((exprsOf ns).headD value)
  | .rest p => .rest ((patternsOf ns).headD p)
  | p => p

def PatternProperty.rebuild : PatternProperty → PatternProperty
  | .keyed key isShorthand p =>
    .keyed ((ns.filterMap key?).headD key) isShorthand ((patternsOf ns).headD p)
  | .rest p => .rest ((patternsOf ns).headD p)

def Function.rebuild : Function → Function
  | .mk isAsync isGenerator isPure name _ directives _ =>
    .mk isAsync isGenerator isPure name (patternsOf ns) directives (stmtsOf ns)

/-- Decorators and the superclass are told apart by the number of the decorators. -/
def Class.rebuild : Class → Class
  | .mk decorators types name _ _ =>
    .mk ((exprsOf ns).take decorators.length) types name
      ((exprsOf ns).drop decorators.length).head? (ns.filterMap member?)

def Member.rebuild : Member → Member
  | .method _ modifiers kind key mark f =>
    .method (exprsOf ns) modifiers kind ((ns.filterMap key?).headD key) mark
      ((ns.filterMap function?).headD f)
  | .field decorators modifiers key mark _ =>
    .field ((exprsOf ns).take decorators.length) modifiers
      ((ns.filterMap key?).headD key) mark ((exprsOf ns).drop decorators.length).head?
  | .staticBlock _ => .staticBlock (stmtsOf ns)
  | .commented comments m => .commented comments ((ns.filterMap member?).headD m)

def Declarator.rebuild : Declarator → Declarator
  | .mk pattern _ => .mk ((patternsOf ns).headD pattern) (exprsOf ns).head?

def Decl.rebuild : Decl → Decl
  | .vars kind _ => .vars kind (ns.filterMap declarator?)
  | .function f => .function ((ns.filterMap function?).headD f)
  | .classDef c => .classDef ((ns.filterMap classDef?).headD c)
  | .typeOnly text => .typeOnly text
  | .namespaceBlock keyword name directives _ =>
    .namespaceBlock keyword name directives (stmtsOf ns)

def ForHead.rebuild : ForHead → ForHead
  | .none => .none
  | .vars kind _ => .vars kind (ns.filterMap declarator?)
  | .expr e => .expr ((exprsOf ns).headD e)
  | .target p => .target ((patternsOf ns).headD p)

def Case.rebuild : Case → Case
  | .mk _ _ => .mk (exprsOf ns).head? (stmtsOf ns)

def Stmt.rebuild : Stmt → Stmt
  | .expr e => .expr ((exprsOf ns).headD e)
  | .decl d => .decl ((ns.filterMap decl?).headD d)
  | .block _ => .block (stmtsOf ns)
  | .ifElse test consequent _ =>
    .ifElse ((exprsOf ns).headD test) ((stmtsOf ns).headD consequent)
      (stmtsOf ns).tail.head?
  | .whileLoop test body =>
    .whileLoop ((exprsOf ns).headD test) ((stmtsOf ns).headD body)
  | .doWhile body test =>
    .doWhile ((stmtsOf ns).headD body) ((exprsOf ns).headD test)
  | .forLoop init test _ body =>
    .forLoop ((ns.filterMap head?).headD init)
      ((exprsOf ns).take test.toList.length).head?
      ((exprsOf ns).drop test.toList.length).head? ((stmtsOf ns).headD body)
  | .forIn left right body =>
    .forIn ((ns.filterMap head?).headD left) ((exprsOf ns).headD right)
      ((stmtsOf ns).headD body)
  | .forOf isAwait left right body =>
    .forOf isAwait ((ns.filterMap head?).headD left) ((exprsOf ns).headD right)
      ((stmtsOf ns).headD body)
  | .switch discriminant _ =>
    .switch ((exprsOf ns).headD discriminant) (ns.filterMap case?)
  | .tryCatch body none finalizer =>
    .tryCatch ((stmtsOf ns).take body.length) none
      (finalizer.map fun _ => (stmtsOf ns).drop body.length)
  | .tryCatch body (some (_, handler)) finalizer =>
    .tryCatch ((stmtsOf ns).take body.length)
      (some ((patternsOf ns).head?,
        ((stmtsOf ns).drop body.length).take handler.length))
      (finalizer.map fun _ => ((stmtsOf ns).drop body.length).drop handler.length)
  | .throwValue value => .throwValue ((exprsOf ns).headD value)
  | .returnValue _ => .returnValue (exprsOf ns).head?
  | .labeled label body => .labeled label ((stmtsOf ns).headD body)
  | .withObject object body =>
    .withObject ((exprsOf ns).headD object) ((stmtsOf ns).headD body)
  | .exportDecl d => .exportDecl ((ns.filterMap decl?).headD d)
  | .exportDefaultFunction f => .exportDefaultFunction ((ns.filterMap function?).headD f)
  | .exportDefaultClass c => .exportDefaultClass ((ns.filterMap classDef?).headD c)
  | .exportDefault value => .exportDefault ((exprsOf ns).headD value)
  | .commented comments _ => .commented comments (stmtsOf ns).head?
  | s => s

/-- A node with other parts in place of its own. -/
def Node.rebuild : Node → Node
  | .expr place e => .expr place (e.rebuild ns)
  | .key k => .key (k.rebuild ns)
  | .property p => .property (p.rebuild ns)
  | .pattern p => .pattern (p.rebuild ns)
  | .patternProperty p => .patternProperty (p.rebuild ns)
  | .function f => .function (f.rebuild ns)
  | .classDef c => .classDef (c.rebuild ns)
  | .member m => .member (m.rebuild ns)
  | .declarator d => .declarator (d.rebuild ns)
  | .decl d => .decl (d.rebuild ns)
  | .head h => .head (h.rebuild ns)
  | .case c => .case (c.rebuild ns)
  | .stmt s => .stmt (s.rebuild ns)

end Rebuild

namespace Node

variable {σ : Type} (v : Visitor σ)

/-- Walks the parts of a node, where the statements of a function are come to as a whole. -/
def walkParts : Node → StateM σ (List Node)
  | .function (.mk _ _ _ _ params _ body) => do
    let params ← Pattern.descendAll v params
    return params.map .pattern ++ (← v.visitBody body (Stmt.descendAll v body)).map .stmt
  | .expr _ (.arrowBlock _ _ params _ body) => do
    let params ← Pattern.descendAll v params
    return params.map .pattern ++ (← v.visitBody body (Stmt.descendAll v body)).map .stmt
  | n => walkAll v n.parts

variable {v}

section Lengths

variable {α : Type}

theorem bind_items_congr {es : List Expr} {f g : List Expr → StateM σ α}
    (h : ∀ es', es'.length = es.length → f es' = g es') :
    Expr.descendAll v es >>= f = Expr.descendAll v es >>= g :=
  funext fun st => congrFun (h _ (Expr.length_descendAll es st)) _

theorem bind_stmts_congr {ss : List Stmt} {f g : List Stmt → StateM σ α}
    (h : ∀ ss', ss'.length = ss.length → f ss' = g ss') :
    Stmt.descendAll v ss >>= f = Stmt.descendAll v ss >>= g :=
  funext fun st => congrFun (h _ (Stmt.length_descendAll ss st)) _

end Lengths

/-- A walk that comes to all scopes puts a node together again of what it makes of the parts. -/
theorem descend_eq (hs : v.entersScopes = true) (n : Node) :
    n.descend v = (do n.note v; return n.rebuild (← n.walkParts v)) := by
  cases n with
  | expr place e =>
    cases e with
    | template | taggedTemplate | array | object | sequence | call | importCall | new =>
      simp [descend, Expr.descend, walkParts, parts, Expr.parts, walkAll, walk, ← items_walk,
        ← properties_walk, note, rebuild, Expr.rebuild, Function.comp_def,
        -List.headD_eq_head?_getD, -List.head?_filterMap]
    | arrow | arrowBlock =>
      simp [descend, Expr.descend, Visitor.enter, hs, walkParts, parts, Expr.parts,
        walkAll_append, walkAll, walk, ← patterns_walk, note, rebuild, Expr.rebuild,
        Function.comp_def, List.filterMap_cons,
        -List.headD_eq_head?_getD, -List.head?_filterMap]
    | «yield» value => cases value <;> rfl
    | commented comments value => cases value <;> rfl
    | _ => rfl
  | key k => cases k <;> rfl
  | property p => cases p <;> rfl
  | pattern p =>
    cases p with
    | object | array =>
      simp [descend, Pattern.descend, walkParts, parts, Pattern.parts, ← patternProperties_walk,
        ← patterns_walk, note, rebuild, Pattern.rebuild, Function.comp_def]
    | _ => rfl
  | patternProperty p => cases p <;> rfl
  | function f =>
    obtain ⟨isAsync, isGenerator, isPure, name, params, directives, body⟩ := f
    simp [descend, Function.descend, Visitor.enter, hs, walkParts, note, rebuild,
      Function.rebuild, Function.comp_def]
  | classDef c =>
    obtain ⟨decorators, types, name, superClass, members⟩ := c
    simp only [descend, Class.descend, walkParts, parts, Class.parts, walkAll_append, ← items_walk,
      ← operands_walk, ← members_walk, note, rebuild, Class.rebuild, bind_assoc, pure_bind]
    refine bind_items_congr fun decorators' hd => ?_
    simp [← hd, Function.comp_def]
  | member m =>
    cases m with
    | method =>
      simp [descend, Member.descend, walkParts, parts, Member.parts, walkAll_append, walkAll,
        walk, ← items_walk, note, rebuild, Member.rebuild, Function.comp_def, List.filterMap_cons,
        -List.headD_eq_head?_getD, -List.head?_filterMap]
    | field decorators modifiers key mark value =>
      simp only [descend, Member.descend, walkParts, parts, Member.parts, walkAll_append, walkAll,
        walk, ← items_walk, ← operands_walk, note, rebuild, Member.rebuild, bind_assoc, pure_bind]
      refine bind_items_congr fun decorators' hd => ?_
      simp [← hd, Function.comp_def, List.filterMap_cons, -List.head?_filterMap]
    | staticBlock =>
      simp [descend, Member.descend, Visitor.enter, hs, walkParts, parts, Member.parts,
        ← stmts_walk, note, rebuild, Member.rebuild, Function.comp_def]
    | commented => rfl
  | declarator d =>
    obtain ⟨p, init⟩ := d
    cases init <;> rfl
  | decl d =>
    cases d with
    | vars | namespaceBlock =>
      simp [descend, Decl.descend, walkParts, parts, Decl.parts, ← declarators_walk,
        ← stmts_walk, note, rebuild, Decl.rebuild, Function.comp_def]
    | _ => rfl
  | head left =>
    cases left with
    | vars =>
      simp [descend, ForHead.descend, walkParts, parts, ForHead.parts, ← declarators_walk, note,
        rebuild, ForHead.rebuild, Function.comp_def]
    | _ => rfl
  | case c =>
    obtain ⟨test, body⟩ := c
    simp [descend, walkParts, parts, Case.parts, walkAll_append, ← operands_walk, ← stmts_walk,
      note, rebuild, Case.rebuild, Function.comp_def, -List.head?_filterMap]
  | stmt s =>
    cases s with
    | block | switch =>
      simp [descend, Stmt.descend, walkParts, parts, Stmt.parts, walkAll, walk, ← stmts_walk,
        ← cases_walk, note, rebuild, Stmt.rebuild, Function.comp_def, List.filterMap_cons,
        List.findSome?_cons]
    | ifElse test consequent alternate => cases alternate <;> rfl
    | forLoop init test update body => cases test <;> cases update <;> rfl
    | forOf isAwait left right body => cases isAwait <;> rfl
    | tryCatch body handler finalizer =>
      rcases handler with _ | ⟨_ | param, handler⟩ <;> cases finalizer
      all_goals
        simp only [descend, Stmt.descend, Stmt.descendBlock, walkParts, parts, Stmt.parts,
          walkAll_append, walkAll, walk, ← stmts_walk, note, rebuild, Stmt.rebuild, bind_assoc,
          pure_bind, List.map_append, Option.map_none, Option.map_some, Option.getD_none,
          Option.getD_some, Option.toList_none, Option.toList_some, List.map_nil, List.map_cons]
        refine bind_stmts_congr fun body' hb => ?_
      case none.none | none.some => simp [← hb, Function.comp_def]
      case some.none.none | some.none.some =>
        refine bind_stmts_congr fun handler' hh => ?_
        simp [← hb, ← hh, Function.comp_def]
      case some.some.none | some.some.some =>
        refine bind_congr fun param' => bind_stmts_congr fun handler' hh => ?_
        simp [← hb, ← hh, Function.comp_def, List.filterMap_cons]
    | returnValue value => cases value <;> rfl
    | commented comments s => cases s <;> rfl
    | _ => rfl

/-- Where no body is replaced, the statements of a function are parts like all others. -/
theorem walkParts_eq (hb : ∀ ss m, v.visitBody ss m = m) (n : Node) :
    n.walkParts v = walkAll v n.parts := by
  cases n with
  | expr place e =>
    cases e with
    | arrowBlock isAsync isPure params directives body =>
      simp only [walkParts, hb, parts, Expr.parts, walkAll_append, ← patterns_walk, ← stmts_walk,
        bind_assoc, pure_bind]
    | _ => rfl
  | function f =>
    obtain ⟨isAsync, isGenerator, isPure, name, params, directives, body⟩ := f
    simp only [walkParts, hb, parts, Function.parts, walkAll_append, ← patterns_walk,
      ← stmts_walk, bind_assoc, pure_bind]
  | _ => rfl

theorem note_eq (hd : ∀ kind ds, v.onVariables kind ds = pure ()) (ha : v.onForAwait = pure ())
    (n : Node) : n.note v = pure () := by
  unfold note
  split
  · exact hd _ _
  · exact hd _ _
  · exact ha
  · rfl

/-- What a node is put together of after a walk are its parts. -/
theorem parts_rebuild (hs : v.entersScopes = true) {n : Node} (hn : n.note v = pure ()) :
    (do return (n.rebuild (← walkAll v n.parts)).parts) = walkAll v n.parts := by
  cases hscope : n.isScope with
  | false =>
    have hparts : n.walkParts v = walkAll v n.parts := by
      cases n with
      | expr place e => cases e <;> first | rfl | cases hscope
      | function f => cases hscope
      | _ => rfl
    have hdescend := parts_descend (v := v) hscope
    rwa [descend_eq hs, hn, pure_bind, pure_bind, hparts, bind_assoc] at hdescend
  | true =>
    cases n with
    | expr place e =>
      cases e with
      | arrow | arrowBlock =>
        simp [parts, Expr.parts, walkAll_append, walkAll, walk, ← patterns_walk, ← stmts_walk,
          rebuild, Expr.rebuild, Function.comp_def, List.filterMap_cons, -List.headD_eq_head?_getD,
          -List.head?_filterMap]
      | _ => cases hscope
    | function f =>
      obtain ⟨isAsync, isGenerator, isPure, name, params, directives, body⟩ := f
      simp [parts, Function.parts, walkAll_append, ← patterns_walk, ← stmts_walk, rebuild,
        Function.rebuild, Function.comp_def]
    | member m =>
      cases m with
      | staticBlock =>
        simp [parts, Member.parts, ← stmts_walk, rebuild, Member.rebuild, Function.comp_def]
      | _ => cases hscope
    | _ => cases hscope

theorem idle_related : Visitor.Related
    (fun a (m _ : StateM Unit _) => m = pure a) ({} : Visitor Unit) {} where
  pure _ := rfl
  map f h := by rw [h, pure_bind]
  map₂ f h h' := by rw [h, pure_bind, h', pure_bind]
  scopes := rfl
  expr _ h := h
  body _ h := h
  declarations _ _ := rfl
  forAwait := rfl

theorem rebuild_parts (n : Node) : n.rebuild n.parts = n := by
  have hdescend : n.descend ({} : Visitor Unit) = _ := n.descend_eq rfl
  rw [descend_related idle_related n, note_eq (fun _ _ => rfl) rfl, pure_bind,
    walkParts_eq (fun _ _ => rfl), walkAll_related idle_related n.parts, pure_bind] at hdescend
  exact (congrArg Prod.fst (congrFun hdescend ())).symm

end Node

end ScriptBundler
