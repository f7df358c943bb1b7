import ScriptBundler.Syntax.Basic

namespace ScriptBundler

/-- What a walk does at the places it comes to. -/
structure Visitor (σ : Type) where
  entersScopes : Bool := true
  onExpr : Expr → StateM σ (Option Expr) := fun _ => pure none
  onBody : List Stmt → StateM σ (Option (List Stmt)) := fun _ => pure none
  onVariables : VarKind → List Declarator → StateM σ Unit := fun _ _ => pure ()
  onForAwait : StateM σ Unit := pure ()

namespace Visitor

variable {σ : Type} (v : Visitor σ)

/-- Comes to an expression; `descend` walks its parts. -/
def visit (e : Expr) (descend : StateM σ Expr) : StateM σ Expr := do
  match ← v.onExpr e with
  | some e' => return e'
  | none => descend

/-- Comes to the body of a function; `descend` walks its statements. -/
def visitBody (body : List Stmt) (descend : StateM σ (List Stmt)) : StateM σ (List Stmt) := do
  match ← v.onBody body with
  | some body' => return body'
  | none => descend

/-- Enters a scope of its own, or leaves it as it is. -/
def enter (a : α) (descend : StateM σ α) : StateM σ α :=
  if v.entersScopes then descend else pure a

end Visitor

variable {σ : Type} (v : Visitor σ)

mutual

def Expr.descend : Expr → StateM σ Expr
  | .template quasis values => return .template quasis (← Expr.descendAll values)
  | .taggedTemplate tag quasis values => do
    let tag ← v.visit tag tag.descend
    return .taggedTemplate tag quasis (← Expr.descendAll values)
  | .array items finalComma => return .array (← Expr.descendAll items) finalComma
  | .spread value => return .spread (← v.visit value value.descend)
  | .object properties => return .object (← Property.descendAll properties)
  | .function f => return .function (← f.descend)
  | .arrow isAsync isPure params value =>
    v.enter (.arrow isAsync isPure params value) do
      let params ← Pattern.descendAll params
      return .arrow isAsync isPure params (← v.visit value value.descend)
  | .arrowBlock isAsync isPure params directives body =>
    v.enter (.arrowBlock isAsync isPure params directives body) do
      let params ← Pattern.descendAll params
      let body ← v.visitBody body (Stmt.descendAll body)
      return .arrowBlock isAsync isPure params directives body
  | .classExpr c => return .classExpr (← c.descend)
  | .unary op operand => return .unary op (← v.visit operand operand.descend)
  | .update op isPrefix target => return .update op isPrefix (← target.descend)
  | .binary op left right => do
    let left ← v.visit left left.descend
    return .binary op left (← v.visit right right.descend)
  | .privateIn name object => return .privateIn name (← v.visit object object.descend)
  | .conditional test consequent alternate => do
    let test ← v.visit test test.descend
    let consequent ← v.visit consequent consequent.descend
    return .conditional test consequent (← v.visit alternate alternate.descend)
  | .assign op target value => do
    let target ← target.descend
    return .assign op target (← v.visit value value.descend)
  | .sequence items => return .sequence (← Expr.descendAll items)
  | .member object property isOptional =>
    return .member (← v.visit object object.descend) property isOptional
  | .index object property isOptional => do
    let object ← v.visit object object.descend
    return .index object (← v.visit property property.descend) isOptional
  | .privateMember object name isOptional =>
    return .privateMember (← v.visit object object.descend) name isOptional
  | .call callee args isOptional isPure => do
    let callee ← v.visit callee callee.descend
    return .call callee (← Expr.descendAll args) isOptional isPure
  | .new callee args isPure => do
    let callee ← v.visit callee callee.descend
    return .new callee (← Expr.descendAll args) isPure
  | .chain element => return .chain (← element.descend)
  | .importCall phase args => return .importCall phase (← Expr.descendAll args)
  | .await operand => return .await (← v.visit operand operand.descend)
  | .yield value => return .yield (← Expr.descendOption value)
  | .yieldAll source => return .yieldAll (← v.visit source source.descend)
  | .paren inner => return .paren (← v.visit inner inner.descend)
  | .commented comments value => return .commented comments (← Expr.descendOption value)
  | e => return e

def Expr.descendOption : Option Expr → StateM σ (Option Expr)
  | none => return none
  | some e => return some (← v.visit e e.descend)

/-- Comes to expressions one after the other; the value behind `...` is one, the `...` is not. -/
def Expr.descendAll : List Expr → StateM σ (List Expr)
  | [] => return []
  | .spread e :: es => do
    let e ← v.visit e e.descend
    return .spread e :: (← Expr.descendAll es)
  | e :: es => do
    let e ← v.visit e e.descend
    return e :: (← Expr.descendAll es)

def Key.descend : Key → StateM σ Key
  | .computed e => return .computed (← v.visit e e.descend)
  | k => return k

def Property.descend : Property → StateM σ Property
  | .keyValue key isShorthand value => do
    let key ← key.descend
    return .keyValue key isShorthand (← v.visit value value.descend)
  | .method kind key f => do
    let key ← key.descend
    return .method kind key (← f.descend)
  | .spread value => return .spread (← v.visit value value.descend)

def Property.descendAll : List Property → StateM σ (List Property)
  | [] => return []
  | p :: ps => do
    let p ← p.descend
    return p :: (← Property.descendAll ps)

def Pattern.descend : Pattern → StateM σ Pattern
  | .target m => return .target (← m.descend)
  | .object properties => return .object (← PatternProperty.descendAll properties)
  | .array items => return .array (← Pattern.descendAll items)
  | .withDefault p value => do
    let p ← p.descend
    return .withDefault p (← v.visit value value.descend)
  | .rest p => return .rest (← p.descend)
  | p => return p

def Pattern.descendAll : List Pattern → StateM σ (List Pattern)
  | [] => return []
  | p :: ps => do
    let p ← p.descend
    return p :: (← Pattern.descendAll ps)

def PatternProperty.descend : PatternProperty → StateM σ PatternProperty
  | .keyed key isShorthand p => do
    let key ← key.descend
    return .keyed key isShorthand (← p.descend)
  | .rest p => return .rest (← p.descend)

def PatternProperty.descendAll : List PatternProperty → StateM σ (List PatternProperty)
  | [] => return []
  | p :: ps => do
    let p ← p.descend
    return p :: (← PatternProperty.descendAll ps)

def Function.descend : Function → StateM σ Function
  | .mk isAsync isGenerator isPure name params directives body =>
    v.enter (.mk isAsync isGenerator isPure name params directives body) do
      let params ← Pattern.descendAll params
      return .mk isAsync isGenerator isPure name params directives
        (← v.visitBody body (Stmt.descendAll body))

def Class.descend : Class → StateM σ Class
  | .mk decorators types name superClass members => do
    let decorators ← Expr.descendAll decorators
    let superClass ← Expr.descendOption superClass
    return .mk decorators types name superClass (← Member.descendAll members)

def Member.descend : Member → StateM σ Member
  | .method decorators modifiers kind key mark f => do
    let decorators ← Expr.descendAll decorators
    let key ← key.descend
    return .method decorators modifiers kind key mark (← f.descend)
  | .field decorators modifiers key mark value => do
    let decorators ← Expr.descendAll decorators
    let key ← key.descend
    return .field decorators modifiers key mark (← Expr.descendOption value)
  | .staticBlock body => v.enter (.staticBlock body) do
    return .staticBlock (← Stmt.descendAll body)
  | .commented comments member => return .commented comments (← member.descend)

def Member.descendAll : List Member → StateM σ (List Member)
  | [] => return []
  | m :: ms => do
    let m ← m.descend
    return m :: (← Member.descendAll ms)

def Declarator.descendAll : List Declarator → StateM σ (List Declarator)
  | [] => return []
  | .mk pattern init :: ds => do
    let pattern ← pattern.descend
    let init ← Expr.descendOption init
    return .mk pattern init :: (← Declarator.descendAll ds)

def Decl.descend : Decl → StateM σ Decl
  | .vars kind ds => do
    v.onVariables kind ds
    return .vars kind (← Declarator.descendAll ds)
  | .function f => return .function (← f.descend)
  | .classDef c => return .classDef (← c.descend)
  | .typeOnly text => return .typeOnly text
  | .namespaceBlock keyword name directives body =>
    return .namespaceBlock keyword name directives (← Stmt.descendAll body)

def ForHead.descend : ForHead → StateM σ ForHead
  | .none => return .none
  | .vars kind ds => do
    v.onVariables kind ds
    return .vars kind (← Declarator.descendAll ds)
  | .expr e => return .expr (← v.visit e e.descend)
  | .target p => return .target (← p.descend)

def Case.descendAll : List Case → StateM σ (List Case)
  | [] => return []
  | .mk test body :: cases => do
    let test ← Expr.descendOption test
    let body ← Stmt.descendAll body
    return .mk test body :: (← Case.descendAll cases)

def Stmt.descend : Stmt → StateM σ Stmt
  | .expr e => return .expr (← v.visit e e.descend)
  | .decl d => return .decl (← d.descend)
  | .block body => return .block (← Stmt.descendAll body)
  | .ifElse test consequent alternate => do
    let test ← v.visit test test.descend
    let consequent ← consequent.descend
    return .ifElse test consequent (← Stmt.descendOption alternate)
  | .whileLoop test body => do
    let test ← v.visit test test.descend
    return .whileLoop test (← body.descend)
  | .doWhile body test => do
    let body ← body.descend
    return .doWhile body (← v.visit test test.descend)
  | .forLoop init test update body => do
    let init ← init.descend
    let test ← Expr.descendOption test
    let update ← Expr.descendOption update
    return .forLoop init test update (← body.descend)
  | .forIn left right body => do
    let left ← left.descend
    let right ← v.visit right right.descend
    return .forIn left right (← body.descend)
  | .forOf isAwait left right body => do
    if isAwait then v.onForAwait
    let left ← left.descend
    let right ← v.visit right right.descend
    return .forOf isAwait left right (← body.descend)
  | .switch discriminant cases => do
    let discriminant ← v.visit discriminant discriminant.descend
    return .switch discriminant (← Case.descendAll cases)
  | .tryCatch body none finalizer => do
    let body ← Stmt.descendAll body
    return .tryCatch body none (← Stmt.descendBlock finalizer)
  | .tryCatch body (some (none, handler)) finalizer => do
    let body ← Stmt.descendAll body
    let handler ← Stmt.descendAll handler
    return .tryCatch body (some (none, handler)) (← Stmt.descendBlock finalizer)
  | .tryCatch body (some (some param, handler)) finalizer => do
    let body ← Stmt.descendAll body
    let param ← param.descend
    let handler ← Stmt.descendAll handler
    return .tryCatch body (some (some param, handler)) (← Stmt.descendBlock finalizer)
  | .throwValue value => return .throwValue (← v.visit value value.descend)
  | .returnValue value => return .returnValue (← Expr.descendOption value)
  | .labeled label body => return .labeled label (← body.descend)
  | .withObject object body => do
    let object ← v.visit object object.descend
    return .withObject object (← body.descend)
  | .exportDecl d => return .exportDecl (← d.descend)
  | .exportDefaultFunction f => return .exportDefaultFunction (← f.descend)
  | .exportDefaultClass c => return .exportDefaultClass (← c.descend)
  | .exportDefault value => return .exportDefault (← v.visit value value.descend)
  | .commented comments s => return .commented comments (← Stmt.descendOption s)
  | s => return s

def Stmt.descendOption : Option Stmt → StateM σ (Option Stmt)
  | none => return none
  | some s => return some (← s.descend)

def Stmt.descendBlock : Option (List Stmt) → StateM σ (Option (List Stmt))
  | none => return none
  | some body => return some (← Stmt.descendAll body)

def Stmt.descendAll : List Stmt → StateM σ (List Stmt)
  | [] => return []
  | s :: ss => do
    let s ← s.descend
    return s :: (← Stmt.descendAll ss)

end

namespace Visitor

/-- Walks an expression, starting with the expression itself. -/
def walkExpr (e : Expr) : StateM σ Expr := v.visit e (e.descend v)

end Visitor

end ScriptBundler
