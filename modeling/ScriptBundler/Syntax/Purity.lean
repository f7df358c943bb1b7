import ScriptBundler.Syntax.Basic

namespace ScriptBundler

/-- Marks the call that an expression starts with. -/
def Expr.asPureCall : Expr → Expr
  | .call callee args o _ => .call callee args o true
  | .new callee args _ => .new callee args true
  | .paren inner => .paren inner.asPureCall
  | .binary op left right => .binary op left.asPureCall right
  | .conditional test consequent alternate => .conditional test.asPureCall consequent alternate
  | .chain (.call callee args o _) => .chain (.call callee args o true)
  | e => e

def Function.isPure : Function → Bool
  | .mk _ _ isPure _ _ _ _ => isPure

def Function.asPure : Function → Function
  | .mk isAsync isGenerator _ name params directives body =>
    .mk isAsync isGenerator true name params directives body

def Expr.asPureFunction : Expr → Expr
  | .function f => .function f.asPure
  | .arrow isAsync _ params value => .arrow isAsync true params value
  | .arrowBlock isAsync _ params directives body => .arrowBlock isAsync true params directives body
  | e => e

def Declarator.firstAsPure : List Declarator → List Declarator
  | .mk p (some value) :: ds => .mk p (some value.asPureFunction) :: ds
  | ds => ds

def Decl.asPureFunction : Decl → Decl
  | .function f => .function f.asPure
  | .vars .constKind ds => .vars .constKind (Declarator.firstAsPure ds)
  | d => d

def Stmt.asPureFunction : Stmt → Stmt
  | .decl d => .decl d.asPureFunction
  | .exportDecl d => .exportDecl d.asPureFunction
  | .exportDefaultFunction f => .exportDefaultFunction f.asPure
  | .exportDefault value => .exportDefault value.asPureFunction
  | s => s

end ScriptBundler
