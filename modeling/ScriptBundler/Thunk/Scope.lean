import ScriptBundler.Syntax.Names
import ScriptBundler.Syntax.Traversal

namespace ScriptBundler.Thunk

structure Scope where
  mutableNames : List String := []
  hasAwait : Bool := false
  deriving Inhabited

namespace Scope

def addNames (names : List String) : StateM Scope Unit :=
  modify fun s => { s with mutableNames := s.mutableNames ++ names }

def setAwait : StateM Scope Unit := modify fun s => { s with hasAwait := true }

/-- Takes down each `var` and each await of the top level. -/
def visitor : Visitor Scope where
  entersScopes := false
  onExpr
    | .await operand => do
      setAwait
      return some (.await operand)
    | _ => return none
  onVariables
    | .varKind, ds => addNames (ds.flatMap Declarator.names)
    | .awaitUsingKind, _ => setAwait
    | _, _ => return ()
  onForAwait := setAwait

def letNames : Stmt → List String
  | .decl (.vars .letKind ds) => ds.flatMap Declarator.names
  | .exportDecl (.vars .letKind ds) => ds.flatMap Declarator.names
  | _ => []

def ofBody (body : List Stmt) : Scope :=
  let scope := ((Stmt.descendAll visitor body).run {}).2
  { scope with mutableNames := body.flatMap letNames ++ scope.mutableNames }

end Scope

end ScriptBundler.Thunk
