import ScriptBundler.Syntax.Basic

namespace ScriptBundler

namespace VarKind

def isMergeable : VarKind → Bool
  | .constKind => true
  | .letKind => true
  | .varKind => true
  | _ => false

end VarKind

namespace Expr

/-- What a yield hands out, as items of an array; nothing for any other expression. -/
def yielded? : Expr → Option (List Expr)
  | .yield none => some [.unary .voidOf (.number "0")]
  | .yield (some value) => some [value]
  | .yieldAll (.array items _) => some items
  | .yieldAll source => some [.spread source]
  | _ => none

mutual

/-- Lets the yield that an expression ends in hand out more items. -/
def appendYield? (items : List Expr) : Expr → Option Expr
  | .yield value => (yielded? (.yield value)).map fun own => .yieldAll (.array (own ++ items))
  | .yieldAll source =>
    (yielded? (.yieldAll source)).map fun own => .yieldAll (.array (own ++ items))
  | .sequence es => (appendYieldLast? items es).map .sequence
  | .paren e => (e.appendYield? items).map .paren
  | _ => none

def appendYieldLast? (items : List Expr) : List Expr → Option (List Expr)
  | [] => none
  | [e] => (e.appendYield? items).map fun e' => [e']
  | e :: es => (appendYieldLast? items es).map (e :: ·)

end

end Expr

namespace Stmt

def merge? : Stmt → Stmt → Option Stmt
  | .decl (.vars kind ds), .decl (.vars kind' ds') =>
    if kind = kind' && kind.isMergeable then some (.decl (.vars kind (ds ++ ds'))) else none
  | .expr e, .expr e' => do
    let items ← e'.yielded?
    let merged ← e.appendYield? items
    some (.expr merged)
  | _, _ => none

end Stmt

namespace Thunk

def compactFrom (s : Stmt) : List Stmt → List Stmt
  | [] => [s]
  | s' :: ss =>
    match s.merge? s' with
    | some merged => compactFrom merged ss
    | none => s :: compactFrom s' ss

def compact : List Stmt → List Stmt
  | [] => []
  | s :: ss => compactFrom s ss

end Thunk

end ScriptBundler
