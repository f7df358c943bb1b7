import ScriptBundler.Syntax.Parser.Basic

namespace ScriptBundler

/-- A name or a member, with parentheses around it or not. -/
def Expr.simpleTarget? : Expr → Option Pattern
  | .ident name => some (.name name)
  | .member base property o => some (.target (.member base property o))
  | .index base property o => some (.target (.index base property o))
  | .privateMember base name o => some (.target (.privateMember base name o))
  | .paren inner => inner.simpleTarget?
  | _ => none

mutual

def Expr.target? : Expr → Option (Pattern × Nat)
  | .ident name => some (.name name, 0)
  | .member base property o => some (.target (.member base property o), 0)
  | .index base property o => some (.target (.index base property o), 0)
  | .privateMember base name o => some (.target (.privateMember base name o), 0)
  | .paren inner => inner.simpleTarget?.map fun p => (p, 0)
  | .array items finalComma =>
    (Expr.targetItems? finalComma items).map fun (ps, n) => (.array ps, n)
  | .object properties =>
    (Property.targets? properties).map fun (ps, n) => (.object ps, n)
  | _ => none

/--
An item of an array pattern or the value of a property: a target, perhaps with a default. Any sign
of assignment stands for a default.
-/
def Expr.element? : Expr → Option (Pattern × Nat)
  | .assign _ target value => some (.withDefault target value, 0)
  | .hole => some (.hole, 0)
  | .ident name => some (.name name, 0)
  | .member base property o => some (.target (.member base property o), 0)
  | .index base property o => some (.target (.index base property o), 0)
  | .privateMember base name o => some (.target (.privateMember base name o), 0)
  | .paren inner => inner.simpleTarget?.map fun p => (p, 0)
  | .array items finalComma =>
    (Expr.targetItems? finalComma items).map fun (ps, n) => (.array ps, n)
  | .object properties =>
    (Property.targets? properties).map fun (ps, n) => (.object ps, n)
  | _ => none

def Expr.targetItems? (finalComma : Bool) : List Expr → Option (List Pattern × Nat)
  | [] => some ([], 0)
  | [.spread e] => if finalComma then none else e.target?.map fun (p, n) => ([.rest p], n)
  | e :: es => do
    let (p, n) ← e.element?
    let (ps, m) ← Expr.targetItems? finalComma es
    some (p :: ps, n + m)

def Property.targets? : List Property → Option (List PatternProperty × Nat)
  | [] => some ([], 0)
  | [.spread e] => e.simpleTarget?.map fun p => ([.rest p], 0)
  | .keyValue key isShorthand value :: rest => do
    let (p, n) ← value.element?
    let own := match isShorthand, p with
      | true, .withDefault _ _ => 1
      | _, _ => 0
    let (ps, m) ← Property.targets? rest
    some (.keyed key isShorthand p :: ps, n + own + m)
  | _ => none

end

namespace Parser

def target (e : Expr) : Parser Pattern := do
  let (p, n) ← liftOption e.target?
  modify fun s => { s with openDefaults := s.openDefaults - n }
  return p

end Parser

end ScriptBundler
