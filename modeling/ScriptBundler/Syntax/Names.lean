import ScriptBundler.Syntax.Basic

namespace ScriptBundler

mutual

def Pattern.boundNames : Pattern → List String
  | .name name => [name]
  | .object properties => PatternProperty.allBoundNames properties
  | .array items => Pattern.allBoundNames items
  | .withDefault p _ => p.boundNames
  | .rest p => p.boundNames
  | _ => []

def Pattern.allBoundNames : List Pattern → List String
  | [] => []
  | p :: ps => p.boundNames ++ Pattern.allBoundNames ps

def PatternProperty.allBoundNames : List PatternProperty → List String
  | [] => []
  | .keyed _ _ p :: ps => p.boundNames ++ PatternProperty.allBoundNames ps
  | .rest p :: ps => p.boundNames ++ PatternProperty.allBoundNames ps

end

def Declarator.names : Declarator → List String
  | .mk p _ => p.boundNames

def Function.name? : Function → Option String
  | .mk _ _ _ name _ _ _ => name

def Class.name? : Class → Option String
  | .mk _ _ name _ _ => name

def VarKind.isMutable : VarKind → Bool
  | .letKind => true
  | .varKind => true
  | _ => false

namespace Decl

def names : Decl → List String
  | .vars _ ds => ds.flatMap Declarator.names
  | .function f => f.name?.toList
  | .classDef c => c.name?.toList
  | .typeOnly _ => []
  | .namespaceBlock _ _ _ _ => []

/-- Whether nothing of a declaration is left at run time. -/
def isTypeOnly : Decl → Bool
  | .typeOnly _ => true
  | .namespaceBlock _ _ _ _ => true
  | _ => false

def isMutable : Decl → Bool
  | .vars kind _ => kind.isMutable
  | _ => false

end Decl

def Stmt.exportedNames : Stmt → List String
  | .exportDecl d => d.names
  | .exportNames specifiers _ => specifiers.map fun s => s.exported.text
  | .exportAll exported _ _ => (exported.map ModuleName.text).toList
  | .exportDefaultFunction _ => ["default"]
  | .exportDefaultClass _ => ["default"]
  | .exportDefault _ => ["default"]
  | .commented _ (some s) => s.exportedNames
  | _ => []

/-- Whether a callee is the loader's `include`: the name itself, or the member of `window`. -/
def Expr.isInclude : Expr → Bool
  | .ident name => name = "include"
  | .member (.ident base) property _ => base = "window" && property = "include"
  | _ => false

end ScriptBundler
