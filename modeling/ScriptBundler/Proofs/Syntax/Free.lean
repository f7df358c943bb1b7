import ScriptBundler.Proofs.Syntax.Declared
import ScriptBundler.Syntax.Parser

namespace ScriptBundler

/-- What is left of the names within a scope that declares some. -/
def outside (declared names : List String) : List String := names.filter (· ∉ declared)

theorem outside_nil (names : List String) : outside [] names = names :=
  List.filter_eq_self.2 fun _ _ => rfl

theorem outside_append (declared xs ys : List String) :
    outside declared (xs ++ ys) = outside declared xs ++ outside declared ys :=
  List.filter_append ..

theorem outside_outside (inner outer names : List String) :
    outside outer (outside inner names) = outside (inner ++ outer) names := by
  rw [outside, outside, List.filter_filter]
  apply List.filter_congr
  intro name _
  simp only [List.mem_append, not_or, Bool.decide_and, Bool.and_comm]

/-- The names that are declared for a whole loop. -/
def ForHead.lexicalNames : ForHead → List String
  | .vars .varKind _ => []
  | .vars _ ds => ds.flatMap Declarator.names
  | _ => []

/-- The names that the statements of a function declare in its scope. -/
def Stmt.scopeNames (body : List Stmt) : List String :=
  Stmt.allVarNames body ++ body.flatMap Stmt.lexicalNames

def Case.body : Case → List Stmt
  | .mk _ body => body

mutual

def Expr.free : Expr → List String
  | .ident name => [name]
  | .template _ values => Expr.allFree values
  | .taggedTemplate tag _ values => tag.free ++ Expr.allFree values
  | .array items _ => Expr.allFree items
  | .spread value => value.free
  | .object properties => Property.allFree properties
  | .function f => outside f.name?.toList f.free
  | .arrow _ _ params value =>
    outside (Pattern.allBoundNames params) (Pattern.allFree true params ++ value.free)
  | .arrowBlock _ _ params _ body =>
    outside (Pattern.allBoundNames params)
      (Pattern.allFree true params ++ outside (Stmt.scopeNames body) (Stmt.allFree body))
  | .classExpr c => c.free
  | .unary _ operand => operand.free
  | .update _ _ target => target.free false
  | .binary _ left right => left.free ++ right.free
  | .privateIn _ object => object.free
  | .conditional test consequent alternate => test.free ++ consequent.free ++ alternate.free
  | .assign _ target value => target.free false ++ value.free
  | .sequence items => Expr.allFree items
  | .member object _ _ => object.free
  | .index object property _ => object.free ++ property.free
  | .privateMember object _ _ => object.free
  | .call callee args _ _ => callee.free ++ Expr.allFree args
  | .new callee args _ => callee.free ++ Expr.allFree args
  | .chain element => element.free
  | .importCall _ args => Expr.allFree args
  | .await operand => operand.free
  | .yield value => Expr.optionFree value
  | .yieldAll source => source.free
  | .paren inner => inner.free
  | .commented _ value => Expr.optionFree value
  | _ => []

def Expr.optionFree : Option Expr → List String
  | none => []
  | some e => e.free

def Expr.allFree : List Expr → List String
  | [] => []
  | e :: es => e.free ++ Expr.allFree es

def Key.free : Key → List String
  | .computed e => e.free
  | _ => []

def Property.free : Property → List String
  | .keyValue key _ value => key.free ++ value.free
  | .method _ key f => key.free ++ f.free
  | .spread value => value.free

def Property.allFree : List Property → List String
  | [] => []
  | p :: ps => p.free ++ Property.allFree ps

/-- What a pattern refers to; where it does not bind its names, it refers to them too. -/
def Pattern.free (binds : Bool) : Pattern → List String
  | .name name => if binds then [] else [name]
  | .target m => m.free
  | .object properties => PatternProperty.allFree binds properties
  | .array items => Pattern.allFree binds items
  | .withDefault p value => p.free binds ++ value.free
  | .rest p => p.free binds
  | .hole => []

def Pattern.allFree (binds : Bool) : List Pattern → List String
  | [] => []
  | p :: ps => p.free binds ++ Pattern.allFree binds ps

def Pattern.optionFree (binds : Bool) : Option Pattern → List String
  | none => []
  | some p => p.free binds

def PatternProperty.free (binds : Bool) : PatternProperty → List String
  | .keyed key _ p => key.free ++ p.free binds
  | .rest p => p.free binds

def PatternProperty.allFree (binds : Bool) : List PatternProperty → List String
  | [] => []
  | p :: ps => p.free binds ++ PatternProperty.allFree binds ps

/-- The defaults of parameters do not see what the body declares. -/
def Function.free : Function → List String
  | .mk _ _ _ _ params _ body =>
    outside ("arguments" :: Pattern.allBoundNames params)
      (Pattern.allFree true params ++ outside (Stmt.scopeNames body) (Stmt.allFree body))

def Class.free : Class → List String
  | .mk decorators _ name superClass members =>
    Expr.allFree decorators ++
      outside name.toList (Expr.optionFree superClass ++ Member.allFree members)

def Member.free : Member → List String
  | .method decorators _ _ key _ f => Expr.allFree decorators ++ key.free ++ f.free
  | .field decorators _ key _ value => Expr.allFree decorators ++ key.free ++ Expr.optionFree value
  | .staticBlock body => outside (Stmt.scopeNames body) (Stmt.allFree body)
  | .commented _ member => member.free

def Member.allFree : List Member → List String
  | [] => []
  | m :: ms => m.free ++ Member.allFree ms

def Declarator.allFree : List Declarator → List String
  | [] => []
  | .mk pattern init :: ds => pattern.free true ++ Expr.optionFree init ++ Declarator.allFree ds

def Decl.free : Decl → List String
  | .vars _ ds => Declarator.allFree ds
  | .function f => f.free
  | .classDef c => c.free
  | .typeOnly _ => []
  | .namespaceBlock _ _ _ body => outside (Stmt.scopeNames body) (Stmt.allFree body)

def ForHead.free : ForHead → List String
  | .none => []
  | .vars _ ds => Declarator.allFree ds
  | .expr e => e.free
  | .target p => p.free false

def Case.allFree : List Case → List String
  | [] => []
  | .mk test body :: cases => Expr.optionFree test ++ Stmt.allFree body ++ Case.allFree cases

def Stmt.free : Stmt → List String
  | .expr e => e.free
  | .decl d => d.free
  | .block body => outside (body.flatMap Stmt.lexicalNames) (Stmt.allFree body)
  | .ifElse test consequent alternate =>
    test.free ++ consequent.free ++ Stmt.optionFree alternate
  | .whileLoop test body => test.free ++ body.free
  | .doWhile body test => body.free ++ test.free
  | .forLoop init test update body =>
    outside init.lexicalNames
      (init.free ++ Expr.optionFree test ++ Expr.optionFree update ++ body.free)
  | .forIn left right body => outside left.lexicalNames (left.free ++ right.free ++ body.free)
  | .forOf _ left right body => outside left.lexicalNames (left.free ++ right.free ++ body.free)
  | .switch discriminant cases =>
    discriminant.free ++
      outside (cases.flatMap fun c => c.body.flatMap Stmt.lexicalNames) (Case.allFree cases)
  | .tryCatch body none finalizer =>
    outside (body.flatMap Stmt.lexicalNames) (Stmt.allFree body) ++ Stmt.blockFree finalizer
  | .tryCatch body (some (param, handler)) finalizer =>
    outside (body.flatMap Stmt.lexicalNames) (Stmt.allFree body) ++
      outside (param.toList.flatMap Pattern.boundNames)
        (Pattern.optionFree true param ++
          outside (handler.flatMap Stmt.lexicalNames) (Stmt.allFree handler)) ++
      Stmt.blockFree finalizer
  | .throwValue value => value.free
  | .returnValue value => Expr.optionFree value
  | .labeled _ body => body.free
  | .withObject object body => object.free ++ body.free
  | .exportDecl d => d.free
  | .exportNames specifiers none => specifiers.map fun s => s.localName.text
  | .exportDefaultFunction f => f.free
  | .exportDefaultClass c => c.free
  | .exportDefault value => value.free
  | .commented _ s => Stmt.optionFree s
  | _ => []

def Stmt.optionFree : Option Stmt → List String
  | none => []
  | some s => s.free

def Stmt.blockFree : Option (List Stmt) → List String
  | none => []
  | some body => outside (body.flatMap Stmt.lexicalNames) (Stmt.allFree body)

def Stmt.allFree : List Stmt → List String
  | [] => []
  | s :: ss => s.free ++ Stmt.allFree ss

end

theorem Stmt.allFree_eq (ss : List Stmt) : allFree ss = ss.flatMap free := by
  induction ss with
  | nil => rfl
  | cons s ss ih => rw [allFree, ih, List.flatMap_cons]

def freeNames (body : List Stmt) : List String :=
  outside (Stmt.scopeNames body) (Stmt.allFree body)

example :
    (Program.parse? "const a = b; { let c = a; f(c); } function f(x) { x(b, c, y); var y; }").map
      (freeNames ·.body) = some ["b", "b", "c"] := by decide +kernel

end ScriptBundler
