import ScriptBundler.Syntax.Basic
import ScriptBundler.Text.Quoted

namespace ScriptBundler.Loader

/-- A module of the bundle; the statements may yield, and await in a lazy bundle. -/
structure Thunk where
  url : String
  body : List Stmt
  deriving Inhabited

def invoke (object : Expr) (name : String) (args : List Expr) : Expr :=
  .call (.member object name) args

def constant (name : String) (value : Expr) : Stmt :=
  .decl (.vars .constKind [.mk (.name name) (some value)])

def field (name : String) (value : Expr) : Property := .keyValue (.ident name) false value

def forEach (pattern : Pattern) (source : Expr) (body : Stmt) : Stmt :=
  .forOf false (.vars .constKind [.mk pattern none]) source body

def pageLoad : Expr :=
  let promise := Expr.ident "Promise"
  let listen := Expr.call (.ident "addEventListener")
    [.string "load", .lambda [] (.call (.ident "resolve") []),
      .object [field "once" (.bool true)]]
  .conditional
    (.binary .strictEq (.member (.ident "document") "readyState") (.string "complete"))
    (invoke promise "resolve" [])
    (.new promise [.lambda [.name "resolve"] listen])

def defineWindow (includeValue : Expr) : Stmt :=
  .expr (invoke (.ident "Object") "defineProperties"
    [.ident "window", .object
      [field "pageLoad" (.object [field "value" pageLoad]),
        field "include" (.object [field "value" includeValue])]])

def declareModules : Stmt := constant "modules" (.array [])

/-- The generator function of a module. Bundles are not strict by themselves, modules are. -/
def Thunk.toFunction (isAsync : Bool) (t : Thunk) : Function :=
  .mk isAsync true false none [] ["use strict"] t.body

def Thunk.register (isAsync : Bool) (t : Thunk) : Stmt :=
  .expr (invoke (.ident "modules") "push"
    [.array [.string t.url, .function (t.toFunction isAsync)]])

def functionText (isAsync : Bool) : String :=
  (if isAsync then "async " else "") ++ "function* () \x7b " ++ Text.quote "use strict" ++ "; \x7d"

def entryText (isAsync : Bool) (url : String) : String :=
  "modules.push([" ++ Text.quote url ++ ", " ++ functionText isAsync ++ "]);"

def forEachModule (body : List Stmt) : Stmt :=
  forEach (.array [.name "url", .name "thunk"]) (.ident "modules") (.block body)

def frozenExports (descriptors : Expr) : Expr :=
  let object := Expr.ident "Object"
  let all := invoke object "assign" [.object [], .spread descriptors]
  invoke object "freeze" [invoke object "defineProperties" [.object [], all]]

end ScriptBundler.Loader
