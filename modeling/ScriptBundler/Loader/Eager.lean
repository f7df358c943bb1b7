import ScriptBundler.Loader.Basic

namespace ScriptBundler.Loader.Eager

/-- What `include` answers; with a fallback, urls that are not in the table are imported. -/
def includeFunction (hasFallback : Bool) : Expr :=
  let url := Expr.ident "url"
  let entry := Expr.index (.ident "table") url
  .lambda [.name "url"]
    (if hasFallback then .binary .coalesce entry (.importCall none [url]) else entry)

def prelude (hasFallback : Bool) : List Stmt :=
  [constant "table" (.object []), defineWindow (includeFunction hasFallback), declareModules]

def startup : List Stmt :=
  let table := Expr.ident "table"
  [forEachModule [.expr (.assign none (.target (.index table (.ident "url")))
      (frozenExports (.call (.ident "thunk") [])))],
    .expr (invoke (.ident "Object") "freeze" [table])]

def empty : List Stmt :=
  [defineWindow (.lambda [.name "url"] (.importCall none [.ident "url"]))]

def warning (notNeeded : List String) : String :=
  "Eager bundle is not self-contained, \x60include\x60 falls back to \x60import()\x60 for " ++
    ", ".intercalate notNeeded

def assemble (thunks : List Thunk) (notNeeded : List String) : List Stmt × List String :=
  if thunks.isEmpty then (empty, [])
  else
    let body := prelude (!notNeeded.isEmpty) ++ thunks.map (Thunk.register false) ++ startup
    ([.block body], if notNeeded.isEmpty then [] else [warning notNeeded])

end ScriptBundler.Loader.Eager
