import ScriptBundler.Loader.Basic

namespace ScriptBundler.Loader.Lazy

def included : Expr := .ident "included"

/-- Where the script itself was loaded from. -/
def scriptUrl : Expr :=
  let current := Expr.chain (.member (.member (.ident "document") "currentScript") "src" true)
  let location := Expr.regex "(?:https?|file):\\/\\/[^\\s)]+?(?=:\\d+:\\d+)" ""
  let stack := Expr.member (.new (.ident "Error") []) "stack"
  let traced := Expr.chain
    (.index (.call (.member stack "match" true) [location]) (.number "0") true)
  .binary .coalesce (.binary .coalesce current traced) (.member (.ident "location") "href")

def toUrl : Expr :=
  .lambda [.name "url"]
    (.member (.new (.ident "URL") [.ident "url", .ident "scriptURL"]) "href")

def includeFunction : Expr :=
  let url := Expr.ident "url"
  let entry := invoke included "get" [url]
  .lambda [.name "url", .name "immediate"]
    (.conditional (invoke included "has" [url])
      (.conditional (.ident "immediate") entry (invoke (.ident "Promise") "resolve" [entry]))
      (.importCall none [.call (.ident "toURL") [url]]))

def prelude : List Stmt :=
  [constant "included" (.new (.ident "Map") []), constant "scriptURL" scriptUrl,
    constant "toURL" toUrl, defineWindow includeFunction, declareModules]

def runModule : List Stmt :=
  let descriptors := Expr.ident "descriptors"
  [constant "descriptors" (.array []),
    .forOf true (.vars .constKind [.mk (.name "published") none]) (.call (.ident "thunk") [])
      (.expr (invoke descriptors "push" [.ident "published"])),
    .expr (invoke included "set" [.ident "url", frozenExports descriptors])]

def startup : List Stmt :=
  [.expr (.call (.arrowBlock true false [] [] [forEachModule runModule]) [])]

def assemble (thunks : List Thunk) : List Stmt :=
  [.block (prelude ++ thunks.map (Thunk.register true) ++ startup)]

end ScriptBundler.Loader.Lazy
