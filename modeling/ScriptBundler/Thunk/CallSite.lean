import ScriptBundler.Syntax.Names
import ScriptBundler.Syntax.Traversal
import ScriptBundler.Text.Unprintable
import ScriptBundler.Thunk.Links

namespace ScriptBundler

def Expr.windowInclude (url : String) : Expr :=
  .call (.member (.ident "window") "include") [.string url]

namespace Thunk

/-- The links of a module, and what was wrong with some of its calls. -/
structure CallSites where
  links : Links
  errors : List BuildError := []
  deriving Inhabited

namespace CallSites

def require (origin specifier : String) : StateM CallSites (Option String) := fun s =>
  match s.links.require origin specifier with
  | (.ok url, links) => (some url, { s with links := links })
  | (.error e, links) => (none, { links := links, errors := s.errors ++ [e] })

def trace (text : String) : StateM CallSites Unit :=
  modify fun s => { s with links := s.links.write .trace text }

def redirect? (origin : String) : Expr → StateM CallSites (Option Expr)
  | .importCall _ [.string specifier _] => do
    match ← require origin specifier with
    | some url =>
      trace (origin ++ ": import(" ++ Text.visible specifier ++ ") -> window.include(" ++
        Text.visible url ++ ")")
      return some (.windowInclude url)
    | none => return none
  | .call callee [.string specifier lone] isOptional isPure => do
    if !callee.isInclude then return none
    match ← require origin specifier with
    | some url =>
      trace (origin ++ ": include(" ++ Text.visible specifier ++ ") -> include(" ++
        Text.visible url ++ ")")
      return some (.call callee [.string url lone] isOptional isPure)
    | none => return none
  | _ => return none

def visitor (origin : String) : Visitor CallSites where
  onExpr := redirect? origin

end CallSites

end Thunk

end ScriptBundler
