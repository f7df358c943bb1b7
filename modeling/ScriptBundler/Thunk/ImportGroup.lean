import ScriptBundler.Options.Basic
import ScriptBundler.Thunk.Export

namespace ScriptBundler.Thunk

/-- All that a module imports from one url: a hidden local for the exports object, locals that hold
copies of it, and imported names, each with its local. -/
structure ImportGroup where
  hidden : Option String := none
  namespaces : List String := []
  names : List (String × String) := []
  deriving DecidableEq, Repr, Inhabited

def includeExpr (strategy : LoaderStrategy) (url : String) : Expr :=
  let call := Expr.call (.ident "include") [.string url]
  match strategy with
  | .eager => call
  | .lazy => .await call

def includeText (strategy : LoaderStrategy) (url : String) : String :=
  match strategy with
  | .eager => "include(" ++ Text.quote url ++ ")"
  | .lazy => "await include(" ++ Text.quote url ++ ")"

namespace ImportGroup

def addName (imported localName : String) (g : ImportGroup) : ImportGroup :=
  { g with names := g.names ++ [(imported, localName)] }

def addNamespace (localName : String) (g : ImportGroup) : ImportGroup :=
  { g with namespaces := g.namespaces ++ [localName] }

def hiddenName (index : Nat) : String := "__stitch_dep" ++ toString index ++ "__"

/-- Gives the group a hidden local; one that it has already stays. -/
def bind (index : Nat) (g : ImportGroup) : ImportGroup :=
  { g with hidden := some (g.hidden.getD (hiddenName index)) }

def locals (g : ImportGroup) : List String :=
  g.hidden.toList ++ g.namespaces ++ g.names.map (·.2)

def nameProperty : String × String → PatternProperty
  | (imported, localName) =>
    if imported = localName then .keyed (.ident localName) true (.name localName)
    else .keyed (keyOf imported) false (.name localName)

def namesPattern (g : ImportGroup) : Pattern := .object (g.names.map nameProperty)

def nameDeclarators (g : ImportGroup) (source : Expr) : List Declarator :=
  match g.namespaces with
  | first :: others =>
    let copy := Declarator.mk (.object [.rest (.name first)]) (some source)
    let names := if g.names.isEmpty then []
      else [Declarator.mk g.namesPattern (some (.ident first))]
    copy :: names ++ others.map fun other => .mk (.name other) (some (.ident first))
  | [] =>
    if g.names.isEmpty && g.hidden.isSome then [] else [.mk g.namesPattern (some source)]

def declarators (g : ImportGroup) (exports : Expr) : List Declarator :=
  match g.hidden with
  | some hidden => .mk (.name hidden) (some exports) :: g.nameDeclarators (.ident hidden)
  | none => g.nameDeclarators exports

def toStmt (g : ImportGroup) (exports : Expr) : Stmt :=
  .decl (.vars .constKind (g.declarators exports))

def nameText : String × String → String
  | (imported, localName) =>
    if imported = localName then localName
    else Text.property (Text.propertyKey imported) localName

def patternText (g : ImportGroup) : String := Text.object (g.names.map nameText)

def nameTexts (g : ImportGroup) (source : String) : List String :=
  match g.namespaces with
  | first :: others =>
    let copy := "\x7b..." ++ first ++ "\x7d" ++ " = " ++ source
    let names := if g.names.isEmpty then [] else [g.patternText ++ " = " ++ first]
    copy :: names ++ others.map fun other => other ++ " = " ++ first
  | [] => if g.names.isEmpty && g.hidden.isSome then [] else [g.patternText ++ " = " ++ source]

def texts (g : ImportGroup) (exports : String) : List String :=
  match g.hidden with
  | some hidden => (hidden ++ " = " ++ exports) :: g.nameTexts hidden
  | none => g.nameTexts exports

def text (g : ImportGroup) (exports : String) : String :=
  "const " ++ ", ".intercalate (g.texts exports) ++ ";"

end ImportGroup

end ScriptBundler.Thunk
