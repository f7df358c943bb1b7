import ScriptBundler.Syntax.Basic
import ScriptBundler.Thunk.CallSite
import ScriptBundler.Thunk.Compaction
import ScriptBundler.Thunk.ImportGroup
import ScriptBundler.Thunk.Scope

namespace ScriptBundler.Thunk

/-- How modules are lowered to thunks. -/
structure Style where
  strategy : LoaderStrategy := .lazy
  bare : Bool := false
  deriving DecidableEq, Repr, Inhabited

/-- A module on its way to a generator body. -/
structure Draft where
  links : Links
  imports : List (String × ImportGroup) := []
  passThroughs : List Stmt := []
  body : List Stmt := []
  errors : List BuildError := []
  deriving Inhabited

abbrev Drafting := ExceptT BuildError (StateM Draft)

namespace Drafting

def require (origin specifier : String) : Drafting String := fun d =>
  match d.links.require origin specifier with
  | (result, links) => (result, { d with links := links })

def recordExport (origin name : String) (binding : Binding) : Drafting Unit :=
  modify fun d => { d with
    links := { d.links with graph := d.links.graph.addExport origin name binding } }

def updateGroup (url : String) (f : ImportGroup → ImportGroup) :
    List (String × ImportGroup) → List (String × ImportGroup)
  | [] => [(url, f {})]
  | (u, g) :: rest => if u = url then (u, f g) :: rest else (u, g) :: updateGroup url f rest

def group (url : String) (f : ImportGroup → ImportGroup) : Drafting Unit :=
  modify fun d => { d with imports := updateGroup url f d.imports }

def hidden (url : String) : Drafting String := do
  let index := ((← get).imports.findIdx? (·.1 = url)).getD 0
  group url (·.bind index)
  return (((← get).imports.lookup url).bind (·.hidden)).getD (ImportGroup.hiddenName index)

def append (s : Stmt) : Drafting Unit := modify fun d => { d with body := d.body ++ [s] }

def redirectCalls (walk : StateM CallSites α) : Drafting α := fun d =>
  let (a, s) := walk.run { links := d.links, errors := d.errors }
  (.ok a, { d with links := s.links, errors := s.errors })

def keep (origin : String) (s : Stmt) : Drafting Unit := do
  append (← redirectCalls (s.descend (CallSites.visitor origin)))

/-- Hands out exports, unless there are none or they are dropped. -/
def publish (style : Style) (exports : List (String × Descriptor)) : Drafting Unit := do
  if !style.bare && !exports.isEmpty then append (Thunk.publish exports)

variable (origin : String) (style : Style) (scope : Scope)

def importModule (d : ImportDecl) : Drafting Unit := do
  let url ← require origin d.source
  group url id
  (d.specifiers.getD []).forM fun s => match s with
    | .default localName => group url (·.addName "default" localName)
    | .named imported localName => group url (·.addName imported.text localName)
    | .star localName => group url (·.addNamespace localName)

def exportDeclaration (d : Decl) : Drafting Unit := do
  keep origin (.decl d)
  d.names.forM fun name => recordExport origin name ⟨.localName name, d.isMutable⟩
  publish style (d.names.map fun name => (name, .binding name d.isMutable))

def reexport (specifiers : List ExportSpecifier) (source : String) : Drafting Unit := do
  let url ← require origin source
  group url id
  specifiers.forM fun s =>
    recordExport origin s.exported.text ⟨.reexport url s.localName.text, false⟩
  if !style.bare then
    let dependency ← hidden url
    publish style (specifiers.map fun s =>
      (s.exported.text, .getter (propertyOf (.ident dependency) s.localName.text)))

def exportLocals (specifiers : List ExportSpecifier) : Drafting Unit := do
  let isMutable := fun name => scope.mutableNames.contains name
  specifiers.forM fun s =>
    recordExport origin s.exported.text ⟨.localName s.localName.text, isMutable s.localName.text⟩
  publish style (specifiers.map fun s =>
    (s.exported.text, .binding s.localName.text (isMutable s.localName.text)))

def exportNamedDefault (name : String) (d : Decl) : Drafting Unit := do
  keep origin (.decl d)
  recordExport origin "default" ⟨.localName name, false⟩
  publish style [("default", .binding name false)]

def exportValue (e : Expr) : Drafting Unit := do
  let e ← redirectCalls ((CallSites.visitor origin).walkExpr e)
  recordExport origin "default" ⟨.defaultExpression, false⟩
  if style.bare then append (.expr e) else publish style [("default", .value e)]

def exportAll (exported : Option ModuleName) (source : String) : Drafting Unit := do
  let url ← require origin source
  group url id
  match exported with
  | some name =>
    recordExport origin name.text ⟨.star url, false⟩
    if !style.bare then
      let dependency ← hidden url
      publish style [(name.text, .value (.ident dependency))]
  | none =>
    if !style.bare then
      let dependency ← hidden url
      modify fun d => { d with passThroughs := d.passThroughs ++ [passThrough dependency] }

def statement : Stmt → Drafting Unit
  | .importDecl d => importModule origin d
  | .exportDecl d => if d.isTypeOnly then return () else exportDeclaration origin style d
  | .exportNames specifiers (some source) => reexport origin style specifiers source
  | .exportNames specifiers none => exportLocals origin style scope specifiers
  | .exportAll exported source _ => exportAll origin style exported source
  | .exportDefaultFunction f =>
    match f.name? with
    | some name => exportNamedDefault origin style name (.function f)
    | none => exportValue origin style (.function f)
  | .exportDefaultClass c =>
    match c.name? with
    | some name => exportNamedDefault origin style name (.classDef c)
    | none => exportValue origin style (.classExpr c)
  | .exportDefault e => exportValue origin style e
  | s => keep origin s

end Drafting

def ownCode : String := "__stitch_snippet__"

/-- The draft as one list of statements. A generator cannot declare the name `yield`. -/
def Draft.finish (d : Draft) (strategy : LoaderStrategy) : Except (List BuildError) (List Stmt) :=
  if !d.errors.isEmpty then .error d.errors
  else if d.imports.any fun (_, g) => g.locals.contains "yield" then .error [.parseError ownCode]
  else
    let imports := d.imports.map fun (url, g) => g.toStmt (includeExpr strategy url)
    .ok (imports ++ d.passThroughs ++ d.body)

def ofBody (origin : String) (style : Style) (body : List Stmt) (links : Links) :
    Except (List BuildError) (List Stmt) × Links :=
  let scope := Scope.ofBody body
  if scope.hasAwait && style.strategy = .eager then (.error [.topLevelAwait origin], links)
  else
    let (result, draft) :=
      ((body.forM (Drafting.statement origin style scope)).run).run { links := links }
    match result with
    | .error e => (.error [e], draft.links)
    | .ok () => (draft.finish style.strategy, draft.links)

end ScriptBundler.Thunk
