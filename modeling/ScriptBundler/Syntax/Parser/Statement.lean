import ScriptBundler.Syntax.Names
import ScriptBundler.Syntax.Parser.Expression

namespace ScriptBundler.Parser

variable (rec : Grammar)

def leftSideExpr : Parser Expr := do leftSide rec (← read).size

def declarator : Parser Declarator := do
  let p ← rec .pattern
  let init ← if ← eat "=" then some <$> rec .assign else pure none
  return .mk p init

def isInitialized (kind : VarKind) : Declarator → Bool
  | .mk p init =>
    init.isSome || match kind, p with
      | .constKind, _ => false
      | .usingKind, _ => false
      | .awaitUsingKind, _ => false
      | _, .name _ => true
      | _, _ => false

/-- Resources are bound to plain names only. -/
def bindsWell (kind : VarKind) : Declarator → Bool
  | .mk p _ =>
    match kind, p with
    | .usingKind, .name _ => true
    | .awaitUsingKind, .name _ => true
    | .usingKind, _ => false
    | .awaitUsingKind, _ => false
    | _, _ => true

/-- The bindings after the word of a declaration. -/
def declarators (kind : VarKind) : Parser (List Declarator) := do
  let ds ← commaSeparated (declarator rec) (← read).size
  require (ds.all (bindsWell kind))
  return ds

def varDecl (kind : VarKind) : Parser Decl := do
  let ds ← declarators rec kind
  require (ds.all (isInitialized kind))
  semicolon
  return .vars kind ds

def startsUsing : Parser Bool := looksAhead do
  expectWord "using"
  return isBindingToken (← current) && !(← hasLineEnd)

def startsAwaitUsing : Parser Bool := looksAhead do
  expectWord "await"
  require (!(← hasLineEnd))
  expectWord "using"
  return isBindingToken (← current) && !(← hasLineEnd)

def block : Parser (List Stmt) := do
  expectToken .openBrace
  let body ← withIn (statements rec)
  expectToken .closeBrace
  return body

/-- An expression in parentheses after a word such as `if`. -/
def condition : Parser Expr := do
  expect "("
  let e ← withIn (expression rec)
  expect ")"
  return e

def forLoop (init : ForHead) : Parser Stmt := do
  expect ";"
  let test ← if ← at? ";" then pure none else some <$> expression rec
  expect ";"
  let update ← if ← at? ")" then pure none else some <$> expression rec
  expect ")"
  return .forLoop init test update (← rec (.statement true))

/-- Whether a loop variable is a resource, which only values of an iterable are. -/
def declaresResource : ForHead → Bool
  | .vars .usingKind _ => true
  | .vars .awaitUsingKind _ => true
  | _ => false

def forInOf (isAwait : Bool) (left : ForHead) : Parser Stmt := do
  if ← eatWord "of" then
    let right ← rec .assign
    expect ")"
    return .forOf isAwait left right (← rec (.statement true))
  require (!isAwait && !declaresResource left)
  expectWord "in"
  let right ← expression rec
  expect ")"
  return .forIn left right (← rec (.statement true))

def atInOf : Parser Bool := return (← atWord "in") || (← atWord "of")

def forVariables (isAwait : Bool) (kind : VarKind) : Parser Stmt := do
  let ds ← withReader (fun c => { c with allowIn := false }) (declarators rec kind)
  if ← atInOf then
    forInOf rec isAwait (.vars kind ds)
  else
    require (!isAwait && ds.all (isInitialized kind))
    forLoop rec (.vars kind ds)

def startsForLet : Parser Bool := do
  if !(← atWord "let") then return false
  nextIs fun s => match s.token with
    | .openBrace => true
    | .punct p => p = "["
    | .name text _ => text ≠ "in" && text ≠ "instanceof"
    | _ => false

def forStatement : Parser Stmt := withIn do
  let isAwait ← eatWord "await"
  if isAwait then require (← read).inAwait
  expect "("
  if ← at? ";" then
    require (!isAwait)
    forLoop rec .none
  else if ← eatWord "const" then forVariables rec isAwait .constKind
  else if ← eatWord "var" then forVariables rec isAwait .varKind
  else if ← startsForLet then
    advance
    forVariables rec isAwait .letKind
  else if ← startsAwaitUsing then
    advance
    advance
    forVariables rec isAwait .awaitUsingKind
  else if ← startsForUsing then
    advance
    forVariables rec isAwait .usingKind
  else
    let isAsyncOf ← pure (!isAwait) <&&> atWord "async" <&&>
      nextIs fun s => s.token = .name "of" false
    let e ← withReader (fun c => { c with allowIn := false }) (expression rec)
    if ← atInOf then
      require (!(isAsyncOf && (← atWord "of")))
      forInOf rec isAwait (.target (← target e))
    else
      require (!isAwait)
      forLoop rec (.expr e)
where
  startsForUsing : Parser Bool := do
    if !(← startsUsing) then return false
    nextIs fun s => s.token ≠ .name "of" false

def caseBody : Parser (List Stmt) := do
  many (do
    if ← isAt .closeBrace then return none
    if ← isAt .eof then return none
    if ← atWord "case" then return none
    if ← atWord "default" then return none
    return some (← rec (.statement false))) (← read).size

def switchCase : Parser (Option Case) := do
  if ← isAt .closeBrace then return none
  let test ← if ← eatWord "default" then pure none
    else do
      expectWord "case"
      some <$> expression rec
  expect ":"
  return some (.mk test (← caseBody rec))

def switchStatement : Parser Stmt := do
  let e ← condition rec
  expectToken .openBrace
  let cases ← withIn do many (switchCase rec) (← read).size
  expectToken .closeBrace
  return .switch e cases

def catchClause : Parser (Option Pattern × List Stmt) := do
  let param ← if ← eat "(" then do
      let p ← rec .pattern
      expect ")"
      pure (some p)
    else pure none
  return (param, ← block rec)

def tryStatement : Parser Stmt := do
  let body ← block rec
  let handler ← if ← eatWord "catch" then some <$> catchClause rec else pure none
  let finalizer ← if ← eatWord "finally" then some <$> block rec else pure none
  require (handler.isSome || finalizer.isSome)
  return .tryCatch body handler finalizer

def jumpLabel : Parser (Option String) := do
  let label ← if isBindingToken (← current) && !(← hasLineEnd) then some <$> bindingName
    else pure none
  semicolon
  return label

def expressionStatement : Parser Stmt := do
  let e ← withIn (expression rec)
  if let .ident name := e then
    if ← eat ":" then return .labeled name (← rec (.statement true))
  semicolon
  return .expr e

def makesOperand (t : Token) : Bool :=
  (assignment? t).isSome || (operator? t).any fun (op, _) => op ∉ [.coalesce, .or, .and]

/--
A statement that starts with the word `let`: a declaration, unless what follows forbids it. Behind a
member or call of `let` no semicolon is taken in.
-/
def letStatement (isSingle : Bool) : Parser Stmt := do
  if ← nextIs fun s => makesOperand s.token then
    let e ← withIn (rec .assign)
    semicolon
    return .expr e
  if ← nextIs fun s => s.token = .punct "." || s.token = .punct "(" then
    return .expr (← withIn (expression rec))
  if ← nextIs fun s => s.token = .punct ";" || (isSingle && s.token ≠ .punct "[") then
    let name ← bindingName
    semicolon
    return .expr (.ident name)
  require (!isSingle)
  advance
  return .decl (← varDecl rec .letKind)

def startsAsyncFunction : Parser Bool := do
  atWord "async" <&&> nextIs fun s => s.token = .name "function" false && !s.hasLineEnd

def moduleName : Parser ModuleName := do
  match ← current with
  | .string value lone =>
    require (!lone)
    advance
    return .string value
  | _ => return .ident (← anyName)

def stringLiteral : Parser String := do
  match ← current with
  | .string value _ => advance; return value
  | _ => failure

def attributes : Parser (Option ImportAttributes) := do
  let keyword ← if ← atWord "with" then pure (some "with")
    else if ← atWord "assert" <&&> (!·) <$> hasLineEnd then pure (some "assert")
    else pure none
  match keyword with
  | none => return none
  | some keyword =>
    advance
    expectToken .openBrace
    let entries ← listUntil .closeBrace do
      let name ← moduleName
      expect ":"
      return (name, ← stringLiteral)
    require (entries.map (·.1.text)).Nodup
    return some ⟨keyword, entries⟩

def importSpecifier : Parser ImportSpecifier := do
  if ← nextIs fun s => s.token = .name "as" false then
    let imported ← moduleName
    advance
    return .named imported (← bindingName)
  let name ← bindingName
  return .named (.ident name) name

def starSpecifier : Parser ImportSpecifier := do
  expectWord "as"
  return .star (← bindingName)

def importSpecifiers : Parser (List ImportSpecifier) := do
  let first ← if isBindingToken (← current) then (fun n => [.default n]) <$> bindingName
    else pure []
  let others ← if first.isEmpty then pure true else eat ","
  let rest ← if !others then pure []
    else if ← eat "*" then (fun s => [s]) <$> starSpecifier
    else do
      expectToken .openBrace
      listUntil .closeBrace importSpecifier
  return first ++ rest

def importPhase : Parser (Option ImportPhase) := do
  if ← atWord "source" then
    let isPhase ← looksAhead do
      advance
      let isName := isBindingToken (← current)
      let isFrom ← atWord "from"
      advance
      return isName && (!isFrom || (← atWord "from"))
    if isPhase then
      advance
      return some .source
  if ← atWord "defer" <&&> nextIs fun s => s.token = .punct "*" then
    advance
    return some .defer
  return none

/-- A default import alone. -/
def isDefaultOnly : List ImportSpecifier → Bool
  | [.default _] => true
  | _ => false

/-- What an import binds and the word `from`, or nothing. A name right before the url is skipped. -/
def importClause : Parser (Option ImportPhase × Option (List ImportSpecifier)) := do
  let isString : Token → Bool := fun t => match t with
    | .string _ _ => true
    | _ => false
  if isString (← current) then return (none, none)
  if isBindingToken (← current) && (← nextIs fun s => isString s.token) then
    let _ ← bindingName
    return (none, none)
  let phase ← importPhase
  let specifiers ← importSpecifiers
  require (phase ≠ some .source || isDefaultOnly specifiers)
  expectWord "from"
  return (phase, some specifiers)

def importDeclaration : Parser Stmt := do
  let (phase, specifiers) ← importClause
  let source ← stringLiteral
  let a ← attributes
  semicolon
  return .importDecl ⟨phase, specifiers, source, a⟩

def exportSpecifier : Parser ExportSpecifier := do
  let localName ← moduleName
  let exported ← if ← eatWord "as" then moduleName else pure localName
  return ⟨localName, exported⟩

def isLocal : ModuleName → Bool
  | .ident name => !Token.isReserved name && !Token.futureReserved.contains name
  | .string _ => false

/-- The url after `from`. Where no literal follows, the word alone is taken in. -/
def reexportSource : Parser (Option String) := do
  if !(← eatWord "from") then return none
  match ← current with
  | .string _ _ => some <$> stringLiteral
  | .number _ => failure
  | .bigint _ => failure
  | .name word _ =>
    require (word ∉ ["null", "true", "false"])
    return none
  | _ => return none

/-- Named exports; attributes of the module that they are from are not kept. -/
def exportNames : Parser Stmt := do
  let specifiers ← listUntil .closeBrace exportSpecifier
  let source ← reexportSource
  let _ ← if source.isSome then attributes else pure none
  require (source.isSome || specifiers.all fun s => isLocal s.localName)
  semicolon
  return .exportNames specifiers source

def exportAll : Parser Stmt := do
  let exported ← if ← eatWord "as" then some <$> moduleName else pure none
  expectWord "from"
  let source ← stringLiteral
  let a ← attributes
  semicolon
  return .exportAll exported source a

def classDeclaration (modifiers : List String) (ds : List Expr) : Parser Class := do
  expectWord "class"
  classRest rec (leftSideExpr rec) (leftSideExpr rec) modifiers ds

/-- What follows the words `export default`; only a class keeps its decorators. -/
def exportDefault (ds : List Expr) : Parser Stmt := do
  let isPure := (← get).marksFunction
  let s ← exported (ds ++ (← decorators (leftSideExpr rec)))
  return if isPure then s.asPureFunction else s
where
  exported (ds : List Expr) : Parser Stmt := do
    if ← eatWord "function" then
      return .exportDefaultFunction (← functionDecl rec false true)
    if ← startsAsyncFunction then
      advance
      advance
      return .exportDefaultFunction (← functionDecl rec true true)
    if ← atWord "class" then return .exportDefaultClass (← classDeclaration rec [] ds)
    if ← atWord "abstract" <&&> nextIs fun s => s.token = .name "class" false && !s.hasLineEnd then
      advance
      return .exportDefaultClass (← classDeclaration rec ["abstract"] ds)
    if ← atWord "interface" <&&> nextIs fun s => isBindingToken s.token && !s.hasLineEnd then
      advance
      return .exportDecl (.typeOnly ("default " ++ (← interfaceText rec)))
    let e ← withIn (rec .assign)
    semicolon
    return .exportDefault e

def namespaceBlock (keyword : String) : Parser Decl := do
  let name ← qualifiedName
  expectToken .openBrace
  let (directives, body) ← prologue rec (← read).size
  expectToken .closeBrace
  return .namespaceBlock keyword name directives body

/-- The declaration after `export`; only a class keeps its decorators. -/
def exportedDeclaration (ds : List Expr) : Parser Decl := do
  let ds := ds ++ (← decorators (leftSideExpr rec))
  if ← atWord "class" then return .classDef (← classDeclaration rec [] ds)
  if ← eatWord "const" then varDecl rec .constKind
  else if ← eatWord "var" then varDecl rec .varKind
  else if ← eatWord "let" then varDecl rec .letKind
  else if let some text ← typeDeclaration? rec then return .typeOnly text
  else if ← eatWord "namespace" then namespaceBlock rec "namespace"
  else if ← eatWord "module" then namespaceBlock rec "module"
  else if ← eatWord "function" then return .function (← functionDecl rec false false)
  else
    require (← startsAsyncFunction)
    advance
    advance
    return .function (← functionDecl rec true false)

def exportStatement (ds : List Expr) : Parser Stmt := do
  if ← eatWord "default" then exportDefault rec ds
  else if ← eatToken .openBrace then exportNames
  else if ← eat "*" then exportAll
  else return .exportDecl (← exportedDeclaration rec ds)

def functionStatement (isAsync isSingle : Bool) : Parser Stmt := do
  let isGenerator ← at? "*"
  require (!isSingle || (!isAsync && !isGenerator))
  return .decl (.function (← functionDecl rec isAsync false))

def elseBranch : Stmt → Stmt
  | .commented _ (some (.ifElse test consequent alternate)) => .ifElse test consequent alternate
  | s => s

def wordStatement (isSingle : Bool) (word : String) : Parser (Option Stmt) := do
  match word with
  | "if" =>
    advance
    let test ← condition rec
    let consequent ← rec (.statement true)
    let alternate ← if ← eatWord "else" then some <$> elseBranch <$> rec (.statement true)
      else pure none
    return some (.ifElse test consequent alternate)
  | "while" =>
    advance
    let test ← condition rec
    return some (.whileLoop test (← rec (.statement true)))
  | "do" =>
    advance
    let body ← rec (.statement true)
    expectWord "while"
    let test ← condition rec
    let _ ← eat ";"
    return some (.doWhile body test)
  | "for" => advance; some <$> forStatement rec
  | "switch" => advance; some <$> switchStatement rec
  | "try" => advance; some <$> tryStatement rec
  | "throw" =>
    advance
    require (!(← hasLineEnd))
    let e ← withIn (expression rec)
    semicolon
    return some (.throwValue e)
  | "return" =>
    require (← read).inReturn
    advance
    let s ← get
    let isBare := s.hasLineEnd || s.token = .punct ";" || s.token = .closeBrace || s.token = .eof
    let e ← if isBare then pure none else some <$> withIn (expression rec)
    semicolon
    return some (.returnValue e)
  | "break" => advance; return some (.breakTo (← jumpLabel))
  | "continue" => advance; return some (.continueTo (← jumpLabel))
  | "with" =>
    advance
    let object ← condition rec
    return some (.withObject object (← rec (.statement true)))
  | "debugger" => advance; semicolon; return some .debugger
  | "var" => advance; return some (.decl (← varDecl rec .varKind))
  | "const" =>
    require (!isSingle)
    advance
    return some (.decl (← varDecl rec .constKind))
  | "let" => some <$> letStatement rec isSingle
  | "function" => advance; some <$> functionStatement rec false isSingle
  | "class" =>
    require (!isSingle)
    let c ← classDeclaration rec [] []
    return some (.decl (.classDef c))
  | "export" => advance; some <$> exportStatement rec []
  | "import" =>
    if ← nextIs fun s => s.token = .punct "(" || s.token = .punct "." then return none
    advance
    some <$> importDeclaration
  | "using" =>
    if ← startsUsing then
      advance
      return some (.decl (← varDecl rec .usingKind))
    return none
  | "await" =>
    if ← startsAwaitUsing then
      advance
      advance
      return some (.decl (← varDecl rec .awaitUsingKind))
    return none
  | "async" =>
    if ← startsAsyncFunction then
      advance
      advance
      some <$> functionStatement rec true isSingle
    else return none
  | _ => return none

def plainStatement (isSingle : Bool) : Parser Stmt := withIn do
  match ← current with
  | .openBrace => return .block (← block rec)
  | .punct ";" => advance; return .empty
  | .punct "@" =>
    let ds ← decorators (leftSideExpr rec)
    if ← eatWord "export" then exportStatement rec ds
    else return .decl (.classDef (← decoratedClass rec (leftSideExpr rec) (leftSideExpr rec) ds))
  | .name word false =>
    match ← wordStatement rec isSingle word with
    | some s => return s
    | none => expressionStatement rec
  | _ => expressionStatement rec

def takesComments (isSingle : Bool) : Stmt → Bool
  | .block _ => !isSingle
  | .empty => !isSingle
  | _ => true

def statement (isSingle : Bool) : Parser Stmt := do
  let comments ← leading
  let isPure := (← get).marksFunction
  let s ← plainStatement rec isSingle
  let s := if isPure then s.asPureFunction else s
  return if comments.isEmpty || !takesComments isSingle s then s else .commented comments (some s)

end ScriptBundler.Parser
