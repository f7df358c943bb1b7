import ScriptBundler.Syntax.Parser.Pattern

namespace ScriptBundler.Parser

variable (rec : Grammar)

def statements : Parser (List Stmt) := do
  many (do
    match ← current with
    | .closeBrace => return none
    | .eof => return none
    | _ => return some (← rec (.statement false))) (← read).size

def withoutComments : Stmt → Stmt
  | .commented _ (some s) => s
  | s => s

/-- String statements at the start of a body, as written, and the statements after them. -/
def prologue : Nat → Parser (List String × List Stmt)
  | 0 => failure
  | n + 1 => do
    match ← current with
    | .string _ _ =>
      let start := (← get).start
      let s ← rec (.statement false)
      match withoutComments s with
      | .expr (.string _ _) =>
        let text := String.ofList (Lexer.rawString (start.headD '"') (start.drop 1))
        let (directives, body) ← prologue n
        return (text :: directives, body)
      | _ => return ([], s :: (← statements rec))
    | _ => return ([], ← statements rec)

def functionBody : Parser (List String × List Stmt) := do
  expectToken .openBrace
  let (directives, body) ← withReader (fun c => { c with inReturn := true }) do
    prologue rec (← read).size
  let comments ← leading
  expectToken .closeBrace
  return (directives, if comments.isEmpty then body else body ++ [.commented comments none])

def functionRest (isAsync isGenerator : Bool) (name : Option String) : Parser Function :=
  inFunction isAsync isGenerator do
    let params ← parameters rec
    let (directives, body) ← functionBody rec
    return .mk isAsync isGenerator false name params directives body

/-- A function expression after the word `function`. -/
def functionExpr (isAsync : Bool) : Parser Expr := do
  let isGenerator ← eat "*"
  let name ← if ← at? "(" then pure none
    else some <$> inFunction isAsync isGenerator bindingName
  return .function (← functionRest rec isAsync isGenerator name)

def functionDecl (isAsync : Bool) (mayBeNameless : Bool) : Parser Function := do
  let isGenerator ← eat "*"
  let nameless ← at? "("
  let name ← if mayBeNameless && nameless then pure none else some <$> bindingName
  functionRest rec isAsync isGenerator name

def validAccessor (kind : MethodKind) : Function → Bool
  | .mk _ _ _ _ params _ _ =>
    match kind, params with
    | .method, _ => true
    | .getter, [] => true
    | .getter, _ => false
    | .setter, [.rest _] => false
    | .setter, [_] => true
    | .setter, _ => false

def methodRest (kind : MethodKind) (isAsync isGenerator : Bool) : Parser Function := do
  let f ← functionRest rec isAsync isGenerator none
  require (validAccessor kind f)
  return f

def methodKind : Parser MethodKind := do
  if ← eatAccessor "get" then return .getter
  if ← eatAccessor "set" then return .setter
  return .method

def eatAsync : Parser Bool := do
  if ← atWord "async" <&&> nextIs fun s => followsModifier s.token && !s.hasLineEnd then
    advance
    return true
  else return false

end ScriptBundler.Parser
