import ScriptBundler.Syntax.Parser.Target

namespace ScriptBundler.Parser

variable (rec : Grammar)

def expression : Parser Expr := do
  match ← commaSeparated (rec .assign) (← read).size with
  | [e] => return e
  | es => return .sequence es

def key : Parser Key := do
  match ← current with
  | .name text _ => advance; return .ident text
  | .string value lone => advance; return .string value lone
  | .number text => advance; return .number text
  | .bigint text => advance; return .bigint text
  | .privateName text => advance; return .privateName text
  | .punct "[" =>
    advance
    let e ← nested (rec .assign)
    expect "]"
    return .computed e
  | _ => failure

/-- The name of a property, which is never private. -/
def propertyKey : Parser Key := do
  match ← key rec with
  | .privateName _ => failure
  | k => return k

def patternWithDefault : Parser Pattern := do
  let p ← rec .pattern
  if ← eat "=" then return .withDefault p (← nested (rec .assign))
  return p

def patternProperty : Parser PatternProperty := do
  let mayBind := isBindingToken (← current)
  let name? ← attempt (looksBinding mayBind)
  match name? with
  | some name =>
    let c ← read
    require (!(name = "yield" && c.inYield) && !(name = "await" && c.inAwait))
    if ← eat "=" then
      return .keyed (.ident name) true (.withDefault (.name name) (← nested (rec .assign)))
    return .keyed (.ident name) true (.name name)
  | none =>
    let k ← propertyKey rec
    expect ":"
    return .keyed k false (← patternWithDefault rec)
where
  looksBinding (mayBind : Bool) : Parser String := do
    require mayBind
    let name ← anyName
    require (!(← at? ":"))
    return name

def patternProperties : Nat → Parser (List PatternProperty)
  | 0 => failure
  | n + 1 => do
    if ← isAt .closeBrace then return []
    if ← eat "..." then
      let name ← bindingName
      require (← isAt .closeBrace)
      return [.rest (.name name)]
    let p ← patternProperty rec
    if ← eat "," then return p :: (← patternProperties n)
    require (← isAt .closeBrace)
    return [p]

/-- The items of an array pattern or the parameters of a function; nothing follows a rest. -/
def patternItems (close : Token) (allowHoles : Bool) : Nat → Parser (List Pattern)
  | 0 => failure
  | n + 1 => do
    if ← isAt close then return []
    if ← eat "..." then
      let p ← rec .pattern
      require (← isAt close)
      return [.rest p]
    if allowHoles then
      if ← eat "," then return .hole :: (← patternItems close allowHoles n)
    let p ← patternWithDefault rec
    if ← eat "," then return p :: (← patternItems close allowHoles n)
    require (← isAt close)
    return [p]

def pattern : Parser Pattern := do
  let size := (← read).size
  match ← current with
  | .openBrace =>
    advance
    let ps ← patternProperties rec size
    expectToken .closeBrace
    return .object ps
  | .punct "[" =>
    advance
    let ps ← patternItems rec (.punct "]") true size
    expect "]"
    return .array ps
  | _ => return .name (← bindingName)

def parameters : Parser (List Pattern) := do
  expect "("
  let ps ← patternItems rec (.punct ")") false (← read).size
  expect ")"
  return ps

end ScriptBundler.Parser
