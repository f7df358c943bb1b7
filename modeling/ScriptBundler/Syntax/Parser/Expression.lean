import ScriptBundler.Syntax.Parser.Class
import ScriptBundler.Syntax.Purity

namespace ScriptBundler.Parser

/-- A binary operator with its level, by its spelling. -/
def operators : List (String × BinaryOp × Nat) :=
  [("??", .coalesce, 1), ("||", .or, 2), ("&&", .and, 3), ("|", .bitOr, 4), ("^", .bitXor, 5),
    ("&", .bitAnd, 6), ("==", .eq, 7), ("!=", .ne, 7), ("===", .strictEq, 7), ("!==", .strictNe, 7),
    ("<", .lt, 8), ("<=", .le, 8), (">", .gt, 8), (">=", .ge, 8), ("in", .inOf, 8),
    ("instanceof", .instanceOf, 8), ("<<", .shiftLeft, 9), (">>", .shiftRight, 9),
    (">>>", .shiftRightZero, 9), ("+", .add, 10), ("-", .sub, 10), ("*", .mul, 11), ("/", .div, 11),
    ("%", .rem, 11), ("**", .exp, 12)]

def operator? : Token → Option (BinaryOp × Nat)
  | .punct p => operators.lookup p
  | .name "in" false => some (.inOf, 8)
  | .name "instanceof" false => some (.instanceOf, 8)
  | _ => none

/-- The operator that an assignment applies first; the outer option is missing for no assignment. -/
def assignment? : Token → Option (Option BinaryOp)
  | .punct p =>
    (Token.assignments.lookup p).map fun o => o.bind fun s => (operators.lookup s).map (·.1)
  | _ => none

def unary? : Token → Option UnaryOp
  | .punct "-" => some .minus
  | .punct "+" => some .plus
  | .punct "!" => some .not
  | .punct "~" => some .bitNot
  | .name "typeof" false => some .typeOf
  | .name "void" false => some .voidOf
  | .name "delete" false => some .delete
  | _ => none

def update? : Token → Option UpdateOp
  | .punct "++" => some .increment
  | .punct "--" => some .decrement
  | _ => none

variable (rec : Grammar)

/--
The texts and values of a template, whose opening mark is the current token. In a tagged template a
text may hold escapes that denote nothing; its line ends then stay as they are.
-/
def templateParts (isTagged : Bool) : Nat → Parser (List String × List Expr)
  | 0 => failure
  | n + 1 => do
    let s ← get
    let (raw, isEnd, rest) ← liftOption (Lexer.templateChunk [] s.rest)
    let isValid := Lexer.validTemplate (raw.length + 1) raw
    require (isTagged || isValid)
    let quasi := String.ofList (if isValid then Lexer.lineFeeds raw else raw)
    set { s with rest := rest }
    advance
    if isEnd then return ([quasi], [])
    let e ← nested (expression rec)
    require (← isAt .closeBrace)
    let (quasis, values) ← templateParts isTagged n
    return (quasi :: quasis, e :: values)

def template (isTagged : Bool) : Parser (List String × List Expr) := do
  templateParts rec isTagged (← read).size

def regex : Parser Expr := do
  let s ← get
  let (pattern, flags, rest) ← liftOption (Lexer.regex? (s.start.drop 1))
  set { s with rest := rest }
  advance
  return .regex pattern flags

def spreadOr (item : Parser Expr) : Parser Expr := do
  if ← eat "..." then return .spread (← item)
  item

def argument : Parser Expr := do
  let comments ← leading
  let e ← spreadOr (rec .assign)
  return if comments.isEmpty then e else .commented comments (some e)

/-- The closing parenthesis of arguments, which takes in the comments before it. -/
def closeArguments (args : List Expr) : Parser (List Expr) := do
  let comments ← leading
  expect ")"
  return if comments.isEmpty then args else args ++ [.commented comments none]

def arguments : Parser (List Expr) := nested do
  closeArguments (← commaList (.punct ")") (argument rec) (← read).size)

def arrayItems : Nat → Parser (List Expr × Bool)
  | 0 => failure
  | n + 1 => do
    if ← isAt (.punct "]") then return ([], true)
    if ← eat "," then
      let (es, finalComma) ← arrayItems n
      return (.hole :: es, finalComma)
    let e ← spreadOr (rec .assign)
    if ← eat "," then
      let (es, finalComma) ← arrayItems n
      return (e :: es, finalComma)
    require (← isAt (.punct "]"))
    return ([e], false)

def plainProperty : Parser Property := do
  let token ← current
  let k ← propertyKey rec
  let c ← read
  if let .ident name := k then
    if isBindingToken token && !(← at? ":") then
      require (!(name = "yield" && c.inYield) && !(name = "await" && c.inAwait))
      if ← eat "=" then
        let value ← rec .assign
        modify fun s => { s with openDefaults := s.openDefaults + 1 }
        return .keyValue k true (.assign none (.name name) value)
      return .keyValue k true (.ident name)
  expect ":"
  return .keyValue k false (← rec .assign)

def property : Parser Property := do
  if ← eat "..." then return .spread (← rec .assign)
  match ← methodKind with
  | .method =>
    let isAsync ← eatAsync
    let isGenerator ← eat "*"
    match ← attempt methodKey with
    | some k => return .method .method k (← methodRest rec .method isAsync isGenerator)
    | none =>
      require (!isAsync && !isGenerator)
      plainProperty rec
  | kind => return .method kind (← propertyKey rec) (← methodRest rec kind false false)
where
  methodKey : Parser Key := do
    let k ← propertyKey rec
    require (← at? "(")
    return k

/-- What follows the word `import` in an expression. -/
def importExpr : Parser Expr := do
  if ← eat "." then
    if ← eatWord "meta" then return .importMeta
    if ← eatWord "source" then
      expect "("
      importArguments (some .source)
    else
      expectWord "defer"
      expect "("
      importArguments (some .defer)
  else
    expect "("
    importArguments none
where
  importArgument : Parser Expr := do
    let comments ← leading
    let e ← rec .assign
    return if comments.isEmpty then e else .commented comments (some e)
  importArguments (phase : Option ImportPhase) : Parser Expr := nested do
    let args ← commaList (.punct ")") importArgument (← read).size
    require (args.length = 1 || args.length = 2)
    return .importCall phase (← closeArguments args)

/-- The part of an expression that members and arguments extend. -/
def memberStep (allowChain : Bool) : Expr × Bool → Parser (Option (Expr × Bool))
  | (e, inChain) => do
    let inDecorator := (← read).inDecorator
    match ← current with
    | .punct "." =>
      advance
      return some (← named e false, inChain)
    | .punct "[" =>
      if inDecorator then return none
      advance
      let property ← nested (expression rec)
      expect "]"
      return some (.index e property, inChain)
    | .punct "?." =>
      require (!inDecorator)
      if !allowChain then return none
      if ← nextIs fun s => s.token = .punct "[" then
        advance
        advance
        let property ← nested (expression rec)
        expect "]"
        return some (.index e property true, true)
      if ← nextIs fun s => isNameToken s.token then
        advance
        return some (← named e true, true)
      return none
    | .backtick =>
      require (!inChain)
      let (quasis, values) ← template rec true
      return some (.taggedTemplate e quasis values, inChain)
    | _ => return none
where
  isNameToken : Token → Bool
    | .name _ _ => true
    | .privateName _ => true
    | _ => false
  named (e : Expr) (isOptional : Bool) : Parser Expr := do
    match ← current with
    | .privateName name => advance; return .privateMember e name isOptional
    | _ => return .member e (← anyName) isOptional

def callStep : Expr × Bool → Parser (Option (Expr × Bool))
  | (e, inChain) => do
    if let some next ← memberStep rec true (e, inChain) then return some next
    let isOptional ← eat "?."
    if ← eat "(" then
      let args ← arguments rec
      return some (.call e args isOptional, inChain || isOptional)
    require (!isOptional)
    return none

def superExpr : Parser Expr := do
  require ((← at? ".") || (← at? "(") || (← at? "["))
  return .superValue

/--
What follows the word `new`. Without arguments, comments before a callee that is one character long
stand where the arguments would.
-/
def newExpr : Parser Expr := do
  if ← eat "." then
    expectWord "target"
    return .newTarget
  let comments ← leading
  let callee ← rec .newCallee
  match callee with
  | .importCall _ _ => failure
  | _ => pure ()
  if ← eat "(" then return .new callee (← arguments rec)
  require (!(← at? "?."))
  return .new callee (if comments.isEmpty || !isOneByte callee then []
    else [.commented comments none])
where
  isOneByte : Expr → Bool
    | .ident name => name.utf8ByteSize = 1
    | _ => false

def primary (leftSide : Parser Expr) : Parser Expr := do
  match ← current with
  | .number text => advance; return .number text
  | .bigint text => advance; return .bigint text
  | .string value lone => advance; return .string value lone
  | .backtick => do
    let (quasis, values) ← template rec false
    return .template quasis values
  | .openBrace =>
    advance
    return .object (← nested (listUntil .closeBrace (property rec)))
  | .punct "[" =>
    advance
    let (items, finalComma) ← nested do arrayItems rec (← read).size
    expect "]"
    return .array items finalComma
  | .punct "(" =>
    advance
    let e ← nested (expression rec)
    expect ")"
    return .paren e
  | .punct "/" => regex
  | .punct "/=" => regex
  | .punct "@" =>
    let ds ← decorators leftSide
    return .classExpr (← decoratedClass rec leftSide leftSide ds)
  | .name "function" false => advance; functionExpr rec false
  | .name "class" false =>
    advance
    return .classExpr (← classRest rec leftSide leftSide [] [])
  | .name "new" false => advance; newExpr rec
  | .name "this" false => advance; return .thisValue
  | .name "null" false => advance; return .null
  | .name "true" false => advance; return .bool true
  | .name "false" false => advance; return .bool false
  | .name "super" false => advance; superExpr
  | .name "import" false => advance; importExpr rec
  | .name "async" false =>
    if ← nextIs fun s => s.token = .name "function" false && !s.hasLineEnd then
      advance
      advance
      functionExpr rec true
    else return .ident (← bindingName)
  | _ => return .ident (← bindingName)

def leftSide : Nat → Parser Expr
  | 0 => failure
  | n + 1 => do
    let size := (← read).size
    let e ← primary rec (leftSide n)
    let (e, inChain) ← iterate (callStep rec) size (e, false)
    return if inChain then .chain e else e

def newCallee : Parser Expr := do
  let size := (← read).size
  let e ← primary rec (leftSide rec size)
  let (e, _) ← iterate (memberStep rec false) size (e, false)
  return e

def updateExpr : Parser Expr := do
  match update? (← current) with
  | some op =>
    advance
    let e ← rec .unary
    return .update op true (← liftOption e.simpleTarget?)
  | none =>
    let e ← leftSide rec (← read).size
    let s ← get
    match update? s.token with
    | some op =>
      if s.hasLineEnd then return e
      advance
      return .update op false (← liftOption e.simpleTarget?)
    | none => return e

def unaryExpr : Parser Expr := do
  match unary? (← current) with
  | some op =>
    advance
    let isPure := (← get).marksCall
    let e ← rec .unary
    return .unary op (if isPure then e.asPureCall else e)
  | none =>
    if ← atWord "await" then
      if (← read).inAwait then
        advance
        return .await (← rec .unary)
      require (!(← operandFollows) || (← nextIs fun s => s.token = .name "of" false))
    updateExpr rec

def isMixable : Expr → Bool
  | .binary .or _ _ => true
  | .binary .and _ _ => true
  | _ => false

def isUnary : Expr → Bool
  | .unary _ _ => true
  | .await _ => true
  | _ => false

def isPrivateIn : Expr → Bool
  | .privateIn _ _ => true
  | _ => false

/--
Extends a left operand by an operator of a higher level than `level`. An operand of `??` that starts
with a parenthesis may be an `and` or `or`; `isOpened` says so of the left one.
-/
def binaryStep (level : Nat) (isOpened : Bool) (left : Expr) : Parser (Option Expr) := do
  let token ← current
  match operator? token with
  | none => return none
  | some (op, opLevel) =>
    if opLevel < level || (opLevel = level && op ≠ .exp) then return none
    if op = .inOf && !(← read).allowIn then return none
    advance
    let opensRight ← at? "("
    let right ← rec (.binary opLevel)
    if op = .coalesce then
      require ((isOpened || !isMixable left) && (opensRight || !isMixable right))
    if op = .exp then require (isOpened || !isUnary left)
    return some (.binary op left right)

def binaryExpr (level : Nat) : Parser Expr := do
  let c ← read
  let isOpened ← at? "("
  let left ← match ← current with
    | .privateName name =>
      advance
      expectWord "in"
      let right ← rec (.binary 8)
      require (!isPrivateIn right)
      pure (.privateIn name right)
    | _ => do
      let isPure := (← get).marksCall
      let e ← unaryExpr rec
      pure (if isPure then e.asPureCall else e)
  iterate (binaryStep rec level isOpened) c.size left

def arrowBody (isAsync : Bool) (params : List Pattern) : Parser Expr :=
  withReader (fun c => { c with inAwait := isAsync, inYield := false, inDecorator := false }) do
    if ← isAt .openBrace then
      let (directives, body) ← withIn (functionBody rec)
      return .arrowBlock isAsync false params directives body
    return .arrow isAsync false params (← rec .assign)

def arrow : Parser Unit := do
  require (!(← hasLineEnd))
  expect "=>"

def arrowHead : Parser (Bool × List Pattern) := do
  let isAsync ← eatWord "async"
  let params ← withReader (fun c => { c with
      allowIn := true, inDecorator := false, inAwait := c.inAwait || isAsync }) (parameters rec)
  arrow
  return (isAsync, params)

/-- How much the next tokens look like the parameters of an arrow function. -/
inductive Likeness where
  | no
  | maybe
  | yes
  deriving DecidableEq

def arrowTokens : Parser Likeness := do
  if ← atWord "async" then
    advance
    if ← hasLineEnd then return .no
  if !(← eat "(") then return .no
  match ← current with
  | .punct ")" =>
    advance
    return if (← at? "=>") || (← isAt .openBrace) then .yes else .no
  | .punct "[" => return .maybe
  | .openBrace => return .maybe
  | .punct "..." => return .yes
  | token =>
    if !isBindingToken token then return .no
    advance
    return if (← at? ",") || (← at? "=") || (← at? ")") then .maybe else .no

/-- How much an arrow function seems to follow; nothing is read. -/
def arrowLikeness : Parser Likeness := fun c s =>
  match arrowTokens c s with
  | some (l, _) => some (l, s)
  | none => some (.no, s)

def startsAsyncArrow : Parser Bool := looksAhead do
  expectWord "async"
  require (!(← hasLineEnd))
  let token ← current
  advance
  return isBindingToken token && (← at? "=>") && !(← hasLineEnd)

def arrowFunction? : Parser (Option Expr) := do
  match ← arrowLikeness with
  | .yes =>
    let (isAsync, params) ← arrowHead rec
    return some (← arrowBody rec isAsync params)
  | .maybe =>
    match ← attempt (arrowHead rec) with
    | some (isAsync, params) => return some (← arrowBody rec isAsync params)
    | none => return none
  | .no =>
    if ← startsAsyncArrow then
      advance
      let name ← withReader (fun c => { c with inAwait := true }) bindingName
      arrow
      return some (← arrowBody rec true [.name name])
    return none

def yieldExpr : Parser Expr := do
  let s ← get
  if s.hasLineEnd then return .yield none
  if ← eat "*" then return .yieldAll (← rec .assign)
  let ends := match s.token with
    | .eof => true
    | .closeBrace => true
    | .punct p => p = "]" || p = ")" || p = ":" || p = "," || p = ";"
    | .name "in" false => true
    | _ => false
  if ends then return .yield none
  return .yield (some (← rec .assign))

def plainAssignExpr : Parser Expr := do
  if ← atWord "yield" then
    if (← read).inYield then
      advance
      return ← yieldExpr rec
    require (!(← operandFollows))
  if let some e ← arrowFunction? rec then return e
  let left ← binaryExpr rec 0
  if let .ident name := left then
    if ← at? "=>" then
      arrow
      return ← arrowBody rec false [.name name]
  match assignment? (← current) with
  | some op =>
    let t ← target left
    advance
    return .assign op t (← rec .assign)
  | none =>
    if ← eat "?" then
      let consequent ← withIn (rec .assign)
      expect ":"
      return .conditional left consequent (← rec .assign)
    return left

def assignExpr : Parser Expr := do
  let isPure := (← get).marksFunction
  let e ← plainAssignExpr rec
  return if isPure then e.asPureFunction else e

end ScriptBundler.Parser
