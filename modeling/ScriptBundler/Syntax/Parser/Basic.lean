import ScriptBundler.Syntax.Basic
import ScriptBundler.Syntax.Proper

namespace ScriptBundler.Parser

/-- What the surrounding code permits. -/
structure Context where
  size : Nat
  allowIn : Bool := true
  inYield : Bool := false
  inAwait : Bool := true
  inReturn : Bool := false
  inDecorator : Bool := false
  keepsComments : Bool := false

structure State where
  token : Token := .eof
  proper : token.IsProper := by exact True.intro
  hasLineEnd : Bool := false
  marksCall : Bool := false
  marksFunction : Bool := false
  comments : List Comment := []
  start : List Char := []
  rest : List Char
  openDefaults : Nat := 0

end Parser

abbrev Parser := ReaderT Parser.Context (StateT Parser.State Option)

namespace Parser

/-- The parts of the grammar that contain each other. -/
inductive Goal where
  | assign
  | unary
  | binary (level : Nat)
  | newCallee
  | statement (isSingle : Bool)
  | pattern
  | type

@[reducible] def Goal.Result : Goal → Type
  | .assign => Expr
  | .unary => Expr
  | .binary _ => Expr
  | .newCallee => Expr
  | .statement _ => Stmt
  | .pattern => Pattern
  | .type => String

abbrev Grammar := (g : Goal) → Parser g.Result

def liftOption (o : Option α) : Parser α := fun _ s => o.map fun a => (a, s)

/-- Moves to the next token. The text starts like a line. -/
def advance : Parser Unit := do
  let s ← get
  let mayLead := s.token = .punct "=" || s.token = .punct "("
  let (t, start) ← liftOption (Lexer.trivia mayLead none { hasLineEnd := s.token = .eof } s.rest)
  let (token, rest) ← liftOption (Lexer.properToken? start)
  set { s with
    token := token.1, proper := token.2
    hasLineEnd := t.hasLineEnd || t.spansLines, marksCall := t.marksCall
    marksFunction := t.marksFunction, comments := t.comments, start := start, rest := rest }

/-- Runs a parser; if it fails, nothing was read. -/
def attempt (p : Parser α) : Parser (Option α) := fun c s =>
  match p c s with
  | some (a, s') => some (some a, s')
  | none => some (none, s)

/-- Whether a condition holds further on; nothing is read. -/
def looksAhead (p : Parser Bool) : Parser Bool := fun c s =>
  match p c s with
  | some (b, _) => some (b, s)
  | none => some (false, s)

def require (b : Bool) : Parser Unit := if b then return () else failure

def current : Parser Token := return (← get).token

def leading : Parser (List Comment) := do
  let s ← get
  return if (← read).keepsComments then s.comments else []

def hasLineEnd : Parser Bool := return (← get).hasLineEnd

def isAt (token : Token) : Parser Bool := return (← current) = token

def eatToken (token : Token) : Parser Bool := do
  if ← isAt token then
    advance
    return true
  else return false

def expectToken (token : Token) : Parser Unit := do require (← eatToken token)

def at? (p : String) : Parser Bool := isAt (.punct p)

def eat (p : String) : Parser Bool := eatToken (.punct p)

def expect (p : String) : Parser Unit := expectToken (.punct p)

def expectFirst (p : String) : Parser Unit := do
  match ← current with
  | .punct q =>
    require (q.startsWith p)
    modify fun s => { s with rest := s.start.drop p.length }
    advance
  | _ => failure

def atWord (w : String) : Parser Bool := isAt (.name w false)

def eatWord (w : String) : Parser Bool := eatToken (.name w false)

def expectWord (w : String) : Parser Unit := expectToken (.name w false)

def nextIs (p : State → Bool) : Parser Bool := looksAhead do
  advance
  return p (← get)

def semicolon : Parser Unit := do
  if ← eat ";" then return ()
  let s ← get
  require (s.hasLineEnd || s.token = .closeBrace || s.token = .eof)

def commaList (close : Token) (item : Parser α) : Nat → Parser (List α)
  | 0 => failure
  | n + 1 => do
    if ← isAt close then return []
    let a ← item
    if ← eat "," then return a :: (← commaList close item n)
    require (← isAt close)
    return [a]

def listUntil (close : Token) (item : Parser α) : Parser (List α) := do
  let items ← commaList close item (← read).size
  expectToken close
  return items

def commaSeparated (item : Parser α) : Nat → Parser (List α)
  | 0 => failure
  | n + 1 => do
    let a ← item
    if ← eat "," then return a :: (← commaSeparated item n)
    return [a]

def many (step : Parser (Option α)) : Nat → Parser (List α)
  | 0 => failure
  | n + 1 => do
    match ← step with
    | some a => return a :: (← many step n)
    | none => return []

def iterate (step : α → Parser (Option α)) : Nat → α → Parser α
  | 0, _ => failure
  | n + 1, a => do
    match ← step a with
    | some a' => iterate step n a'
    | none => return a

def anyName : Parser String := do
  match ← current with
  | .name text _ => advance; return text
  | _ => failure

def isBindingToken : Token → Bool
  | .name text _ => !Token.isReserved text
  | _ => false

def bindingName : Parser String := do
  let c ← read
  match ← current with
  | .name text _ =>
    require (!Token.isReserved text)
    require (!(text = "yield" && c.inYield) && !(text = "await" && c.inAwait))
    advance
    return text
  | _ => failure

def withIn (p : Parser α) : Parser α := withReader (fun c => { c with allowIn := true }) p

def nested (p : Parser α) : Parser α :=
  withReader (fun c => { c with allowIn := true, inDecorator := false }) p

def inFunction (isAsync isGenerator : Bool) (p : Parser α) : Parser α :=
  withReader (fun c => { c with
    allowIn := true, inDecorator := false, inAwait := isAsync, inYield := isGenerator }) p

def startsKey : Token → Bool
  | .name _ _ => true
  | .privateName _ => true
  | .string _ _ => true
  | .number _ => true
  | .bigint _ => true
  | .punct p => p = "["
  | _ => false

def followsModifier (token : Token) : Bool := startsKey token || token = .punct "*"

def eatAccessor (w : String) : Parser Bool := do
  if ← atWord w <&&> nextIs fun s => startsKey s.token then
    advance
    return true
  else return false

def operandFollows : Parser Bool :=
  nextIs fun s => !s.hasLineEnd && match s.token with
    | .name text _ => text ≠ "in" && text ≠ "instanceof"
    | .string _ _ => true
    | .number _ => true
    | .bigint _ => true
    | _ => false

end Parser

end ScriptBundler
