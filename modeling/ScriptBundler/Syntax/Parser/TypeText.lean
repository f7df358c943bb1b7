import ScriptBundler.Syntax.Parser.Pattern

namespace ScriptBundler.Parser

variable (rec : Grammar)

/-- A text further in by one tab, its first line excepted. -/
def deepened (text : String) : String := "\n\t".intercalate (text.splitOn "\n")

def bracedLines (lineEnd : String) (lines : List String) : String :=
  if lines.isEmpty then "\x7b\x7d"
  else "\x7b" ++ String.join (lines.map fun l => "\n\t" ++ deepened l ++ lineEnd) ++ "\n\x7d"

def listText (opening closing : String) (items : List String) : String :=
  opening ++ ", ".intercalate items ++ closing

def qualifiedName : Parser String := do
  let first ← anyName
  iterate (fun text => do
    if ← eat "." then return some (text ++ "." ++ (← anyName))
    return none) (← read).size first

def typeArguments : Parser String := do
  if ← eat "<" then
    let items ← commaSeparated (rec .type) (← read).size
    expectFirst ">"
    return listText "<" ">" items
  return ""

def parameterNames : Parser String := do
  expect "("
  return listText "(" ")" (← listUntil (.punct ")") bindingName)

/-- A member of an object type; no member has a type of its own here. -/
def typeMember : Parser String := do
  let isReadonly ← atWord "readonly" <&&> nextIs fun s => startsKey s.token
  if isReadonly then advance
  let name ← memberName
  let isOptional ← eat "?"
  let params ← if ← at? "(" then parameterNames else pure ""
  let s ← get
  require ((← eat ";") || (← eat ",") || s.hasLineEnd || s.token = .closeBrace)
  return (if isReadonly then "readonly " else "") ++ name ++ (if isOptional then "?" else "") ++
    params
where
  memberName : Parser String := do
    match ← current with
    | .name text _ => advance; return text
    | .string value _ => advance; return "\"" ++ value ++ "\""
    | .number text => advance; return text
    | .punct "(" => return ""
    | _ => failure

def typeMembers : Parser String := do
  expectToken .openBrace
  let members ← many (do
    if ← isAt .closeBrace then return none
    return some (← typeMember)) (← read).size
  expectToken .closeBrace
  return bracedLines ";" members

def tupleItem : Parser String := do
  if ← eat "..." then return "..." ++ (← rec .type)
  let item ← rec .type
  return item ++ if ← eat "?" then "?" else ""

def primaryType : Parser String := do
  match ← current with
  | .number text => advance; return text
  | .bigint text => advance; return text
  | .string value _ => advance; return "\"" ++ value ++ "\""
  | .punct "-" =>
    advance
    match ← current with
    | .number text => advance; return "-" ++ text
    | .bigint text => advance; return "-" ++ text
    | _ => failure
  | .openBrace => typeMembers
  | .punct "[" =>
    advance
    return listText "[" "]" (← listUntil (.punct "]") (tupleItem rec))
  | .punct "(" =>
    advance
    let inner ← rec .type
    expect ")"
    return "(" ++ inner ++ ")"
  | .name "new" false => failure
  | .name "typeof" false =>
    advance
    return "typeof " ++ (← qualifiedName) ++ (← typeArguments rec)
  | .name _ _ => return (← qualifiedName) ++ (← typeArguments rec)
  | _ => failure

/-- A type with the brackets of arrays and of member types behind it. -/
def postfixType : Parser String := do
  let first ← primaryType rec
  iterate (fun text => do
    if (← hasLineEnd) || !(← eat "[") then return none
    if ← eat "]" then return some (text ++ "[]")
    let index ← rec .type
    expect "]"
    return some (text ++ "[" ++ index ++ "]")) (← read).size first

def prefixedType : Nat → Parser String
  | 0 => failure
  | n + 1 => do
    match ← current with
    | .name w false =>
      if ["keyof", "unique", "readonly", "infer"].contains w then
        if ← nextIs fun s => startsType s.token then
          advance
          return w ++ " " ++ (← prefixedType n)
      postfixType rec
    | _ => postfixType rec
where
  startsType : Token → Bool
    | .name _ _ => true
    | .openBrace => true
    | .punct p => p = "(" || p = "["
    | _ => false

def joinedTypes (sign : String) (item : Parser String) : Parser String := do
  let _ ← eat sign
  let first ← item
  iterate (fun text => do
    if ← eat sign then return some (text ++ " " ++ sign ++ " " ++ (← item))
    return none) (← read).size first

def typeText : Parser String := do
  let intersection := joinedTypes "&" (do prefixedType rec (← read).size)
  let union ← joinedTypes "|" intersection
  if !(← hasLineEnd) && (← eatWord "extends") then
    let bound ← joinedTypes "|" intersection
    expect "?"
    let yes ← rec .type
    expect ":"
    return union ++ " extends " ++ bound ++ " ? " ++ yes ++ " : " ++ (← rec .type)
  return union

def typeAlias : Parser String := do
  let name ← bindingName
  expect "="
  let text ← rec .type
  semicolon
  return "type " ++ name ++ " = " ++ text ++ ";"

def implementedTypes : Parser (List String) := do
  commaSeparated (return (← qualifiedName) ++ (← typeArguments rec)) (← read).size

def interfaceText : Parser String := do
  let name ← bindingName
  let parents ← if ← eatWord "extends" then implementedTypes rec else pure []
  let extended := if parents.isEmpty then "" else listText " extends " "" parents
  return "interface " ++ name ++ extended ++ " " ++ (← typeMembers)

def enumMember : Parser String := do
  let name ← match ← current with
    | .name text _ => advance; pure text
    | .string value _ => advance; pure ("\"" ++ value ++ "\"")
    | _ => failure
  if ← eat "=" then return name ++ " = " ++ (← primaryType rec)
  return name

def enumText : Parser String := do
  let name ← bindingName
  expectToken .openBrace
  let members ← listUntil .closeBrace (enumMember rec)
  let lines := bracedLines "" (members.dropLast.map (· ++ ",") ++ members.getLast?.toList)
  return "enum " ++ name ++ " " ++ lines

/-- A declaration of types only, if one follows. -/
def typeDeclaration? : Parser (Option String) := do
  match ← current with
  | .name "type" false => advance; return some (← typeAlias rec)
  | .name "interface" false => advance; return some (← interfaceText rec)
  | .name "enum" false => advance; return some (← enumText rec)
  | _ => return none

end ScriptBundler.Parser
