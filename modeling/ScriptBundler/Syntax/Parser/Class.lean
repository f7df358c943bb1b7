import ScriptBundler.Syntax.Parser.Function
import ScriptBundler.Syntax.Parser.TypeText

namespace ScriptBundler.Parser

variable (rec : Grammar)

def modifierWords : List String :=
  ["abstract", "accessor", "async", "const", "declare", "default", "export", "in", "out",
    "override", "private", "protected", "public", "readonly", "static"]

def accessWords : List String := ["private", "protected", "public"]

def methodWords : List String := ["abstract", "async", "override", "static"] ++ accessWords

def fieldWords : List String :=
  ["abstract", "accessor", "declare", "override", "readonly", "static"] ++ accessWords

def printedWords : List String :=
  ["declare"] ++ accessWords ++ ["abstract", "static", "readonly", "accessor"]

/--
The modifiers before a name, each once. A word is one only if what it modifies follows, on the same
line unless the word is `static`.
-/
def modifiers : Nat → List String → Parser (List String)
  | 0, _ => failure
  | n + 1, seen => do
    match ← current with
    | .name w false =>
      let isModifier ← pure (modifierWords.contains w && !(w = "static" && seen.contains w)) <&&>
        nextIs fun s => followsModifier s.token && (w = "static" || !s.hasLineEnd)
      if isModifier then
        require (!seen.contains w)
        require (!accessWords.contains w || !seen.any accessWords.contains)
        advance
        modifiers n (w :: seen)
      else return seen
    | _ => return seen

def decorators (decorator : Parser Expr) : Parser (List Expr) := do
  many (do
    if ← eat "@" then
      return some (← withReader (fun c => { c with inDecorator := true }) decorator)
    return none) (← read).size

def isNamed (name : String) : Key → Bool
  | .ident n => n = name
  | .string n _ => n = name
  | _ => false

/-- The value of a field, which is a body of its own; that of an accessor is not. -/
def fieldValue (isAccessor : Bool) : Parser Expr :=
  if isAccessor then nested (rec .assign) else inFunction false false (expression rec)

def namedMember (decorators : List Expr) : Parser Member := do
  let words ← modifiers (← read).size []
  let isStatic := words.contains "static"
  let isAsync := words.contains "async"
  let isAccessor := words.contains "accessor"
  let printed := printedWords.filter words.contains
  let kind ← if isAccessor then pure MethodKind.method else methodKind
  let isGenerator ← if kind = .method then eat "*" else pure false
  let k ← key rec
  require (!(isStatic && isNamed "prototype" k))
  if let .privateName name := k then require (name ≠ "constructor")
  let isOptional ← eat "?"
  let mark := if isOptional then "?" else ""
  if ← at? "(" then
    require (words.all methodWords.contains && !(isAsync && kind ≠ .method))
    if isNamed "constructor" k && !isStatic then
      require (kind = .method && !isAsync && !isGenerator && decorators.isEmpty)
    let f ← methodRest rec kind isAsync isGenerator
    return .method decorators printed kind k mark f
  let isDefinite ← eat "!"
  let mark := if isDefinite then "!" else mark
  require (!(isOptional && isDefinite))
  require (words.all fieldWords.contains && !isGenerator && kind = .method)
  require (!isNamed "constructor" k)
  let value ← if ← eat "=" then some <$> fieldValue rec isAccessor else pure none
  semicolon
  return .field decorators printed k mark value

def staticBlock : Parser Member := do
  expectToken .openBrace
  let body ← withReader (fun c => { c with
    inAwait := true, inYield := false, inReturn := false, allowIn := true }) (statements rec)
  expectToken .closeBrace
  return .staticBlock body

def member (decorator : Parser Expr) : Parser (Option Member) := do
  if ← eat ";" then return none
  let comments ← leading
  let ds ← decorators decorator
  let isBlock ← atWord "static" <&&> nextIs fun s => s.token = .openBrace
  let m ← if isBlock then do
      require ds.isEmpty
      advance
      staticBlock rec
    else namedMember rec ds
  return some (if comments.isEmpty then m else .commented comments m)

/-- What a class extends, with its type arguments. Of several the first one counts. -/
def superClass (parent : Parser Expr) : Parser (Option Expr × String) := do
  if ← eatWord "extends" then
    let parents ← commaSeparated (return (← parent, ← typeArguments rec)) (← read).size
    return match parents with
      | (e, types) :: _ => (some e, types)
      | [] => (none, "")
  return (none, "")

def classRest (parent decorator : Parser Expr) (modifiers : List String) (ds : List Expr) :
    Parser Class := do
  let isNamed := isBindingToken (← current) && !(← atWord "implements")
  let name ← if isNamed then some <$> bindingName else pure none
  let (extended, arguments) ← superClass rec parent
  let implemented ← if ← eatWord "implements" then implementedTypes rec else pure []
  expectToken .openBrace
  let members ← nested do
    many (do
      if ← isAt .closeBrace then return none
      return some (← member rec decorator)) (← read).size
  expectToken .closeBrace
  return .mk ds ⟨modifiers, arguments, implemented⟩ name extended (members.filterMap id)

def classWords : List String := ["declare", "abstract"]

def decoratedClass (parent decorator : Parser Expr) (ds : List Expr) : Parser Class := do
  let words ← modifiers (← read).size []
  require (words.all classWords.contains)
  expectWord "class"
  classRest rec parent decorator (classWords.filter words.contains) ds

end ScriptBundler.Parser
