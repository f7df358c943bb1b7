import ScriptBundler.Syntax.Parser.Statement

namespace ScriptBundler

namespace Parser

def step (rec : Grammar) : (g : Goal) → Parser g.Result
  | .assign => assignExpr rec
  | .unary => unaryExpr rec
  | .binary level => binaryExpr rec level
  | .newCallee => newCallee rec
  | .statement isSingle => statement rec isSingle
  | .pattern => pattern rec
  | .type => typeText rec

def grammar : Nat → (g : Goal) → Parser g.Result
  | 0, _ => failure
  | n + 1, g => step (fun g' => grammar n g') g

def hashbang? : List Char → Option (String × List Char)
  | '#' :: '!' :: cs =>
    let line := cs.takeWhile fun c => !Lexer.isLineEnd c
    some (String.ofList line, cs.drop line.length)
  | _ => none

/-- A whole program after its hashbang. At the top level no two exports have one name. -/
def program (hashbang : Option String) (depth : Nat) : Parser Program := do
  advance
  let (directives, body) ← prologue (grammar depth) (← read).size
  require (← isAt .eof)
  require ((← get).openDefaults = 0)
  require (body.flatMap Stmt.exportedNames).Nodup
  return ⟨(← read).keepsComments, hashbang, directives, body, ← leading⟩

end Parser

def Program.parse? (source : String) (keepsComments : Bool := false) : Option Program :=
  let text := source.toList
  let text := if text.head?.any (·.toNat = 0xfeff) then text.drop 1 else text
  let (hashbang, rest) := match Parser.hashbang? text with
    | some (line, rest) => (some line, rest)
    | none => (none, text)
  let size := rest.length + 2
  let context : Parser.Context := { size := size, keepsComments := keepsComments }
  ((Parser.program hashbang (8 * size)).run context { rest := rest }).map (·.1)

end ScriptBundler
