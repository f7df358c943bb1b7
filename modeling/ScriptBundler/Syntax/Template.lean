import ScriptBundler.Syntax.Parser
import ScriptBundler.Syntax.Traversal

namespace ScriptBundler.Template

/-- Puts an expression where the placeholder first stands. -/
def expressionFiller (placeholder : String) : Visitor (Option Expr) where
  onExpr
    | .ident name => fun filling =>
      match filling with
      | some e => if name = placeholder then (some e, none) else (none, some e)
      | none => (none, none)
    | _ => fun filling => (none, filling)

def bodyFiller : Visitor (Option (List Stmt)) where
  onBody body := fun filling =>
    match filling with
    | some ss => if body.isEmpty then (some ss, none) else (none, some ss)
    | none => (none, none)

def fillExpression (placeholder : String) (e : Expr) (ss : List Stmt) : List Stmt :=
  ((Stmt.descendAll (expressionFiller placeholder) ss).run (some e)).1

def fillBody (body : List Stmt) (ss : List Stmt) : List Stmt :=
  ((Stmt.descendAll bodyFiller ss).run (some body)).1

def statements? (code : String) : Option (List Stmt) := (Program.parse? code).map (·.body)

def firstBody : List Stmt → List Stmt
  | [] => []
  | .decl (.function (.mk _ _ _ _ _ _ body)) :: _ => body
  | _ :: ss => firstBody ss

def generatorStatements? (code : String) : Option (List Stmt) :=
  (statements? ("async function* __stitch_snippet__() \x7b\n" ++ code ++ "\n\x7d")).map firstBody

end ScriptBundler.Template
