import ScriptBundler.Proofs.Syntax.Free
import ScriptBundler.Proofs.Thunk.ExportsObject

namespace ScriptBundler

namespace Node

def exprs (n : Node) : List Expr :=
  match n with
  | .expr _ e => [e]
  | n => n.parts.attach.flatMap fun m => m.1.exprs
termination_by n.size
decreasing_by exact size_lt_of_mem_parts m.1 m.2

end Node

namespace Thunk

/-- What a declared name holds. -/
inductive Held (δ : Type) where
  | outcome (e : Expr)
  | copy (properties : Own δ)
  | property (value : Option δ)

/-- The names that hold something already, and what was evaluated that reads none of them. -/
structure Frame (δ : Type) where
  held : List (String × Held δ) := []
  evaluated : List Expr := []

variable {δ : Type}

variable {world : Expr → Own δ} {declared : List String} {frame frame' : Frame δ} {name : String}
  {e : Expr} {ds before after : List Declarator} {pattern : Pattern}

section Expressions

end Expressions

end Thunk

end ScriptBundler
