import ScriptBundler.Proofs.Thunk.Evaluation
import ScriptBundler.Proofs.Thunk.ImportTexts

namespace ScriptBundler.Thunk

/-- What is asked of the imports from one module. -/
inductive ImportRequest where
  | name (imported localName : String)
  | copy (localName : String)
  | hide (index : Nat)

namespace ImportRequest

def name? : ImportRequest → Option (String × String)
  | .name imported localName => some (imported, localName)
  | _ => none

def hidden? : ImportRequest → Option String
  | .hide index => some (ImportGroup.hiddenName index)
  | _ => none

end ImportRequest

namespace ImportGroup

def request (g : ImportGroup) : ImportRequest → ImportGroup
  | .name imported localName => g.addName imported localName
  | .copy localName => g.addNamespace localName
  | .hide index => g.bind index

end ImportGroup

section Evaluation

variable {δ : Type} {world : Expr → Own δ} {declared : List String} {frame frame' : Frame δ}
  {own : Own δ} {value : Held δ} {source exports : Expr} {g : ImportGroup}

namespace ImportGroup

end ImportGroup

end Evaluation

def hiddenLocal? (requests : List ImportRequest) : Option String :=
  requests.findSome? ImportRequest.hidden?

/-- Each name holds what was asked for under it, and what the exports object comes from was
evaluated once. -/
structure Frame.Holds {δ : Type} (world : Expr → Own δ) (exports : Expr)
    (requests : List ImportRequest) (frame : Frame δ) : Prop where
  evaluated : frame.evaluated = [exports]
  names : ∀ imported localName, .name imported localName ∈ requests →
    frame.held.lookup localName = some (.property (world exports imported))
  copies : ∀ localName, .copy localName ∈ requests →
    frame.held.lookup localName = some (.copy (world exports))
  hidden : ∀ localName, hiddenLocal? requests = some localName →
    frame.held.lookup localName = some (.outcome exports)

section Answers

open ScriptBundler.Parser

variable {requests : List ImportRequest} {text : String} {exports : Expr}

end Answers

end ScriptBundler.Thunk
