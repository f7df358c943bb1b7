import ScriptBundler.Options.Mismatch

namespace ScriptBundler.Options

/-- A JSON value. -/
inductive Json where
  | null
  | bool (value : Bool)
  | integer (value : Int)
  | fraction (isNegative : Bool) (value : Double)
  | string (value : String)
  | array (items : List Json)
  | object (members : List (String × Json))
  deriving Inhabited

namespace Json

def isStored (n : Int) : Bool := -(Nat.pow 2 63 : Int) ≤ n && n < Nat.pow 2 64

/-- What a report shows of a value; a greater integer is a fraction. -/
def shape : Json → Shape
  | .null => .null
  | .bool b => .bool b
  | .integer n =>
    if isStored n then .integer n
    else .fraction (n < 0) ((Double.ofDecimal ⟨n.natAbs, 0⟩).getD ⟨0, 0⟩)
  | .fraction isNegative x => .fraction isNegative x
  | .string s => .string s
  | .array _ => .sequence
  | .object _ => .map

def stringAs (expected : String) : Json → Except Mismatch String
  | .string s => .ok s
  | j => .error (.invalidType j.shape expected)

def asStringList : Json → Except Mismatch (List String)
  | .array items => items.mapM (stringAs "a string")
  | j => .error (.invalidType j.shape "a sequence")

def asBool : Json → Except Mismatch Bool
  | .bool b => .ok b
  | j => .error (.invalidType j.shape "a boolean")

def variant (name : String) : Except Mismatch LoaderStrategy :=
  match LoaderStrategy.ofWord? name with
  | some l => .ok l
  | none => .error (.unknownVariant name)

def asLoader : Json → Except Mismatch LoaderStrategy
  | .string s => variant s
  | .object [(name, value)] => do
    let l ← variant name
    match value with
    | .null => return l
    | j => throw (.invalidType j.shape "unit")
  | .object _ => .error .severalKeys
  | j => .error (.invalidType j.shape "string or map")

def optional (read : Json → Except Mismatch α) : Json → Except Mismatch (Option α)
  | .null => .ok none
  | j => some <$> read j

def field (o : Options) (name : String) (j : Json) : Except Mismatch Options := do
  match name with
  | "input" => return { o with input := ← optional asStringList j }
  | "cwd" => return { o with cwd := ← optional (stringAs "path string") j }
  | "root" => return { o with root := ← optional (stringAs "path string") j }
  | "base" => return { o with base := ← optional (stringAs "a string") j }
  | "external" => return { o with external := ← optional asStringList j }
  | "file" => return { o with file := ← optional (stringAs "a string") j }
  | "loader" => return { o with loader := ← optional asLoader j }
  | "bare" => return { o with bare := ← optional asBool j }
  | _ => throw (.unknownField name)

def positional : List String → Nat → List Json → Options → Except Mismatch Options
  | [], _, [], o => .ok o
  | [], n, rest, _ => .error (.invalidLength (n + rest.length) "fewer elements in array")
  | _ :: _, n, [], _ => .error (.invalidLength n expectedPositional)
  | name :: names, n, j :: js, o => do positional names (n + 1) js (← field o name j)

end Json

def ofJson (j : Json) : Except String Options :=
  let result := match j with
    | .object members =>
      let sorted := members.mergeSort fun a b => decide (a.1 ≤ b.1)
      sorted.foldlM (fun o (name, j) => Json.field o name j) {}
    | .array items => Json.positional fieldNames 0 items {}
    | j => .error (.invalidType j.shape expectedWhole)
  result.mapError Mismatch.message

end ScriptBundler.Options
