import ScriptBundler.Options.Basic

namespace ScriptBundler.Command

/-- Flags that take a value. -/
inductive ValueFlag where
  | input
  | cwd
  | root
  | base
  | external
  | config
  | file
  | loader
  deriving DecidableEq, Repr, Inhabited

/-- Flags that stand alone. -/
inductive Switch where
  | bare
  | verbose
  | help
  | version
  deriving DecidableEq, Repr, Inhabited

abbrev Flag := ValueFlag ⊕ Switch

namespace Flag

def ofLong? (name : String) : Option Flag :=
  match name with
  | "input" => some (.inl .input)
  | "cwd" => some (.inl .cwd)
  | "root" => some (.inl .root)
  | "base" => some (.inl .base)
  | "external" => some (.inl .external)
  | "config" => some (.inl .config)
  | "file" => some (.inl .file)
  | "loader" => some (.inl .loader)
  | "bare" => some (.inr .bare)
  | "verbose" => some (.inr .verbose)
  | "help" => some (.inr .help)
  | "version" => some (.inr .version)
  | _ => none

def ofShort? (name : Char) : Option Flag :=
  match name with
  | 'c' => some (.inl .config)
  | 'o' => some (.inl .file)
  | 'v' => some (.inr .verbose)
  | 'h' => some (.inr .help)
  | 'V' => some (.inr .version)
  | _ => none

end Flag

structure Arguments where
  entries : List String := []
  flags : Options := {}
  config : Option String := none
  verbosity : Nat := 0
  deriving DecidableEq, Repr, Inhabited

inductive Request where
  | help
  | version
  | build (a : Arguments)
  deriving DecidableEq, Repr, Inhabited

namespace Arguments

def addEntry (a : Arguments) (entry : String) : Arguments :=
  { a with entries := a.entries ++ [entry] }

def more (values : Option (List String)) (value : String) : Option (List String) :=
  some (values.getD [] ++ [value])

def once (old : Option α) (value : α) : Option (Option α) :=
  match old with
  | some _ => none
  | none => some (some value)

def oncePath (old : Option String) (value : String) : Option (Option String) :=
  if value = "" then none else once old value

/-- Takes in the value of a flag, unless it is refused. -/
def set (a : Arguments) : ValueFlag → String → Option Arguments
  | .input, v => some { a with flags := { a.flags with input := more a.flags.input v } }
  | .external, v => some { a with flags := { a.flags with external := more a.flags.external v } }
  | .cwd, v => do return { a with flags := { a.flags with cwd := ← oncePath a.flags.cwd v } }
  | .root, v => do return { a with flags := { a.flags with root := ← oncePath a.flags.root v } }
  | .config, v => do return { a with config := ← oncePath a.config v }
  | .base, v => do return { a with flags := { a.flags with base := ← once a.flags.base v } }
  | .file, v => do return { a with flags := { a.flags with file := ← once a.flags.file v } }
  | .loader, v => do
    let loader ← LoaderStrategy.ofWord? v
    return { a with flags := { a.flags with loader := ← once a.flags.loader loader } }

def turnOn (a : Arguments) : Switch → Option (Arguments ⊕ Request)
  | .bare => do return .inl { a with flags := { a.flags with bare := ← once a.flags.bare true } }
  | .verbose => some (.inl { a with verbosity := a.verbosity + 1 })
  | .help => some (.inr .help)
  | .version => some (.inr .version)

inductive Cluster where
  | refused
  | request (r : Request)
  | done (a : Arguments)
  | unfinished (a : Arguments) (flag : ValueFlag)

def cluster (a : Arguments) : List Char → Cluster
  | [] => .done a
  | c :: cs =>
    match Flag.ofShort? c with
    | none => .refused
    | some (.inr switch) =>
      match a.turnOn switch with
      | none => .refused
      | some (.inr r) => .request r
      | some (.inl a) => a.cluster cs
    | some (.inl flag) =>
      match cs with
      | [] => .unfinished a flag
      | '=' :: value => ((a.set flag (String.ofList value)).map .done).getD .refused
      | value => ((a.set flag (String.ofList value)).map .done).getD .refused

def splitValue (cs : List Char) : String × Option String :=
  let name := cs.takeWhile (· ≠ '=')
  match cs.drop name.length with
  | [] => (String.ofList name, none)
  | _ :: value => (String.ofList name, some (String.ofList value))

def isFlag (argument : String) : Bool :=
  match argument.toList with
  | '-' :: _ :: _ => true
  | _ => false

def read (a : Arguments) : Option ValueFlag → List String → Option Request
  | some _, [] => none
  | none, [] => some (.build a)
  | some flag, argument :: rest =>
    if isFlag argument then none
    else (a.set flag argument).bind fun a => a.read none rest
  | none, argument :: rest =>
    match argument.toList with
    | ['-', '-'] => some (.build (rest.foldl addEntry a))
    | '-' :: '-' :: cs =>
      let (name, value) := splitValue cs
      match Flag.ofLong? name, value with
      | some (.inl flag), some value => (a.set flag value).bind fun a => a.read none rest
      | some (.inl flag), none => a.read (some flag) rest
      | some (.inr switch), none => (a.turnOn switch).bind fun next =>
        match next with
        | .inl a => a.read none rest
        | .inr r => some r
      | _, _ => none
    | '-' :: c :: cs =>
      match a.cluster (c :: cs) with
      | .refused => none
      | .request r => some r
      | .done a => a.read none rest
      | .unfinished a flag => a.read (some flag) rest
    | _ => (a.addEntry argument).read none rest

/-- What the arguments ask for, unless they are no proper use of the command. -/
def parse (arguments : List String) : Option Request := read {} none arguments

def options (a : Arguments) (config : Options) : Options :=
  let entries := a.entries ++ a.flags.input.getD []
  { input := if entries.isEmpty then config.input else some entries
    cwd := a.flags.cwd <|> config.cwd
    root := a.flags.root <|> config.root
    base := a.flags.base <|> config.base
    external := a.flags.external <|> config.external
    file := a.flags.file <|> config.file
    loader := a.flags.loader <|> config.loader
    bare := a.flags.bare <|> config.bare }

end Arguments

end ScriptBundler.Command
