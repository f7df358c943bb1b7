import ScriptBundler.Url

namespace ScriptBundler

/-- How the bundle runs its modules: all at once from a frozen table, or on first use. -/
inductive LoaderStrategy where
  | eager
  | lazy
  deriving DecidableEq, Repr, Inhabited

namespace LoaderStrategy

def word : LoaderStrategy → String
  | .eager => "eager"
  | .lazy => "lazy"

def title : LoaderStrategy → String
  | .eager => "Eager"
  | .lazy => "Lazy"

def ofWord? (s : String) : Option LoaderStrategy :=
  if s = "eager" then some .eager else if s = "lazy" then some .lazy else none

end LoaderStrategy

structure Options where
  input : Option (List String) := none
  cwd : Option String := none
  root : Option String := none
  base : Option String := none
  external : Option (List String) := none
  file : Option String := none
  loader : Option LoaderStrategy := none
  bare : Option Bool := none
  deriving DecidableEq, Repr, Inhabited

/-- The options of a run. `base` starts with a slash and, unless it is one, ends without. -/
structure Settings where
  input : List String
  cwd : String
  root : String
  base : String
  external : List String
  file : Option String
  loader : LoaderStrategy
  bare : Bool
  deriving DecidableEq, Repr, Inhabited

def distinct [DecidableEq α] : List α → List α
  | [] => []
  | a :: as => a :: (distinct as).filter (· ≠ a)

namespace Options

def normalizeBase (base : String) : String :=
  String.ofList ('/' :: Url.trimEnd (base.toList.dropWhile (· = '/')))

def normalize (o : Options) (workingDirectory : String) : Settings :=
  let cwd := o.cwd.getD workingDirectory
  { input := distinct (o.input.getD [])
    cwd := cwd
    root := match o.root with
      | some root => Url.normalize (Url.joinPath cwd root)
      | none => cwd
    base := normalizeBase (o.base.getD "/")
    external := o.external.getD []
    file := o.file
    loader := o.loader.getD .lazy
    bare := o.bare.getD false }

end Options

def Settings.isExternal (s : Settings) (url : String) : Bool :=
  s.external.any fun start => start.toList.isPrefixOf url.toList

end ScriptBundler
