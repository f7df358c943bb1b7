import ScriptBundler.Disk
import ScriptBundler.Files
import ScriptBundler.Scan

namespace ScriptBundler

structure MemoryModules where
  modules : List (String × String) := []
  notNeeded : List String := []
  deriving DecidableEq, Repr, Inhabited

namespace MemoryModules

def insert (m : MemoryModules) (url source : String) : MemoryModules :=
  { m with modules := (url, source) :: m.modules.filter (·.1 ≠ url) }

def leave (m : MemoryModules) (url : String) : MemoryModules :=
  { m with notNeeded := url :: m.notNeeded }

def load (m : MemoryModules) : ModuleLoader := fun url =>
  if url ∈ m.notNeeded then .ok .notNeeded
  else match m.modules.lookup url with
    | some source => .ok (.loaded source)
    | none => .error (.moduleNotFound url)

end MemoryModules

namespace Url

def toPath (root url : String) : String :=
  joinPath root (String.ofList (url.toList.dropWhile (· = '/')))

end Url

/-- Why a file has no text: it is missing, or there is some other cause. -/
inductive ReadFailure where
  | missing
  | cause (text : String)
  deriving DecidableEq, Repr, Inhabited

def LoadOutcome.ofRead (url path : String) :
    Except ReadFailure String → Except BuildError LoadOutcome
  | .ok source => .ok (.loaded source)
  | .error .missing => .error (.moduleNotFound url)
  | .error (.cause text) =>
    .error (.other ("Failed to read " ++ url ++ " from " ++ path ++ ": " ++ text))

def ModuleLoader.ofDirectory (root : String) (read : String → Except ReadFailure String) :
    ModuleLoader := fun url =>
  let path := Url.toPath root url
  LoadOutcome.ofRead url path (read path)

namespace Files

def tryRead (files : Files) (path : String) : Except ReadFailure String :=
  match files.read? path with
  | some content => .ok content
  | none => .error .missing

end Files

namespace Disk

def tryRead (d : Disk) (path : String) : Except ReadFailure String :=
  (d.read path).mapError fun e => match e with
    | .notFound => .missing
    | e => .cause e.message

end Disk

/-- A loader with a bound on the number of urls that a scan can load from it. -/
structure Sources where
  load : ModuleLoader
  limit : Nat

namespace Sources

def ofMemory (m : MemoryModules) : Sources := ⟨m.load, m.modules.length⟩

def fileLimit (contents : List String) : Nat :=
  contents.foldl (fun limit content => limit + content.length + 1) 0

def ofFiles (root : String) (files : Files) : Sources :=
  ⟨.ofDirectory root files.tryRead, fileLimit (files.entries.map (·.2))⟩

def ofDisk (root : String) (d : Disk) : Sources :=
  ⟨.ofDirectory root d.tryRead, fileLimit (d.files.map (·.2))⟩

def scan (sources : Sources) (settings : Settings) : Except (List BuildError) Unit × Scan :=
  let start := Scan.start settings
  (Scan.run? sources.load (sources.limit + settings.entries.length) start).getD (.error [], start)

end Sources

end ScriptBundler
