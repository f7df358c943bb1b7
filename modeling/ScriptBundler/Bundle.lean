import ScriptBundler.Loader
import ScriptBundler.Sources
import ScriptBundler.Syntax.Printer

namespace ScriptBundler

structure Bundle where
  statements : List Stmt
  modules : List String
  warnings : List String
  deriving Inhabited

def Bundle.code (b : Bundle) : String := Program.print { body := b.statements }

namespace Scan

/-- The modules of a finished scan, in the order in which they run. -/
def thunks (s : Scan) : List Loader.Thunk :=
  (s.graph.emitOrder s.settings.entries).1.filterMap fun url =>
    (s.bodies.lookup url).map (⟨url, ·⟩)

def notNeeded (s : Scan) : List String :=
  (s.graph.modules.filter (·.state = .notNeeded)).map (·.url)

def toBundle (s : Scan) : Bundle :=
  let thunks := s.thunks
  let (statements, warnings) := Loader.assemble s.settings.loader thunks s.notNeeded
  ⟨statements, thunks.map (·.url), warnings⟩

def finish (s : Scan) : Bundle × List LogMessage :=
  let bundle := s.toBundle
  let count := toString bundle.modules.length
  let s := bundle.warnings.foldl (fun s w => s.write .warn w) s
  let s := s.write .debug
    ("Assembled " ++ count ++ " modules with the " ++ s.settings.loader.title ++ " loader")
  let size := toString bundle.code.utf8ByteSize
  let s := s.write .debug ("Bundled " ++ count ++ " modules into " ++ size ++ " bytes")
  (bundle, s.links.log)

end Scan

/-- What a build comes to, with all that was logged on the way. -/
structure Build where
  result : Except (List BuildError) Bundle
  log : List LogMessage := []

namespace Build

def ofScan : Except (List BuildError) Unit × Scan → Build
  | (.error es, s) => ⟨.error es, s.links.log⟩
  | (.ok (), s) =>
    let (bundle, log) := s.finish
    ⟨.ok bundle, log⟩

def bundle (settings : Settings) (sources : Sources) : Build :=
  ofScan (sources.scan settings)

def target (settings : Settings) : Except BuildError String :=
  match settings.file with
  | some file => .ok (Url.joinPath settings.cwd file)
  | none => .error (.other "\x60file\x60 must be set to write the bundle")

def written (b : Build) (path : String) : Except String Unit → Build
  | .ok () => { b with log := b.log ++ [⟨.debug, "Wrote " ++ path⟩] }
  | .error cause =>
    { b with result := .error [.other ("Failed to write " ++ path ++ ": " ++ cause)] }

def write (settings : Settings) (disk : Disk) : Build × Disk :=
  match target settings with
  | .error e => (⟨.error [e], []⟩, disk)
  | .ok path =>
    let b := bundle settings (.ofDisk settings.root disk)
    match b.result with
    | .error _ => (b, disk)
    | .ok finished =>
      match disk.write path finished.code with
      | .ok disk' => (b.written path (.ok ()), disk')
      | .error e => (b.written path (.error e.message), disk)

end Build

end ScriptBundler
