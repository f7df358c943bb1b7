import ScriptBundler.Command

namespace ScriptBundler.Main

def cause : IO.Error → String
  | .noFileOrDirectory _ code details => system code details
  | .inappropriateType _ code details => system code details
  | .alreadyExists _ code details => system code details
  | .permissionDenied _ code details => system code details
  | .invalidArgument _ code details => system code details
  | .resourceExhausted _ code details => system code details
  | .otherError code details => system code details
  | e => toString e
where
  system (code : UInt32) (details : String) : String :=
    details ++ " (os error " ++ toString code ++ ")"

def read (path : String) : IO (Except ReadFailure String) := do
  try
    return .ok (← IO.FS.readFile path)
  catch e =>
    match e with
    | .noFileOrDirectory _ _ _ => return .error .missing
    | e => return .error (.cause (cause e))

/-- Writes a file, and makes the directories that lead to it. -/
def write (path content : String) : IO (Except String Unit) := do
  try
    let parent := Url.dirname path
    if parent ≠ "" then IO.FS.createDirAll parent
    IO.FS.writeFile path content
    return .ok ()
  catch e => return .error (cause e)

partial def scan (s : Scan) : IO (Except (List BuildError) Unit × Scan) := do
  match s.next? with
  | none => return (.ok (), s)
  | some (url, s) =>
    let path := Url.toPath s.settings.root url
    let outcome ← if s.settings.isExternal url then pure (Except.ok LoadOutcome.notNeeded)
      else LoadOutcome.ofRead url path <$> read path
    match outcome with
    | .error e => return (.error [e], s)
    | .ok .notNeeded => scan (s.leave url)
    | .ok (.loaded source) =>
      match s.accept url source with
      | (.error es, s) => return (.error es, s)
      | (.ok (), s) => scan s

/-- Builds, and writes the bundle if the settings name a file. -/
def build (settings : Settings) : IO Build := do
  let b := Build.ofScan (← scan (Scan.start settings))
  match settings.file, Build.target settings, b.result with
  | some _, .ok path, .ok bundle => return b.written path (← write path bundle.code)
  | _, _, _ => return b

def configuration (a : Command.Arguments) : IO (Except String Options) := do
  match a.config with
  | none => return .ok {}
  | some path =>
    let content := (← read path).mapError fun failure => match failure with
      | .missing => DiskError.notFound.message
      | .cause text => text
    return Command.readConfig path content

def print (o : Command.Outcome) (finished : String) : IO UInt32 := do
  for m in o.log do
    IO.eprintln ("[" ++ m.level.name ++ "] " ++ m.text)
  IO.print o.stdout
  unless o.stderr.isEmpty do
    IO.eprintln ("\n".intercalate o.stderr ++ finished)
  return o.exitCode.toUInt32

def run (arguments : List String) : IO UInt32 := do
  match Command.Arguments.parse arguments with
  | none =>
    IO.eprintln Command.helpText
    return 2
  | some .help => print { exitCode := 0, stdout := Command.helpText } ""
  | some .version => print { exitCode := 0, stdout := Command.versionText } ""
  | some (.build a) =>
    match ← configuration a with
    | .error message => print { exitCode := 1, stderr := [Command.errorLine message] } ""
    | .ok config =>
      let settings := (a.options config).normalize (toString (← IO.currentDir))
      let before ← IO.monoMsNow
      let b ← build settings
      let elapsed := toString ((← IO.monoMsNow) - before) ++ " ms"
      let finished := if b.result.isOk then " Finished in " ++ Command.styled "1;37" elapsed else ""
      print (Command.report a.verbosity settings b) finished

end ScriptBundler.Main

def main (arguments : List String) : IO UInt32 := ScriptBundler.Main.run arguments
