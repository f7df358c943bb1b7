import ScriptBundler.Bundle
import ScriptBundler.Command.Arguments
import ScriptBundler.Options.Reader

namespace ScriptBundler.Command

/-- What a run of the command leaves behind, the files it wrote apart. -/
structure Outcome where
  exitCode : Nat
  stdout : String := ""
  stderr : List String := []
  log : List LogMessage := []
  deriving Inhabited

def styled (style text : String) : String := "\x1b[" ++ style ++ "m" ++ text ++ "\x1b[0m"

def red (text : String) : String := styled "31" text

def green (text : String) : String := styled "32" text

def yellow (text : String) : String := styled "33" text

def cyan (text : String) : String := styled "36" text

def dim (text : String) : String := styled "2;37" text

def errorLine (message : String) : String := red "Error:" ++ " " ++ message

/-- A quotient as the nearest whole number; a half goes to the even neighbour. -/
def roundedQuotient (n d : Nat) : Nat :=
  let q := n / d
  let r := n % d
  if 2 * r > d || (2 * r = d && q % 2 = 1) then q + 1 else q

def kilobytes (bytes : Nat) : String :=
  let hundredths := roundedQuotient (100 * bytes) 1024
  let decimals := toString (hundredths % 100)
  toString (hundredths / 100) ++ "." ++ (if decimals.length < 2 then "0" ++ decimals else decimals)

def versionText : String := "stitch_cli 0.1.0\n"

def helpText : String :=
  "\n".intercalate
    ["stitch_cli",
      "",
      "Usage: stitch [OPTIONS] [ENTRIES]...",
      "",
      "Arguments:",
      "  [ENTRIES]...  Entry files, relative to \x60--base\x60",
      "",
      "Options:",
      "      --input <INPUT>        ",
      "      --cwd <CWD>            ",
      "      --root <ROOT>          Directory served as \x60/\x60. Defaults to \x60--cwd\x60",
      "      --base <BASE>          ",
      "      --external <EXTERNAL>  Url prefix left to the runtime. Repeatable",
      "  -c, --config <CONFIG>      JSON file with bundler options. Flags take precedence",
      "  -o, --file <FILE>          Without it the bundle is printed to stdout",
      "      --loader <LOADER>      [possible values: eager, lazy]",
      "      --bare                 Skip export publication",
      "  -v, --verbose...           ",
      "  -h, --help                 Print help",
      "  -V, --version              Print version",
      ""]

def readConfig (path : String) : Except String String → Except String Options
  | .error cause => .error ("Failed to read " ++ path ++ ": " ++ cause)
  | .ok content =>
    (Options.parse content).mapError fun message => "Invalid config " ++ path ++ ": " ++ message

def visible (verbosity : Nat) (log : List LogMessage) : List LogMessage :=
  log.filter fun m => m.level.depth ≤ verbosity + 1

def bundleLines (b : Bundle) : List String :=
  b.warnings.map (yellow "Warning:" ++ " " ++ ·) ++
    b.modules.map (fun url => dim "module │" ++ " " ++ cyan url) ++
    [dim "bundle │ size: " ++ kilobytes b.code.utf8ByteSize ++ " kB", "", green "✔"]

def report (verbosity : Nat) (settings : Settings) (b : Build) : Outcome :=
  let log := visible verbosity b.log
  match b.result with
  | .error es => { exitCode := 1, stderr := es.map (errorLine ·.message), log := log }
  | .ok bundle =>
    { exitCode := 0, stdout := if settings.file.isNone then bundle.code else ""
      stderr := bundleLines bundle, log := log }

def build (settings : Settings) (disk : Disk) : Build × Disk :=
  if settings.file.isSome then Build.write settings disk
  else (Build.bundle settings (.ofDisk settings.root disk), disk)

def Arguments.configuration (a : Arguments) (disk : Disk) : Except String Options :=
  match a.config with
  | none => .ok {}
  | some path => readConfig path ((disk.read path).mapError DiskError.message)

def run (directory : String) (arguments : List String) (disk : Disk) : Outcome × Disk :=
  match Arguments.parse arguments with
  | none => ({ exitCode := 2 }, disk)
  | some .help => ({ exitCode := 0, stdout := helpText }, disk)
  | some .version => ({ exitCode := 0, stdout := versionText }, disk)
  | some (.build a) =>
    match a.configuration disk with
    | .error message => ({ exitCode := 1, stderr := [errorLine message] }, disk)
    | .ok config =>
      let settings := (a.options config).normalize directory
      let (b, after) := build settings disk
      (report a.verbosity settings b, after)

end ScriptBundler.Command
