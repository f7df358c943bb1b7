
namespace ScriptBundler

inductive LogLevel where
  | warn
  | info
  | debug
  | trace
  deriving DecidableEq, Repr, Inhabited

namespace LogLevel

def name : LogLevel → String
  | .warn => "WARN"
  | .info => "INFO"
  | .debug => "DEBUG"
  | .trace => "TRACE"

/-- How far down the scale a level stands. -/
def depth : LogLevel → Nat
  | .warn => 1
  | .info => 2
  | .debug => 3
  | .trace => 4

end LogLevel

structure LogMessage where
  level : LogLevel
  text : String
  deriving DecidableEq, Repr, Inhabited

def LogMessage.line (m : LogMessage) : String :=
  m.level.name ++ " " ++ m.text

end ScriptBundler
