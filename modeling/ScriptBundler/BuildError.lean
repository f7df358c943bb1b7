
namespace ScriptBundler

inductive BuildError where
  | circularImport (chain : List String)
  | moduleNotFound (url : String)
  | parseError (url : String)
  | topLevelAwait (url : String)
  | other (message : String)
  deriving DecidableEq, Repr, Inhabited

namespace BuildError

/-- The report; of a parse error only its first line. -/
def message : BuildError → String
  | .circularImport chain => "Circular import: " ++ " -> ".intercalate chain
  | .moduleNotFound url => "Module not found: " ++ url
  | .parseError url => "Failed to parse " ++ url ++ ":"
  | .topLevelAwait url => "Top-level await in " ++ url ++ " requires the lazy loader"
  | .other message => message

def isNamed : BuildError → Bool
  | .other _ => false
  | _ => true

end BuildError

end ScriptBundler
