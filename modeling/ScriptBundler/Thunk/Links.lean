import ScriptBundler.Graph
import ScriptBundler.Log
import ScriptBundler.Url

namespace ScriptBundler

structure Links where
  graph : Graph
  log : List LogMessage := []
  deriving Inhabited

namespace Links

def write (l : Links) (level : LogLevel) (text : String) : Links :=
  { l with log := l.log ++ [⟨level, text⟩] }

/--
The url that `specifier` names in the module at `origin`, which now requires it. Naming a module
twice is fine; a requirement that leads back to `origin` is not.
-/
def require (l : Links) (origin specifier : String) : Except BuildError String × Links :=
  let url := Url.resolve origin specifier
  let answer := (l.graph.add url).addEdge origin url
  let linked := { l with graph := answer.2 }
  match answer.1 with
  | .error e => (.error e, linked)
  | .ok isNew =>
    (.ok url, if isNew then linked.write .trace (origin ++ " requires " ++ url) else linked)

end Links

end ScriptBundler
