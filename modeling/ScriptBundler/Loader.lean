import ScriptBundler.Loader.Eager
import ScriptBundler.Loader.Lazy
import ScriptBundler.Options.Basic

namespace ScriptBundler.Loader

/--
The statements of the bundle and its warnings, given the modules in the order in which they run,
and the urls that the bundle leaves to the runtime.
-/
def assemble (strategy : LoaderStrategy) (thunks : List Thunk) (notNeeded : List String) :
    List Stmt × List String :=
  match strategy with
  | .eager => Eager.assemble thunks notNeeded
  | .lazy => (Lazy.assemble thunks, [])

end ScriptBundler.Loader
