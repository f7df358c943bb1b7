import ScriptBundler.Text.Utf8
import ScriptBundler.Url

namespace ScriptBundler

structure Files where
  entries : List (String × String) := []
  deriving DecidableEq, Repr, Inhabited

namespace Files

def insert (files : Files) (path content : String) : Files :=
  let path := Url.normalize path
  ⟨(path, content) :: files.entries.filter (·.1 ≠ path)⟩

/-- Files given by paths of any form; of two for one path the later one stays. -/
def ofList (files : List (String × String)) : Files :=
  files.foldl (fun fs (path, content) => fs.insert path content) {}

def read? (files : Files) (path : String) : Option String :=
  files.entries.lookup (Url.normalize path)

def write (files : Files) (path : String) (bytes : List Nat) : Except Text.Utf8.Fault Files :=
  files.insert path <$> Text.Utf8.decode bytes

def missingMessage (path : String) : String := path ++ " does not exist"

end Files

end ScriptBundler
