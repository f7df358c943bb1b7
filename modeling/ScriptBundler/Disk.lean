import ScriptBundler.Url

namespace ScriptBundler

/-- Why the operating system refuses an operation. -/
inductive DiskError where
  | notFound
  | alreadyExists
  | notDirectory
  | isDirectory
  | nameTooLong
  | nulByte
  deriving DecidableEq, Repr, Inhabited

namespace DiskError

def message : DiskError → String
  | .notFound => "No such file or directory (os error 2)"
  | .alreadyExists => "File exists (os error 17)"
  | .notDirectory => "Not a directory (os error 20)"
  | .isDirectory => "Is a directory (os error 21)"
  | .nameTooLong => "File name too long (os error 36)"
  | .nulByte => "file name contained an unexpected NUL byte"

end DiskError

/-- Directories and files are known by the names that lead to them from the root. -/
structure Disk where
  files : List (List String × String) := []
  directories : List (List String) := []
  workingDirectory : List String := []
  deriving DecidableEq, Repr, Inhabited

namespace Disk

def segments (path : String) : List String :=
  (Url.segments path.toList).map String.ofList

def maxName : Nat := 255

def maxPath : Nat := 4095

def content? (d : Disk) (place : List String) : Option String := d.files.lookup place

def isFile (d : Disk) (place : List String) : Bool := (d.content? place).isSome

def isDirectory (d : Disk) (place : List String) : Bool :=
  place.isPrefixOf d.workingDirectory || d.directories.any place.isPrefixOf ||
    d.files.any fun (file, _) => place ≠ file && place.isPrefixOf file

def origin (d : Disk) (path : String) : List String :=
  if Url.isAbsolute path then [] else d.workingDirectory

def enter (place : List String) (segment : String) : Except DiskError (List String) :=
  if segment = "" || segment = "." then .ok place
  else if segment = ".." then .ok place.dropLast
  else if segment.utf8ByteSize > maxName then .error .nameTooLong
  else .ok (place ++ [segment])

def walk (d : Disk) : List String → List String → Except DiskError (List String)
  | place, [] => .ok place
  | place, s :: ss =>
    if d.isDirectory place then do d.walk (← enter place s) ss
    else .error (if d.isFile place then .notDirectory else .notFound)

def checkPath (path : String) : Except DiskError Unit :=
  if path.toList.contains '\x00' then .error .nulByte
  else if path = "" then .error .notFound
  else if path.utf8ByteSize > maxPath then .error .nameTooLong
  else .ok ()

def read (d : Disk) (path : String) : Except DiskError String := do
  checkPath path
  let place ← d.walk (d.origin path) (segments path)
  match d.content? place with
  | some content => return content
  | none => throw (if d.isDirectory place then .isDirectory else .notFound)

def addDirectory (d : Disk) (place : List String) : Disk :=
  if d.isDirectory place then d else { d with directories := place :: d.directories }

def makeDirectories : Disk → List String → List String → Except DiskError Disk
  | d, place, [] => if d.isFile place then .error .alreadyExists else .ok (d.addDirectory place)
  | d, place, s :: ss =>
    if d.isFile place then .error .notDirectory
    else do (d.addDirectory place).makeDirectories (← enter place s) ss

def setFile (d : Disk) (place : List String) (name content : String) : Except DiskError Disk := do
  if !d.isDirectory place then throw (if d.isFile place then .notDirectory else .notFound)
  if name = "" || name = "." || name = ".." then throw .isDirectory
  let file ← enter place name
  if d.isDirectory file then throw .isDirectory
  return { d with files := (file, content) :: d.files.filter (·.1 ≠ file) }

def write (d : Disk) (path content : String) : Except DiskError Disk := do
  let all := segments path
  let named := all.filter fun s => s ≠ "" && s ≠ "."
  if path.toList.contains '\x00' then throw .nulByte
  let d ← if named.isEmpty then pure d else d.makeDirectories (d.origin path) named.dropLast
  checkPath path
  d.setFile (← d.walk (d.origin path) all.dropLast) (all.getLast?.getD "") content

end Disk

end ScriptBundler
