
namespace ScriptBundler.Url

def isAbsolute (specifier : String) : Bool :=
  specifier.toList.head? = some '/'

def dirChars (cs : List Char) : List Char :=
  (cs.reverse.dropWhile (· ≠ '/')).reverse

def dirname (url : String) : String :=
  String.ofList (dirChars url.toList)

def segments : List Char → List (List Char)
  | [] => [[]]
  | c :: cs =>
    if c = '/' then [] :: segments cs
    else match segments cs with
      | [] => [[c]]
      | s :: ss => (c :: s) :: ss

/--
Takes one more segment into a path, kept as its segments in reverse. A `..` removes the segment
before it; at the root it is dropped, and at the start of a relative path it stays.
-/
def step (rooted : Bool) (path : List (List Char)) (segment : List Char) : List (List Char) :=
  if segment = [] || segment = ['.'] then path
  else if segment = ['.', '.'] then
    match path with
    | [] => if rooted then [] else [segment]
    | last :: rest => if last = ['.', '.'] then segment :: path else rest
  else segment :: path

def joined : List (List Char) → List Char
  | [] => []
  | [s] => s
  | s :: ss => s ++ '/' :: joined ss

def normalChars (cs : List Char) : List Char :=
  let rooted := cs.head? = some '/'
  let path := ((segments cs).foldl (step rooted) []).reverse
  if rooted then '/' :: joined path
  else if path = [] then ['.']
  else joined path

def normalize (path : String) : String :=
  String.ofList (normalChars path.toList)

def withSlashes (cs : List Char) : List Char :=
  cs.map fun c => if c = '\\' then '/' else c

def resolve (base specifier : String) : String :=
  if isAbsolute specifier then specifier
  else String.ofList (withSlashes (normalChars (dirChars base.toList ++ specifier.toList)))

def trimEnd (cs : List Char) : List Char :=
  (cs.reverse.dropWhile (· = '/')).reverse

def resolveEntry (base entry : String) : String :=
  resolve (String.ofList (trimEnd base.toList ++ ['/'])) entry

/-- One path read against another; an absolute one stands alone. -/
def joinPath (base path : String) : String :=
  if isAbsolute path || base = "" then path
  else if base.toList.getLast? = some '/' then base ++ path
  else base ++ "/" ++ path

end ScriptBundler.Url
