import ScriptBundler.BuildError

namespace ScriptBundler

inductive ExportTarget where
  | localName (name : String)
  | defaultExpression
  | reexport (url : String) (name : String)
  | star (url : String)
  deriving DecidableEq, Repr, Inhabited

structure Binding where
  target : ExportTarget
  isMutable : Bool := false
  deriving DecidableEq, Repr, Inhabited

abbrev ExportMap := List (String × Binding)

namespace ExportMap

def insert (name : String) (binding : Binding) : ExportMap → ExportMap
  | [] => [(name, binding)]
  | (n, b) :: rest =>
    if n = name then (n, binding) :: rest else (n, b) :: insert name binding rest

end ExportMap

inductive ModuleState where
  | pending
  | loaded
  | notNeeded
  deriving DecidableEq, Repr, Inhabited

/-- What a build writes down about a module on its way. -/
structure ModuleInfo where
  state : ModuleState := .pending
  emitted : Bool := false
  exports : ExportMap := []
  deriving DecidableEq, Repr, Inhabited

structure ModuleNode extends ModuleInfo where
  idx : Nat
  url : String
  requires : List Nat := []
  requiredBy : List Nat := []
  deriving DecidableEq, Repr, Inhabited

/-- The nodes in the order of their creation, where to find the node of a url, and the nodes that
were not handed out yet. -/
structure Arena where
  nodes : List ModuleNode := []
  visited : List (String × Nat) := []
  queue : List Nat := []
  deriving DecidableEq, Repr, Inhabited

def insertLast {α : Type} [DecidableEq α] (a : α) (s : List α) : List α :=
  if a ∈ s then s else s ++ [a]

namespace Arena

def empty : Arena := {}

def size (a : Arena) : Nat := a.nodes.length

def get? (a : Arena) (url : String) : Option Nat := a.visited.lookup url

def create (a : Arena) (url : String) : Arena where
  nodes := a.nodes ++ [{ idx := a.size, url := url }]
  visited := (url, a.size) :: a.visited
  queue := a.queue ++ [a.size]

def getOrCreate (a : Arena) (url : String) : Nat × Arena :=
  match a.get? url with
  | some i => (i, a)
  | none => (a.size, a.create url)

def nextPending (a : Arena) : Option Nat × Arena :=
  (a.queue.head?, { a with queue := a.queue.tail })

def modify (a : Arena) (i : Nat) (f : ModuleNode → ModuleNode) : Arena :=
  { a with nodes := a.nodes.modify i f }

def update (a : Arena) (i : Nat) (f : ModuleInfo → ModuleInfo) : Arena :=
  a.modify i fun n => { n with toModuleInfo := f n.toModuleInfo }

def urlAt (a : Arena) (i : Nat) : String := ((a.nodes[i]?).map (·.url)).getD ""

def requires (a : Arena) (i : Nat) : List Nat := ((a.nodes[i]?).map (·.requires)).getD []

def requiredBy (a : Arena) (i : Nat) : List Nat := ((a.nodes[i]?).map (·.requiredBy)).getD []

def isEmitted (a : Arena) (i : Nat) : Bool := ((a.nodes[i]?).map (·.emitted)).getD false

/-- A search under way: each node that was seen, save for the first one, has a parent. -/
structure Search where
  seen : List Nat
  parents : List (Nat × Nat)
  stack : List Nat

def Search.push (s : Search) (parent i : Nat) : Search :=
  ⟨i :: s.seen, (i, parent) :: s.parents, i :: s.stack⟩

def visit (target i : Nat) : List Nat → Search → List (Nat × Nat) ⊕ Search
  | [], s => .inr s
  | dep :: deps, s =>
    if dep ∈ s.seen then visit target i deps s
    else if dep = target then .inl ((dep, i) :: s.parents)
    else visit target i deps (s.push i dep)

def search (a : Arena) (target : Nat) : Nat → Search → Option (List (Nat × Nat))
  | 0, _ => none
  | n + 1, s =>
    match s.stack with
    | [] => none
    | i :: stack =>
      match visit target i (a.requires i).reverse { s with stack := stack } with
      | .inl parents => some parents
      | .inr s => search a target n s

def ancestry (parents : List (Nat × Nat)) : Nat → Nat → List Nat
  | 0, i => [i]
  | n + 1, i =>
    match parents.lookup i with
    | some parent => i :: ancestry parents n parent
    | none => [i]

def findPath (a : Arena) (start target : Nat) : Option (List Nat) :=
  if start = target then some [start]
  else (a.search target (a.size + 2) ⟨[start], [], [start]⟩).map fun parents =>
    (ancestry parents parents.length target).reverse

def link (a : Arena) (origin target : Nat) : Arena :=
  (a.modify origin fun n => { n with requires := insertLast target n.requires }).modify target
    fun n => { n with requiredBy := insertLast origin n.requiredBy }

def addEdge (a : Arena) (origin target : Nat) : Except BuildError Bool × Arena :=
  if target ∈ a.requires origin then (.ok false, a)
  else match a.findPath target origin with
    | some path => (.error (.circularImport ((origin :: path).map a.urlAt)), a)
    | none => (.ok true, a.link origin target)

inductive Task where
  | enter (i : Nat)
  | leave (i : Nat)
  deriving DecidableEq, Repr

def emit (a : Arena) (i : Nat) : Arena := a.update i fun m => { m with emitted := true }

def run : Nat → Arena → List Nat → List Task → List Nat × Arena
  | 0, a, _, _ => ([], a)
  | _ + 1, a, _, [] => ([], a)
  | n + 1, a, entered, .enter i :: tasks =>
    if a.isEmitted i || i ∈ entered then run n a entered tasks
    else run n a (i :: entered) ((a.requires i).map .enter ++ .leave i :: tasks)
  | n + 1, a, entered, .leave i :: tasks =>
    let (rest, a') := run n (a.emit i) entered tasks
    (i :: rest, a')

def edgeCount (a : Arena) : Nat := (a.nodes.flatMap (·.requires)).length

def emitOrder (a : Arena) (entries : List Nat) : List Nat × Arena :=
  run (entries.length + 2 * a.size + a.edgeCount + 1) a [] (entries.map .enter)

end Arena

end ScriptBundler
