import ScriptBundler.Graph.WellFormed

namespace ScriptBundler

structure Module extends ModuleInfo where
  url : String
  requires : List String := []
  requiredBy : List String := []
  deriving DecidableEq, Repr, Inhabited

def Arena.moduleOf (a : Arena) (n : ModuleNode) : Module :=
  { n.toModuleInfo with
    url := n.url
    requires := n.requires.map a.urlAt
    requiredBy := n.requiredBy.map a.urlAt }

/-- The graph of modules of one run. A module is known by its url, joins the graph once, and is
handed out once, in the order of joining. -/
structure Graph where
  arena : Arena
  wellFormed : arena.WellFormed
  deriving DecidableEq, Repr

namespace Graph

def empty : Graph := ⟨.empty, .empty⟩

instance : Inhabited Graph := ⟨empty⟩

def size (g : Graph) : Nat := g.arena.size

def modules (g : Graph) : List Module := g.arena.nodes.map g.arena.moduleOf

def urls (g : Graph) : List String := g.arena.nodes.map (·.url)

def taken (g : Graph) : Nat := g.size - g.arena.queue.length

def find? (g : Graph) (url : String) : Option Module :=
  (g.arena.get? url).bind (g.modules[·]?)

def add (g : Graph) (url : String) : Graph :=
  ⟨(g.arena.getOrCreate url).2, g.wellFormed.getOrCreate url⟩

def pop (g : Graph) : Graph := ⟨g.arena.nextPending.2, g.wellFormed.nextPending⟩

def next (g : Graph) : Option (Module × Graph) :=
  (g.arena.nextPending.1.bind (g.modules[·]?)).map fun m => (m, g.pop)

def update (g : Graph) (url : String) (f : ModuleInfo → ModuleInfo) : Graph :=
  match g.arena.get? url with
  | some i => ⟨g.arena.update i f, g.wellFormed.update i f⟩
  | none => g

def setState (g : Graph) (url : String) (state : ModuleState) : Graph :=
  g.update url fun m => { m with state := state }

def addExport (g : Graph) (url name : String) (binding : Binding) : Graph :=
  g.update url fun m => { m with exports := m.exports.insert name binding }

def requires (g : Graph) (url : String) : List String :=
  ((g.find? url).map (·.requires)).getD []

def requiredBy (g : Graph) (url : String) : List String :=
  ((g.find? url).map (·.requiredBy)).getD []

def isEmitted (g : Graph) (url : String) : Bool :=
  ((g.find? url).map (·.emitted)).getD false

def index? (g : Graph) (url : String) : Option (Fin g.arena.size) :=
  (g.arena.get? url).pmap Fin.mk fun _ => g.wellFormed.lt_size_of_get?

/-- Records that `origin` requires `url`, both of them known. The answer says whether the edge is
new; a requirement that leads back to `origin` is refused. -/
def addEdge (g : Graph) (origin url : String) : Except BuildError Bool × Graph :=
  match g.index? origin, g.index? url with
  | some i, some j =>
    ((g.arena.addEdge i j).1, ⟨(g.arena.addEdge i j).2, g.wellFormed.addEdge i.2 j.2⟩)
  | _, _ => (.ok false, g)

def emitOrder (g : Graph) (entries : List String) : List String × Graph :=
  let r := g.arena.emitOrder (entries.filterMap g.arena.get?)
  (r.1.map g.arena.urlAt, ⟨r.2, g.wellFormed.emitOrder _⟩)

end Graph

end ScriptBundler
