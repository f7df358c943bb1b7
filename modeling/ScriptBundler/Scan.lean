import ScriptBundler.Options.Basic
import ScriptBundler.Syntax.Parser
import ScriptBundler.Thunk

namespace ScriptBundler

/-- What a loader answers for a url. -/
inductive LoadOutcome where
  | loaded (source : String)
  | notNeeded
  deriving DecidableEq, Repr, Inhabited

abbrev ModuleLoader := String → Except BuildError LoadOutcome

namespace Settings

def style (s : Settings) : Thunk.Style := ⟨s.loader, s.bare⟩

def entries (s : Settings) : List String :=
  distinct (s.input.map (Url.resolveEntry s.base))

end Settings

structure Scan where
  settings : Settings
  links : Links
  bodies : List (String × List Stmt) := []
  deriving Inhabited

namespace Scan

def start (settings : Settings) : Scan :=
  { settings := settings, links := { graph := settings.entries.foldl Graph.add Graph.empty } }

def graph (s : Scan) : Graph := s.links.graph

def pending (s : Scan) : Nat := s.graph.arena.queue.length

def next? (s : Scan) : Option (String × Scan) :=
  s.graph.next.map fun (m, g) => (m.url, { s with links := { s.links with graph := g } })

def write (s : Scan) (level : LogLevel) (text : String) : Scan :=
  { s with links := s.links.write level text }

def setState (s : Scan) (url : String) (state : ModuleState) : Scan :=
  { s with links := { s.links with graph := s.graph.setState url state } }

def leave (s : Scan) (url : String) : Scan :=
  let importers := ", ".intercalate (s.graph.requiredBy url)
  (s.write .debug ("Skipped " ++ url ++ " (required by " ++ importers ++
    "), it is left to the runtime")).setState url .notNeeded

def accept (s : Scan) (url source : String) : Except (List BuildError) Unit × Scan :=
  match Program.parse? source with
  | none => (.error [.parseError url], s)
  | some program =>
    match Thunk.ofBody url s.settings.style program.body s.links with
    | (.error es, links) => (.error es, { s with links := links })
    | (.ok body, links) =>
      let s := { s with links := links, bodies := s.bodies ++ [(url, Thunk.compact body)] }
      let size := toString source.utf8ByteSize
      (.ok (),
        (s.setState url .loaded).write .debug ("Loaded " ++ url ++ " (" ++ size ++ " bytes)"))

def ask (s : Scan) (load : ModuleLoader) (url : String) : Except BuildError LoadOutcome :=
  if s.settings.isExternal url then .ok .notNeeded else load url

theorem pending_next? {s s' : Scan} {url : String} (h : s.next? = some (url, s')) :
    s'.pending < s.pending := by
  simp only [next?, Graph.next, Option.map_map, Option.map_eq_some_iff] at h
  obtain ⟨m, hm, he⟩ := h
  simp only [Function.comp, Prod.mk.injEq] at he
  rw [← he.2]
  simp only [pending, graph, Graph.pop, Arena.nextPending] at hm ⊢
  cases hq : s.links.graph.arena.queue with
  | nil =>
    rw [hq] at hm
    cases hm
  | cons i queue => exact Nat.lt_succ_self _

@[simp] theorem pending_leave (s : Scan) (url : String) : (s.leave url).pending = s.pending := by
  simp only [leave, setState, write, pending, graph, Links.write, Graph.setState, Graph.update]
  split <;> rfl

/--
Runs a scan to its end, with at most `limit` modules loaded; if more would have to be, there is no
answer. What was done up to an error is kept.
-/
def run? (load : ModuleLoader) (limit : Nat) (s : Scan) :
    Option (Except (List BuildError) Unit × Scan) :=
  match _h : s.next? with
  | none => some (.ok (), s)
  | some (url, s') =>
    match s'.ask load url with
    | .error e => some (.error [e], s')
    | .ok .notNeeded => run? load limit (s'.leave url)
    | .ok (.loaded source) =>
      match limit with
      | 0 => none
      | n + 1 =>
        match s'.accept url source with
        | (.error es, s'') => some (.error es, s'')
        | (.ok (), s'') => run? load n s''
termination_by (limit, s.pending)
decreasing_by
  · exact Prod.Lex.right _ (by rw [pending_leave]; exact pending_next? ‹_›)
  · exact Prod.Lex.left _ _ (Nat.lt_succ_self n)

end Scan

end ScriptBundler
