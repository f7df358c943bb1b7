import ScriptBundler.Proofs.Graph.Linking
import ScriptBundler.Thunk.Links

namespace ScriptBundler.Graph

open Relation

variable {g : Graph} {origin url : String}

def Reached (past : Arena.History) (g : Graph) : Prop := Arena.Reached past g.arena

/-- The chain of urls that a refused edge from `origin` to `url` is answered with. -/
structure ClosesCycle (g : Graph) (origin url : String) (chain : List String) : Prop where
  starts : ∃ rest, chain = origin :: url :: rest
  ends : chain.getLast? = some origin
  edges : chain.tail.IsChain g.Requires
  once : chain.tail.Nodup
  own : origin = url → chain = [origin, origin]

theorem closesCycle_of_isPath {path : List String} (h : IsPath g.Requires url origin path) :
    ClosesCycle g origin url (origin :: path) := by
  obtain ⟨rest, rfl⟩ : ∃ rest, path = url :: rest := by
    cases path with
    | nil => cases h.head
    | cons u rest => exact ⟨rest, by rw [Option.some.inj h.head]⟩
  constructor
  · exact ⟨rest, rfl⟩
  · rw [List.getLast?_cons_cons]
    exact h.last
  · exact h.chain
  · exact h.nodup
  · rintro rfl
    -- a path from a url to itself that comes to no url twice has not left it
    cases rest with
    | nil => rfl
    | cons v rest =>
      have hlast : origin ∈ v :: rest := by
        apply List.mem_of_getLast?
        rw [← List.getLast?_cons_cons]
        exact h.last
      exact absurd hlast (List.nodup_cons.1 h.nodup).1

structure DecidesEdge (g : Graph) (origin url : String) : Prop where
  known_iff : (g.addEdge origin url).1 = .ok false ↔ g.Requires origin url
  refused_iff : (∃ e, (g.addEdge origin url).1 = .error e) ↔
    ¬ g.Requires origin url ∧ ReflTransGen g.Requires url origin
  added_iff : (g.addEdge origin url).1 = .ok true ↔
    ¬ g.Requires origin url ∧ ¬ ReflTransGen g.Requires url origin
  recorded : (g.addEdge origin url).1 = .ok true →
    (g.addEdge origin url).2.modules = g.modules.map (.withEdge origin url) ∧
      (g.addEdge origin url).2.arena.visited = g.arena.visited ∧
      (g.addEdge origin url).2.arena.queue = g.arena.queue
  appended : (g.addEdge origin url).1 = .ok true →
    (g.addEdge origin url).2.requires origin = g.requires origin ++ [url] ∧
      (g.addEdge origin url).2.requiredBy url = g.requiredBy url ++ [origin]
  chain : ∀ e, (g.addEdge origin url).1 = .error e →
    ∃ chain, e = .circularImport chain ∧ ClosesCycle g origin url chain
  unchanged : (g.addEdge origin url).1 ≠ .ok true → (g.addEdge origin url).2 = g

theorem decidesEdge (ho : origin ∈ g.urls) (hu : url ∈ g.urls) : DecidesEdge g origin url := by
  rcases addEdge_cases ho hu with ⟨hq, h⟩ | ⟨hn, path, hp, h⟩ | ⟨hn, hr, h⟩
  · constructor <;> simp [h, hq]
  · have hr := hp.reaches
    constructor
    · simp [h, hn]
    · simp [h, hn, hr]
    · simp [h, hr]
    · simp [h]
    · simp [h]
    · intro e he
      rw [h] at he
      exact ⟨_, (Except.error.inj he).symm, closesCycle_of_isPath hp⟩
    · simp [h]
  · constructor
    · simp [h, hn]
    · simp [h, hr]
    · simp [h, hn, hr]
    · intro _
      rw [h]
      exact ⟨modules_join ho hu hn, visited_join g origin url, queue_join g origin url⟩
    · intro _
      rw [h, requires_join ho hu hn, requiredBy_join ho hu hn, if_pos rfl, if_pos rfl]
      exact ⟨rfl, rfl⟩
    · simp [h]
    · simp [h]

theorem require_error (ho : origin ∈ g.urls) {log : List LogMessage} {specifier : String}
    {e : BuildError} {links : Links}
    (h : (Links.mk g log).require origin specifier = (.error e, links)) : links = ⟨g, log⟩ := by
  have hcases := addEdge_cases (g := g.add (Url.resolve origin specifier))
    (mem_urls_add.2 (.inl ho)) (mem_urls_add.2 (.inr rfl))
  rw [requires_rel_add] at hcases
  simp only [Links.require] at h
  rcases hcases with ⟨-, ha⟩ | ⟨-, path, hp, ha⟩ | ⟨-, -, ha⟩
  · rw [ha] at h
    cases h
  · rw [ha, add_of_mem (mem_urls_of_reaches hp.reaches ho)] at h
    exact (Prod.mk.inj h).2.symm
  · rw [ha] at h
    cases h

/-- A graph decides on every edge between its modules by what its requirements reach, and is left
as it is by what it refuses: an edge, or a specifier. -/
theorem addEdge_decides (ho : origin ∈ g.urls) (hu : url ∈ g.urls) :
    DecidesEdge g origin url ∧
      ∀ log specifier e links, (Links.mk g log).require origin specifier = (.error e, links) →
        links = ⟨g, log⟩ := by
  constructor
  · exact decidesEdge ho hu
  · intro log specifier e links hrequire
    exact require_error ho hrequire

def row : Graph :=
  let g := ((empty.add "/a.js").add "/b.js").add "/c.js"
  ((g.addEdge "/a.js" "/b.js").2.addEdge "/b.js" "/c.js").2

/-- Three modules in a row, the last of which must not require the first. -/
theorem decides_on_three : ∃ past g, Reached past g ∧ "/c.js" ∈ g.urls ∧ "/a.js" ∈ g.urls ∧
    (∃ e, (g.addEdge "/c.js" "/a.js").1 = .error e) ∧
    DecidesEdge g "/c.js" "/a.js" ∧
    ∀ log specifier e links, (Links.mk g log).require "/c.js" specifier = (.error e, links) →
      links = ⟨g, log⟩ := by
  have h := ((((Arena.Reached.empty.use (.getOrCreate "/a.js") trivial).use
    (.getOrCreate "/b.js") trivial).use (.getOrCreate "/c.js") trivial).use (.addEdge 0 1)
      (by decide)).use (.addEdge 1 2) (by decide)
  exact ⟨_, row, h, by decide, by decide, ⟨_, rfl⟩, addEdge_decides (by decide) (by decide)⟩

end ScriptBundler.Graph
