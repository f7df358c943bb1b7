import ScriptBundler.Proofs.Graph.Search

namespace ScriptBundler.Arena

open Relation

variable {a a' : Arena} {origin target : Nat}

def Acyclic (a : Arena) : Prop := ∀ i, ¬ TransGen a.Requires i i

theorem addEdge_cases (h : a.WellFormed) (origin target : Nat) :
    (a.Requires origin target ∧ a.addEdge origin target = (.ok false, a)) ∨
    (¬ a.Requires origin target ∧ ∃ path, IsPath a.Requires target origin path ∧
      a.addEdge origin target =
        (.error (.circularImport ((origin :: path).map a.urlAt)), a)) ∨
    (¬ a.Requires origin target ∧ ¬ ReflTransGen a.Requires target origin ∧
      a.addEdge origin target = (.ok true, a.link origin target)) := by
  rw [addEdge]
  by_cases hr : target ∈ a.requires origin
  · rw [if_pos hr]
    exact .inl ⟨hr, rfl⟩
  · rw [if_neg hr]
    right
    have hpath := findPath_spec h.known target origin
    cases hf : a.findPath target origin with
    | some path =>
      rw [hf] at hpath
      exact .inl ⟨hr, path, hpath, rfl⟩
    | none =>
      rw [hf] at hpath
      exact .inr ⟨hr, hpath, rfl⟩

theorem transGen_or_of_pair {α : Type} {r r' : α → α → Prop} {o t a b : α}
    (hr : ∀ x y, r' x y → r x y ∨ x = o ∧ y = t) (h : TransGen r' a b) :
    TransGen r a b ∨ ReflTransGen r a o ∧ ReflTransGen r t b := by
  induction h with
  | single hab =>
    rcases hr _ _ hab with hab | ⟨rfl, rfl⟩
    · exact .inl (.single hab)
    · exact .inr ⟨.refl, .refl⟩
  | tail _ hbc ih =>
    rcases hr _ _ hbc with hbc | ⟨rfl, rfl⟩
    · exact ih.imp (·.tail hbc) fun h => ⟨h.1, h.2.tail hbc⟩
    · exact .inr ⟨ih.elim TransGen.to_reflTransGen And.left, .refl⟩

theorem Acyclic.link (h : a.Acyclic) (ho : origin < a.size)
    (hr : ¬ ReflTransGen a.Requires target origin) : (a.link origin target).Acyclic := by
  intro i hi
  rcases transGen_or_of_pair (fun _ _ => (mem_requires_link ho).1) hi with hi | ⟨hio, hti⟩
  · exact h i hi
  · exact hr (hti.trans hio)

theorem Acyclic.congr (h : a.Acyclic) (hr : ∀ i, a'.requires i = a.requires i) :
    a'.Acyclic := by
  have he : a'.Requires = a.Requires := by
    funext i j
    rw [Requires, hr, Requires]
  intro i
  rw [he]
  exact h i

theorem Acyclic.addEdge (h : a.Acyclic) (hw : a.WellFormed) (ho : origin < a.size) (target : Nat) :
    (a.addEdge origin target).2.Acyclic := by
  rcases addEdge_cases hw origin target with ⟨-, he⟩ | ⟨-, _, -, he⟩ | ⟨-, hr, he⟩
  · rw [he]
    exact h
  · rw [he]
    exact h
  · rw [he]
    exact h.link ho hr

inductive Use where
  | getOrCreate (url : String)
  | nextPending
  | addEdge (origin target : Nat)
  | emitOrder (entries : List Nat)
  | write (i : Nat) (f : ModuleInfo → ModuleInfo)

namespace Use

/-- Edges are only recorded between nodes of the arena. -/
def IsLegal (a : Arena) : Use → Prop
  | .addEdge origin target => origin < a.size ∧ target < a.size
  | _ => True

instance (a : Arena) (use : Use) : Decidable (use.IsLegal a) :=
  match use with
  | .addEdge origin target => inferInstanceAs (Decidable (origin < a.size ∧ target < a.size))
  | .getOrCreate _ | .nextPending | .emitOrder _ | .write _ _ => inferInstanceAs (Decidable True)

def perform (a : Arena) : Use → Arena
  | .getOrCreate url => (a.getOrCreate url).2
  | .nextPending => a.nextPending.2
  | .addEdge origin target => (a.addEdge origin target).2
  | .emitOrder entries => (a.emitOrder entries).2
  | .write i f => a.update i f

end Use

/-- The urls for which nodes were created, and the nodes that were handed out, each in order. -/
structure History where
  created : List String := []
  handed : List Nat := []
  deriving DecidableEq, Repr

def History.extend (past : History) (a : Arena) : Use → History
  | .getOrCreate url =>
    if url ∈ past.created then past else { past with created := past.created ++ [url] }
  | .nextPending => { past with handed := past.handed ++ a.nextPending.1.toList }
  | .addEdge _ _ | .emitOrder _ | .write _ _ => past

/-- The arenas that uses lead to from the empty one. -/
inductive Reached : History → Arena → Prop where
  | empty : Reached {} Arena.empty
  | use {past : History} {a : Arena} (h : Reached past a) (use : Use) (hl : use.IsLegal a) :
    Reached (past.extend a use) (use.perform a)

/-- How a history shows in an arena. -/
structure Tracks (past : History) (a : Arena) : Prop where
  wellFormed : a.WellFormed
  acyclic : a.Acyclic
  created : a.nodes.map (·.url) = past.created
  handed : past.handed = List.range past.handed.length
  handed_le : past.handed.length ≤ a.size
  queue : a.queue = (List.range a.size).drop past.handed.length

variable {past : History}

theorem map_url_of_sameLinks (h : SameLinks a a') :
    a'.nodes.map (·.url) = a.nodes.map (·.url) := by
  apply List.ext_getElem?
  intro i
  rw [List.getElem?_map, List.getElem?_map]
  exact map_url_of_label (h.label i)

theorem Tracks.of_sameLinks (h : Tracks past a) (hs : SameLinks a a') : Tracks past a' where
  wellFormed := h.wellFormed.of_sameLinks hs
  acyclic := h.acyclic.congr hs.requires
  created := (map_url_of_sameLinks hs).trans h.created
  handed := h.handed
  handed_le := by
    rw [hs.size]
    exact h.handed_le
  queue := by
    rw [hs.queue, hs.size]
    exact h.queue

theorem Tracks.mem_created_iff (h : Tracks past a) (url : String) :
    url ∈ past.created ↔ ∃ i, a.get? url = some i := by
  simp only [← h.created, List.mem_iff_getElem?, List.getElem?_map, h.wellFormed.get?_iff]

theorem Tracks.getOrCreate (h : Tracks past a) (url : String) :
    Tracks (past.extend a (.getOrCreate url)) (a.getOrCreate url).2 := by
  rw [History.extend, Arena.getOrCreate]
  cases hg : a.get? url with
  | some i =>
    rw [if_pos ((h.mem_created_iff url).2 ⟨i, hg⟩)]
    exact h
  | none =>
    have hnew : url ∉ past.created := by
      intro hm
      obtain ⟨i, hi⟩ := (h.mem_created_iff url).1 hm
      rw [hg] at hi
      cases hi
    rw [if_neg hnew]
    exact
      { wellFormed := h.wellFormed.create hg
        acyclic := h.acyclic.congr (requires_create a url)
        created := by rw [create, List.map_append, h.created, List.map_singleton]
        handed := h.handed
        handed_le := by
          rw [size_create]
          exact Nat.le_succ_of_le h.handed_le
        queue := by
          rw [size_create, List.range_succ, List.drop_append_of_le_length, ← h.queue]
          · rfl
          · rw [List.length_range]
            exact h.handed_le }

theorem Tracks.nextPending_eq (h : Tracks past a) :
    a.nextPending.1 = if past.handed.length < a.size then some past.handed.length else none := by
  rw [nextPending, h.queue, List.head?_drop]
  split
  · next hlt => rw [List.getElem?_range hlt]
  · next hge => rw [List.getElem?_eq_none (by rwa [List.length_range, ← Nat.not_lt])]

theorem Tracks.nextPending (h : Tracks past a) :
    Tracks (past.extend a .nextPending) a.nextPending.2 := by
  have htail : a.nextPending.2.queue = (List.range a.size).drop (past.handed.length + 1) := by
    rw [Arena.nextPending, h.queue, List.tail_drop]
  rw [History.extend, h.nextPending_eq]
  split
  · next hlt =>
    have hlen : (past.handed ++ (some past.handed.length).toList).length =
        past.handed.length + 1 := by
      rw [Option.toList_some, List.length_append, List.length_singleton]
    exact
      { wellFormed := h.wellFormed.nextPending
        acyclic := h.acyclic
        created := h.created
        handed := by rw [hlen, List.range_succ, ← h.handed, Option.toList_some]
        handed_le := by
          rw [hlen]
          exact hlt
        queue := by
          rw [hlen]
          exact htail }
  · next hge =>
    have hsize : a.size ≤ past.handed.length := Nat.le_of_not_lt hge
    rw [Option.toList_none, List.append_nil]
    exact
      { wellFormed := h.wellFormed.nextPending
        acyclic := h.acyclic
        created := h.created
        handed := h.handed
        handed_le := h.handed_le
        queue := by
          rw [htail, List.drop_of_length_le, List.drop_of_length_le]
          · rw [List.length_range]
            exact hsize
          · rw [List.length_range]
            exact Nat.le_succ_of_le hsize }

theorem Tracks.addEdge (h : Tracks past a) (ho : origin < a.size) (ht : target < a.size) :
    Tracks past (a.addEdge origin target).2 := by
  have hw := h.wellFormed.addEdge ho ht
  have hc := h.acyclic.addEdge h.wellFormed ho target
  rcases addEdge_cases h.wellFormed origin target with ⟨-, he⟩ | ⟨-, _, -, he⟩ | ⟨-, -, he⟩
  · rw [he]
    exact h
  · rw [he]
    exact h
  · rw [he] at hw hc ⊢
    refine { h with wellFormed := hw, acyclic := hc, created := ?_, handed_le := ?_, queue := ?_ }
    · rw [← h.created]
      apply List.ext_getElem?
      intro i
      rw [List.getElem?_map, List.getElem?_map]
      exact map_url_of_label (label_link a origin target i)
    · rw [size_link]
      exact h.handed_le
    · rw [size_link]
      exact h.queue

theorem Reached.tracks (h : Reached past a) : Tracks past a := by
  induction h with
  | empty =>
    exact
      { wellFormed := .empty
        acyclic := fun i hi => by
          obtain ⟨j, hj, -⟩ := TransGen.head'_iff.1 hi
          cases hj
        created := rfl
        handed := rfl
        handed_le := Nat.le_refl _
        queue := rfl }
  | @use past a _ use hl ih =>
    cases use with
    | getOrCreate url => exact ih.getOrCreate url
    | nextPending => exact ih.nextPending
    | addEdge origin target => exact ih.addEdge hl.1 hl.2
    | emitOrder entries => exact ih.of_sameLinks (sameLinks_emitOrder a entries)
    | write i f => exact ih.of_sameLinks (sameLinks_update a i f)

/-- What an arena with a history keeps to: besides the links between its parts, the look-up of urls
is one-to-one onto the positions of the nodes, no node requires itself over others, and nodes are
handed out in the order of their creation until there is none left. -/
structure Represents (past : History) (a : Arena) : Prop extends a.WellFormed where
  get?_inj : ∀ url url' i, a.get? url = some i → a.get? url' = some i → url = url'
  get?_onto : ∀ i, (∃ url, a.get? url = some i) ↔ i < a.size
  edges_known : ∀ i j, j ∈ a.requires i ∨ j ∈ a.requiredBy i → j < a.size
  acyclic : ∀ i, ¬ TransGen a.Requires i i
  created : ∀ i : Nat, past.created[i]? = (a.nodes[i]?).map (·.url)
  handed : ∀ k : Nat, k < past.handed.length → past.handed[k]? = some k ∧ k < a.size
  next_handed : ∀ i, a.nextPending.1 = some i ↔ i = past.handed.length ∧ i < a.size
  next_none : a.nextPending.1 = none ↔ past.handed.length = past.created.length

/-- Every arena, whatever was done to it since it was empty. -/
theorem Reached.represents (h : Reached past a) : Represents past a := by
  have ht := h.tracks
  have hw := ht.wellFormed
  refine { hw with
    get?_inj := ?inj, get?_onto := ?onto, edges_known := ?known, acyclic := ht.acyclic
    created := ?created, handed := ?handed, next_handed := ?next, next_none := ?none }
  case inj =>
    intro url url' i hi hi'
    rw [hw.get?_iff] at hi hi'
    rw [hi] at hi'
    exact Option.some.inj hi'
  case onto =>
    intro i
    constructor
    · rintro ⟨url, hi⟩
      exact hw.lt_size_of_get? hi
    · intro hi
      refine ⟨a.nodes[i].url, (hw.get?_iff _ i).2 ?_⟩
      rw [List.getElem?_eq_getElem hi, Option.map_some]
  case known =>
    rintro i j (hj | hj)
    · exact hw.known i j hj
    · exact hw.lt_size_of_requiredBy hj
  case created =>
    intro i
    rw [← ht.created, List.getElem?_map]
  case handed =>
    intro k hk
    refine ⟨?_, Nat.lt_of_lt_of_le hk ht.handed_le⟩
    rw [ht.handed, List.getElem?_range hk]
  case next =>
    intro i
    rw [ht.nextPending_eq, Option.ite_none_right_eq_some, Option.some_inj]
    constructor
    · rintro ⟨hlt, rfl⟩
      exact ⟨rfl, hlt⟩
    · rintro ⟨rfl, hlt⟩
      exact ⟨hlt, rfl⟩
  case none =>
    have hle := ht.handed_le
    have hlen : past.created.length = a.size := by rw [← ht.created, List.length_map, size]
    rw [ht.nextPending_eq, hlen]
    split
    · next hlt => exact iff_of_false (by simp) (Nat.ne_of_lt hlt)
    · next hge => exact iff_of_true rfl (Nat.le_antisymm hle (Nat.le_of_not_lt hge))

/-- Two nodes, of which the second must not require the first, and the first is handed out. -/
theorem represents_after_refusal :
    ∃ past a, Reached past a ∧ past = ⟨["/a.js", "/b.js"], [0]⟩ ∧
      a.requires 0 = [1] ∧ a.requires 1 = [] ∧ Represents past a := by
  have h := ((((Reached.empty.use (.getOrCreate "/a.js") trivial).use (.getOrCreate "/b.js")
    trivial).use (.addEdge 0 1) (by decide)).use (.addEdge 1 0) (by decide)).use .nextPending
    trivial
  exact ⟨_, _, h, by decide, by decide, by decide, Reached.represents h⟩

end ScriptBundler.Arena
