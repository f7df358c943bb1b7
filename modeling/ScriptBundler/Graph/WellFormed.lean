import ScriptBundler.Graph.Arena

namespace ScriptBundler

def ModuleNode.label (n : ModuleNode) : Nat × String := (n.idx, n.url)

namespace Arena

variable {a a' : Arena} {i j origin target : Nat} {url : String}

/-- The url map answers with the positions of the nodes, edges are known from both of their ends,
and the queue holds the nodes that were created last. -/
structure WellFormed (a : Arena) : Prop where
  idx : ∀ i (n : ModuleNode), a.nodes[i]? = some n → n.idx = i
  get?_iff : ∀ url i, a.get? url = some i ↔ (a.nodes[i]?).map (·.url) = some url
  inverse : ∀ i j, j ∈ a.requires i ↔ i ∈ a.requiredBy j
  known : ∀ i j, j ∈ a.requires i → j < a.size
  requires_nodup : ∀ i, (a.requires i).Nodup
  requiredBy_nodup : ∀ i, (a.requiredBy i).Nodup
  queue : a.queue <:+ List.range a.size

theorem WellFormed.empty : empty.WellFormed where
  idx i n h := by
    rw [Arena.empty, List.getElem?_nil] at h
    cases h
  get?_iff url i := by
    rw [get?, Arena.empty, List.lookup_nil, List.getElem?_nil, Option.map_none]
    exact iff_of_false (by simp) (by simp)
  inverse i j := iff_of_false (List.not_mem_nil) (List.not_mem_nil)
  known i j h := by cases h
  requires_nodup i := List.nodup_nil
  requiredBy_nodup i := List.nodup_nil
  queue := List.suffix_rfl

theorem lt_size_of_requires (h : j ∈ a.requires i) : i < a.size := by
  apply Decidable.byContradiction
  intro hi
  rw [requires, List.getElem?_eq_none (Nat.le_of_not_lt hi)] at h
  cases h

theorem WellFormed.lt_size_of_requiredBy (h : a.WellFormed) (hj : j ∈ a.requiredBy i) :
    j < a.size :=
  lt_size_of_requires ((h.inverse j i).2 hj)

theorem WellFormed.lt_size_of_get? (h : a.WellFormed) (hi : a.get? url = some i) : i < a.size := by
  obtain ⟨n, hn, -⟩ := Option.map_eq_some_iff.1 ((h.get?_iff url i).1 hi)
  exact (List.getElem?_eq_some_iff.1 hn).1

theorem mem_insertLast {α : Type} [DecidableEq α] {x y : α} {s : List α} :
    x ∈ insertLast y s ↔ x ∈ s ∨ x = y := by
  rw [insertLast]
  split
  · next hy =>
    constructor
    · exact .inl
    · rintro (hx | rfl)
      · exact hx
      · exact hy
  · rw [List.mem_append, List.mem_singleton]

theorem nodup_insertLast {α : Type} [DecidableEq α] {x : α} {s : List α} (h : s.Nodup) :
    (insertLast x s).Nodup := by
  rw [insertLast]
  split
  · exact h
  · next hx =>
    refine List.nodup_append.2 ⟨h, List.pairwise_singleton _ x, ?_⟩
    rintro y hy z hz rfl
    exact hx (List.mem_singleton.1 hz ▸ hy)

theorem getElem?_create (a : Arena) (url : String) (i : Nat) : (a.create url).nodes[i]? =
    if i = a.size then some { idx := a.size, url := url } else a.nodes[i]? := by
  rcases Nat.lt_trichotomy i a.size with hlt | rfl | hgt
  · rw [if_neg (Nat.ne_of_lt hlt)]
    exact List.getElem?_append_left hlt
  · rw [if_pos rfl]
    exact List.getElem?_concat_length
  · rw [if_neg (Nat.ne_of_gt hgt), List.getElem?_eq_none (Nat.le_of_lt hgt)]
    apply List.getElem?_eq_none
    rw [create, List.length_append, List.length_singleton]
    exact hgt

theorem size_create (a : Arena) (url : String) : (a.create url).size = a.size + 1 := by
  rw [size, create, List.length_append, List.length_singleton, size]

theorem get?_create (a : Arena) (url v : String) :
    (a.create url).get? v = if v = url then some a.size else a.get? v := by
  rw [get?, create, List.lookup_cons]
  by_cases hv : v = url
  · rw [beq_iff_eq.2 hv, if_pos hv]
  · rw [beq_eq_false_iff_ne.2 hv, if_neg hv, get?]

/-- A node that is not there counts as one that was just created. -/
theorem field_create {α : Type} (field : ModuleNode → α) (d : α)
    (hd : field { idx := a.size, url := url } = d) (i : Nat) :
    (((a.create url).nodes[i]?).map field).getD d = ((a.nodes[i]?).map field).getD d := by
  rw [getElem?_create]
  split
  · next h =>
    rw [List.getElem?_eq_none (Nat.le_of_eq h.symm), Option.map_some, Option.getD_some, hd,
      Option.map_none, Option.getD_none]
  · rfl

theorem requires_create (a : Arena) (url : String) (i : Nat) :
    (a.create url).requires i = a.requires i :=
  field_create _ _ rfl i

theorem requiredBy_create (a : Arena) (url : String) (i : Nat) :
    (a.create url).requiredBy i = a.requiredBy i :=
  field_create _ _ rfl i

/-- The new node has the new url, to which no other one is equal. -/
theorem WellFormed.get?_create_iff (h : a.WellFormed) (hn : a.get? url = none) (v : String)
    (i : Nat) : (a.create url).get? v = some i ↔
      ((a.create url).nodes[i]?).map (·.url) = some v := by
  rw [get?_create, getElem?_create]
  by_cases hi : i = a.size
  · subst hi
    rw [if_pos rfl, Option.map_some, Option.some_inj]
    split
    · next hv => exact iff_of_true rfl hv.symm
    · next hv =>
      apply iff_of_false
      · intro hget
        exact Nat.lt_irrefl _ (h.lt_size_of_get? hget)
      · exact Ne.symm hv
  · rw [if_neg hi]
    split
    · next hv =>
      apply iff_of_false
      · intro hget
        exact hi (Option.some.inj hget).symm
      · intro hget
        rw [hv, ← h.get?_iff, hn] at hget
        cases hget
    · exact h.get?_iff v i

theorem WellFormed.create (h : a.WellFormed) (hn : a.get? url = none) :
    (a.create url).WellFormed where
  idx i n hi := by
    rw [getElem?_create] at hi
    split at hi
    · next he => rw [← Option.some.inj hi, he]
    · exact h.idx i n hi
  get?_iff := h.get?_create_iff hn
  inverse i j := by
    rw [requires_create, requiredBy_create]
    exact h.inverse i j
  known i j hj := by
    rw [requires_create] at hj
    rw [size_create]
    exact Nat.lt_succ_of_lt (h.known i j hj)
  requires_nodup i := by
    rw [requires_create]
    exact h.requires_nodup i
  requiredBy_nodup i := by
    rw [requiredBy_create]
    exact h.requiredBy_nodup i
  queue := by
    obtain ⟨front, hfront⟩ := h.queue
    rw [size_create, List.range_succ, ← hfront, List.append_assoc]
    exact List.suffix_append front _

theorem WellFormed.getOrCreate (h : a.WellFormed) (url : String) :
    (a.getOrCreate url).2.WellFormed := by
  rw [Arena.getOrCreate]
  split
  · exact h
  · next hn => exact h.create hn

theorem WellFormed.nextPending (h : a.WellFormed) : a.nextPending.2.WellFormed :=
  { h with queue := (List.tail_suffix a.queue).trans h.queue }

/-- Two arenas that differ in nothing but what was written down about their modules. -/
structure SameLinks (a a' : Arena) : Prop where
  label : ∀ i : Nat, (a'.nodes[i]?).map ModuleNode.label = (a.nodes[i]?).map ModuleNode.label
  requires : ∀ i, a'.requires i = a.requires i
  requiredBy : ∀ i, a'.requiredBy i = a.requiredBy i
  visited : a'.visited = a.visited
  queue : a'.queue = a.queue
  size : a'.size = a.size

theorem SameLinks.refl (a : Arena) : SameLinks a a :=
  ⟨fun _ => rfl, fun _ => rfl, fun _ => rfl, rfl, rfl, rfl⟩

theorem SameLinks.trans {a'' : Arena} (h : SameLinks a a') (h' : SameLinks a' a'') :
    SameLinks a a'' :=
  ⟨fun i => (h'.label i).trans (h.label i), fun i => (h'.requires i).trans (h.requires i),
    fun i => (h'.requiredBy i).trans (h.requiredBy i), h'.visited.trans h.visited,
    h'.queue.trans h.queue, h'.size.trans h.size⟩

theorem map_url_of_label
    (h : (a'.nodes[i]?).map ModuleNode.label = (a.nodes[i]?).map ModuleNode.label) :
    (a'.nodes[i]?).map (·.url) = (a.nodes[i]?).map (·.url) := by
  have hsnd := congrArg (Option.map Prod.snd) h
  rwa [Option.map_map, Option.map_map] at hsnd

theorem urlAt_of_label
    (h : ∀ i : Nat, (a'.nodes[i]?).map ModuleNode.label = (a.nodes[i]?).map ModuleNode.label) :
    a'.urlAt = a.urlAt := by
  funext i
  rw [urlAt, map_url_of_label (h i), urlAt]

theorem WellFormed.idx_of_label (h : a.WellFormed)
    (hl : ∀ i : Nat, (a'.nodes[i]?).map ModuleNode.label = (a.nodes[i]?).map ModuleNode.label)
    (i : Nat) (n : ModuleNode) (hn : a'.nodes[i]? = some n) : n.idx = i := by
  have hi := hl i
  rw [hn, Option.map_some] at hi
  obtain ⟨m, hm, he⟩ := Option.map_eq_some_iff.1 hi.symm
  rw [← h.idx i m hm]
  exact (congrArg Prod.fst he).symm

theorem WellFormed.of_sameLinks (h : a.WellFormed) (hs : SameLinks a a') : a'.WellFormed where
  idx := h.idx_of_label hs.label
  get?_iff url i := by
    rw [map_url_of_label (hs.label i), get?, hs.visited]
    exact h.get?_iff url i
  inverse i j := by
    rw [hs.requires, hs.requiredBy]
    exact h.inverse i j
  known i j hj := by
    rw [hs.size]
    exact h.known i j (hs.requires i ▸ hj)
  requires_nodup i := hs.requires i ▸ h.requires_nodup i
  requiredBy_nodup i := hs.requiredBy i ▸ h.requiredBy_nodup i
  queue := by
    rw [hs.queue, hs.size]
    exact h.queue

theorem getElem?_modify (a : Arena) (i : Nat) (f : ModuleNode → ModuleNode) (j : Nat) :
    (a.modify i f).nodes[j]? = (a.nodes[j]?).map fun n => if i = j then f n else n := by
  rw [modify, List.getElem?_modify]
  rfl

theorem size_modify (a : Arena) (i : Nat) (f : ModuleNode → ModuleNode) :
    (a.modify i f).size = a.size :=
  List.length_modify f a.nodes i

/-- A field that a change keeps in the node at `i` is kept in all of them. -/
theorem field_modify {α : Type} {field : ModuleNode → α} {f : ModuleNode → ModuleNode}
    (hf : ∀ n, field (f n) = field n) (a : Arena) (i j : Nat) :
    ((a.modify i f).nodes[j]?).map field = (a.nodes[j]?).map field := by
  rw [getElem?_modify, Option.map_map]
  congr 1
  funext n
  simp only [Function.comp]
  split
  · exact hf n
  · rfl

theorem sameLinks_update (a : Arena) (i : Nat) (f : ModuleInfo → ModuleInfo) :
    SameLinks a (a.update i f) where
  label := field_modify (by intro n; rfl) a i
  requires j := congrArg (Option.getD · []) (field_modify (by intro n; rfl) a i j)
  requiredBy j := congrArg (Option.getD · []) (field_modify (by intro n; rfl) a i j)
  visited := rfl
  queue := rfl
  size := size_modify a i _

theorem sameLinks_run (n : Nat) (a : Arena) (entered : List Nat) (tasks : List Task) :
    SameLinks a (run n a entered tasks).2 := by
  induction n generalizing a entered tasks with
  | zero => exact .refl a
  | succ n ih =>
    cases tasks with
    | nil => exact .refl a
    | cons task tasks =>
      cases task with
      | enter i =>
        rw [run]
        split
        · exact ih _ _ _
        · exact ih _ _ _
      | leave i => exact (sameLinks_update a i _).trans (ih _ _ _)

theorem sameLinks_emitOrder (a : Arena) (entries : List Nat) :
    SameLinks a (a.emitOrder entries).2 :=
  sameLinks_run _ _ _ _

theorem WellFormed.update (h : a.WellFormed) (i : Nat) (f : ModuleInfo → ModuleInfo) :
    (a.update i f).WellFormed :=
  h.of_sameLinks (sameLinks_update a i f)

theorem WellFormed.emitOrder (h : a.WellFormed) (entries : List Nat) :
    (a.emitOrder entries).2.WellFormed :=
  h.of_sameLinks (sameLinks_emitOrder a entries)

theorem getElem?_link (a : Arena) (origin target k : Nat) :
    (a.link origin target).nodes[k]? = (a.nodes[k]?).map fun n =>
      { n with
        requires := if k = origin then insertLast target n.requires else n.requires
        requiredBy := if k = target then insertLast origin n.requiredBy else n.requiredBy } := by
  rw [link, getElem?_modify, getElem?_modify, Option.map_map]
  congr 1
  funext n
  simp only [Function.comp, eq_comm (a := k)]
  by_cases ho : origin = k
  · simp only [ho, ↓reduceIte]
    split <;> rfl
  · simp only [ho, ↓reduceIte]
    split <;> rfl

theorem requires_link (ho : origin < a.size) (target i : Nat) :
    (a.link origin target).requires i =
      if i = origin then insertLast target (a.requires origin) else a.requires i := by
  rw [requires, getElem?_link, Option.map_map, requires, requires]
  by_cases h : i = origin
  · subst h
    rw [List.getElem?_eq_getElem ho]
    simp only [Function.comp, Option.map_some, Option.getD_some, ↓reduceIte]
  · simp only [Function.comp_def, h, ↓reduceIte]

theorem requiredBy_link (ht : target < a.size) (origin j : Nat) :
    (a.link origin target).requiredBy j =
      if j = target then insertLast origin (a.requiredBy target) else a.requiredBy j := by
  rw [requiredBy, getElem?_link, Option.map_map, requiredBy, requiredBy]
  by_cases h : j = target
  · subst h
    rw [List.getElem?_eq_getElem ht]
    simp only [Function.comp, Option.map_some, Option.getD_some, ↓reduceIte]
  · simp only [Function.comp_def, h, ↓reduceIte]

theorem size_link (a : Arena) (origin target : Nat) : (a.link origin target).size = a.size := by
  rw [link, size_modify, size_modify]

theorem label_link (a : Arena) (origin target i : Nat) :
    ((a.link origin target).nodes[i]?).map ModuleNode.label =
      (a.nodes[i]?).map ModuleNode.label := by
  rw [getElem?_link, Option.map_map]
  rfl

theorem mem_requires_link (ho : origin < a.size) :
    j ∈ (a.link origin target).requires i ↔ j ∈ a.requires i ∨ i = origin ∧ j = target := by
  rw [requires_link ho]
  split
  · next h => rw [h, mem_insertLast, eq_self, true_and]
  · next h => simp only [h, false_and, or_false]

theorem mem_requiredBy_link (ht : target < a.size) :
    i ∈ (a.link origin target).requiredBy j ↔ i ∈ a.requiredBy j ∨ i = origin ∧ j = target := by
  rw [requiredBy_link ht]
  split
  · next h => rw [h, mem_insertLast, eq_self, and_true]
  · next h => simp only [h, and_false, or_false]

theorem WellFormed.link (h : a.WellFormed) (ho : origin < a.size) (ht : target < a.size) :
    (a.link origin target).WellFormed where
  idx := h.idx_of_label (label_link a origin target)
  get?_iff url i := by
    rw [map_url_of_label (label_link a origin target i)]
    exact h.get?_iff url i
  inverse i j := by
    rw [mem_requires_link ho, mem_requiredBy_link ht, h.inverse]
  known i j hj := by
    rw [size_link]
    rcases (mem_requires_link ho).1 hj with hj | ⟨-, rfl⟩
    · exact h.known i j hj
    · exact ht
  requires_nodup i := by
    rw [requires_link ho]
    split
    · exact nodup_insertLast (h.requires_nodup origin)
    · exact h.requires_nodup i
  requiredBy_nodup j := by
    rw [requiredBy_link ht]
    split
    · exact nodup_insertLast (h.requiredBy_nodup target)
    · exact h.requiredBy_nodup j
  queue := by
    rw [size_link]
    exact h.queue

theorem WellFormed.addEdge (h : a.WellFormed) (ho : origin < a.size) (ht : target < a.size) :
    (a.addEdge origin target).2.WellFormed := by
  rw [Arena.addEdge]
  split
  · exact h
  · split
    · exact h
    · exact h.link ho ht

end Arena

end ScriptBundler
