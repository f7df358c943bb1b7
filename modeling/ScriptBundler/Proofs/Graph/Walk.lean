import Mathlib.Data.List.Flatten
import Mathlib.Data.List.Perm.Basic
import ScriptBundler.Graph.WellFormed
import ScriptBundler.Proofs.Graph.PostOrder

namespace ScriptBundler.Arena

variable {a : Arena} {i j : Nat} {order : List Nat}

def emitAll (a : Arena) (order : List Nat) : Arena := order.foldl emit a

theorem sameLinks_emit (a : Arena) (i : Nat) : SameLinks a (a.emit i) := sameLinks_update a i _

theorem sameLinks_emitAll (a : Arena) (order : List Nat) : SameLinks a (a.emitAll order) := by
  induction order generalizing a with
  | nil => exact .refl a
  | cons i order ih => exact (sameLinks_emit a i).trans (ih _)

theorem emitAll_append (a : Arena) (order order' : List Nat) :
    a.emitAll (order ++ order') = (a.emitAll order).emitAll order' :=
  List.foldl_append

theorem lt_size_of_isEmitted (h : a.isEmitted i = true) : i < a.size := by
  by_contra hi
  rw [isEmitted, List.getElem?_eq_none (Nat.le_of_not_lt hi)] at h
  cases h

theorem isEmitted_emit : (a.emit i).isEmitted j = true ↔
    a.isEmitted j = true ∨ j = i ∧ j < a.size := by
  rw [isEmitted, emit, update, getElem?_modify, Option.map_map]
  by_cases hj : j = i
  · subst hj
    by_cases hlt : j < a.size
    · rw [List.getElem?_eq_getElem hlt]
      simp [hlt]
    · have hnone : a.nodes[j]? = none := List.getElem?_eq_none (Nat.le_of_not_lt hlt)
      simp [hnone, hlt, isEmitted]
  · simp only [Function.comp_def, Ne.symm hj, ↓reduceIte, hj, false_and, or_false, isEmitted]

theorem isEmitted_emitAll : (a.emitAll order).isEmitted j = true ↔
    a.isEmitted j = true ∨ j ∈ order ∧ j < a.size := by
  induction order generalizing a with
  | nil => simp only [emitAll, List.foldl_nil, List.not_mem_nil, false_and, or_false]
  | cons i order ih =>
    change ((a.emit i).emitAll order).isEmitted j = true ↔ _
    rw [ih, isEmitted_emit, (sameLinks_emit a i).size, List.mem_cons, or_and_right, or_assoc]

def emittedNodes (a : Arena) : List Nat := (List.range a.size).filter a.isEmitted

theorem mem_emittedNodes : i ∈ a.emittedNodes ↔ a.isEmitted i = true := by
  constructor
  · intro h
    exact (List.mem_filter.1 h).2
  · intro h
    exact List.mem_filter.2 ⟨List.mem_range.2 (lt_size_of_isEmitted h), h⟩

/-- The number of steps that the walk needs for roots whose order is `order`. -/
def steps (next : Nat → List Nat) (roots order : List Nat) : Nat :=
  roots.length + order.length + (order.flatMap next).length

/-- The stack of tasks does what the recursion does, and then goes on with the tasks below. -/
theorem run_enter {next : Nat → List Nat} {seen roots : List Nat}
    (h : PostOrder next seen roots order) {a : Arena} {entered : List Nat}
    (ha : a.requires = next) (hs : ∀ u, u ∈ seen ↔ a.isEmitted u = true ∨ u ∈ entered) :
    ∃ entered', (∀ u, u ∈ entered' ↔ u ∈ entered ∨ u ∈ order) ∧
      ∀ n tasks, run (steps next roots order + n) a entered (roots.map .enter ++ tasks) =
        (order ++ (run n (a.emitAll order) entered' tasks).1,
          (run n (a.emitAll order) entered' tasks).2) := by
  induction h generalizing a entered with
  | nil =>
    refine ⟨entered, by simp, fun n tasks => ?_⟩
    simp only [steps, List.length_nil, List.flatMap_nil, List.map_nil, Nat.zero_add,
      List.nil_append, emitAll, List.foldl_nil]
  | @skip seen u roots order hm _ ih =>
    obtain ⟨entered', he, hr⟩ := ih ha hs
    refine ⟨entered', he, fun n tasks => ?_⟩
    have hn : steps next (u :: roots) order + n = steps next roots order + n + 1 := by
      simp only [steps, List.length_cons]
      omega
    have hc : (a.isEmitted u || decide (u ∈ entered)) = true := by
      simpa only [Bool.or_eq_true, decide_eq_true_eq] using (hs u).1 hm
    rw [hn, List.map_cons, List.cons_append, run, if_pos hc, hr]
  | @visit seen u roots below order hm _ _ ihi ihr =>
    -- what is below `u` runs with the task that leaves `u`, and those of the other roots, below it
    have hc : ¬ (a.isEmitted u || decide (u ∈ entered)) = true := by
      simpa only [Bool.or_eq_true, decide_eq_true_eq] using fun hc => hm ((hs u).2 hc)
    obtain ⟨entered₁, he₁, hr₁⟩ := @ihi _ (u :: entered) ha fun w => by
      simp only [List.mem_cons, hs, or_left_comm]
    have ha₂ : ((a.emitAll below).emit u).requires = next := by
      rw [← ha]
      funext w
      rw [(sameLinks_emit _ u).requires, (sameLinks_emitAll a below).requires]
    obtain ⟨entered₂, he₂, hr₂⟩ := @ihr ((a.emitAll below).emit u) entered₁ ha₂
      fun w => by
        simp only [List.mem_cons, List.mem_append, hs, he₁, isEmitted_emit, isEmitted_emitAll]
        tauto
    refine ⟨entered₂, fun w => ?_, fun n tasks => ?_⟩
    · simp only [he₂, he₁, List.mem_cons, List.mem_append]
      tauto
    · have hn : steps next (u :: roots) (below ++ u :: order) + n =
          steps next (next u) below + (steps next roots order + n + 1) + 1 := by
        simp only [steps, List.length_cons, List.length_append, List.flatMap_append,
          List.flatMap_cons]
        omega
      have hgo : a.emitAll (below ++ u :: order) = ((a.emitAll below).emit u).emitAll order :=
        emitAll_append a below (u :: order)
      rw [hn, List.map_cons, List.cons_append, run, if_neg hc, ha, List.append_assoc,
        List.cons_append, hr₁, run, hgo]
      change (below ++ u :: (run _ ((a.emitAll below).emit u) _ _).1,
        (run _ ((a.emitAll below).emit u) _ _).2) = _
      rw [hr₂]

theorem flatMap_requires (a : Arena) :
    (List.range a.size).flatMap a.requires = a.nodes.flatMap (·.requires) := by
  have hmap : (List.range a.size).map a.requires = a.nodes.map (·.requires) := by
    apply List.ext_getElem
    · rw [List.length_map, List.length_range, List.length_map, size]
    · intro i hi hi'
      rw [List.length_map] at hi'
      rw [List.getElem_map, List.getElem_map, List.getElem_range, requires,
        List.getElem?_eq_getElem hi', Option.map_some, Option.getD_some]
  rw [List.flatMap_def, hmap, ← List.flatMap_def]

theorem steps_le (roots : List Nat) (hn : order.Nodup) (ho : ∀ i ∈ order, i < a.size) :
    steps a.requires roots order ≤ roots.length + a.size + a.edgeCount := by
  have hsub : order.Subperm (List.range a.size) :=
    List.subperm_of_subset hn fun i hi => List.mem_range.2 (ho i hi)
  have hlen : order.length ≤ a.size := by
    simpa only [List.length_range] using hsub.length_le
  have hnext : (order.flatMap a.requires).length ≤ a.edgeCount := by
    obtain ⟨order', hp, hs⟩ := hsub
    rw [edgeCount, ← flatMap_requires, ← (hp.flatMap_right a.requires).length_eq]
    exact (hs.flatMap a.requires).length_le
  simp only [steps]
  omega

/-- Nodes are emitted in post-order, and nothing else changes. -/
theorem exists_emitOrder_eq (hw : a.WellFormed) {entries : List Nat}
    (he : ∀ i ∈ entries, i < a.size) :
    ∃ order, PostOrder a.requires a.emittedNodes entries order ∧ (∀ i ∈ order, i < a.size) ∧
      a.emitOrder entries = (order, a.emitAll order) := by
  have hk : ∀ i ∈ List.range a.size, ∀ j ∈ a.requires i, j ∈ List.range a.size :=
    fun i _ j hj => List.mem_range.2 (hw.known i j hj)
  obtain ⟨order, h⟩ : ∃ order, PostOrder a.requires a.emittedNodes entries order :=
    PostOrder.exists_order hk fun i hi => List.mem_range.2 (he i hi)
  have ho : ∀ i ∈ order, i < a.size := h.forall_order (fun i _ j hj => hw.known i j hj) he
  refine ⟨order, h, ho, ?_⟩
  have hs : ∀ i, i ∈ a.emittedNodes ↔ a.isEmitted i = true ∨ i ∈ ([] : List Nat) := fun i => by
    simp only [mem_emittedNodes, List.not_mem_nil, or_false]
  obtain ⟨entered, _, hr⟩ := run_enter h rfl hs
  have hle := steps_le entries h.nodup ho
  obtain ⟨n, hn⟩ : ∃ n, entries.length + 2 * a.size + a.edgeCount + 1 =
      steps a.requires entries order + (n + 1) :=
    ⟨entries.length + 2 * a.size + a.edgeCount - steps a.requires entries order, by omega⟩
  have hrun := hr (n + 1) []
  rw [List.append_nil] at hrun
  rw [emitOrder, hn, hrun, run, List.append_nil]

end ScriptBundler.Arena
