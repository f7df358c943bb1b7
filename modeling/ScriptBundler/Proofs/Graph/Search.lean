import Mathlib.Data.List.Chain
import Mathlib.Data.List.Nodup
import Mathlib.Data.List.Perm.Basic
import Mathlib.Data.List.Range
import Mathlib.Logic.Relation
import ScriptBundler.Graph.WellFormed

namespace ScriptBundler

open Relation

/-- A path from one end to the other that comes to nothing twice. -/
structure IsPath {α : Type} (r : α → α → Prop) (start target : α) (path : List α) : Prop where
  chain : path.IsChain r
  head : path.head? = some start
  last : path.getLast? = some target
  nodup : path.Nodup

namespace IsPath

variable {α β : Type} {r : α → α → Prop} {start target : α} {path : List α}

theorem exists_cons (h : IsPath r start target path) : ∃ rest, path = start :: rest := by
  cases path with
  | nil => cases h.head
  | cons i rest => exact ⟨rest, by rw [Option.some.inj h.head]⟩

theorem reaches (h : IsPath r start target path) : ReflTransGen r start target := by
  obtain ⟨rest, rfl⟩ := h.exists_cons
  have hl := h.last
  rw [List.getLast?_eq_some_getLast (List.cons_ne_nil _ _)] at hl
  exact Option.some.inj hl ▸ List.relationReflTransGen_of_exists_isChain_cons rest h.chain rfl

theorem eq_or_step (h : IsPath r start target path) {a : α} (ha : a ∈ path) :
    a = target ∨ ∃ b, r a b := by
  obtain ⟨front, rest, rfl⟩ := List.append_of_mem ha
  cases rest with
  | nil =>
    left
    have hl := h.last
    rw [List.getLast?_concat] at hl
    exact Option.some.inj hl
  | cons b rest => exact .inr ⟨b, (List.isChain_cons_cons.1 h.chain.right_of_append).1⟩

theorem map (h : IsPath r start target path) {r' : β → β → Prop} {f : α → β}
    (hr : ∀ a b, r a b → r' (f a) (f b)) (hf : ∀ a ∈ path, ∀ b ∈ path, f a = f b → a = b) :
    IsPath r' (f start) (f target) (path.map f) where
  chain := List.isChain_map_of_isChain f hr h.chain
  head := by rw [List.head?_map, h.head, Option.map_some]
  last := by rw [List.getLast?_map, h.last, Option.map_some]
  nodup := h.nodup.map_on hf

end IsPath

namespace Arena

variable {a : Arena} {s : Search} {start target i j : Nat} {path : List Nat}

def Requires (a : Arena) (i j : Nat) : Prop := j ∈ a.requires i

/-- Parents lead from a node over a path to one that has none. -/
inductive Leads (parents : List (Nat × Nat)) : Nat → List Nat → Prop where
  | root {i : Nat} (h : parents.lookup i = none) : Leads parents i [i]
  | step {i parent : Nat} {path : List Nat} (h : parents.lookup i = some parent)
      (up : Leads parents parent path) : Leads parents i (i :: path)

theorem Leads.exists_cons {parents : List (Nat × Nat)} (h : Leads parents i path) :
    ∃ rest, path = i :: rest := by
  cases h with
  | root => exact ⟨[], rfl⟩
  | step _ up => exact ⟨_, rfl⟩

theorem Leads.ancestry_eq {parents : List (Nat × Nat)} (h : Leads parents i path) {n : Nat}
    (hn : path.length ≤ n + 1) : ancestry parents n i = path := by
  induction h generalizing n with
  | root h =>
    cases n with
    | zero => rfl
    | succ n => rw [ancestry, h]
  | @step i parent path h up ih =>
    cases n with
    | zero =>
      obtain ⟨rest, rfl⟩ := up.exists_cons
      simp only [List.length_cons] at hn
      omega
    | succ n =>
      rw [ancestry, h]
      exact congrArg _ (ih (Nat.le_of_succ_le_succ hn))

theorem Leads.cons {parents : List (Nat × Nat)} (h : Leads parents i path) (hj : j ∉ path)
    (parent : Nat) : Leads ((j, parent) :: parents) i path := by
  induction h with
  | root h =>
    apply Leads.root
    rw [List.lookup_cons, beq_eq_false_iff_ne.2 (Ne.symm (List.ne_of_not_mem_cons hj))]
    exact h
  | step h _ ih =>
    apply Leads.step
    · rw [List.lookup_cons, beq_eq_false_iff_ne.2 (Ne.symm (List.ne_of_not_mem_cons hj))]
      exact h
    · exact ih (List.not_mem_of_not_mem_cons hj)

/-- The way back from a node to the start of a search. -/
structure IsTrail (a : Arena) (start : Nat) (s : Search) (i : Nat) (path : List Nat) : Prop where
  leads : Leads s.parents i path
  chain : path.IsChain fun v u => a.Requires u v
  last : path.getLast? = some start
  nodup : path.Nodup
  seen : ∀ u ∈ path, u ∈ s.seen

theorem IsTrail.push_of_ne (h : IsTrail a start s i path) (hj : j ∉ s.seen) (parent : Nat) :
    IsTrail a start (s.push parent j) i path where
  leads := h.leads.cons (fun hm => hj (h.seen j hm)) parent
  chain := h.chain
  last := h.last
  nodup := h.nodup
  seen u hu := List.mem_cons_of_mem _ (h.seen u hu)

theorem IsTrail.push (h : IsTrail a start s i path) (hr : a.Requires i j) (hj : j ∉ s.seen) :
    IsTrail a start (s.push i j) j (j :: path) := by
  have hpath : j ∉ path := fun hm => hj (h.seen j hm)
  obtain ⟨rest, rfl⟩ := h.leads.exists_cons
  constructor
  · apply Leads.step
    · rw [Search.push, List.lookup_cons, beq_self_eq_true]
    · exact h.leads.cons hpath i
  · exact .cons_cons hr h.chain
  · rw [List.getLast?_cons_cons]
    exact h.last
  · exact List.nodup_cons.2 ⟨hpath, h.nodup⟩
  · intro u hu
    rcases List.mem_cons.1 hu with rfl | hu
    · exact List.mem_cons_self
    · exact List.mem_cons_of_mem _ (h.seen u hu)

/-- Every node that was seen has a way back to the start. -/
structure Tracked (a : Arena) (start : Nat) (s : Search) : Prop where
  start_seen : start ∈ s.seen
  stack_seen : ∀ i ∈ s.stack, i ∈ s.seen
  trails : ∀ i ∈ s.seen, ∃ path, IsTrail a start s i path
  parents_length : s.seen.length = s.parents.length + 1

theorem Tracked.initial (a : Arena) (start : Nat) :
    Tracked a start ⟨[start], [], [start]⟩ where
  start_seen := List.mem_singleton_self start
  stack_seen i hi := hi
  trails i hi := by
    obtain rfl := List.mem_singleton.1 hi
    exact ⟨[i], .root rfl, .singleton i, rfl, List.nodup_singleton i, fun _ hu => hu⟩
  parents_length := rfl

theorem Tracked.push (h : Tracked a start s) (hi : i ∈ s.seen) (hr : a.Requires i j)
    (hj : j ∉ s.seen) : Tracked a start (s.push i j) where
  start_seen := List.mem_cons_of_mem _ h.start_seen
  stack_seen k hk := by
    rcases List.mem_cons.1 hk with rfl | hk
    · exact List.mem_cons_self
    · exact List.mem_cons_of_mem _ (h.stack_seen k hk)
  trails k hk := by
    rcases List.mem_cons.1 hk with rfl | hk
    · obtain ⟨path, hpath⟩ := h.trails i hi
      exact ⟨_, hpath.push hr hj⟩
    · obtain ⟨path, hpath⟩ := h.trails k hk
      exact ⟨path, hpath.push_of_ne hj i⟩
  parents_length := congrArg (· + 1) h.parents_length

theorem Tracked.exists_ancestry (h : Tracked a start s) (hi : i ∈ s.seen) :
    ∃ path, IsTrail a start s i path ∧ ancestry s.parents s.parents.length i = path := by
  obtain ⟨path, hpath⟩ := h.trails i hi
  refine ⟨path, hpath, ?_⟩
  apply hpath.leads.ancestry_eq
  rw [← h.parents_length]
  exact (List.subperm_of_subset hpath.nodup hpath.seen).length_le

def remaining (a : Arena) (s : Search) : Nat :=
  ((List.range a.size).filter (· ∉ s.seen)).length + s.stack.length

theorem remaining_push (i : Nat) (hj : j < a.size) (hn : j ∉ s.seen) :
    a.remaining (s.push i j) ≤ a.remaining s := by
  have hsplit : (List.range a.size).filter (· ∉ (s.push i j).seen) =
      ((List.range a.size).filter (· ∉ s.seen)).filter (· ≠ j) := by
    rw [List.filter_filter]
    apply List.filter_congr
    intro k _
    simp only [Search.push, List.mem_cons, not_or, ne_eq, Bool.decide_and]
  have hmem : j ∈ (List.range a.size).filter (· ∉ s.seen) :=
    List.mem_filter.2 ⟨List.mem_range.2 hj, decide_eq_true hn⟩
  have hlt : ((List.range a.size).filter (· ∉ (s.push i j).seen)).length <
      ((List.range a.size).filter (· ∉ s.seen)).length := by
    rw [hsplit]
    exact List.length_filter_lt_length_iff_exists.2 ⟨j, hmem, by simp⟩
  simp only [remaining, Search.push, List.length_cons] at hlt ⊢
  omega

/-- A search that went over requirements of a node: all of them were seen by now, and what was seen
on the way waits on the stack. -/
structure Visited (a : Arena) (start target : Nat) (deps : List Nat) (s s' : Search) : Prop where
  tracked : Tracked a start s'
  target_unseen : target ∉ s'.seen
  mem_seen : ∀ j, j ∈ s'.seen ↔ j ∈ s.seen ∨ j ∈ deps
  stack : ∀ j ∈ s.stack, j ∈ s'.stack
  waiting : ∀ j ∈ s'.seen, j ∈ s.seen ∨ j ∈ s'.stack
  remaining_le : a.remaining s' ≤ a.remaining s

theorem Visited.refl (h : Tracked a start s) (ht : target ∉ s.seen) :
    Visited a start target [] s s where
  tracked := h
  target_unseen := ht
  mem_seen j := by rw [List.mem_nil_iff, or_false]
  stack _ hj := hj
  waiting _ hj := .inl hj
  remaining_le := Nat.le_refl _

theorem Visited.skip {s' : Search} {deps : List Nat} (h : Visited a start target deps s s')
    (hj : j ∈ s.seen) : Visited a start target (j :: deps) s s' := by
  refine { h with mem_seen := ?_ }
  intro k
  rw [h.mem_seen, List.mem_cons]
  constructor
  · intro hk
    exact hk.imp_right .inr
  · rintro (hk | rfl | hk)
    · exact .inl hk
    · exact .inl hj
    · exact .inr hk

theorem Visited.push {s' : Search} {deps : List Nat}
    (h : Visited a start target deps (s.push i j) s') (hj : j < a.size) (hn : j ∉ s.seen) :
    Visited a start target (j :: deps) s s' where
  tracked := h.tracked
  target_unseen := h.target_unseen
  mem_seen k := by
    rw [h.mem_seen, Search.push, List.mem_cons, List.mem_cons, or_comm (a := k = j), or_assoc]
  stack k hk := h.stack k (List.mem_cons_of_mem _ hk)
  waiting k hk := by
    rcases h.waiting k hk with hk | hk
    · rcases List.mem_cons.1 hk with rfl | hk
      · exact .inr (h.stack k List.mem_cons_self)
      · exact .inl hk
    · exact .inr hk
  remaining_le := h.remaining_le.trans (remaining_push i hj hn)

theorem visit_spec (hk : ∀ i j, a.Requires i j → j < a.size) (h : Tracked a start s)
    (ht : target ∉ s.seen) (hi : i ∈ s.seen) {deps : List Nat} (hd : ∀ j ∈ deps, a.Requires i j) :
    match visit target i deps s with
    | .inl parents => ∃ s', Tracked a start s' ∧ target ∈ s'.seen ∧ s'.parents = parents
    | .inr s' => Visited a start target deps s s' := by
  induction deps generalizing s with
  | nil => exact .refl h ht
  | cons dep deps ih =>
    have hdep : a.Requires i dep := hd dep List.mem_cons_self
    have hdeps : ∀ j ∈ deps, a.Requires i j := by
      intro j hj
      exact hd j (List.mem_cons_of_mem _ hj)
    rw [visit]
    by_cases hseen : dep ∈ s.seen
    · rw [if_pos hseen]
      have hrest := ih h ht hi hdeps
      split at hrest
      · exact hrest
      · exact hrest.skip hseen
    · rw [if_neg hseen]
      have hpush := h.push hi hdep hseen
      by_cases htarget : dep = target
      · rw [if_pos htarget]
        exact ⟨s.push i dep, hpush, htarget ▸ List.mem_cons_self, rfl⟩
      · rw [if_neg htarget]
        have ht' : target ∉ (s.push i dep).seen := by
          intro hm
          rcases List.mem_cons.1 hm with he | hm
          · exact htarget he.symm
          · exact ht hm
        have hrest := ih hpush ht' (List.mem_cons_of_mem _ hi) hdeps
        split at hrest
        · exact hrest
        · exact hrest.push (hk i dep hdep) hseen

/-- What holds whenever a search goes on: every node that was seen waits on the stack, or all that
it requires was seen as well. -/
structure Searching (a : Arena) (start target : Nat) (s : Search) : Prop where
  tracked : Tracked a start s
  target_unseen : target ∉ s.seen
  closed : ∀ i ∈ s.seen, i ∈ s.stack ∨ ∀ j, a.Requires i j → j ∈ s.seen

theorem Tracked.pop {seen stack : List Nat} {parents : List (Nat × Nat)}
    (h : Tracked a start ⟨seen, parents, i :: stack⟩) : Tracked a start ⟨seen, parents, stack⟩ where
  start_seen := h.start_seen
  stack_seen j hj := h.stack_seen j (List.mem_cons_of_mem _ hj)
  trails j hj := by
    obtain ⟨path, hpath⟩ := h.trails j hj
    exact ⟨path, { hpath with }⟩
  parents_length := h.parents_length

/-- The node that leaves the stack is one of which all requirements were seen by then. -/
theorem Searching.next {seen stack : List Nat} {parents : List (Nat × Nat)} {s' : Search}
    (h : Searching a start target ⟨seen, parents, i :: stack⟩)
    (hv : Visited a start target (a.requires i).reverse ⟨seen, parents, stack⟩ s') :
    Searching a start target s' where
  tracked := hv.tracked
  target_unseen := hv.target_unseen
  closed j hj := by
    rcases hv.waiting j hj with hj | hj
    · rcases h.closed j hj with hstack | hclosed
      · rcases List.mem_cons.1 hstack with rfl | hstack
        · right
          intro k hk
          exact (hv.mem_seen k).2 (.inr (List.mem_reverse.2 hk))
        · exact .inl (hv.stack j hstack)
      · right
        intro k hk
        exact (hv.mem_seen k).2 (.inl (hclosed k hk))
    · exact .inl hj

/-- With enough steps, a search ends with parents that lead back from the target, or with a set of
nodes that the target is not in and no requirement leads out of. -/
theorem search_spec (hk : ∀ i j, a.Requires i j → j < a.size) {fuel : Nat}
    (h : Searching a start target s) (hf : a.remaining s < fuel) :
    match a.search target fuel s with
    | some parents => ∃ s', Tracked a start s' ∧ target ∈ s'.seen ∧ s'.parents = parents
    | none => ∃ seen : List Nat, start ∈ seen ∧ target ∉ seen ∧
        ∀ i ∈ seen, ∀ j, a.Requires i j → j ∈ seen := by
  induction fuel generalizing s with
  | zero => exact absurd hf (Nat.not_lt_zero _)
  | succ n ih =>
    obtain ⟨seen, parents, stack⟩ := s
    cases stack with
    | nil =>
      refine ⟨seen, h.tracked.start_seen, h.target_unseen, ?_⟩
      intro i hi
      exact (h.closed i hi).resolve_left List.not_mem_nil
    | cons i stack =>
      have hi : i ∈ seen := h.tracked.stack_seen i List.mem_cons_self
      have hdeps : ∀ j ∈ (a.requires i).reverse, a.Requires i j := by
        intro j hj
        exact List.mem_reverse.1 hj
      have hvisit := visit_spec hk h.tracked.pop h.target_unseen hi hdeps
      simp only [search]
      cases he : visit target i (a.requires i).reverse ⟨seen, parents, stack⟩ with
      | inl found =>
        rw [he] at hvisit
        exact hvisit
      | inr s' =>
        rw [he] at hvisit
        apply ih (h.next hvisit)
        have hle := hvisit.remaining_le
        simp only [remaining, List.length_cons] at hf hle ⊢
        omega

theorem IsTrail.isPath (h : IsTrail a start s i path) : IsPath a.Requires start i path.reverse where
  chain := List.isChain_reverse.2 h.chain
  head := by
    rw [List.head?_reverse]
    exact h.last
  last := by
    obtain ⟨rest, rfl⟩ := h.leads.exists_cons
    rw [List.getLast?_reverse, List.head?_cons]
  nodup := List.nodup_reverse.2 h.nodup

theorem reflTransGen_mem {seen : List Nat} (hi : i ∈ seen)
    (hc : ∀ i ∈ seen, ∀ j, a.Requires i j → j ∈ seen) (h : ReflTransGen a.Requires i j) :
    j ∈ seen := by
  induction h with
  | refl => exact hi
  | tail _ hr ih => exact hc _ ih _ hr

theorem findPath_spec (hk : ∀ i j, a.Requires i j → j < a.size) (start target : Nat) :
    match a.findPath start target with
    | some path => IsPath a.Requires start target path
    | none => ¬ ReflTransGen a.Requires start target := by
  rw [findPath]
  by_cases hst : start = target
  · rw [if_pos hst]
    exact ⟨.singleton _, rfl, hst ▸ rfl, List.nodup_singleton _⟩
  · rw [if_neg hst]
    have hinit : Searching a start target ⟨[start], [], [start]⟩ := by
      refine ⟨.initial a start, ?_, fun i hi => .inl hi⟩
      intro hm
      exact hst (List.mem_singleton.1 hm).symm
    have hfuel : a.remaining ⟨[start], [], [start]⟩ < a.size + 2 := by
      have hle := List.length_filter_le (· ∉ [start]) (List.range a.size)
      rw [List.length_range] at hle
      exact Nat.lt_succ_of_le (Nat.succ_le_succ hle)
    have hsearch := search_spec hk hinit hfuel
    cases hs : a.search target (a.size + 2) ⟨[start], [], [start]⟩ with
    | some parents =>
      rw [hs] at hsearch
      obtain ⟨s, htracked, hm, rfl⟩ := hsearch
      obtain ⟨path, hpath, hancestry⟩ := htracked.exists_ancestry hm
      rw [Option.map_some, hancestry]
      exact hpath.isPath
    | none =>
      rw [hs] at hsearch
      obtain ⟨seen, hstart, htarget, hclosed⟩ := hsearch
      intro hr
      exact htarget (reflTransGen_mem hstart hclosed hr)

end Arena

end ScriptBundler
