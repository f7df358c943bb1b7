import ScriptBundler.Proofs.Thunk.References

namespace ScriptBundler.Thunk

/-- The statements of a draft. -/
structure Pieces where
  imports : List (String × ImportGroup) := []
  passThroughs : List Stmt := []
  body : List Stmt := []

def Draft.pieces (d : Draft) : Pieces := ⟨d.imports, d.passThroughs, d.body⟩

namespace Drafting

variable {origin : String} {refs refs' : List String} {α β : Type}

/-- How a step that refers to `refs` ends. Without errors, `after` is what comes of it. -/
inductive Outcome (origin : String) (refs : List String) (d : Draft) (after : α × Pieces) :
    Except BuildError α → Draft → Prop where
  | ok {es : List BuildError} {value : α} {d' : Draft}
      (linked : Graph.Linked origin d.links.graph refs es d'.links.graph)
      (errors : d'.errors = d.errors ++ es)
      (pieces : d'.errors = [] → (value, d'.pieces) = after) :
    Outcome origin refs d after (.ok value) d'
  | error {met : List String} {es : List BuildError} {e : BuildError} {d' : Draft}
      (initial : met <+: refs)
      (linked : Graph.Linked origin d.links.graph met es d'.links.graph)
      (mem : e ∈ es) : Outcome origin refs d after (.error e) d'

def Effect (origin : String) (refs : List String) (f : Pieces → α × Pieces) (m : Drafting α) :
    Prop :=
  ∀ d, Outcome origin refs d (f d.pieces) (m.run.run d).1 (m.run.run d).2

theorem run_bind (m : Drafting α) (k : α → Drafting β) (d : Draft) :
    (m >>= k).run.run d = match m.run.run d with
      | (.ok a, d') => (k a).run.run d'
      | (.error e, d') => (.error e, d') := by
  simp only [ExceptT.run_bind, StateT.run_bind]
  generalize StateT.run m.run d = answer
  obtain ⟨_ | _, _⟩ := answer <;> rfl

namespace Effect

variable {f : Pieces → α × Pieces}

theorem pure (a : α) : Effect origin [] (fun p => (a, p)) (pure a : Drafting α) :=
  fun _ => .ok .refl (List.append_nil _).symm fun _ => rfl

theorem bind {m : Drafting α} {k : α → Drafting β} {g : α → Pieces → β × Pieces}
    (hm : Effect origin refs f m) (hk : ∀ a, Effect origin refs' (g a) (k a)) :
    Effect origin (refs ++ refs') (fun p => g (f p).1 (f p).2) (m >>= k) := by
  intro d
  have hd := hm d
  rw [run_bind]
  generalize m.run.run d = answer at hd
  obtain ⟨result, d'⟩ := answer
  cases hd with
  | error met linked mem =>
    exact .error (met.trans (List.prefix_append _ _)) linked mem
  | @ok es value _ linked errors pieces =>
    have hd' := hk value d'
    change Outcome origin _ d _ ((k value).run.run d').1 ((k value).run.run d').2
    generalize (k value).run.run d' = answer' at hd'
    obtain ⟨result', d''⟩ := answer'
    cases hd' with
    | error met linked' mem =>
      exact .error ((List.prefix_append_right_inj _).2 met) (linked.trans linked')
        (List.mem_append_right _ mem)
    | ok linked' errors' pieces' =>
      refine .ok (linked.trans linked') (by rw [errors', errors, List.append_assoc]) fun hnil => ?_
      have hd : d'.errors = [] := (List.append_eq_nil_iff.1 (errors' ▸ hnil)).1
      exact (pieces' hnil).trans (congrArg (fun r => g r.1 r.2) (pieces hd))

theorem congr {f' : Pieces → α × Pieces} {m : Drafting α} (h : Effect origin refs f m)
    (hf : ∀ p, f p = f' p) (hr : refs = refs') : Effect origin refs' f' m := by
  obtain rfl : f = f' := funext hf
  exact hr ▸ h

theorem modify {f : Draft → Draft} {f' : Pieces → Pieces}
    (hg : ∀ d, Graph.Linked origin d.links.graph [] [] (f d).links.graph)
    (he : ∀ d, (f d).errors = d.errors) (hf : ∀ d, (f d).pieces = f' d.pieces) :
    Effect origin [] (fun p => ((), f' p)) (modify f : Drafting Unit) :=
  fun d => .ok (hg d) ((he d).trans (List.append_nil _).symm) fun _ => congrArg ((), ·) (hf d)

theorem forM {l : List β} {refs : β → List String} {k : β → Drafting PUnit}
    {f : β → Pieces → Pieces}
    (h : ∀ b ∈ l, Effect origin (refs b) (fun p => ((), f b p)) (k b)) :
    Effect origin (l.flatMap refs) (fun p => ((), l.foldl (fun p b => f b p) p)) (l.forM k) := by
  induction l with
  | nil => exact .pure ()
  | cons b l ih =>
    exact (h b List.mem_cons_self).bind (g := fun _ p => ((), l.foldl (fun p b => f b p) p))
      fun _ => ih fun b hb => h b (List.mem_cons_of_mem _ hb)

end Effect

theorem require_effect (specifier : String) :
    Effect origin [Url.resolve origin specifier] (fun p => (Url.resolve origin specifier, p))
      (require origin specifier) := by
  intro d
  have hg := graph_require d.links origin specifier
  have hr := result_require d.links origin specifier
  have hl := Graph.Linked.require (.refl : Graph.Linked origin d.links.graph [] [] d.links.graph)
    (Url.resolve origin specifier)
  have hm : (require origin specifier).run.run d =
      ((d.links.require origin specifier).1,
        { d with links := (d.links.require origin specifier).2 }) := rfl
  rw [hm]
  rw [← hg] at hl
  generalize d.links.require origin specifier = answer at hr hl
  obtain ⟨result, links⟩ := answer
  cases he : (d.links.graph.require origin (Url.resolve origin specifier)).1 with
  | none =>
    rw [he] at hr hl
    obtain rfl := hr
    exact .ok hl (List.append_nil _).symm fun _ => rfl
  | some e =>
    rw [he] at hr hl
    obtain rfl := hr
    exact .error (List.prefix_refl _) hl (List.mem_singleton_self e)

theorem recordExport_effect (name : String) (binding : Binding) :
    Effect origin [] (fun p => ((), p)) (recordExport origin name binding) :=
  .modify (fun _ => Graph.Linked.refl.addExport name binding) (fun _ => rfl) fun _ => rfl

theorem group_effect (url : String) (f : ImportGroup → ImportGroup) :
    Effect origin [] (fun p => ((), { p with imports := updateGroup url f p.imports }))
      (group url f) :=
  .modify (fun _ => .refl) (fun _ => rfl) fun _ => rfl

theorem append_effect (s : Stmt) :
    Effect origin [] (fun p => ((), { p with body := p.body ++ [s] })) (append s) :=
  .modify (fun _ => .refl) (fun _ => rfl) fun _ => rfl

/-- A walk in step with one that only collects urls. -/
theorem redirectCalls_effect {walk : StateM CallSites α} {collect : StateM (List String) α}
    (h : ∀ start,
      InStep (CallSites.Since origin start) (fun cs => cs.errors = []) Eq walk collect) :
    Effect origin (collect.run []).2 (fun p => ((collect.run []).1, p)) (redirectCalls walk) := by
  intro d
  obtain ⟨⟨es, he, hl⟩, hr⟩ := h ⟨d.links, d.errors⟩ ⟨d.links, d.errors⟩ [] (.refl _ _)
  exact .ok hl he fun hnil => Prod.ext (hr hnil).2 rfl

theorem keep_effect (s : Stmt) :
    Effect origin (s.calls (Url.resolve origin))
      (fun p => ((), { p with body := p.body ++ [s.renamed (Url.resolve origin)] }))
      (keep origin s) :=
  ((redirectCalls_effect fun start =>
      Stmt.descend_related (CallSites.visitor_agree start) s).bind append_effect).congr
    (fun _ => rfl) (List.append_nil _)

end Drafting

end ScriptBundler.Thunk
