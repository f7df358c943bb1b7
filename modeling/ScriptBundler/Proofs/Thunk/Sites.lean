import ScriptBundler.Proofs.Thunk.Marks

namespace ScriptBundler

open Node

variable {name : String → String} {names : List String}

theorem Expr.run_visit_of_specifier? {e e' : Expr} (he : e'.specifier? = none)
    (h : (((Thunk.naming name).visit e (e.descend (Thunk.naming name))).run names).1 = e') :
    ((e.descend (Thunk.naming name)).run names).1 = e' := by
  rw [Thunk.run_visit_naming] at h
  cases hs : e.specifier? with
  | some specifier =>
    rw [hs] at h
    obtain rfl : e.withUrl (name specifier) = e' := h
    cases he.symm.trans (Expr.specifier?_withUrl (name specifier) hs)
  | none =>
    rw [hs] at h
    exact h

theorem Expr.eq_ident_of_walk {e : Expr} {n : String}
    (h : (((Thunk.naming name).visit e (e.descend (Thunk.naming name))).run names).1 = .ident n) :
    e = .ident n := by
  have hd := run_visit_of_specifier? rfl h
  cases e <;> first | exact hd | cases hd

theorem Expr.eq_string_of_walk {e : Expr} {s : String} {lone : Bool}
    (h : (((Thunk.naming name).visit e (e.descend (Thunk.naming name))).run names).1 =
      .string s lone) : e = .string s lone := by
  have hd := run_visit_of_specifier? rfl h
  cases e <;> first | exact hd | cases hd

theorem Expr.isInclude_of_walk {e e' : Expr} (hi : e'.isInclude = true)
    (h : (((Thunk.naming name).visit e (e.descend (Thunk.naming name))).run names).1 = e') :
    e.isInclude = true := by
  unfold isInclude at hi
  split at hi
  · obtain rfl := eq_ident_of_walk h
    exact hi
  · next base property isOptional =>
    have hd := run_visit_of_specifier? rfl h
    cases e with
    | member object property' isOptional' =>
      obtain ⟨hobject, rfl, -⟩ := Expr.member.inj hd
      obtain rfl := eq_ident_of_walk hobject
      exact hi
    | _ => cases hd
  · cases hi

theorem Expr.eq_of_descendAll {es : List Expr} {s : String} {lone : Bool}
    (h : ((Expr.descendAll (Thunk.naming name) es).run names).1 = [.string s lone]) :
    es = [.string s lone] := by
  have hlen := Expr.length_descendAll (v := Thunk.naming name) es names
  rw [h] at hlen
  obtain ⟨e, rfl⟩ := List.length_eq_one_iff.1 hlen.symm
  cases e with
  | spread value => cases h
  | _ => exact congrArg ([·]) (@eq_string_of_walk name names _ _ _ (List.cons.inj h).1)

/-- Walking the parts of an expression does not make it a call that loads a module. -/
theorem Expr.specifier?_descend {e : Expr} (he : e.specifier? = none) (names : List String) :
    ((e.descend (Thunk.naming name)).run names).1.specifier? = none := by
  rw [Option.eq_none_iff_forall_ne_some]
  intro specifier hs
  generalize hd : ((e.descend (Thunk.naming name)).run names).1 = e' at hs
  unfold specifier? at hs
  split at hs
  · cases e with
    | importCall phase args =>
      obtain ⟨rfl, hargs⟩ := Expr.importCall.inj hd
      rw [Expr.eq_of_descendAll hargs] at he
      cases he
    | _ => cases hd
  · next callee' s lone isOptional isPure =>
    split at hs
    · next hi =>
      cases e with
      | call callee args isOptional' isPure' =>
        obtain ⟨hcallee, hargs, -⟩ := Expr.call.inj hd
        have hcallee' := isInclude_of_walk hi hcallee
        rw [Expr.eq_of_descendAll hargs] at he
        cases he.symm.trans (if_pos hcallee')
      | _ => cases hd
    · cases hs
  · cases hs

namespace Thunk

def collecting : Visitor (List Expr) where
  onExpr e := fun calls => if e.specifier?.isSome then (some e, calls ++ [e]) else (none, calls)

theorem run_visit_collecting (e : Expr) (m : StateM (List Expr) Expr) (calls : List Expr) :
    (collecting.visit e m).run calls =
      if e.specifier?.isSome then (e, calls ++ [e]) else m.run calls := by
  simp only [Visitor.visit, collecting, StateT.run, bind, StateT.bind]
  cases e.specifier?.isSome <;> rfl

theorem collecting_related : Visitor.Related
    (fun a m _ => InStep (fun _ _ => True) (fun _ => True) Eq m (pure a : StateM Unit _))
    collecting collecting where
  pure _ := .pure rfl
  map _ h := h.map
  map₂ _ h h' := h.map₂ h'
  scopes := rfl
  expr e h calls _ _ := by
    rw [run_visit_collecting]
    split
    · exact ⟨trivial, fun _ => ⟨trivial, rfl⟩⟩
    · exact h calls () trivial
  body _ h := h
  declarations _ _ := .pure rfl
  forAwait := .pure rfl

/-- What `name` makes of the specifier of a call. -/
def called (name : String → String) (e : Expr) : String := name (e.specifier?.getD "")

/-- A call names its module as `name` would have it. -/
def IsSettled (name : String → String) (e : Expr) : Prop := e.withUrl (called name e) = e

theorem collecting_agree (name : String → String) :
    Visitor.Agree (fun calls names => names = calls.map (called name))
      (fun calls => ∀ e ∈ calls, IsSettled name e) collecting (naming name) := by
  refine ⟨InStep.combines _ _, rfl, fun e h calls names hn => ?_, fun _ h => h,
    fun _ _ => .pure rfl, .pure rfl⟩
  rw [run_visit_naming, run_visit_collecting]
  cases hs : e.specifier? with
  | none => exact h calls names hn
  | some specifier =>
    have hc : called name e = name specifier := by rw [called, hs, Option.getD_some]
    refine ⟨?_, fun hg => ⟨fun e' he' => hg e' (List.mem_append_left _ he'), ?_⟩⟩
    · simp [hn, hc]
    · have he := hg e (List.mem_append_right _ (List.mem_singleton_self e))
      rw [IsSettled, hc] at he
      exact he.symm

end Thunk

namespace Node

/-- The call that loads a module which a walk comes to at a node. -/
def site? : Node → Option Expr
  | .expr .element _ => none
  | .expr _ e => if e.specifier?.isSome then some e else none
  | _ => none

/-- A call that loads a module occurs in a node. -/
inductive Loads (e : Expr) : Node → Prop where
  | here {n : Node} (hn : n.site? = some e) : Loads e n
  | part {n m : Node} (hm : m ∈ n.parts) (h : Loads e m) : Loads e n

variable {e : Expr} {n m : Node}

theorem site?_eq_some (h : n.site? = some e) :
    ∃ place, n = .expr place e ∧ place ≠ .element ∧ e.specifier?.isSome := by
  unfold site? at h
  split at h
  · cases h
  · next place e' hp =>
    split at h
    · next he =>
      obtain rfl := Option.some.inj h
      exact ⟨place, rfl, hp, he⟩
    · cases h
  · cases h

theorem site?_expr {place : Place} (hp : place ≠ .element) (e : Expr) :
    (Node.expr place e).site? = if e.specifier?.isSome then some e else none := by
  cases place with
  | element => exact absurd rfl hp
  | _ => rfl

theorem specifier?_of_site? {place : Place} (hp : place ≠ .element)
    (h : (Node.expr place e).site? = none) : e.specifier? = none := by
  rw [site?_expr hp] at h
  simpa using h

theorem not_loads_of_leaf (hn : n.site? = none) (hp : n.parts = []) : ¬ Loads e n := by
  intro h
  cases h with
  | here h =>
    rw [hn] at h
    cases h
  | part hm _ =>
    rw [hp] at hm
    cases hm

/-- A name, a string, or a member of a name, as the parts of a call that loads a module are. -/
def IsInert : Node → Prop
  | .expr place (.ident _) => place ≠ .element
  | .expr place (.string _ _) => place ≠ .element
  | .expr place (.member (.ident _) _ _) => place ≠ .element
  | _ => False

theorem IsInert.cases (h : n.IsInert) : ∃ place e, n = .expr place e ∧ place ≠ .element ∧
    ((∃ name, e = .ident name) ∨ (∃ value lone, e = .string value lone) ∨
      ∃ name property isOptional, e = .member (.ident name) property isOptional) := by
  unfold IsInert at h
  split at h
  · exact ⟨_, _, rfl, h, .inl ⟨_, rfl⟩⟩
  · exact ⟨_, _, rfl, h, .inr (.inl ⟨_, _, rfl⟩)⟩
  · exact ⟨_, _, rfl, h, .inr (.inr ⟨_, _, _, rfl⟩)⟩
  · exact h.elim

theorem IsInert.part (h : n.IsInert) (hm : m ∈ n.parts) : m.IsInert := by
  obtain ⟨place, e, rfl, -, hshape⟩ := h.cases
  rcases hshape with ⟨name, rfl⟩ | ⟨value, lone, rfl⟩ | ⟨name, property, isOptional, rfl⟩
  · cases hm
  · cases hm
  · obtain rfl := List.mem_singleton.1 hm
    exact Place.noConfusion

/-- No part of a call that loads a module loads one itself. -/
theorem isInert_of_site? (hn : n.site? = some e) (hm : m ∈ n.parts) : m.IsInert := by
  obtain ⟨place, rfl, -, he⟩ := site?_eq_some hn
  unfold Expr.specifier? at he
  split at he
  · obtain rfl := List.mem_singleton.1 hm
    exact Place.noConfusion
  · split at he
    · next hi =>
      rcases List.mem_cons.1 hm with rfl | hm
      · unfold Expr.isInclude at hi
        split at hi
        · exact Place.noConfusion
        · exact Place.noConfusion
        · cases hi
      · obtain rfl := List.mem_singleton.1 hm
        exact Place.noConfusion
    · cases he
  · cases he

theorem IsInert.specifier? {place : Place} (h : (Node.expr place e).IsInert) :
    e.specifier? = none := by
  obtain ⟨_, _, he, -, hshape⟩ := h.cases
  obtain ⟨rfl, rfl⟩ := Node.expr.inj he
  rcases hshape with ⟨_, rfl⟩ | ⟨_, _, rfl⟩ | ⟨_, _, _, rfl⟩ <;> rfl

theorem IsInert.not_loads (h : n.IsInert) : ¬ Loads e n := by
  intro hloads
  induction hloads with
  | here hn =>
    obtain ⟨place, rfl, -, hsome⟩ := site?_eq_some hn
    rw [h.specifier?] at hsome
    cases hsome
  | part hm _ ih => exact ih (h.part hm)

/-- A call that loads a module has no others in it. -/
theorem Loads.eq_of_site? {e' : Expr} (h : Loads e n) (hn : n.site? = some e') : e = e' := by
  cases h with
  | here h => exact Option.some.inj (h.symm.trans hn)
  | part hm h => exact absurd h (isInert_of_site? hn hm).not_loads

theorem run_walk_collecting (n : Node) (calls : List Expr) :
    (n.walk Thunk.collecting).run calls = match n.site? with
      | some e => (n, calls ++ [e])
      | none => (n.descend Thunk.collecting).run calls := by
  have hvisit (place : Place) (e : Expr) :
      (((do return .expr place (← Thunk.collecting.visit e (e.descend Thunk.collecting))) :
          StateM (List Expr) Node).run calls) =
        match if e.specifier?.isSome then some e else none with
        | some e' => (.expr place e, calls ++ [e'])
        | none => ((Node.expr place e).descend Thunk.collecting).run calls := by
    simp only [StateT.run_bind, Thunk.run_visit_collecting]
    cases e.specifier?.isSome <;> rfl
  cases n with
  | expr place e =>
    cases place with
    | operand => exact hvisit .operand e
    | item =>
      cases e with
      | spread value => rfl
      | _ => exact hvisit .item _
    | element => rfl
  | _ => rfl

theorem mem_collecting (n : Node) (calls : List Expr) :
    e ∈ ((n.walk Thunk.collecting).run calls).2 ↔ e ∈ calls ∨ Loads e n := by
  induction n using parts_induction generalizing calls with
  | node n ih =>
    rw [run_walk_collecting]
    cases hn : n.site? with
    | some e' =>
      simp only [List.mem_append, List.mem_singleton]
      refine or_congr_right ⟨?_, ?_⟩
      · rintro rfl
        exact .here hn
      · intro h
        exact h.eq_of_site? hn
    | none =>
      have hparts := parts_descend_of_enters (v := Thunk.collecting) rfl (fun _ _ => rfl) n
      have hnote : n.note Thunk.collecting = pure () := by
        unfold note
        split <;> rfl
      rw [hnote] at hparts
      have hrun : ((n.descend Thunk.collecting).run calls).2 =
          ((walkAll Thunk.collecting n.parts).run calls).2 :=
        congrArg (fun m => (StateT.run m calls).2) hparts
      change e ∈ ((n.descend Thunk.collecting).run calls).2 ↔ _
      rw [hrun, walkAll_collects (P := (e ∈ ·)) ih]
      refine or_congr_right ⟨?_, ?_⟩
      · rintro ⟨m, hm, h⟩
        exact .part hm h
      · intro h
        cases h with
        | here h => cases hn.symm.trans h
        | part hm h => exact ⟨_, hm, h⟩

theorem walk_naming_of_site?_none (hn : n.site? = none) (names : List String) :
    (n.walk (Thunk.naming name)).run names = (n.descend (Thunk.naming name)).run names := by
  have hvisit {place : Place} {e : Expr} (he : e.specifier? = none) :
      (((do return .expr place (← (Thunk.naming name).visit e (e.descend (Thunk.naming name)))) :
          StateM (List String) Node).run names) =
        ((Node.expr place e).descend (Thunk.naming name)).run names := by
    simp only [StateT.run_bind, Thunk.run_visit_naming, he]
    rfl
  cases n with
  | expr place e =>
    cases place with
    | operand => exact hvisit (specifier?_of_site? (by decide) hn)
    | item =>
      cases e with
      | spread value => rfl
      | _ => exact hvisit (specifier?_of_site? (by decide) hn)
    | element => rfl
  | _ => rfl

theorem walk_naming_of_site? (hn : n.site? = some e) (names : List String) :
    ((n.walk (Thunk.naming name)).run names).1.site? = some (e.withUrl (Thunk.called name e)) := by
  obtain ⟨place, rfl, hp, he⟩ := site?_eq_some hn
  obtain ⟨specifier, hs⟩ := Option.isSome_iff_exists.1 he
  have hc : Thunk.called name e = name specifier := by
    rw [Thunk.called, hs, Option.getD_some]
  have hu := Expr.specifier?_withUrl (name specifier) hs
  have hvisit (place : Place) (hp : place ≠ .element) :
      ((((do return .expr place (← (Thunk.naming name).visit e (e.descend (Thunk.naming name)))) :
          StateM (List String) Node).run names).1.site?) = some (e.withUrl (name specifier)) := by
    simp only [StateT.run_bind, Thunk.run_visit_naming, hs]
    refine (site?_expr hp _).trans ?_
    rw [hu, Option.isSome_some, if_pos rfl]
  rw [hc]
  cases place with
  | operand => exact hvisit .operand hp
  | item =>
    cases e with
    | spread value => cases he
    | _ => exact hvisit .item hp
  | element => exact absurd rfl hp

theorem site?_descend (hn : n.site? = none) (names : List String) :
    ((n.descend (Thunk.naming name)).run names).1.site? = none := by
  cases n with
  | expr place e =>
    by_cases hp : place = .element
    · subst hp
      rfl
    · have hd : ((e.descend (Thunk.naming name)).run names).1.specifier? = none :=
        Expr.specifier?_descend (specifier?_of_site? hp hn) names
      refine (site?_expr hp ((e.descend (Thunk.naming name)).run names).1).trans ?_
      rw [hd, Option.isSome_none, if_neg Bool.false_ne_true]
  | declarator d =>
    cases d
    rfl
  | case c =>
    cases c
    rfl
  | _ => rfl

theorem loads_of_loads_walk {names : List String} (h : Loads e m)
    (hm : m = ((n.walk (Thunk.naming name)).run names).1) :
    ∃ e', Loads e' n ∧ e = e'.withUrl (Thunk.called name e') := by
  induction h generalizing n names with
  | @here m hsite =>
    cases hn : n.site? with
    | none =>
      rw [hm, walk_naming_of_site?_none hn, site?_descend hn] at hsite
      cases hsite
    | some e' =>
      rw [hm, walk_naming_of_site? hn] at hsite
      exact ⟨e', .here hn, (Option.some.inj hsite).symm⟩
  | @part m m' hpart h ih =>
    cases hn : n.site? with
    | none =>
      rw [walk_naming_of_site?_none hn] at hm
      obtain ⟨names', hp⟩ := n.parts_descend_naming name names
      rw [hm, hp] at hpart
      obtain ⟨n', hn', names'', he⟩ := mem_walkAll hpart
      obtain ⟨e', he', heq⟩ := ih he
      exact ⟨e', .part hn' he', heq⟩
    | some e' =>
      have hsite : m.site? = some (e'.withUrl (Thunk.called name e')) :=
        hm ▸ walk_naming_of_site? hn names
      exact ⟨e', .here hn, (Loads.part hpart h).eq_of_site? hsite⟩

theorem mem_walk_naming {u : String} :
    u ∈ ((n.walk (Thunk.naming name)).run []).2 ↔ ∃ e, Loads e n ∧ Thunk.called name e = u := by
  have hrel := walk_related (Thunk.collecting_agree name) n [] [] rfl
  rw [hrel.1, List.mem_map]
  simp only [mem_collecting, List.not_mem_nil, false_or]

theorem not_loads_of_naming (h : ((n.walk (Thunk.naming id)).run []).2 = []) : ¬ Loads e n := by
  intro he
  have hm : Thunk.called id e ∈ ((n.walk (Thunk.naming id)).run []).2 :=
    mem_walk_naming.2 ⟨e, he, rfl⟩
  rw [h] at hm
  cases hm

theorem walk_naming_of_isSettled (h : ∀ e, Loads e n → Thunk.IsSettled name e) :
    ((n.walk (Thunk.naming name)).run []).1 = n := by
  have hrel := walk_related (Thunk.collecting_agree name) n [] [] rfl
  have hsame := walk_related Thunk.collecting_related n [] () trivial
  have hgood : ∀ e ∈ ((n.walk Thunk.collecting).run []).2, Thunk.IsSettled name e := by
    simpa only [mem_collecting, List.not_mem_nil, false_or] using h
  exact (hrel.2 hgood).2.symm.trans (hsame.2 trivial).2

theorem Loads.isSome (h : Loads e n) : e.specifier?.isSome := by
  induction h with
  | here hn =>
    obtain ⟨place, -, -, he⟩ := site?_eq_some hn
    exact he
  | part _ _ ih => exact ih

end Node

namespace Thunk

variable {e : Expr}

theorem isSettled_withUrl (he : e.specifier?.isSome) {url : String} (hu : name url = url) :
    IsSettled name (e.withUrl url) ∧ called name (e.withUrl url) = url := by
  obtain ⟨specifier, hs⟩ := Option.isSome_iff_exists.1 he
  have hc : called name (e.withUrl url) = url := by
    rw [called, Expr.specifier?_withUrl url hs, Option.getD_some, hu]
  refine ⟨?_, hc⟩
  rw [IsSettled, hc]
  unfold Expr.specifier? at hs
  split at hs
  · rfl
  · rfl
  · cases hs

end Thunk

/-- After its calls are named, a tree names the same modules, and nothing is left to be named. -/
theorem Node.loads_walk (hn : ∀ u, name (name u) = name u) {n : Node} {e : Expr}
    {names : List String} (h : Loads e ((n.walk (Thunk.naming name)).run names).1) :
    Thunk.IsSettled name e ∧ Thunk.called name e ∈ ((n.walk (Thunk.naming name)).run []).2 := by
  obtain ⟨e', he', rfl⟩ := loads_of_loads_walk h rfl
  obtain ⟨hsettled, hcalled⟩ := Thunk.isSettled_withUrl he'.isSome (hn (e'.specifier?.getD ""))
  exact ⟨hsettled, mem_walk_naming.2 ⟨e', he', hcalled.symm⟩⟩

end ScriptBundler
