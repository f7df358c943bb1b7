import ScriptBundler.Proofs.Thunk.Independence
import ScriptBundler.Proofs.Thunk.Leftover
import ScriptBundler.Proofs.Thunk.Awaits
import ScriptBundler.Proofs.Thunk.Sites
import ScriptBundler.Proofs.Url

namespace ScriptBundler

open Node

namespace Graph

variable {g g' : Graph} {origin u : String} {refs : List String} {es : List BuildError}

/-- The module at `origin` refers to `u` already. -/
structure IsLinked (g : Graph) (origin u : String) : Prop where
  required : g.Requires origin u
  known : u ∈ g.urls

theorem IsLinked.require (h : g.IsLinked origin u) : g.require origin u = (none, g) := by
  rw [Graph.require, add_of_mem h.known]
  rcases addEdge_cases (mem_urls_of_requires h.required) h.known with
    ⟨-, ha⟩ | ⟨hn, -⟩ | ⟨hn, -⟩
  · rw [ha]
  · exact absurd h.required hn
  · exact absurd h.required hn

/-- What a module refers to without an error, it requires from then on. -/
theorem isLinked_require (ho : origin ∈ g.urls) {url : String}
    (hr : (g.require origin url).1 = none) :
    (g.require origin url).2.IsLinked origin url ∧
      ∀ v, g.IsLinked origin v → (g.require origin url).2.IsLinked origin v := by
  have hua : url ∈ (g.add url).urls := mem_urls_add.2 (.inr rfl)
  have hkeep (v : String) (h : g.IsLinked origin v) : (g.add url).IsLinked origin v :=
    ⟨by rw [requires_rel_add]; exact h.required, mem_urls_add.2 (.inl h.known)⟩
  rw [Graph.require] at hr ⊢
  have hoa : origin ∈ (g.add url).urls := mem_urls_add.2 (.inl ho)
  rcases addEdge_cases hoa hua with ⟨hq, ha⟩ | ⟨-, path, -, ha⟩ | ⟨hq, -, ha⟩
  · rw [ha]
    exact ⟨⟨hq, hua⟩, hkeep⟩
  · rw [ha] at hr
    cases hr
  · rw [ha]
    refine ⟨⟨(requires_join_iff hoa hua hq).2 (.inr ⟨rfl, rfl⟩), by rwa [urls_join]⟩, ?_⟩
    intro v h
    exact ⟨(requires_join_iff hoa hua hq).2 (.inl (hkeep v h).required), by
      rw [urls_join]
      exact (hkeep v h).known⟩

theorem Linked.isLinked (h : Linked origin g refs es g') (ho : origin ∈ g.urls) (he : es = []) :
    origin ∈ g'.urls ∧ ∀ u ∈ refs, g'.IsLinked origin u := by
  induction h with
  | refl => exact ⟨ho, fun _ hu => absurd hu List.not_mem_nil⟩
  | @require refs es g' h url ih =>
    obtain ⟨hes, hnone⟩ := List.append_eq_nil_iff.1 he
    obtain ⟨ho', hrefs⟩ := ih hes
    obtain ⟨hnew, hold⟩ := isLinked_require ho' (Option.toList_eq_nil_iff.1 hnone)
    refine ⟨mem_urls_require url ho', ?_⟩
    intro u hu
    rcases List.mem_append.1 hu with hu | hu
    · exact hold u (hrefs u hu)
    · obtain rfl := List.mem_singleton.1 hu
      exact hnew
  | @addExport _ _ g' _ name binding ih =>
    obtain ⟨ho', hrefs⟩ := ih he
    have hs := sameLinks_addExport g' origin name binding
    rw [urls_addExport]
    refine ⟨ho', ?_⟩
    intro u hu
    exact ⟨by rw [hs.requires_eq]; exact (hrefs u hu).required, by
      rw [urls_addExport]
      exact (hrefs u hu).known⟩

end Graph

namespace Thunk

variable {origin : String} {style : Style} {scope : Scope} {body result : List Stmt}
  {links links' : Links} {g : Graph} {s : Stmt} {e : Expr}

namespace CallSites

/-- Redirecting calls of modules that are linked already changes nothing in the graph. -/
theorem visitor_idle (g : Graph) : Visitor.Related
    (fun _ m n => InStep
      (fun cs names => (∀ u ∈ names, g.IsLinked origin u) → cs.links.graph = g ∧ cs.errors = [])
      (fun _ => True) (fun _ _ => True) m n)
    (visitor origin) (naming (Url.resolve origin)) where
  pure _ := .pure trivial
  map _ h := h.bind fun _ _ => .pure fun _ => trivial
  map₂ _ h h' := h.bind fun _ _ => h'.bind fun _ _ => .pure fun _ _ => trivial
  scopes := rfl
  expr e h cs names hcs := by
    rw [run_visit_naming]
    cases he : e.specifier? with
    | none =>
      rw [run_visit_none cs he]
      exact h cs names hcs
    | some specifier =>
      obtain ⟨log, hr⟩ := run_visit origin cs he
      rw [hr]
      refine ⟨?_, fun _ => ⟨trivial, trivial⟩⟩
      intro hall
      obtain ⟨hg, hes⟩ := hcs fun u hu => hall u (List.mem_append_left _ hu)
      have hu := hall _ (List.mem_append_right _ (List.mem_singleton_self _))
      simp only [hg, hu.require, hes, Option.toList_none, List.append_nil, and_self]
  body _ h := h
  declarations _ _ := .pure trivial
  forAwait := .pure trivial

end CallSites

/-- A statement that another lowering leaves as it is. -/
structure Settled (origin : String) (g : Graph) (s : Stmt) : Prop where
  plain : (Node.stmt s).mark? ≠ some .moduleItem
  renamed : s.renamed (Url.resolve origin) = s
  linked : ∀ u ∈ s.calls (Url.resolve origin), g.IsLinked origin u

namespace Drafting

theorem statement_of_mark (h : (Node.stmt s).mark? ≠ some .moduleItem) :
    statement origin style scope s = keep origin s := by
  cases s with
  | importDecl | exportDecl | exportNames | exportAll | exportDefaultFunction | exportDefaultClass
  | exportDefault => exact absurd rfl h
  | _ => rfl

theorem run_keep (hs : Settled origin g s) {d : Draft} (hg : d.links.graph = g)
    (he : d.errors = []) : ∃ log, (keep origin s).run.run d =
      (.ok (), { d with links := ⟨g, log⟩, body := d.body ++ [s] }) := by
  -- once for what becomes of the graph, and once for the statement
  have hidle := (Stmt.descend_related (CallSites.visitor_idle g) s ⟨d.links, d.errors⟩ []
    fun _ => ⟨hg, he⟩).1 hs.linked
  have hagree := (Stmt.descend_related (CallSites.visitor_agree ⟨d.links, d.errors⟩) s
    ⟨d.links, d.errors⟩ [] (.refl _ _)).2 hidle.2
  have hsame : ((s.descend (CallSites.visitor origin)).run ⟨d.links, d.errors⟩).1 = s :=
    hagree.2.trans hs.renamed
  have hrun : (keep origin s).run.run d =
      (.ok (), { d with
        links := ((s.descend (CallSites.visitor origin)).run ⟨d.links, d.errors⟩).2.links
        errors := ((s.descend (CallSites.visitor origin)).run ⟨d.links, d.errors⟩).2.errors
        body := d.body ++ [((s.descend (CallSites.visitor origin)).run ⟨d.links, d.errors⟩).1] }) :=
    rfl
  refine ⟨((s.descend (CallSites.visitor origin)).run ⟨d.links, d.errors⟩).2.links.log, ?_⟩
  rw [hrun, hsame, hidle.2, ← hidle.1, he]

theorem run_statements (hs : ∀ s ∈ body, Settled origin g s) {d : Draft}
    (hg : d.links.graph = g) (he : d.errors = []) :
    ∃ log, (body.forM (statement origin style scope)).run.run d =
      (.ok (), { d with links := ⟨g, log⟩, body := d.body ++ body }) := by
  induction body generalizing d with
  | nil =>
    refine ⟨d.links.log, ?_⟩
    rw [List.append_nil, ← hg]
    rfl
  | cons s body ih =>
    have hsettled := hs s List.mem_cons_self
    obtain ⟨log, hrun⟩ := run_keep hsettled hg he
    obtain ⟨log', hrest⟩ := ih (fun s' hs' => hs s' (List.mem_cons_of_mem _ hs'))
      (d := { d with links := ⟨g, log⟩, body := d.body ++ [s] }) rfl he
    refine ⟨log', ?_⟩
    change (statement origin style scope s >>= fun _ =>
      body.forM (statement origin style scope)).run.run d = _
    rw [run_bind, statement_of_mark hsettled.plain, hrun]
    simp only [hrest, List.append_assoc, List.singleton_append]

end Drafting

/-- Statements that are settled are lowered to themselves. -/
theorem ofBody_of_settled (hs : ∀ s ∈ body, Settled origin g s) (hg : links.graph = g)
    (ha : ((Scope.ofBody body).hasAwait && style.strategy = .eager) = false) :
    ∃ log, ofBody origin style body links = (.ok body, ⟨g, log⟩) := by
  have hrun : ∃ log, (body.forM (Drafting.statement origin style (Scope.ofBody body))).run.run
      { links := links } = (.ok (), { links := ⟨g, log⟩, body := body }) :=
    Drafting.run_statements hs hg rfl
  obtain ⟨log, hrun⟩ := hrun
  refine ⟨log, ?_⟩
  rw [ofBody]
  simp only [ha, Bool.false_eq_true, ↓reduceIte, hrun]
  rfl

section Pieces

theorem loads_part {n : Node} (h : Loads e n) (hn : n.site? = none) : ∃ m ∈ n.parts, Loads e m := by
  cases h with
  | here h => cases hn.symm.trans h
  | part hm h => exact ⟨_, hm, h⟩

theorem loads_single {n m : Node} (h : Loads e n) (hn : n.site? = none) (hm : n.parts = [m]) :
    Loads e m := by
  obtain ⟨m', hm', h⟩ := loads_part h hn
  rw [hm, List.mem_singleton] at hm'
  exact hm' ▸ h

theorem Descriptor.IsReference.not_loads {d : Descriptor} (h : d.IsReference) :
    ¬ Loads e (.expr .operand d.toExpr) := by
  apply not_loads_of_naming
  cases d with
  | binding localName isMutable => cases isMutable <;> rfl
  | getter e =>
    obtain ⟨localName, name, rfl⟩ := h
    rw [propertyOf]
    split <;> rfl
  | value e =>
    obtain ⟨localName, rfl⟩ := h
    rfl

theorem Descriptor.loads_value {e' : Expr}
    (h : Loads e (.expr .operand (Descriptor.value e').toExpr)) : Loads e (.expr .operand e') := by
  obtain ⟨m, hm, h⟩ := loads_part h rfl
  rcases List.mem_cons.1 hm with rfl | hm
  · obtain ⟨m, hm, h⟩ := loads_part h rfl
    rcases List.mem_cons.1 hm with rfl | hm
    · exact absurd h (not_loads_of_leaf rfl rfl)
    · obtain rfl := List.mem_singleton.1 hm
      exact h
  · obtain rfl := List.mem_singleton.1 hm
    exact absurd h (not_loads_of_naming rfl)

theorem loads_publish {exports : List (String × Descriptor)}
    (h : Loads e (.stmt (publish exports))) :
    ∃ p ∈ exports, Loads e (.expr .operand p.2.toExpr) := by
  replace h := loads_single (loads_single h rfl rfl) rfl rfl
  obtain ⟨m, hm, h⟩ := loads_part h rfl
  obtain ⟨property, hp, rfl⟩ := List.mem_map.1 hm
  obtain ⟨⟨name, d⟩, hd, rfl⟩ := List.mem_map.1 hp
  obtain ⟨m, hm, h⟩ := loads_part h rfl
  rcases List.mem_cons.1 hm with rfl | hm
  · have hkey : ¬ Loads e (.key (keyOf name)) := by
      apply not_loads_of_naming
      rw [keyOf]
      split <;> rfl
    exact absurd h hkey
  · obtain rfl := List.mem_singleton.1 hm
    exact ⟨_, hd, h⟩

theorem not_loads_namesPattern (g : ImportGroup) : ¬ Loads e (.pattern g.namesPattern) := by
  intro h
  obtain ⟨m, hm, h⟩ := loads_part h rfl
  obtain ⟨property, hp, rfl⟩ := List.mem_map.1 hm
  obtain ⟨⟨imported, localName⟩, -, rfl⟩ := List.mem_map.1 hp
  revert h
  apply not_loads_of_naming
  rw [ImportGroup.nameProperty]
  split
  · rfl
  · rw [keyOf]
    split <;> rfl

/-- The declaration of a group only includes the module of the group. -/
theorem loads_toStmt {g : ImportGroup} {strategy : LoaderStrategy} {url : String}
    (h : Loads e (.stmt (g.toStmt (includeExpr strategy url)))) :
    e = .call (.ident "include") [.string url] := by
  obtain ⟨m, hm, h⟩ := loads_part (loads_single h rfl rfl) rfl
  obtain ⟨d, hd, rfl⟩ := List.mem_map.1 hm
  obtain ⟨pattern, source, rfl, hs, hp⟩ := mem_declarators hd
  obtain ⟨m, hm, h⟩ := loads_part h rfl
  rcases List.mem_cons.1 hm with rfl | hm
  · exfalso
    revert h
    rcases hp with ⟨name, rfl | rfl⟩ | rfl
    · exact not_loads_of_naming rfl
    · exact not_loads_of_naming rfl
    · exact not_loads_namesPattern g
  · obtain rfl := List.mem_singleton.1 hm
    rcases hs with rfl | ⟨name, rfl⟩
    · cases strategy with
      | eager => exact h.eq_of_site? rfl
      | lazy => exact (loads_single h rfl rfl).eq_of_site? rfl
    · exact absurd h (not_loads_of_naming rfl)

end Pieces

/-- What a lowered module leaves of a call is settled, and names a module that `refs` has. -/
def IsNamed (origin : String) (refs : List String) (n : Node) : Prop :=
  ∀ e, Loads e n →
    IsSettled (Url.resolve origin) e ∧ called (Url.resolve origin) e ∈ refs

theorem Settled.of_isNamed {refs : List String} (hplain : (Node.stmt s).mark? ≠ some .moduleItem)
    (hs : IsNamed origin refs (.stmt s)) (hrefs : ∀ u ∈ refs, g.IsLinked origin u) :
    Settled origin g s where
  plain := hplain
  renamed := by
    have hwalk := walk_naming_of_isSettled (n := .stmt s) fun e he => (hs e he).1
    exact Node.stmt.inj hwalk
  linked := by
    intro u hu
    obtain ⟨e, he, rfl⟩ := mem_walk_naming (n := .stmt s).1 hu
    exact hrefs _ (hs e he).2

theorem references_of_stripped? {s' : Stmt} (h : s.stripped? = some s') :
    s.references origin = s'.calls (Url.resolve origin) := by
  cases s with
  | importDecl | exportNames | exportAll | exportDefault => cases h
  | exportDecl d =>
    simp only [Stmt.stripped?] at h
    split at h
    · cases h
    · next hd =>
      obtain rfl := Option.some.inj h
      exact if_neg hd
  | exportDefaultFunction f =>
    obtain ⟨name, -, rfl⟩ := Option.map_eq_some_iff.1 h
    rfl
  | exportDefaultClass c =>
    obtain ⟨name, -, rfl⟩ := Option.map_eq_some_iff.1 h
    rfl
  | _ =>
    obtain rfl := Option.some.inj h
    rfl

theorem mark?_stripped {s' : Stmt} (h : s.stripped? = some s') :
    (Node.stmt s').mark? ≠ some .moduleItem := by
  cases s with
  | importDecl | exportNames | exportAll | exportDefault => cases h
  | exportDecl d =>
    simp only [Stmt.stripped?] at h
    split at h
    · cases h
    · obtain rfl := Option.some.inj h
      nofun
  | exportDefaultFunction f =>
    obtain ⟨name, -, rfl⟩ := Option.map_eq_some_iff.1 h
    nofun
  | exportDefaultClass c =>
    obtain ⟨name, -, rfl⟩ := Option.map_eq_some_iff.1 h
    nofun
  | forOf isAwait left right body =>
    obtain rfl := Option.some.inj h
    cases isAwait <;> nofun
  | _ =>
    obtain rfl := Option.some.inj h
    nofun

theorem references_of_defaultValue? (h : s.defaultValue? = some e) :
    s.references origin = (((naming (Url.resolve origin)).walkExpr e).run []).2 := by
  cases s with
  | exportDefaultFunction f =>
    simp only [Stmt.defaultValue?] at h
    split at h
    · cases h
    · obtain rfl := Option.some.inj h
      rfl
  | exportDefaultClass c =>
    simp only [Stmt.defaultValue?] at h
    split at h
    · cases h
    · obtain rfl := Option.some.inj h
      rfl
  | exportDefault value =>
    obtain rfl := Option.some.inj h
    rfl
  | _ => cases h

section Output

variable {name : String → String}

theorem isNamed_walk (ho : Url.isAbsolute origin = true) (n : Node) :
    IsNamed origin ((n.walk (naming (Url.resolve origin))).run []).2
      ((n.walk (naming (Url.resolve origin))).run []).1 :=
  fun _ he => Node.loads_walk (Url.resolve_resolve ho) he

variable {refs : List String} {n : Node}

theorem IsNamed.mono {refs' : List String} (h : IsNamed origin refs n) (hr : refs ⊆ refs') :
    IsNamed origin refs' n := by
  intro e he
  obtain ⟨hsettled, hmem⟩ := h e he
  exact ⟨hsettled, hr hmem⟩

theorem isNamed_renamed (ho : Url.isAbsolute origin = true) {s' : Stmt}
    (h : s.stripped? = some s') :
    IsNamed origin (s.references origin) (.stmt (s'.renamed (Url.resolve origin))) := by
  rw [references_of_stripped? h]
  exact isNamed_walk ho (.stmt s')

theorem isNamed_default (ho : Url.isAbsolute origin = true) (h : s.defaultValue? = some e) :
    IsNamed origin (s.references origin) (.expr .operand (e.renamed (Url.resolve origin))) := by
  rw [references_of_defaultValue? h]
  exact isNamed_walk ho (.expr .operand e)

/-- Each piece of a lowered body, with the references of the statement that it comes of. -/
theorem isNamed_kept (ho : Url.isAbsolute origin = true) {bare : Bool} {t : Stmt}
    (h : t ∈ s.kept (Url.resolve origin) bare) :
    IsNamed origin (s.references origin) (.stmt t) ∧
      (Node.stmt t).mark? ≠ some .moduleItem := by
  rcases List.mem_append.1 h with h | h
  · obtain ⟨s', hs', rfl⟩ := Option.map_eq_some_iff.1 (Option.mem_toList.1 h)
    refine ⟨isNamed_renamed ho hs', ?_⟩
    have hmark := mark?_descend (v := naming (Url.resolve origin)) (.stmt s') []
    change (Node.stmt (s'.renamed (Url.resolve origin))).mark? = _ at hmark
    rw [hmark]
    exact mark?_stripped hs'
  · split at h
    · obtain ⟨e, he, rfl⟩ := Option.map_eq_some_iff.1 (Option.mem_toList.1 h)
      refine ⟨?_, nofun⟩
      intro e' he'
      obtain ⟨m, hm, he'⟩ := loads_part he' rfl
      obtain rfl := List.mem_singleton.1 hm
      exact isNamed_default ho he e' he'
    · cases h

theorem isNamed_published (ho : Url.isAbsolute origin = true) {bare : Bool}
    {hidden : String → String} {t : Stmt}
    (h : t ∈ s.published (Url.resolve origin) bare scope hidden) :
    IsNamed origin (s.references origin) (.stmt t) ∧
      (Node.stmt t).mark? ≠ some .moduleItem := by
  rw [Stmt.published] at h
  split at h
  · obtain rfl := List.mem_singleton.1 h
    refine ⟨?_, (Option.some_ne_none _).symm⟩
    intro e' he'
    obtain ⟨p, hp, he'⟩ := loads_publish he'
    cases hd : s.defaultValue? with
    | none => exact absurd he' (isReference_of_mem_exports hd hp).not_loads
    | some e =>
      rw [(exports_of_defaultValue? hd).2] at hp
      obtain rfl := List.mem_singleton.1 hp
      exact isNamed_default ho hd e' (Descriptor.loads_value he')
  · cases h

theorem isNamed_toStmt {g : ImportGroup} {strategy : LoaderStrategy} {url : String}
    (hurl : Url.resolve origin url = url) :
    IsNamed origin [url] (.stmt (g.toStmt (includeExpr strategy url))) := by
  intro e he
  obtain rfl := loads_toStmt he
  have hc : called (Url.resolve origin) (.call (.ident "include") [.string url]) = url := hurl
  rw [IsSettled, hc]
  exact ⟨rfl, List.mem_singleton_self url⟩

theorem source_of_mem_importedUrls {url : String} (h : url ∈ importedUrls origin body) :
    url ∈ referencesOf origin body ∧ ∃ source, url = Url.resolve origin source := by
  rw [importedUrls, mem_distinct] at h
  obtain ⟨s, hs, hurl⟩ := List.mem_filterMap.1 h
  obtain ⟨source, hsource, rfl⟩ := Option.map_eq_some_iff.1 hurl
  refine ⟨List.mem_flatMap.2 ⟨s, hs, ?_⟩, source, rfl⟩
  rw [Stmt.references, hsource]
  exact List.mem_singleton_self _

theorem isNamed_statements (ho : Url.isAbsolute origin = true) {t : Stmt}
    (h : t ∈ (piecesOf origin style body).statements style.strategy) :
    IsNamed origin (referencesOf origin body) (.stmt t) ∧
      (Node.stmt t).mark? ≠ some .moduleItem := by
  rw [Pieces.statements, List.mem_append, List.mem_append] at h
  rcases h with (h | h) | h
  · obtain ⟨⟨url, g⟩, hp, rfl⟩ := List.mem_map.1 h
    obtain ⟨u, hu, he⟩ := List.mem_map.1 hp
    obtain ⟨rfl, rfl⟩ := Prod.mk.inj he
    obtain ⟨hmem, source, rfl⟩ := source_of_mem_importedUrls hu
    refine ⟨(isNamed_toStmt (Url.resolve_resolve ho source)).mono ?_,
      (Option.some_ne_none _).symm⟩
    exact List.cons_subset.2 ⟨hmem, List.nil_subset _⟩
  · obtain ⟨s, -, hs⟩ := List.mem_flatMap.1 h
    obtain ⟨dependency, rfl⟩ := exists_of_mem_passed hs
    exact ⟨fun _ he => absurd he (not_loads_of_naming rfl), (Option.some_ne_none _).symm⟩
  · obtain ⟨s, hs, ht⟩ := List.mem_flatMap.1 h
    have hrefs : s.references origin ⊆ referencesOf origin body :=
      fun u hu => List.mem_flatMap.2 ⟨s, hs, hu⟩
    rcases List.mem_append.1 ht with ht | ht
    · obtain ⟨hnamed, hmark⟩ := isNamed_kept ho ht
      exact ⟨hnamed.mono hrefs, hmark⟩
    · obtain ⟨hnamed, hmark⟩ := isNamed_published ho ht
      exact ⟨hnamed.mono hrefs, hmark⟩

/-- A body that does not await is lowered to one that does not, where includes are not awaited. -/
theorem hasAwait_statements (hs : style.strategy = .eager)
    (ha : (Scope.ofBody body).hasAwait = false) :
    (Scope.ofBody ((piecesOf origin style body).statements style.strategy)).hasAwait = false := by
  rw [Bool.eq_false_iff, Ne, Scope.hasAwait_iff]
  intro h
  have hlazy : style.strategy = .lazy → ¬ Mark.IsOuterAwait none .await := by
    rw [hs]
    nofun
  obtain ⟨n, hn, hhas⟩ := (hasAny_statements (by nofun) origin style body hlazy).1 h
  obtain ⟨s, hmem, hleft⟩ := List.mem_flatMap.1 hn
  refine Scope.not_has_of_hasAwait ha ⟨.stmt s, List.mem_map_of_mem hmem, ?_⟩
  exact Stmt.has_of_leftover hleft hhas

end Output

/--
Lowering is a fixpoint on its own output: what a module is lowered to is lowered to itself, and adds
nothing to the graph that the module was linked in.
-/
theorem ofBody_ofBody (ho : Url.isAbsolute origin = true) (hk : origin ∈ links.graph.urls)
    (h : ofBody origin style body links = (.ok result, links')) :
    ∃ log, ofBody origin style result links' = (.ok result, ⟨links'.graph, log⟩) := by
  obtain ⟨rfl, linked, -⟩ := ofBody_ok (congrArg Prod.fst h)
  obtain ⟨hawait, -⟩ := ofBody_sound (congrArg Prod.fst h)
  rw [h] at linked
  obtain ⟨-, hlinked⟩ := linked.isLinked hk rfl
  apply ofBody_of_settled ?_ rfl ?_
  · intro t ht
    obtain ⟨hnamed, hmark⟩ := isNamed_statements ho ht
    exact .of_isNamed hmark hnamed hlinked
  · cases hs : style.strategy with
    | eager =>
      rw [hs] at hawait
      rw [← hs, hasAwait_statements hs (by simpa using hawait)]
      rfl
    | lazy => exact Bool.and_false _

theorem mixedBody_ofBody : Url.isAbsolute "/a.js" = true ∧
    "/a.js" ∈ (Graph.empty.add "/a.js").urls ∧ ∃ result links log,
      ofBody "/a.js" {} mixedBody { graph := Graph.empty.add "/a.js" } = (.ok result, links) ∧
        ofBody "/a.js" {} result links = (.ok result, ⟨links.graph, log⟩) := by
  have habsolute : Url.isAbsolute "/a.js" = true := by decide
  have hknown : "/a.js" ∈ (Graph.empty.add "/a.js").urls := by decide
  obtain ⟨result, links, h⟩ : ∃ result links,
    ofBody "/a.js" {} mixedBody { graph := Graph.empty.add "/a.js" } = (.ok result, links) :=
    ⟨_, _, rfl⟩
  obtain ⟨log, hagain⟩ := ofBody_ofBody habsolute hknown h
  exact ⟨habsolute, hknown, result, links, log, h, hagain⟩

end Thunk

end ScriptBundler
