import ScriptBundler.Proofs.Thunk.Statement

namespace ScriptBundler

namespace ExportMap

def record (m entries : ExportMap) : ExportMap := entries.foldl (fun m e => m.insert e.1 e.2) m

theorem insert_of_not_mem {m : ExportMap} {name : String} (h : name ∉ m.map (·.1))
    (binding : Binding) : m.insert name binding = m ++ [(name, binding)] := by
  induction m with
  | nil => rfl
  | cons e m ih =>
    rw [List.map_cons, List.mem_cons, not_or] at h
    obtain ⟨hne, hm⟩ := h
    rw [insert, if_neg (Ne.symm hne), ih hm, List.cons_append]

theorem record_nil {entries : ExportMap} (h : (entries.map (·.1)).Nodup) :
    record [] entries = entries := by
  induction entries using List.reverseRecOn with
  | nil => rfl
  | append_singleton entries e ih =>
    rw [List.map_append, List.nodup_append] at h
    obtain ⟨hentries, -, hdisjoint⟩ := h
    have he : e.1 ∉ entries.map (·.1) := fun hm =>
      hdisjoint e.1 hm e.1 (List.mem_singleton_self _) rfl
    have hr : record [] (entries ++ [e]) = (record [] entries).insert e.1 e.2 :=
      List.foldl_concat ..
    rw [hr, ih hentries, insert_of_not_mem he]

end ExportMap

namespace Graph

variable (g : Graph) (origin url v : String)

/-- What the module at `url` exports; nothing for an unknown url. -/
def exports : ExportMap := ((g.find? url).map (·.exports)).getD []

theorem exports_require : (g.require origin url).2.exports v = g.exports v := by
  have hadd : (g.add url).exports v = g.exports v := field_add _ _ rfl
  have hedge := congrArg (Option.map ModuleInfo.exports) (info_addEdge (g.add url) origin url v)
  rw [Option.map_map, Option.map_map] at hedge
  rw [require_snd, ← hadd]
  exact congrArg (Option.getD · []) hedge

variable {g origin}

theorem mem_urls_require (h : origin ∈ g.urls) : origin ∈ (g.require origin url).2.urls := by
  rw [require_snd, urls_addEdge]
  exact mem_urls_add.2 (.inl h)

theorem urls_addExport (name : String) (binding : Binding) :
    (g.addExport url name binding).urls = g.urls := urls_update g url _

theorem exports_addExport (h : origin ∈ g.urls) (name : String) (binding : Binding) :
    (g.addExport origin name binding).exports origin =
      (g.exports origin).insert name binding := by
  obtain ⟨m, hm⟩ := exists_find?_of_mem h
  simp only [exports, addExport]
  rw [find?_update, if_pos rfl, hm]
  rfl

end Graph

namespace Stmt

variable (name : String → String) (scope : Thunk.Scope)

/-- The names that a statement exports, and what they are bound to. -/
@[simp] def bindings : Stmt → ExportMap
  | .exportDecl d => d.names.map fun n => (n, ⟨.localName n, d.isMutable⟩)
  | .exportNames specifiers (some source) => specifiers.map fun s =>
    (s.exported.text, ⟨.reexport (name source) s.localName.text, false⟩)
  | .exportNames specifiers none => specifiers.map fun s => (s.exported.text,
    ⟨.localName s.localName.text, scope.mutableNames.contains s.localName.text⟩)
  | .exportAll (some exported) source _ => [(exported.text, ⟨.star (name source), false⟩)]
  | .exportDefaultFunction f =>
    match f.name? with
    | some n => [("default", ⟨.localName n, false⟩)]
    | none => [("default", ⟨.defaultExpression, false⟩)]
  | .exportDefaultClass c =>
    match c.name? with
    | some n => [("default", ⟨.localName n, false⟩)]
    | none => [("default", ⟨.defaultExpression, false⟩)]
  | .exportDefault _ => [("default", ⟨.defaultExpression, false⟩)]
  | _ => []

/-- The names of a statement's bindings are those it exports, unless comments stand before it. -/
theorem names_bindings (s : Stmt) :
    ((s.bindings name scope).map (·.1)).Sublist s.exportedNames := by
  unfold bindings
  split
  · rw [List.map_map]
    exact List.map_id _ ▸ .refl _
  · rw [List.map_map]
    exact .refl _
  · rw [List.map_map]
    exact .refl _
  · exact .refl _
  · next f => cases f.name? <;> exact .refl _
  · next c => cases c.name? <;> exact .refl _
  · exact .refl _
  · exact List.nil_sublist _

end Stmt

namespace Thunk

/-- A walk that redirects calls keeps what linking the module to others keeps. -/
theorem CallSites.visitor_keeps {origin : String} {P : Graph → Prop}
    (hP : ∀ g url, P g → P (g.require origin url).2) :
    Visitor.Agree (fun cs _ => P cs.links.graph) (fun _ => False) (visitor origin) (naming id) := by
  refine ⟨InStep.combines _ _, rfl, fun e h cs names hcs => ?_, fun _ h => h,
    fun _ _ => .pure rfl, .pure rfl⟩
  cases he : e.specifier? with
  | none =>
    rw [run_visit_none cs he, run_visit_naming, he]
    exact h cs names hcs
  | some specifier =>
    obtain ⟨log, hr⟩ := run_visit origin cs he
    rw [hr]
    exact ⟨hP _ _ hcs, False.elim⟩

namespace Drafting

variable {origin : String} {style : Style} {scope : Scope} {α β : Type}

/-- Steps that add `entries` to the exports of the module at `origin`. -/
def Records (origin : String) (entries : ExportMap) (post : α → Prop) (m : Drafting α) : Prop :=
  ∀ d a d', origin ∈ d.links.graph.urls → m.run.run d = (.ok a, d') →
    post a ∧ origin ∈ d'.links.graph.urls ∧
      d'.links.graph.exports origin = (d.links.graph.exports origin).record entries

namespace Records

variable {entries entries' : ExportMap} {post : α → Prop} {post' : β → Prop}

protected theorem bind {m : Drafting α} {k : α → Drafting β} (hm : Records origin entries post m)
    (hk : ∀ a, post a → Records origin entries' post' (k a)) :
    Records origin (entries ++ entries') post' (m >>= k) := by
  intro d b d'' ho hb
  rw [ExceptT.run_bind, StateT.run_bind] at hb
  rcases hr : m.run.run d with ⟨_ | a, d'⟩
  · rw [hr] at hb
    cases hb
  · rw [hr] at hb
    obtain ⟨ha, ho', he⟩ := hm d a d' ho hr
    obtain ⟨hb', ho'', he'⟩ := hk a ha d' b d'' ho' hb
    refine ⟨hb', ho'', ?_⟩
    rw [he', he, ExportMap.record, ExportMap.record, ExportMap.record, List.foldl_append]

protected theorem pure {a : α} (h : post a) :
    Records origin [] post (pure a : Drafting α) := by
  intro d a' d' ho hr
  cases hr
  exact ⟨h, ho, rfl⟩

theorem next {m : Drafting α} {k : α → Drafting β} (hm : Records origin [] (fun _ => True) m)
    (hk : ∀ a, Records origin entries post' (k a)) : Records origin entries post' (m >>= k) :=
  hm.bind fun a _ => hk a

theorem last {m : Drafting α} {k : α → Drafting β} (hm : Records origin entries post m)
    (hk : ∀ a, Records origin [] post' (k a)) : Records origin entries post' (m >>= k) := by
  have hbind := hm.bind fun a _ => hk a
  rwa [List.append_nil] at hbind

protected theorem forM {l : List β} {entries : β → ExportMap} {k : β → Drafting PUnit}
    (h : ∀ b ∈ l, Records origin (entries b) (fun _ => True) (k b)) :
    Records origin (l.flatMap entries) (fun _ => True) (l.forM k) := by
  induction l with
  | nil => exact .pure True.intro
  | cons b l ih =>
    exact (h b List.mem_cons_self).bind fun _ _ =>
      ih fun b hb => h b (List.mem_cons_of_mem _ hb)

theorem modify {f : Draft → Draft} (hf : ∀ d, (f d).links.graph = d.links.graph) :
    Records origin [] (fun _ => True) (modify f : Drafting Unit) := by
  intro d a d' ho hr
  cases hr
  rw [hf]
  exact ⟨True.intro, ho, rfl⟩

end Records

theorem require_records (specifier : String) :
    Records origin [] (· = Url.resolve origin specifier) (require origin specifier) := by
  intro d url d' ho hr
  have hg := graph_require d.links origin specifier
  have hu := result_require d.links origin specifier
  have hm : (require origin specifier).run.run d =
      ((d.links.require origin specifier).1,
        { d with links := (d.links.require origin specifier).2 }) := rfl
  rw [hm, hu] at hr
  obtain ⟨hurl, rfl⟩ := Prod.mk.inj hr
  rw [hg]
  refine ⟨?_, Graph.mem_urls_require _ ho, Graph.exports_require ..⟩
  split at hurl
  · cases hurl
  · exact (Except.ok.inj hurl).symm

theorem recordExport_records (name : String) (binding : Binding) :
    Records origin [(name, binding)] (fun _ => True) (recordExport origin name binding) := by
  intro d a d' ho hr
  cases hr
  refine ⟨True.intro, ?_, Graph.exports_addExport ho name binding⟩
  change origin ∈ (d.links.graph.addExport origin name binding).urls
  rwa [Graph.urls_addExport]

theorem recordExports_records (l : List β) (name : β → String) (binding : β → Binding) :
    Records origin (l.map fun b => (name b, binding b)) (fun _ => True)
      (l.forM fun b => recordExport origin (name b) (binding b)) := by
  rw [List.map_eq_flatMap]
  exact .forM fun b _ => recordExport_records (name b) (binding b)

theorem redirectCalls_records {walk : StateM CallSites α} {collect : StateM (List String) α}
    (h : ∀ P : Graph → Prop, (∀ g url, P g → P (g.require origin url).2) →
      InStep (fun cs _ => P cs.links.graph) (fun _ => False) Eq walk collect) :
    Records origin [] (fun _ => True) (redirectCalls walk) := by
  intro d a d' ho hr
  cases hr
  have hP := h
    (fun g => origin ∈ g.urls ∧ g.exports origin = d.links.graph.exports origin)
    (fun g url hg => ⟨Graph.mem_urls_require url hg.1, (Graph.exports_require ..).trans hg.2⟩)
  exact ⟨True.intro, (hP ⟨d.links, d.errors⟩ [] ⟨ho, rfl⟩).1⟩

theorem keep_records (s : Stmt) : Records origin [] (fun _ => True) (keep origin s) :=
  (redirectCalls_records fun _ hP =>
    Stmt.descend_related (CallSites.visitor_keeps hP) s).next fun _ => .modify fun _ => rfl

theorem group_records (url : String) (f : ImportGroup → ImportGroup) :
    Records origin [] (fun _ => True) (group url f) := .modify fun _ => rfl

theorem hidden_records (url : String) : Records origin [] (fun _ => True) (hidden url) := by
  intro d a d' ho hr
  cases hr
  exact ⟨True.intro, ho, rfl⟩

theorem publish_records (exports : List (String × Descriptor)) :
    Records origin [] (fun _ => True) (publish style exports) := by
  unfold publish
  split
  · exact .modify fun _ => rfl
  · exact .pure True.intro

theorem importModule_records (d : ImportDecl) :
    Records origin [] (fun _ => True) (importModule origin d) := by
  refine (require_records d.source).bind fun url _ => (group_records url id).next fun _ => ?_
  rw [← List.flatMap_eq_nil_iff.2 fun _ _ => rfl]
  refine .forM fun s _ => ?_
  cases s <;> exact group_records url _

theorem exportDeclaration_records (d : Decl) :
    Records origin ((Stmt.exportDecl d).bindings (Url.resolve origin) scope) (fun _ => True)
      (exportDeclaration origin style d) :=
  (keep_records (.decl d)).next fun _ =>
    (recordExports_records d.names _ _).last fun _ => publish_records _

theorem reexport_records (specifiers : List ExportSpecifier) (source : String) :
    Records origin ((Stmt.exportNames specifiers (some source)).bindings (Url.resolve origin) scope)
      (fun _ => True) (reexport origin style specifiers source) := by
  refine (require_records source).bind fun url hu => (group_records url id).next fun _ => ?_
  subst hu
  refine (recordExports_records specifiers _ _).last fun _ => ?_
  split
  · exact (hidden_records _).next fun _ => publish_records _
  · exact .pure True.intro

theorem exportAll_records (exported : Option ModuleName) (source : String)
    (attributes : Option ImportAttributes) :
    Records origin ((Stmt.exportAll exported source attributes).bindings (Url.resolve origin) scope)
      (fun _ => True) (exportAll origin style exported source) := by
  refine (require_records source).bind fun url hu => (group_records url id).next fun _ => ?_
  subst hu
  cases exported with
  | some name =>
    refine (recordExport_records _ _).last fun _ => ?_
    split
    · exact (hidden_records _).next fun _ => publish_records _
    · exact .pure True.intro
  | none =>
    simp only
    split
    · exact (hidden_records _).next fun _ => .modify fun _ => rfl
    · exact .pure True.intro

theorem exportNamedDefault_records (name : String) (d : Decl) :
    Records origin [("default", ⟨.localName name, false⟩)] (fun _ => True)
      (exportNamedDefault origin style name d) :=
  (keep_records (.decl d)).next fun _ =>
    (recordExport_records _ _).last fun _ => publish_records _

theorem exportValue_records (e : Expr) :
    Records origin [("default", ⟨.defaultExpression, false⟩)] (fun _ => True)
      (exportValue origin style e) := by
  have hwalk : Records origin [] (fun _ => True)
      (redirectCalls ((CallSites.visitor origin).walkExpr e)) :=
    redirectCalls_records fun _ hP => (CallSites.visitor_keeps hP).expr e
      (Expr.descend_related (CallSites.visitor_keeps hP) e)
  refine hwalk.next fun e => (recordExport_records _ _).last fun _ => ?_
  split
  · exact .modify fun _ => rfl
  · exact publish_records _

/-- A statement adds what it exports, in the order of the text. -/
theorem statement_records (s : Stmt) :
    Records origin (s.bindings (Url.resolve origin) scope) (fun _ => True)
      (statement origin style scope s) := by
  cases s with
  | importDecl d => exact importModule_records d
  | exportDecl d =>
    rw [statement]
    split
    · cases d <;> first | exact .pure True.intro | contradiction
    · exact exportDeclaration_records d
  | exportNames specifiers source =>
    cases source with
    | some source => exact reexport_records specifiers source
    | none => exact (recordExports_records specifiers _ _).last fun _ => publish_records _
  | exportAll exported source attributes => exact exportAll_records exported source attributes
  | exportDefaultFunction f =>
    rw [statement, Stmt.bindings]
    cases f.name? with
    | some name => exact exportNamedDefault_records name _
    | none => exact exportValue_records _
  | exportDefaultClass c =>
    rw [statement, Stmt.bindings]
    cases c.name? with
    | some name => exact exportNamedDefault_records name _
    | none => exact exportValue_records _
  | exportDefault e => exact exportValue_records e
  | _ => exact keep_records _

end Drafting

/-- A lowered module exports what its statements do. -/
theorem exports_ofBody {origin : String} {style : Style} {body result : List Stmt} {links : Links}
    (ho : origin ∈ links.graph.urls) (h : (ofBody origin style body links).1 = .ok result) :
    (ofBody origin style body links).2.graph.exports origin =
      (links.graph.exports origin).record
        (body.flatMap (Stmt.bindings (Url.resolve origin) (Scope.ofBody body))) := by
  have hrecords : Drafting.Records origin
      (body.flatMap (Stmt.bindings (Url.resolve origin) (Scope.ofBody body))) (fun _ => True)
      (body.forM (Drafting.statement origin style (Scope.ofBody body))) :=
    .forM fun s _ => Drafting.statement_records s
  simp only [ofBody] at h ⊢
  split at h
  · cases h
  · next hn =>
    rw [if_neg hn]
    rcases hr : ((body.forM (Drafting.statement origin style (Scope.ofBody body))).run).run
      { links := links } with ⟨_ | ⟨⟩, d⟩
    · rw [hr] at h
      cases h
    · exact (hrecords _ _ _ ho hr).2.2

end Thunk

end ScriptBundler
