import ScriptBundler.Proofs.Thunk.Drafting

namespace ScriptBundler

/-- Adds what an import declaration names to the imports from the module. -/
def Thunk.ImportGroup.addSpecifier (g : ImportGroup) : ImportSpecifier → ImportGroup
  | .default localName => g.addName "default" localName
  | .named imported localName => g.addName imported.text localName
  | .star localName => g.addNamespace localName

namespace Stmt

open ScriptBundler.Thunk

/-- The statement that stays in the body, without its `export`. -/
@[simp] def stripped? : Stmt → Option Stmt
  | .importDecl _ => none
  | .exportDecl d => if d.isTypeOnly then none else some (.decl d)
  | .exportNames _ _ => none
  | .exportAll _ _ _ => none
  | .exportDefaultFunction f => f.name?.map fun _ => .decl (.function f)
  | .exportDefaultClass c => c.name?.map fun _ => .decl (.classDef c)
  | .exportDefault _ => none
  | s => some s

@[simp] def defaultValue? : Stmt → Option Expr
  | .exportDefaultFunction f => if f.name?.isSome then none else some (.function f)
  | .exportDefaultClass c => if c.name?.isSome then none else some (.classExpr c)
  | .exportDefault e => some e
  | _ => none

variable (name : String → String) (bare : Bool) (scope : Scope) (hidden : String → String)

/-- What stays of a statement in the body. Where exports are dropped, a default value does too. -/
def kept (s : Stmt) : List Stmt :=
  (s.stripped?.map (Stmt.renamed name)).toList ++
    if bare then (s.defaultValue?.map fun e => .expr (e.renamed name)).toList else []

@[simp] def exports : Stmt → List (String × Descriptor)
  | .exportDecl d => d.names.map fun n => (n, .binding n d.isMutable)
  | .exportNames specifiers (some source) => specifiers.map fun s =>
    (s.exported.text, .getter (propertyOf (.ident (hidden (name source))) s.localName.text))
  | .exportNames specifiers none => specifiers.map fun s =>
    (s.exported.text, .binding s.localName.text (scope.mutableNames.contains s.localName.text))
  | .exportAll (some exported) source _ =>
    [(exported.text, .value (.ident (hidden (name source))))]
  | .exportDefaultFunction f =>
    match f.name? with
    | some n => [("default", .binding n false)]
    | none => [("default", .value ((Expr.function f).renamed name))]
  | .exportDefaultClass c =>
    match c.name? with
    | some n => [("default", .binding n false)]
    | none => [("default", .value ((Expr.classExpr c).renamed name))]
  | .exportDefault e => [("default", .value (e.renamed name))]
  | _ => []

def published (s : Stmt) : List Stmt :=
  if !bare && !(s.exports name scope hidden).isEmpty
  then [publish (s.exports name scope hidden)] else []

/-- What passes on the exports of another module as a whole. -/
@[simp] def passed : Stmt → List Stmt
  | .exportAll none source _ => if bare then [] else [passThrough (hidden (name source))]
  | _ => []

/-- What a statement adds to the group at `index`, the one of the module that it names. -/
@[simp] def fill (index : Nat) : Stmt → ImportGroup → ImportGroup
  | .importDecl d => fun g => (d.specifiers.getD []).foldl ImportGroup.addSpecifier g
  | .exportNames _ (some _) => if bare then id else ImportGroup.bind index
  | .exportAll _ _ _ => if bare then id else ImportGroup.bind index
  | _ => id

end Stmt

namespace Thunk

section Exports

variable {name : String → String} {scope : Scope} {hidden : String → String}

/-- A descriptor that refers to a local, or to a property of one. -/
def Descriptor.IsReference : Descriptor → Prop
  | .binding _ _ => True
  | .getter e => ∃ localName name, e = propertyOf (.ident localName) name
  | .value e => ∃ localName, e = .ident localName

/-- A statement with a default value exports it alone, and does not stay. -/
theorem exports_of_defaultValue? {s : Stmt} {e : Expr} (hs : s.defaultValue? = some e) :
    s.stripped? = none ∧ s.exports name scope hidden = [("default", .value (e.renamed name))] := by
  cases s with
  | exportDefaultFunction f =>
    simp only [Stmt.defaultValue?] at hs
    cases hf : f.name? with
    | some n =>
      rw [hf] at hs
      cases hs
    | none =>
      rw [hf] at hs
      cases hs
      simp only [Stmt.stripped?, Stmt.exports, hf, Option.map_none, and_self]
  | exportDefaultClass c =>
    simp only [Stmt.defaultValue?] at hs
    cases hc : c.name? with
    | some n =>
      rw [hc] at hs
      cases hs
    | none =>
      rw [hc] at hs
      cases hs
      simp only [Stmt.stripped?, Stmt.exports, hc, Option.map_none, and_self]
  | exportDefault value =>
    cases hs
    exact ⟨rfl, rfl⟩
  | _ => cases hs

theorem isReference_of_mem_exports {s : Stmt} (hs : s.defaultValue? = none)
    {p : String × Descriptor} (hp : p ∈ s.exports name scope hidden) : p.2.IsReference := by
  cases s with
  | exportDecl d =>
    obtain ⟨n, -, rfl⟩ := List.mem_map.1 hp
    exact True.intro
  | exportNames specifiers source =>
    cases source with
    | some source =>
      obtain ⟨specifier, -, rfl⟩ := List.mem_map.1 hp
      exact ⟨_, _, rfl⟩
    | none =>
      obtain ⟨specifier, -, rfl⟩ := List.mem_map.1 hp
      exact True.intro
  | exportAll exported source attributes =>
    cases exported with
    | some exported =>
      obtain rfl := List.mem_singleton.1 hp
      exact ⟨_, rfl⟩
    | none => cases hp
  | exportDefaultFunction f =>
    simp only [Stmt.defaultValue?, Stmt.exports] at hs hp
    cases hf : f.name? with
    | some n =>
      rw [hf] at hp
      obtain rfl := List.mem_singleton.1 hp
      exact True.intro
    | none =>
      rw [hf] at hs
      cases hs
  | exportDefaultClass c =>
    simp only [Stmt.defaultValue?, Stmt.exports] at hs hp
    cases hc : c.name? with
    | some n =>
      rw [hc] at hp
      obtain rfl := List.mem_singleton.1 hp
      exact True.intro
    | none =>
      rw [hc] at hs
      cases hs
  | exportDefault e => cases hs
  | _ => cases hp

end Exports

section Imports

variable {url u : String} {imports : List (String × ImportGroup)} {f f' : ImportGroup → ImportGroup}

open Drafting

def position (url : String) (imports : List (String × ImportGroup)) : Nat :=
  (imports.map (·.1)).idxOf url

def groupAt (url : String) (imports : List (String × ImportGroup)) : ImportGroup :=
  (imports.lookup url).getD {}

/-- The hidden local of a url, whether it is bound yet or not. -/
def hiddenAt (imports : List (String × ImportGroup)) (url : String) : String :=
  (groupAt url imports).hidden.getD (ImportGroup.hiddenName (position url imports))

theorem urls_updateGroup : (updateGroup url f imports).map (·.1) =
    if url ∈ imports.map (·.1) then imports.map (·.1) else imports.map (·.1) ++ [url] := by
  induction imports with
  | nil => rfl
  | cons p imports ih =>
    obtain ⟨u, g⟩ := p
    simp only [updateGroup]
    by_cases hu : u = url
    · simp only [hu, ↓reduceIte, List.map_cons, List.mem_cons, true_or]
    · simp only [hu, ↓reduceIte, List.map_cons, ih, List.mem_cons, Ne.symm hu, false_or]
      split <;> rfl

theorem mem_urls_updateGroup : url ∈ (updateGroup url f imports).map (·.1) := by
  rw [urls_updateGroup]
  split
  · assumption
  · exact List.mem_append_right _ (List.mem_singleton_self url)

theorem updateGroup_updateGroup :
    updateGroup url f' (updateGroup url f imports) = updateGroup url (f' ∘ f) imports := by
  induction imports with
  | nil => simp only [updateGroup, ↓reduceIte, Function.comp]
  | cons p imports ih =>
    obtain ⟨u, g⟩ := p
    simp only [updateGroup]
    by_cases hu : u = url
    · simp only [hu, ↓reduceIte, updateGroup, Function.comp]
    · simp only [hu, ↓reduceIte, updateGroup, ih]

theorem lookup_cons_eq (u v : String) (g : ImportGroup) (imports : List (String × ImportGroup)) :
    ((v, g) :: imports).lookup u = if u = v then some g else imports.lookup u := by
  by_cases h : u = v
  · rw [h, List.lookup_cons_self, if_pos rfl]
  · rw [List.lookup_cons, beq_false_of_ne h, if_neg h]

theorem lookup_updateGroup : (updateGroup url f imports).lookup u =
    if u = url then some (f (groupAt url imports)) else imports.lookup u := by
  simp only [groupAt]
  induction imports with
  | nil => exact lookup_cons_eq u url _ []
  | cons p imports ih =>
    obtain ⟨v, g⟩ := p
    simp only [updateGroup, lookup_cons_eq]
    by_cases hv : v = url
    · subst hv
      simp only [↓reduceIte, lookup_cons_eq, Option.getD_some]
      by_cases hu : u = v
      · simp only [hu, ↓reduceIte]
      · simp only [hu, ↓reduceIte]
    · simp only [hv, ↓reduceIte, lookup_cons_eq, ih, Ne.symm hv]
      by_cases hu : u = v
      · subst hu
        simp only [hv, ↓reduceIte]
      · simp only [hu, ↓reduceIte]

theorem position_updateGroup : position url (updateGroup url f imports) = position url imports := by
  rw [position, position, urls_updateGroup]
  split
  · rfl
  · next h => rw [List.idxOf_append_of_notMem h, List.idxOf_cons_self, List.idxOf_eq_length h]; rfl

theorem findIdx?_eq_position (h : url ∈ imports.map (·.1)) :
    (imports.findIdx? (·.1 = url)).getD 0 = position url imports := by
  have hp : position url imports = imports.findIdx (·.1 = url) := by
    rw [position, List.idxOf, List.findIdx_map]
    rfl
  obtain ⟨p, hmem, hu⟩ := List.mem_map.1 h
  rw [List.findIdx?_eq_some_of_exists ⟨p, hmem, decide_eq_true hu⟩, Option.getD_some, hp]

end Imports

/-- The statements of a draft after it has taken in `s`. -/
def Pieces.take (origin : String) (style : Style) (scope : Scope) (p : Pieces) (s : Stmt) :
    Pieces where
  imports := match s.source? with
    | some source =>
      let url := Url.resolve origin source
      Drafting.updateGroup url (s.fill style.bare (position url p.imports)) p.imports
    | none => p.imports
  passThroughs := p.passThroughs ++ s.passed (Url.resolve origin) style.bare (hiddenAt p.imports)
  body := p.body ++ s.kept (Url.resolve origin) style.bare ++
    s.published (Url.resolve origin) style.bare scope (hiddenAt p.imports)

namespace Drafting

variable {origin : String} {style : Style} {scope : Scope}

theorem publish_effect (exports : List (String × Descriptor)) :
    Effect origin [] (fun p => ((), { p with body := p.body ++
      if !style.bare && !exports.isEmpty then [Thunk.publish exports] else [] }))
      (publish style exports) := by
  unfold publish
  split
  · exact append_effect _
  · exact (Effect.pure ()).congr (fun p => by rw [List.append_nil]) rfl

def bound (url : String) (p : Pieces) : String × Pieces :=
  let index := (p.imports.findIdx? (·.1 = url)).getD 0
  let imports := updateGroup url (·.bind index) p.imports
  (((imports.lookup url).bind (·.hidden)).getD (ImportGroup.hiddenName index),
    { p with imports := imports })

theorem hidden_effect (url : String) : Effect origin [] (bound url) (hidden url) :=
  fun _ => .ok .refl (List.append_nil _).symm fun _ => rfl

theorem bound_updateGroup (url : String) (p : Pieces) :
    bound url { p with imports := updateGroup url id p.imports } =
      (hiddenAt p.imports url, { p with
        imports := updateGroup url (·.bind (position url p.imports)) p.imports }) := by
  simp only [bound, findIdx?_eq_position mem_urls_updateGroup, position_updateGroup,
    updateGroup_updateGroup, lookup_updateGroup, ↓reduceIte]
  rfl

theorem foldl_updateGroup {β : Type} (l : List β) (url : String)
    (k : ImportGroup → β → ImportGroup) (f : ImportGroup → ImportGroup) (p : Pieces) :
    l.foldl (fun p b => { p with imports := updateGroup url (k · b) p.imports })
        { p with imports := updateGroup url f p.imports } =
      { p with imports := updateGroup url (fun g => l.foldl k (f g)) p.imports } := by
  induction l generalizing f with
  | nil => rfl
  | cons b l ih =>
    simp only [List.foldl_cons, updateGroup_updateGroup]
    exact ih (fun g => k (f g) b)

theorem recordExports_effect {β : Type} (l : List β) (name : β → String)
    (binding : β → Binding) : Effect origin [] (fun p => ((), p))
      (l.forM fun b => recordExport origin (name b) (binding b)) :=
  (Effect.forM (f := fun _ p => p) fun b _ => recordExport_effect (name b) (binding b)).congr
    (fun p => by rw [List.foldl_fixed]) (List.flatMap_eq_nil_iff.2 fun _ _ => rfl)

theorem linked_effect {α : Type} {refs : List String} {f : String → Pieces → α × Pieces}
    {k : String → Drafting α} (source : String) (hk : ∀ url, Effect origin refs (f url) (k url)) :
    Effect origin (Url.resolve origin source :: refs)
      (fun p => f (Url.resolve origin source)
        { p with imports := updateGroup (Url.resolve origin source) id p.imports })
      (do let url ← require origin source; group url id; k url) :=
  (require_effect source).bind fun url => (group_effect url id).bind fun _ => hk url

theorem importModule_effect (d : ImportDecl) :
    Effect origin [Url.resolve origin d.source]
      (fun p => ((), p.take origin style scope (.importDecl d))) (importModule origin d) := by
  refine (linked_effect d.source fun url =>
    Effect.forM (f := fun s p => { p with imports := updateGroup url (·.addSpecifier s) p.imports })
      fun s _ => ?_).congr (fun p => ?_) (by rw [List.flatMap_eq_nil_iff.2 fun _ _ => rfl])
  · cases s <;> exact group_effect url _
  · simp [foldl_updateGroup, Pieces.take, Stmt.kept, Stmt.published]

theorem exportDeclaration_effect (d : Decl) (hd : d.isTypeOnly = false) :
    Effect origin ((Stmt.decl d).calls (Url.resolve origin))
      (fun p => ((), p.take origin style scope (.exportDecl d)))
      (exportDeclaration origin style d) :=
  ((keep_effect (.decl d)).bind fun _ => (recordExports_effect _ _ _).bind
    fun _ => publish_effect _).congr
    (fun p => by simp [Pieces.take, Stmt.kept, Stmt.published, hd]) (List.append_nil _)

theorem reexport_effect (specifiers : List ExportSpecifier) (source : String) :
    Effect origin [Url.resolve origin source]
      (fun p => ((), p.take origin style scope (.exportNames specifiers (some source))))
      (reexport origin style specifiers source) := by
  obtain ⟨strategy, bare⟩ := style
  cases bare
  · exact (linked_effect source fun url =>
      (recordExports_effect specifiers _ _).bind fun _ =>
        (hidden_effect url).bind fun dependency => publish_effect _).congr
      (fun p => by simp [bound_updateGroup, Pieces.take, Stmt.kept, Stmt.published]) rfl
  · exact (linked_effect source fun _ =>
      (recordExports_effect specifiers _ _).bind fun _ => Effect.pure ()).congr
      (fun p => by simp [Pieces.take, Stmt.kept, Stmt.published]) rfl

theorem exportLocals_effect (specifiers : List ExportSpecifier) :
    Effect origin [] (fun p => ((), p.take origin style scope (.exportNames specifiers none)))
      (exportLocals origin style scope specifiers) :=
  ((recordExports_effect specifiers _ _).bind fun _ => publish_effect _).congr
    (fun p => by simp [Pieces.take, Stmt.kept, Stmt.published]) rfl

theorem passThrough_effect (dependency : String) :
    Effect origin []
      (fun p => ((), { p with passThroughs := p.passThroughs ++ [passThrough dependency] }))
      (modify fun d : Draft =>
        { d with passThroughs := d.passThroughs ++ [passThrough dependency] }) :=
  .modify (fun _ => .refl) (fun _ => rfl) fun _ => rfl

theorem exportAll_effect (exported : Option ModuleName) (source : String)
    (attributes : Option ImportAttributes) :
    Effect origin [Url.resolve origin source]
      (fun p => ((), p.take origin style scope (.exportAll exported source attributes)))
      (exportAll origin style exported source) := by
  obtain ⟨strategy, bare⟩ := style
  cases exported with
  | some name =>
    cases bare
    · exact (linked_effect source fun url =>
        (recordExport_effect _ _).bind fun _ =>
          (hidden_effect url).bind fun dependency => publish_effect _).congr
        (fun p => by simp [bound_updateGroup, Pieces.take, Stmt.kept, Stmt.published]) rfl
    · exact (linked_effect source fun _ =>
        (recordExport_effect _ _).bind fun _ => Effect.pure ()).congr
        (fun p => by simp [Pieces.take, Stmt.kept, Stmt.published]) rfl
  | none =>
    cases bare
    · exact (linked_effect source fun url =>
        (hidden_effect url).bind passThrough_effect).congr
        (fun p => by simp [bound_updateGroup, Pieces.take, Stmt.kept, Stmt.published]) rfl
    · exact (linked_effect source fun _ => Effect.pure ()).congr
        (fun p => by simp [Pieces.take, Stmt.kept, Stmt.published]) rfl

theorem exportNamedDefault_effect (name : String) (d : Decl) (s : Stmt)
    (hs : s.source? = none) (hp : ∀ hidden, s.passed (Url.resolve origin) style.bare hidden = [])
    (hk : s.stripped? = some (.decl d)) (hv : s.defaultValue? = none)
    (he : ∀ hidden, s.exports (Url.resolve origin) scope hidden =
      [("default", .binding name false)]) :
    Effect origin ((Stmt.decl d).calls (Url.resolve origin))
      (fun p => ((), p.take origin style scope s)) (exportNamedDefault origin style name d) :=
  ((keep_effect (.decl d)).bind fun _ => (recordExport_effect _ _).bind
    fun _ => publish_effect _).congr
    (fun p => by
      simp only [Pieces.take, Stmt.kept, Stmt.published, hs, hp, hk, hv, he, Option.map_some,
        Option.map_none, Option.toList_some, Option.toList_none, ite_self, List.append_nil])
    (List.append_nil _)

theorem exportValue_effect (e : Expr) (s : Stmt)
    (hs : s.source? = none) (hp : ∀ hidden, s.passed (Url.resolve origin) style.bare hidden = [])
    (hk : s.stripped? = none) (hv : s.defaultValue? = some e)
    (he : ∀ hidden, s.exports (Url.resolve origin) scope hidden =
      [("default", .value (e.renamed (Url.resolve origin)))]) :
    Effect origin (((naming (Url.resolve origin)).walkExpr e).run []).2
      (fun p => ((), p.take origin style scope s)) (exportValue origin style e) := by
  have hwalk : Effect origin (((naming (Url.resolve origin)).walkExpr e).run []).2
      (fun p => (e.renamed (Url.resolve origin), p))
      (redirectCalls ((CallSites.visitor origin).walkExpr e)) :=
    redirectCalls_effect fun start => (CallSites.visitor_agree start).expr e
      (Expr.descend_related (CallSites.visitor_agree start) e)
  obtain ⟨strategy, bare⟩ := style
  cases bare
  · have hp' (e' : Expr) :
        Effect origin [] _ (publish ⟨strategy, false⟩ [("default", .value e')]) := publish_effect _
    refine (hwalk.bind fun e' => (recordExport_effect _ _).bind fun _ => hp' e').congr
      (fun p => ?_) (List.append_nil _)
    simp only [Pieces.take, Stmt.kept, Stmt.published, hs, hp, hk, he, Option.map_none,
      Option.toList_none, Bool.false_eq_true, ↓reduceIte, List.append_nil]
  · refine (hwalk.bind fun e' => (recordExport_effect _ _).bind fun _ => append_effect _).congr
      (fun p => ?_) (List.append_nil _)
    simp only [Pieces.take, Stmt.kept, Stmt.published, hs, hp, hk, hv, he, Option.map_none,
      Option.map_some, Option.toList_none, Option.toList_some, ↓reduceIte, List.append_nil,
      List.nil_append, Bool.not_true, Bool.false_and, Bool.false_eq_true]

theorem statement_effect (s : Stmt) :
    Effect origin (s.references origin) (fun p => ((), p.take origin style scope s))
      (statement origin style scope s) := by
  cases s with
  | importDecl d => exact importModule_effect d
  | exportDecl d =>
    have hr : (Stmt.exportDecl d).references origin =
      if d.isTypeOnly then [] else (Stmt.decl d).calls (Url.resolve origin) := rfl
    rw [hr, statement]
    split
    · next hd =>
      have hn : d.names = [] := by cases d <;> first | rfl | cases hd
      exact (Effect.pure ()).congr
        (fun p => by simp [Pieces.take, Stmt.kept, Stmt.published, hd, hn]) rfl
    · next hd => exact exportDeclaration_effect d (Bool.eq_false_iff.2 hd)
  | exportNames specifiers source =>
    cases source with
    | some source => exact reexport_effect specifiers source
    | none => exact exportLocals_effect specifiers
  | exportAll exported source attributes => exact exportAll_effect exported source attributes
  | exportDefaultFunction f =>
    simp only [statement]
    split
    · next name hn =>
      exact exportNamedDefault_effect name (.function f) (.exportDefaultFunction f) rfl
        (fun _ => rfl) (by simp [hn]) (by simp [hn]) (by simp [hn])
    · next hn =>
      exact exportValue_effect (.function f) (.exportDefaultFunction f) rfl
        (fun _ => rfl) (by simp [hn]) (by simp [hn]) (by simp [hn])
  | exportDefaultClass c =>
    simp only [statement]
    split
    · next name hn =>
      exact exportNamedDefault_effect name (.classDef c) (.exportDefaultClass c) rfl
        (fun _ => rfl) (by simp [hn]) (by simp [hn]) (by simp [hn])
    · next hn =>
      exact exportValue_effect (.classExpr c) (.exportDefaultClass c) rfl
        (fun _ => rfl) (by simp [hn]) (by simp [hn]) (by simp [hn])
  | exportDefault e => exact exportValue_effect e _ rfl (fun _ => rfl) rfl rfl fun _ => rfl
  | _ => exact (keep_effect _).congr (fun p => by simp [Pieces.take, Stmt.kept, Stmt.published]) rfl

end Drafting

end Thunk

end ScriptBundler
