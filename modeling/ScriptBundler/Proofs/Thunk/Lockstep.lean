import ScriptBundler.Proofs.Thunk.Drafting

namespace ScriptBundler.Thunk

/-- Drafts that differ in their statements at most. -/
structure Draft.Alike (d d' : Draft) : Prop where
  links : d.links = d'.links
  errors : d.errors = d'.errors

namespace Drafting

variable {α β : Type}

/-- Steps that end alike, and leave drafts that are alike as they were. -/
def Lockstep (m m' : Drafting α) : Prop :=
  ∀ d d', d.Alike d' → (m.run.run d).1 = (m'.run.run d').1 ∧
    (m.run.run d).2.Alike (m'.run.run d').2

/-- A step that does not fail, and changes nothing but statements. -/
def Silent (m : Drafting α) : Prop :=
  ∀ d, (∃ a, (m.run.run d).1 = .ok a) ∧ (m.run.run d).2.Alike d

namespace Silent

protected theorem pure (a : α) : Silent (pure a) := fun _ => ⟨⟨a, rfl⟩, rfl, rfl⟩

protected theorem modify {f : Draft → Draft} (h : ∀ d, (f d).Alike d) : Silent (modify f) :=
  fun d => ⟨⟨(), rfl⟩, h d⟩

protected theorem bind {m : Drafting α} {k : α → Drafting β} (hm : Silent m)
    (hk : ∀ a, Silent (k a)) : Silent (m >>= k) := by
  intro d
  obtain ⟨⟨a, ha⟩, hd⟩ := hm d
  rw [run_bind]
  generalize m.run.run d = answer at ha hd
  obtain ⟨result, d'⟩ := answer
  obtain rfl := ha
  obtain ⟨hok, hd'⟩ := hk a d'
  exact ⟨hok, hd'.links.trans hd.links, hd'.errors.trans hd.errors⟩

theorem lockstep {m m' : Drafting Unit} (h : Silent m) (h' : Silent m') : Lockstep m m' := by
  intro d d' hd
  obtain ⟨⟨_, ha⟩, hm⟩ := h d
  obtain ⟨⟨_, ha'⟩, hm'⟩ := h' d'
  rw [ha, ha']
  exact ⟨rfl, hm.links.trans (hd.links.trans hm'.links.symm),
    hm.errors.trans (hd.errors.trans hm'.errors.symm)⟩

end Silent

namespace Lockstep

protected theorem pure (a : α) : Lockstep (pure a) (pure a) := fun _ _ hd => ⟨rfl, hd⟩

protected theorem bind {m m' : Drafting α} {k k' : α → Drafting β} (hm : Lockstep m m')
    (hk : ∀ a, Lockstep (k a) (k' a)) : Lockstep (m >>= k) (m' >>= k') := by
  intro d d' hd
  obtain ⟨hr, hd⟩ := hm d d' hd
  rw [run_bind, run_bind]
  generalize m.run.run d = answer at hr hd
  generalize m'.run.run d' = answer' at hr hd
  obtain ⟨result, d⟩ := answer
  obtain ⟨result', d'⟩ := answer'
  obtain rfl : result = result' := hr
  cases result with
  | error e => exact ⟨rfl, hd⟩
  | ok a => exact hk a d d' hd

protected theorem forM {l : List β} {k k' : β → Drafting PUnit}
    (hk : ∀ b, Lockstep (k b) (k' b)) : Lockstep (l.forM k) (l.forM k') := by
  induction l with
  | nil => exact .pure ()
  | cons b l ih => exact (hk b).bind fun _ => ih

end Lockstep

variable {origin : String} {style style' : Style} {scope : Scope}

theorem require_lockstep (specifier : String) :
    Lockstep (require origin specifier) (require origin specifier) := by
  intro d d' hd
  have hrun (d : Draft) : (require origin specifier).run.run d =
      ((d.links.require origin specifier).1,
        { d with links := (d.links.require origin specifier).2 }) := rfl
  rw [hrun, hrun, hd.links]
  exact ⟨rfl, rfl, hd.errors⟩

theorem recordExport_lockstep (name : String) (binding : Binding) :
    Lockstep (recordExport origin name binding) (recordExport origin name binding) := by
  intro d d' hd
  have hlinks : ({ d.links with graph := d.links.graph.addExport origin name binding } : Links) =
      { d'.links with graph := d'.links.graph.addExport origin name binding } := by
    rw [hd.links]
  exact ⟨rfl, hlinks, hd.errors⟩

theorem redirectCalls_lockstep (walk : StateM CallSites α) :
    Lockstep (redirectCalls walk) (redirectCalls walk) := by
  intro d d' hd
  have hrun (d : Draft) : (redirectCalls walk).run.run d =
      (.ok (walk.run ⟨d.links, d.errors⟩).1,
        { d with links := (walk.run ⟨d.links, d.errors⟩).2.links
                 errors := (walk.run ⟨d.links, d.errors⟩).2.errors }) := rfl
  rw [hrun, hrun, hd.links, hd.errors]
  exact ⟨rfl, rfl, rfl⟩

theorem group_silent (url : String) (f : ImportGroup → ImportGroup) : Silent (group url f) :=
  .modify fun _ => ⟨rfl, rfl⟩

theorem hidden_silent (url : String) : Silent (hidden url) :=
  fun _ => ⟨⟨_, rfl⟩, rfl, rfl⟩

theorem append_silent (s : Stmt) : Silent (append s) := .modify fun _ => ⟨rfl, rfl⟩

theorem publish_silent (exports : List (String × Descriptor)) : Silent (publish style exports) := by
  unfold publish
  split
  · exact append_silent _
  · exact .pure ()

theorem publish_lockstep (exports : List (String × Descriptor)) :
    Lockstep (publish style exports) (publish style' exports) :=
  (publish_silent exports).lockstep (publish_silent exports)

theorem recordExports_lockstep (l : List β) (name : β → String) (binding : β → Binding) :
    Lockstep (l.forM fun b => recordExport origin (name b) (binding b))
      (l.forM fun b => recordExport origin (name b) (binding b)) :=
  .forM fun b => recordExport_lockstep (name b) (binding b)

theorem linked_lockstep (source : String) {k k' : String → Drafting Unit}
    (hk : ∀ url, Lockstep (k url) (k' url)) :
    Lockstep (do let url ← require origin source; group url id; k url)
      (do let url ← require origin source; group url id; k' url) :=
  (require_lockstep source).bind fun url =>
    ((group_silent url id).lockstep (group_silent url id)).bind fun _ => hk url

theorem keep_lockstep (s : Stmt) : Lockstep (keep origin s) (keep origin s) :=
  (redirectCalls_lockstep _).bind fun s => (append_silent s).lockstep (append_silent s)

theorem importModule_lockstep (d : ImportDecl) :
    Lockstep (importModule origin d) (importModule origin d) := by
  apply linked_lockstep
  intro url
  apply Lockstep.forM
  intro s
  cases s <;> exact (group_silent url _).lockstep (group_silent url _)

theorem exportDeclaration_lockstep (d : Decl) :
    Lockstep (exportDeclaration origin style d) (exportDeclaration origin style' d) :=
  (keep_lockstep _).bind fun _ => (recordExports_lockstep _ _ _).bind fun _ => publish_lockstep _

/-- What a style does once exports are recorded changes nothing but statements. -/
theorem unlessBare_silent (style : Style) {m : Drafting Unit} (hm : Silent m) :
    Silent (if !style.bare then m else pure ()) := by
  split
  · exact hm
  · exact .pure ()

theorem publishHidden_silent (style : Style) (url : String)
    (exports : String → List (String × Descriptor)) :
    Silent (if !style.bare then do
      let dependency ← hidden url
      publish style (exports dependency)
    else pure ()) :=
  unlessBare_silent style ((hidden_silent url).bind fun _ => publish_silent _)

theorem passHidden_silent (style : Style) (url : String) :
    Silent (if !style.bare then do
      let dependency ← hidden url
      modify fun d : Draft => { d with passThroughs := d.passThroughs ++ [passThrough dependency] }
    else pure ()) :=
  unlessBare_silent style ((hidden_silent url).bind fun _ => .modify fun _ => ⟨rfl, rfl⟩)

theorem reexport_lockstep (specifiers : List ExportSpecifier) (source : String) :
    Lockstep (reexport origin style specifiers source)
      (reexport origin style' specifiers source) := by
  apply linked_lockstep
  intro url
  exact (recordExports_lockstep _ _ _).bind fun _ =>
    (publishHidden_silent style url _).lockstep (publishHidden_silent style' url _)

theorem exportLocals_lockstep (specifiers : List ExportSpecifier) :
    Lockstep (exportLocals origin style scope specifiers)
      (exportLocals origin style' scope specifiers) :=
  (recordExports_lockstep _ _ _).bind fun _ => publish_lockstep _

theorem exportNamedDefault_lockstep (name : String) (d : Decl) :
    Lockstep (exportNamedDefault origin style name d) (exportNamedDefault origin style' name d) :=
  (keep_lockstep _).bind fun _ => (recordExport_lockstep _ _).bind fun _ => publish_lockstep _

theorem exportValue_lockstep (e : Expr) :
    Lockstep (exportValue origin style e) (exportValue origin style' e) := by
  have hvalue (style : Style) (e : Expr) : Silent
      (if style.bare then append (.expr e) else publish style [("default", .value e)]) := by
    split
    · exact append_silent _
    · exact publish_silent _
  exact (redirectCalls_lockstep _).bind fun e => (recordExport_lockstep _ _).bind fun _ =>
    (hvalue style e).lockstep (hvalue style' e)

theorem exportAll_lockstep (exported : Option ModuleName) (source : String) :
    Lockstep (exportAll origin style exported source)
      (exportAll origin style' exported source) := by
  apply linked_lockstep
  intro url
  cases exported with
  | some name =>
    exact (recordExport_lockstep _ _).bind fun _ =>
      (publishHidden_silent style url _).lockstep (publishHidden_silent style' url _)
  | none => exact (passHidden_silent style url).lockstep (passHidden_silent style' url)

/-- All styles take in a statement with the same links and the same errors. -/
theorem statement_lockstep (s : Stmt) :
    Lockstep (statement origin style scope s) (statement origin style' scope s) := by
  cases s with
  | importDecl d => exact importModule_lockstep d
  | exportDecl d =>
    simp only [statement]
    split
    · exact .pure ()
    · exact exportDeclaration_lockstep d
  | exportNames specifiers source =>
    cases source with
    | some source => exact reexport_lockstep specifiers source
    | none => exact exportLocals_lockstep specifiers
  | exportAll exported source attributes => exact exportAll_lockstep exported source
  | exportDefaultFunction f =>
    simp only [statement]
    split
    · exact exportNamedDefault_lockstep _ _
    · exact exportValue_lockstep _
  | exportDefaultClass c =>
    simp only [statement]
    split
    · exact exportNamedDefault_lockstep _ _
    · exact exportValue_lockstep _
  | exportDefault e => exact exportValue_lockstep e
  | _ => exact keep_lockstep _

end Drafting

end ScriptBundler.Thunk
