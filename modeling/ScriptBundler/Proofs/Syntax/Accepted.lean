import ScriptBundler.Proofs.Syntax.Ensures
import ScriptBundler.Proofs.Syntax.Names
import ScriptBundler.Proofs.Thunk.Imports

namespace ScriptBundler

/-- A name that can be bound, at least where it is not an operator. -/
structure IsBindable (name : String) : Prop where
  isName : Identifier.isName name = true
  free : Token.isReserved name = false

/-- The names of a module's own that an export refers to. -/
def Stmt.exportedLocals : Stmt → List String
  | .exportDecl d => d.names
  | .exportNames specifiers none => specifiers.map fun s => s.localName.text
  | .exportDefaultFunction f => f.name?.toList
  | .exportDefaultClass c => c.name?.toList
  | _ => []

/-- What the parser promises of the names in the imports and exports of a program. -/
structure Stmt.BindsWell (s : Stmt) : Prop where
  imports : ∀ name ∈ s.importedLocals, IsBindable name ∧ name ≠ "await"
  exports : ∀ name ∈ s.exportedLocals, IsBindable name

namespace Parser

variable {C : Context → Prop} {α β : Type} {c : Context} {s s' : State}

theorem bind_eq_some {p : Parser α} {f : α → Parser β} {b : β}
    (h : (p >>= f) c s = some (b, s')) : ∃ a t, p c s = some (a, t) ∧ f a c t = some (b, s') := by
  obtain ⟨⟨a, t⟩, ha, hb⟩ := Option.bind_eq_some_iff.1 h
  exact ⟨a, t, ha, hb⟩

theorem require_eq_some {b : Bool} {u : Unit} (h : require b c s = some (u, s')) :
    b = true ∧ s' = s := by
  cases b with
  | false => cases h
  | true =>
    cases h
    exact ⟨rfl, rfl⟩

section Names

variable {name : String}

theorem isName_of_token {e : Bool} (h : s.token = .name name e) :
    Identifier.isName name = true := by
  have hproper := s.proper
  rw [h] at hproper
  exact hproper

theorem anyName_eq_some (h : anyName c s = some (name, s')) : ∃ e, s.token = .name name e := by
  unfold anyName at h
  obtain ⟨token, s₁, ht, h⟩ := bind_eq_some h
  cases ht
  generalize s.token = token at h
  cases token with
  | name text e =>
    obtain ⟨_, s₂, -, h⟩ := bind_eq_some h
    cases h
    exact ⟨e, rfl⟩
  | _ => cases h

theorem anyName_isName : EnsuresIn C anyName (Identifier.isName · = true) := by
  intro c s name s' _ h
  obtain ⟨e, ht⟩ := anyName_eq_some h
  exact isName_of_token ht

theorem bindingName_eq_some (h : bindingName c s = some (name, s')) :
    IsBindable name ∧ (name = "yield" → c.inYield = false) ∧
      (name = "await" → c.inAwait = false) := by
  unfold bindingName at h
  obtain ⟨c', s₁, hc, h⟩ := bind_eq_some h
  cases hc
  obtain ⟨token, s₁, ht, h⟩ := bind_eq_some h
  cases ht
  generalize ht : s.token = token at h
  cases token with
  | name text e =>
    obtain ⟨_, s₂, hr, hrest⟩ := bind_eq_some h
    obtain ⟨_, s₃, hw, hread⟩ := bind_eq_some hrest
    obtain ⟨_, s₄, -, hname⟩ := bind_eq_some hread
    cases hname
    have hfree := (require_eq_some hr).1
    have hword := (require_eq_some hw).1
    rw [Bool.not_eq_true'] at hfree
    refine ⟨⟨isName_of_token ht, hfree⟩, ?_, ?_⟩
    · rintro rfl
      simpa using hword
    · rintro rfl
      simpa using hword
  | _ => cases h

theorem bindingName_isBindable : EnsuresIn C bindingName IsBindable :=
  fun _ _ _ _ _ h => (bindingName_eq_some h).1

end Names

section Patterns

theorem looksBinding_eq_some {mayBind : Bool} {name : String}
    (h : patternProperty.looksBinding mayBind c s = some (name, s')) :
    mayBind = true ∧ ∃ e, s.token = .name name e := by
  obtain ⟨_, s₁, hr, hrest⟩ := bind_eq_some h
  obtain ⟨hbind, rfl⟩ := require_eq_some hr
  obtain ⟨text, s₂, hn, hrest⟩ := bind_eq_some hrest
  obtain ⟨_, s₃, -, hrest⟩ := bind_eq_some hrest
  obtain ⟨_, s₄, -, hrest⟩ := bind_eq_some hrest
  cases hrest
  exact ⟨hbind, anyName_eq_some hn⟩

variable {rec : Grammar} (h : EnsuresIn C (rec .pattern) fun p => ∀ n ∈ p.boundNames, IsBindable n)
include h

theorem patternWithDefault_bindsWell :
    EnsuresIn C (patternWithDefault rec) fun p => ∀ n ∈ p.boundNames, IsBindable n := by
  refine h.bind fun p hp => .skip fun _ => ?_
  split
  · exact .skip fun _ => .pure hp
  · exact .pure hp

theorem patternProperty_bindsWell :
    EnsuresIn C (patternProperty rec) fun p => ∀ n ∈ p.pattern.boundNames, IsBindable n := by
  intro c s p s' hc hp
  obtain ⟨token, s₁, ht, hp⟩ := bind_eq_some hp
  cases ht
  obtain ⟨name?, s₂, hn, hp⟩ := bind_eq_some hp
  cases name? with
  | some name =>
    have hname : ∀ n ∈ [name], IsBindable n := by
      refine List.forall_mem_singleton.2 ?_
      unfold attempt at hn
      split at hn
      · next hn' =>
        cases hn
        obtain ⟨hbind, e, ht⟩ := looksBinding_eq_some hn'
        rw [ht, isBindingToken, Bool.not_eq_true'] at hbind
        exact ⟨isName_of_token ht, hbind⟩
      · cases hn
    refine (?_ : EnsuresIn C _ fun p => ∀ n ∈ p.pattern.boundNames, IsBindable n) c s₂ p s' hc hp
    refine .skip fun c => .skip fun _ => .skip fun _ => ?_
    split
    · exact .skip fun _ => .pure hname
    · exact .pure hname
  | none =>
    refine (?_ : EnsuresIn C _ fun p => ∀ n ∈ p.pattern.boundNames, IsBindable n) c s₂ p s' hc hp
    exact .skip fun k => .skip fun _ => (patternWithDefault_bindsWell h).bind fun p hp => .pure hp

theorem patternProperties_bindsWell (n : Nat) : EnsuresIn C (patternProperties rec n)
    fun ps => ∀ p ∈ ps, ∀ n ∈ p.pattern.boundNames, IsBindable n := by
  have hrest {name : String} (hn : IsBindable name) :
      ∀ p ∈ [PatternProperty.rest (.name name)], ∀ n ∈ p.pattern.boundNames, IsBindable n :=
    List.forall_mem_singleton.2 (List.forall_mem_singleton.2 hn)
  induction n with
  | zero => exact .failure
  | succ n ih =>
    unfold patternProperties
    repeat' with_reducible first
      | exact .pure (List.forall_mem_nil _)
      | refine bindingName_isBindable.bind fun _ hn => .skip fun _ => .skip fun _ =>
          .pure (hrest hn)
      | refine (patternProperty_bindsWell h).bind fun _ hp => ?_
      | refine ih.bind fun _ hps => .pure (List.forall_mem_cons.2 ⟨‹_›, hps⟩)
      | exact .pure (List.forall_mem_singleton.2 ‹_›)
      | refine .skip fun _ => ?_
      | split

theorem patternItems_bindsWell (close : Token) (allowHoles : Bool) (n : Nat) :
    EnsuresIn C (patternItems rec close allowHoles n)
      fun ps => ∀ p ∈ ps, ∀ n ∈ p.boundNames, IsBindable n := by
  have hhole : ∀ n ∈ Pattern.hole.boundNames, IsBindable n := nofun
  have hrest {p : Pattern} (hp : ∀ n ∈ p.boundNames, IsBindable n) :
      ∀ q ∈ [Pattern.rest p], ∀ n ∈ q.boundNames, IsBindable n := List.forall_mem_singleton.2 hp
  induction n with
  | zero => exact .failure
  | succ n ih =>
    unfold patternItems
    repeat' with_reducible first
      | exact .pure (List.forall_mem_nil _)
      | refine h.bind fun p hp => .skip fun _ => .skip fun _ => .pure (hrest hp)
      | refine (patternWithDefault_bindsWell h).bind fun _ hp => ?_
      | refine ih.bind fun _ hps => .pure (List.forall_mem_cons.2 ⟨hhole, hps⟩)
      | refine ih.bind fun _ hps => .pure (List.forall_mem_cons.2 ⟨‹_›, hps⟩)
      | exact .pure (List.forall_mem_singleton.2 ‹_›)
      | refine .skip fun _ => ?_
      | split

theorem pattern_bindsWell :
    EnsuresIn C (pattern rec) fun p => ∀ n ∈ p.boundNames, IsBindable n := by
  refine .skip fun c => .skip fun token => ?_
  split
  · refine .skip fun _ => (patternProperties_bindsWell h _).bind fun ps hps => .skip fun _ =>
      .pure ?_
    rw [Pattern.boundNames, PatternProperty.allBoundNames_eq]
    exact List.forall_mem_flatMap.2 hps
  · refine .skip fun _ => (patternItems_bindsWell h _ _ _).bind fun ps hps => .skip fun _ =>
      .pure ?_
    rw [Pattern.boundNames, Pattern.allBoundNames_eq]
    exact List.forall_mem_flatMap.2 hps
  · exact bindingName_isBindable.bind fun _ hn => .pure (List.forall_mem_singleton.2 hn)

end Patterns

theorem grammar_pattern_bindsWell (n : Nat) :
    EnsuresIn C (grammar n .pattern) fun p => ∀ n ∈ p.boundNames, IsBindable n := by
  induction n with
  | zero => exact .failure
  | succ n ih => exact pattern_bindsWell ih

section Declarations

variable {rec : Grammar} (h : ∀ {C : Context → Prop},
  EnsuresIn C (rec .pattern) fun p => ∀ n ∈ p.boundNames, IsBindable n)
include h

theorem varDecl_bindsWell (kind : VarKind) :
    EnsuresIn C (varDecl rec kind) fun d => ∀ n ∈ d.names, IsBindable n := by
  have hdeclarator : EnsuresIn C (declarator rec) fun d => ∀ n ∈ d.names, IsBindable n := by
    refine h.bind fun p hp => .skip fun _ => ?_
    split <;> exact .skip fun _ => .pure hp
  have hdeclarators : EnsuresIn C (declarators rec kind)
      fun ds => ∀ d ∈ ds, ∀ n ∈ d.names, IsBindable n :=
    .skip fun _ => (hdeclarator.commaSeparated _).bind fun _ hds => .skip fun _ => .pure hds
  exact hdeclarators.bind fun ds hds => .skip fun _ => .skip fun _ =>
    .pure (List.forall_mem_flatMap.2 hds)

omit h in
theorem functionRest_name (isAsync isGenerator : Bool) (name : Option String) :
    EnsuresIn C (functionRest rec isAsync isGenerator name) fun f => f.name? = name :=
  EnsuresIn.withReader (D := fun _ => True) (.skip fun _ => .skip fun _ => .pure rfl)
    fun _ _ => True.intro

omit h in
theorem functionDecl_bindsWell (isAsync mayBeNameless : Bool) :
    EnsuresIn C (functionDecl rec isAsync mayBeNameless) fun f => ∀ n ∈ f.name?, IsBindable n := by
  have hrest {isGenerator : Bool} {name : Option String} (hn : ∀ n ∈ name, IsBindable n) :
      EnsuresIn C (functionRest rec isAsync isGenerator name)
        fun f => ∀ n ∈ f.name?, IsBindable n := by
    intro c s f s' hc hf
    rw [functionRest_name isAsync isGenerator name c s f s' hc hf]
    exact hn
  refine .skip fun isGenerator => .skip fun nameless => ?_
  split
  · exact EnsuresIn.none.bind fun _ hn => hrest hn
  · exact bindingName_isBindable.optional.bind fun _ hn => hrest hn

omit h in
theorem classDeclaration_bindsWell (modifiers : List String) (ds : List Expr) :
    EnsuresIn C (classDeclaration rec modifiers ds) fun c => ∀ n ∈ c.name?, IsBindable n := by
  have hnone : EnsuresIn C (pure none) fun name : Option String => ∀ n ∈ name, IsBindable n :=
    .none
  have hclass {types : ClassTypes} {name : Option String} {extended : Option Expr}
      {members : List Member} (hn : ∀ n ∈ name, IsBindable n) :
      ∀ n ∈ (Class.mk ds types name extended members).name?, IsBindable n := hn
  refine .skip fun _ => .skip fun token => .skip fun isWord => ?_
  dsimp only
  repeat' with_reducible first
    | refine bindingName_isBindable.optional.bind fun _ _ => ?_
    | refine hnone.bind fun _ _ => ?_
    | exact .pure (hclass ‹_›)
    | refine .skip fun _ => ?_
    | split

end Declarations

section Imports

/-- Where modules await. -/
def Awaits (c : Context) : Prop := c.inAwait = true

theorem bindingName_not_await :
    EnsuresIn Awaits bindingName fun name => IsBindable name ∧ name ≠ "await" := by
  intro c s name s' hc h
  obtain ⟨hbind, -, hawait⟩ := bindingName_eq_some h
  refine ⟨hbind, ?_⟩
  intro he
  exact Bool.false_ne_true ((hawait he).symm.trans hc)

theorem importSpecifiers_bindsWell : EnsuresIn Awaits importSpecifiers
    fun ss => ∀ s ∈ ss, IsBindable s.localName ∧ s.localName ≠ "await" := by
  have hspecifier : EnsuresIn Awaits importSpecifier
      fun s => IsBindable s.localName ∧ s.localName ≠ "await" := by
    refine .skip fun isRenamed => ?_
    split
    · exact .skip fun _ => .skip fun _ => bindingName_not_await.bind fun _ hn => .pure hn
    · exact bindingName_not_await.bind fun _ hn => .pure hn
  have hstar : EnsuresIn Awaits starSpecifier
      fun s => IsBindable s.localName ∧ s.localName ≠ "await" :=
    .skip fun _ => bindingName_not_await.bind fun _ hn => .pure hn
  have hnil : EnsuresIn Awaits (pure [])
      fun ss : List ImportSpecifier => ∀ s ∈ ss, IsBindable s.localName ∧ s.localName ≠ "await" :=
    .pure (List.forall_mem_nil _)
  have hfirst : EnsuresIn Awaits ((fun n => [ImportSpecifier.default n]) <$> bindingName)
      fun ss => ∀ s ∈ ss, IsBindable s.localName ∧ s.localName ≠ "await" :=
    bindingName_not_await.map fun _ hn => List.forall_mem_singleton.2 hn
  have hstars : EnsuresIn Awaits ((fun s => [s]) <$> starSpecifier)
      fun ss => ∀ s ∈ ss, IsBindable s.localName ∧ s.localName ≠ "await" :=
    hstar.map fun _ hs => List.forall_mem_singleton.2 hs
  unfold importSpecifiers
  repeat' with_reducible first
    | refine hfirst.bind fun _ _ => ?_
    | refine hstars.bind fun _ hs => .pure (List.forall_mem_append.2 ⟨‹_›, hs⟩)
    | refine (hspecifier.listUntil _).bind fun _ hs => .pure (List.forall_mem_append.2 ⟨‹_›, hs⟩)
    | refine hnil.bind fun _ _ => ?_
    | exact .pure (List.forall_mem_append.2 ⟨‹_›, ‹_›⟩)
    | refine .skip fun _ => ?_
    | split
    | dsimp only

theorem importDeclaration_bindsWell : EnsuresIn Awaits importDeclaration Stmt.BindsWell := by
  have hclause : EnsuresIn Awaits importClause
      fun r => ∀ s ∈ r.2.getD [], IsBindable s.localName ∧ s.localName ≠ "await" := by
    have hresult {phase : Option ImportPhase} {ss : List ImportSpecifier}
        (hs : ∀ s ∈ ss, IsBindable s.localName ∧ s.localName ≠ "await") :
        ∀ s ∈ (phase, some ss).2.getD [], IsBindable s.localName ∧ s.localName ≠ "await" := hs
    unfold importClause
    repeat' with_reducible first
      | exact .pure (List.forall_mem_nil _)
      | refine importSpecifiers_bindsWell.bind fun _ hs => .skip fun _ => .skip fun _ =>
          .pure (hresult hs)
      | refine .skip fun _ => ?_
      | split
  refine hclause.bind fun r hr => .skip fun _ => .skip fun _ => .skip fun _ => .pure ⟨?_, nofun⟩
  exact List.forall_mem_map.2 hr

end Imports

section Exports

theorem bindsWell_of_nil {s : Stmt} (hi : s.importedLocals = []) (he : s.exportedLocals = []) :
    s.BindsWell := by
  constructor
  · rw [hi]
    exact List.forall_mem_nil _
  · rw [he]
    exact List.forall_mem_nil _

/-- A name across a module boundary is one, unless it is a string. -/
theorem moduleName_isName :
    EnsuresIn C moduleName fun n => ∀ text, n = .ident text → Identifier.isName text = true := by
  refine .skip fun token => ?_
  split
  · exact .skip fun _ => .skip fun _ => .pure fun _ he => nomatch he
  · exact anyName_isName.bind fun _ hn => .pure fun _ he => ModuleName.ident.inj he ▸ hn

theorem exportSpecifier_isName : EnsuresIn C exportSpecifier
    fun s => ∀ text, s.localName = .ident text → Identifier.isName text = true := by
  refine moduleName_isName.bind fun n hn => .skip fun isRenamed => ?_
  split <;> exact .skip fun _ => .pure hn

theorem isBindable_of_isLocal {n : ModuleName} (hl : isLocal n = true)
    (hn : ∀ text, n = .ident text → Identifier.isName text = true) : IsBindable n.text := by
  cases n with
  | ident name =>
    rw [isLocal, Bool.and_eq_true, Bool.not_eq_true'] at hl
    exact ⟨hn name rfl, hl.1⟩
  | string value => cases hl

theorem exportNames_bindsWell : EnsuresIn C exportNames Stmt.BindsWell := by
  refine (exportSpecifier_isName.listUntil _).bind fun specifiers hs => .skip fun source => ?_
  have hnames : EnsuresIn C (do
      require (source.isSome || specifiers.all fun s => isLocal s.localName)
      semicolon
      return .exportNames specifiers source) Stmt.BindsWell := by
    refine (EnsuresIn.require _).bind fun _ hr => .skip fun _ => .pure ?_
    cases source with
    | some source => exact bindsWell_of_nil rfl rfl
    | none =>
      refine ⟨nofun, List.forall_mem_map.2 fun s hmem => ?_⟩
      exact isBindable_of_isLocal (List.all_eq_true.1 hr s hmem) (hs s hmem)
  split <;> exact .skip fun _ => hnames

theorem names_asPureFunction (d : Decl) : d.asPureFunction.names = d.names := by
  cases d with
  | vars kind ds =>
    cases kind with
    | constKind =>
      cases ds with
      | nil => rfl
      | cons d ds =>
        obtain ⟨p, init⟩ := d
        cases init <;> rfl
    | _ => rfl
  | function f =>
    cases f
    rfl
  | _ => rfl

theorem bindsWell_asPureFunction {s : Stmt} (h : s.BindsWell) : s.asPureFunction.BindsWell := by
  cases s with
  | decl d => exact bindsWell_of_nil rfl rfl
  | exportDecl d =>
    refine ⟨nofun, ?_⟩
    have hnames : (Stmt.exportDecl d.asPureFunction).exportedLocals = d.names :=
      names_asPureFunction d
    rw [Stmt.asPureFunction, hnames]
    exact h.exports
  | exportDefaultFunction f =>
    cases f
    exact ⟨nofun, h.exports⟩
  | exportDefault value => exact bindsWell_of_nil rfl rfl
  | _ => exact h

variable {rec : Grammar}

theorem exportDefault_bindsWell (ds : List Expr) :
    EnsuresIn C (exportDefault rec ds) Stmt.BindsWell := by
  have hfunction {f : Function} (hf : ∀ n ∈ f.name?, IsBindable n) :
      (Stmt.exportDefaultFunction f).BindsWell := ⟨nofun, fun n hn => hf n (Option.mem_toList.1 hn)⟩
  have hclass {c : Class} (hc : ∀ n ∈ c.name?, IsBindable n) :
      (Stmt.exportDefaultClass c).BindsWell := ⟨nofun, fun n hn => hc n (Option.mem_toList.1 hn)⟩
  have htype (text : String) : (Stmt.exportDecl (.typeOnly text)).BindsWell :=
    bindsWell_of_nil rfl rfl
  have hvalue (e : Expr) : (Stmt.exportDefault e).BindsWell := bindsWell_of_nil rfl rfl
  have hexported (ds : List Expr) : EnsuresIn C (exportDefault.exported rec ds) Stmt.BindsWell := by
    unfold exportDefault.exported
    repeat' with_reducible first
      | refine (functionDecl_bindsWell _ _).bind fun _ hf => .pure (hfunction hf)
      | refine (classDeclaration_bindsWell _ _).bind fun _ hc => .pure (hclass hc)
      | exact .pure (htype _)
      | exact .pure (hvalue _)
      | refine .skip fun _ => ?_
      | split
  refine .skip fun s => .skip fun ds' => (hexported _).bind fun s hs => .pure ?_
  split
  · exact bindsWell_asPureFunction hs
  · exact hs

variable (h : ∀ {C : Context → Prop},
  EnsuresIn C (rec .pattern) fun p => ∀ n ∈ p.boundNames, IsBindable n)
include h

theorem exportedDeclaration_bindsWell (ds : List Expr) :
    EnsuresIn C (exportedDeclaration rec ds) fun d => ∀ n ∈ d.names, IsBindable n := by
  have hfunction {f : Function} (hf : ∀ n ∈ f.name?, IsBindable n) :
      ∀ n ∈ (Decl.function f).names, IsBindable n := fun n hn => hf n (Option.mem_toList.1 hn)
  have hclass {c : Class} (hc : ∀ n ∈ c.name?, IsBindable n) :
      ∀ n ∈ (Decl.classDef c).names, IsBindable n := fun n hn => hc n (Option.mem_toList.1 hn)
  have htype (text : String) : ∀ n ∈ (Decl.typeOnly text).names, IsBindable n := nofun
  have hnamespace (keyword : String) :
      EnsuresIn C (namespaceBlock rec keyword) fun d => ∀ n ∈ d.names, IsBindable n :=
    .skip fun _ => .skip fun _ => .skip fun _ => .skip fun _ => .skip fun _ => .pure nofun
  unfold exportedDeclaration
  repeat' with_reducible first
    | exact varDecl_bindsWell h _
    | exact hnamespace _
    | exact .pure (htype _)
    | refine (functionDecl_bindsWell _ _).bind fun _ hf => .pure (hfunction hf)
    | refine (classDeclaration_bindsWell _ _).bind fun _ hc => .pure (hclass hc)
    | refine .skip fun _ => ?_
    | split

theorem exportStatement_bindsWell (ds : List Expr) :
    EnsuresIn C (exportStatement rec ds) Stmt.BindsWell := by
  have hall : EnsuresIn C exportAll Stmt.BindsWell := by
    have hresult {exported : Option ModuleName} {source : String} {a : Option ImportAttributes} :
        (Stmt.exportAll exported source a).BindsWell := bindsWell_of_nil rfl rfl
    unfold exportAll
    repeat' with_reducible first
      | exact .pure hresult
      | refine .skip fun _ => ?_
      | split
  have hdecl {d : Decl} (hd : ∀ n ∈ d.names, IsBindable n) : (Stmt.exportDecl d).BindsWell :=
    ⟨nofun, hd⟩
  unfold exportStatement
  repeat' with_reducible first
    | exact exportDefault_bindsWell _
    | exact exportNames_bindsWell
    | exact hall
    | refine (exportedDeclaration_bindsWell h _).bind fun _ hd => .pure (hdecl hd)
    | refine .skip fun _ => ?_
    | split

end Exports

section Statements

variable {rec : Grammar}

theorem letStatement_bindsWell (isSingle : Bool) :
    EnsuresIn C (letStatement rec isSingle) Stmt.BindsWell := by
  unfold letStatement
  repeat' with_reducible first
    | refine .skip fun _ => ?_
    | split
  all_goals exact .pure (bindsWell_of_nil rfl rfl)

theorem forLoop_bindsWell (init : ForHead) : EnsuresIn C (forLoop rec init) Stmt.BindsWell := by
  unfold forLoop
  repeat' with_reducible first
    | refine .skip fun _ => ?_
    | split
  all_goals exact .pure (bindsWell_of_nil rfl rfl)

theorem forInOf_bindsWell (isAwait : Bool) (left : ForHead) :
    EnsuresIn C (forInOf rec isAwait left) Stmt.BindsWell := by
  unfold forInOf
  repeat' with_reducible first
    | refine .skip fun _ => ?_
    | split
  all_goals exact .pure (bindsWell_of_nil rfl rfl)

theorem forStatement_bindsWell : EnsuresIn C (forStatement rec) Stmt.BindsWell := by
  have hvariables (isAwait : Bool) (kind : VarKind) :
      EnsuresIn (fun _ => True) (forVariables rec isAwait kind) Stmt.BindsWell := by
    refine .skip fun ds => .skip fun isInOf => ?_
    split
    · exact forInOf_bindsWell _ _
    · exact .skip fun _ => forLoop_bindsWell _
  refine EnsuresIn.withReader (D := fun _ => True) ?_ fun _ _ => True.intro
  repeat' with_reducible first
    | exact forLoop_bindsWell _
    | exact forInOf_bindsWell _ _
    | exact hvariables _ _
    | refine .skip fun _ => ?_
    | split

theorem switchStatement_bindsWell : EnsuresIn C (switchStatement rec) Stmt.BindsWell :=
  .skip fun _ => .skip fun _ => .skip fun _ => .skip fun _ => .pure (bindsWell_of_nil rfl rfl)

theorem tryStatement_bindsWell : EnsuresIn C (tryStatement rec) Stmt.BindsWell := by
  unfold tryStatement
  repeat' with_reducible first
    | refine .skip fun _ => ?_
    | split
  all_goals exact .pure (bindsWell_of_nil rfl rfl)

theorem functionStatement_bindsWell (isAsync isSingle : Bool) :
    EnsuresIn C (functionStatement rec isAsync isSingle) Stmt.BindsWell :=
  .skip fun _ => .skip fun _ => .skip fun _ => .pure (bindsWell_of_nil rfl rfl)

variable (h : ∀ {C : Context → Prop},
  EnsuresIn C (rec .pattern) fun p => ∀ n ∈ p.boundNames, IsBindable n)
include h

theorem wordStatement_bindsWell (isSingle : Bool) (word : String) :
    EnsuresIn Awaits (wordStatement rec isSingle word) (∀ s ∈ ·, s.BindsWell) := by
  unfold wordStatement
  split
  all_goals repeat' with_reducible first
    | exact .none
    | exact (exportStatement_bindsWell h []).optional
    | exact importDeclaration_bindsWell.optional
    | exact (letStatement_bindsWell _).optional
    | exact forStatement_bindsWell.optional
    | exact switchStatement_bindsWell.optional
    | exact tryStatement_bindsWell.optional
    | exact (functionStatement_bindsWell _ _).optional
    | refine .skip fun _ => ?_
    | split
    | dsimp only
  all_goals exact .some (bindsWell_of_nil rfl rfl)

theorem plainStatement_bindsWell (isSingle : Bool) :
    EnsuresIn Awaits (plainStatement rec isSingle) Stmt.BindsWell := by
  have hexpression : EnsuresIn Awaits (expressionStatement rec) Stmt.BindsWell := by
    unfold expressionStatement
    repeat' with_reducible first
      | refine .skip fun _ => ?_
      | split
    all_goals exact .pure (bindsWell_of_nil rfl rfl)
  refine EnsuresIn.withReader (D := Awaits) (.skip fun token => ?_) fun _ hc => hc
  split
  · exact .skip fun _ => .pure (bindsWell_of_nil rfl rfl)
  · exact .skip fun _ => .pure (bindsWell_of_nil rfl rfl)
  · refine .skip fun ds => .skip fun isExport => ?_
    split
    · exact exportStatement_bindsWell h ds
    · exact .skip fun _ => .pure (bindsWell_of_nil rfl rfl)
  · refine (wordStatement_bindsWell h isSingle _).bind fun s hs => ?_
    cases s with
    | some s => exact .pure (hs s rfl)
    | none => exact hexpression
  · exact hexpression

theorem statement_bindsWell (isSingle : Bool) :
    EnsuresIn Awaits (statement rec isSingle) Stmt.BindsWell := by
  refine .skip fun comments => .skip fun state => (plainStatement_bindsWell h isSingle).bind
    fun s hs => .pure ?_
  have hcommented {s : Stmt} (hs : s.BindsWell) :
      (if comments.isEmpty || !takesComments isSingle s then s
        else .commented comments (some s)).BindsWell := by
    split
    · exact hs
    · exact bindsWell_of_nil rfl rfl
  split
  · exact hcommented (bindsWell_asPureFunction hs)
  · exact hcommented hs

end Statements

theorem grammar_statement_bindsWell (n : Nat) (isSingle : Bool) :
    EnsuresIn Awaits (grammar n (.statement isSingle)) Stmt.BindsWell := by
  cases n with
  | zero => exact .failure
  | succ n => exact statement_bindsWell (grammar_pattern_bindsWell n) isSingle

theorem statements_bindsWell (depth : Nat) :
    EnsuresIn Awaits (statements (grammar depth)) (∀ s ∈ ·, s.BindsWell) := by
  refine .skip fun c => .many (.skip fun token => ?_) _
  split
  · exact .none
  · exact .none
  · exact (grammar_statement_bindsWell depth false).bind fun s hs => .some hs

theorem prologue_bindsWell (depth n : Nat) :
    EnsuresIn Awaits (prologue (grammar depth) n) fun r => ∀ s ∈ r.2, s.BindsWell := by
  induction n with
  | zero => exact .failure
  | succ n ih =>
    refine .skip fun token => ?_
    split
    · refine .skip fun state => (grammar_statement_bindsWell depth false).bind fun s hs => ?_
      split
      · exact ih.bind fun r hr => .pure hr
      · exact (statements_bindsWell depth).bind fun ss hss =>
          .pure (List.forall_mem_cons.2 ⟨hs, hss⟩)
    · exact (statements_bindsWell depth).bind fun ss hss => .pure hss

end Parser

/-- All imports and exports of a program bind names, none of which is reserved. -/
theorem Program.bindsWell_of_parse? {source : String} {p : Program}
    (h : Program.parse? source = some p) : ∀ s ∈ p.body, s.BindsWell := by
  have hprogram (hashbang : Option String) (depth : Nat) :
      Parser.EnsuresIn Parser.Awaits (Parser.program hashbang depth)
        fun p => ∀ s ∈ p.body, s.BindsWell :=
    .skip fun _ => .skip fun _ => (Parser.prologue_bindsWell depth _).bind fun _ hr =>
      .skip fun _ => .skip fun _ => .skip fun _ => .skip fun _ => .skip fun _ => .skip fun _ =>
        .skip fun _ => .pure hr
  obtain ⟨⟨p', s⟩, hr, rfl⟩ := Option.map_eq_some_iff.1 h
  refine hprogram _ _ _ _ _ _ ?_ hr
  exact (rfl : true = true)

end ScriptBundler
