import ScriptBundler.Proofs.Thunk.Pieces

namespace ScriptBundler

/-- The local that an imported name gets. -/
def ImportSpecifier.localName : ImportSpecifier → String
  | .default localName => localName
  | .star localName => localName
  | .named _ localName => localName

def Stmt.importedLocals : Stmt → List String
  | .importDecl d => (d.specifiers.getD []).map ImportSpecifier.localName
  | _ => []

def Stmt.declaredNames : Stmt → List String
  | .decl d => d.names
  | _ => []

/-- The locals of a group that import declarations name. -/
def Thunk.ImportGroup.imported (g : ImportGroup) : List String :=
  g.namespaces ++ g.names.map (·.2)

namespace Thunk

section Counts

variable {name url : String} {bare : Bool} {s : Stmt}

theorem count_addSpecifier (g : ImportGroup) (s : ImportSpecifier) :
    (g.addSpecifier s).imported.count name = g.imported.count name + [s.localName].count name := by
  cases s <;>
    simp only [ImportGroup.addSpecifier, ImportGroup.addName, ImportGroup.addNamespace,
      ImportGroup.imported, ImportSpecifier.localName, List.map_append, List.map_cons,
      List.map_nil, List.count_append] <;>
    omega

theorem count_fill (i : Nat) (g : ImportGroup) :
    (s.fill bare i g).imported.count name =
      g.imported.count name + s.importedLocals.count name := by
  have hadd (l : List ImportSpecifier) (g : ImportGroup) :
      (l.foldl ImportGroup.addSpecifier g).imported.count name =
        g.imported.count name + (l.map ImportSpecifier.localName).count name := by
    induction l generalizing g with
    | nil => rfl
    | cons s l ih =>
      rw [List.foldl_cons, ih, count_addSpecifier, Nat.add_assoc, ← List.count_append]
      rfl
  cases s with
  | importDecl d => exact hadd _ g
  | exportNames specifiers source => cases source <;> cases bare <;> rfl
  | exportAll exported source attributes => cases bare <;> rfl
  | _ => rfl

theorem count_updateGroup {f : ImportGroup → ImportGroup} {k : Nat}
    (h : ∀ g, (f g).imported.count name = g.imported.count name + k)
    (imports : List (String × ImportGroup)) :
    ((Drafting.updateGroup url f imports).flatMap (·.2.imported)).count name =
      (imports.flatMap (·.2.imported)).count name + k := by
  induction imports with
  | nil =>
    rw [Drafting.updateGroup, List.flatMap_singleton, h]
    rfl
  | cons p imports ih =>
    obtain ⟨u, g⟩ := p
    rw [Drafting.updateGroup]
    split
    · simp only [List.flatMap_cons, List.count_append, h]
      omega
    · simp only [List.flatMap_cons, List.count_append, ih]
      omega

/-- All groups together have a local as often as the body imports it. -/
theorem count_imported (origin : String) (style : Style) (scope : Scope) (name : String)
    (body : List Stmt) :
    ((body.foldl (Pieces.take origin style scope) {}).imports.flatMap (·.2.imported)).count name =
      (body.flatMap Stmt.importedLocals).count name := by
  induction body using List.reverseRecOn with
  | nil => rfl
  | append_singleton body s ih =>
    rw [List.foldl_append, List.flatMap_append, List.count_append, ← ih, List.flatMap_singleton]
    simp only [List.foldl_cons, List.foldl_nil, Pieces.take]
    cases hs : s.source? with
    | none =>
      have hl : s.importedLocals = [] := by
        cases s <;> first | rfl | cases hs
      rw [hl, List.count_nil, Nat.add_zero]
    | some source => exact count_updateGroup (fun g => count_fill _ g) _

def hiddenLocals (imports : List (String × ImportGroup)) : List String :=
  imports.filterMap (·.2.hidden)

theorem count_locals (imports : List (String × ImportGroup)) :
    (imports.flatMap (·.2.locals)).count name =
      (imports.flatMap (·.2.imported)).count name + (hiddenLocals imports).count name := by
  have hgroup (g : ImportGroup) :
      g.locals.count name = g.imported.count name + g.hidden.toList.count name := by
    rw [ImportGroup.locals, ImportGroup.imported, List.append_assoc, List.count_append,
      Nat.add_comm]
  rw [hiddenLocals, List.filterMap_eq_flatMap_toList]
  induction imports with
  | nil => rfl
  | cons p imports ih =>
    simp only [List.flatMap_cons, List.count_append, ih, hgroup]
    omega

theorem mem_hiddenLocals {urls : List String} {G : String → ImportGroup} :
    name ∈ hiddenLocals (urls.map fun url => (url, G url)) ↔
      ∃ url ∈ urls, (G url).hidden = some name := by
  rw [hiddenLocals, List.filterMap_map, List.mem_filterMap]
  rfl

theorem eq_hiddenName {origin : String} {index : String → Nat} {body : List Stmt}
    (h : (groupOf origin bare index url body).hidden = some name) :
    name = ImportGroup.hiddenName (index url) := by
  have hname : (groupOf origin bare index url body).hidden.getD
      (ImportGroup.hiddenName (index url)) = ImportGroup.hiddenName (index url) :=
    getD_hidden_groupOf
  rwa [h, Option.getD_some] at hname

theorem ne_hiddenName (h : name.toList.head? ≠ some '_') (i : Nat) :
    name ≠ ImportGroup.hiddenName i := by
  rintro rfl
  simp [ImportGroup.hiddenName] at h

theorem hiddenName_injective {i j : Nat}
    (h : ImportGroup.hiddenName i = ImportGroup.hiddenName j) : i = j := by
  rw [ImportGroup.hiddenName, ImportGroup.hiddenName, String.append_left_inj,
    String.append_right_inj] at h
  have hdigits (k : Nat) : Nat.ofDigitChars 10 (toString k).toList 0 = k := by
    rw [Nat.toString_eq_repr, Nat.toList_repr, Nat.ofDigitChars_ten_toDigits]
  rw [← hdigits i, h, hdigits j]

/-- All groups together declare a name as often as the body imports it. -/
theorem count_imports (origin : String) (style : Style) (scope : Scope)
    (hn : ∀ i, name ≠ ImportGroup.hiddenName i) (body : List Stmt) :
    ((body.foldl (Pieces.take origin style scope) {}).imports.flatMap (·.2.locals)).count name =
      (body.flatMap Stmt.importedLocals).count name := by
  have hhidden : name ∉ hiddenLocals (body.foldl (Pieces.take origin style scope) {}).imports := by
    rw [foldl_take]
    intro hm
    obtain ⟨url, -, hh⟩ := mem_hiddenLocals.1 hm
    exact hn _ (eq_hiddenName hh)
  rw [count_locals, count_imported, List.count_eq_zero.2 hhidden, Nat.add_zero]

end Counts

section Declarators

variable {name : String → String} {g : ImportGroup}

theorem boundNames_namesPattern : g.namesPattern.boundNames = g.names.map (·.2) := by
  rw [ImportGroup.namesPattern, Pattern.boundNames]
  induction g.names with
  | nil => rfl
  | cons p names ih =>
    rw [List.map_cons, List.map_cons, ← ih, ImportGroup.nameProperty]
    split <;> rfl

theorem names_nameDeclarators (source : Expr) :
    ((g.nameDeclarators source).flatMap Declarator.names).Perm
      (g.namespaces ++ g.names.map (·.2)) := by
  rw [← boundNames_namesPattern]
  unfold ImportGroup.nameDeclarators
  split
  · next first others hn =>
    have hothers : (others.map fun other =>
        Declarator.mk (.name other) (some (.ident first))).flatMap Declarator.names = others := by
      rw [List.flatMap_map]
      exact List.flatMap_singleton' others
    have hnames : (if g.names.isEmpty then []
        else [Declarator.mk g.namesPattern (some (.ident first))]).flatMap Declarator.names =
          g.namesPattern.boundNames := by
      split
      · next he => rw [boundNames_namesPattern, List.isEmpty_iff.1 he]; rfl
      · exact List.flatMap_singleton ..
    rw [hn, List.flatMap_append, List.flatMap_cons, hothers, hnames]
    exact .cons first List.perm_append_comm
  · next hn =>
    rw [hn]
    split
    · next he =>
      rw [boundNames_namesPattern, List.isEmpty_iff.1 (Bool.and_eq_true_iff.1 he).1]
      rfl
    · exact .of_eq (List.flatMap_singleton ..)

theorem names_declarators (exports : Expr) :
    ((g.declarators exports).flatMap Declarator.names).Perm g.locals := by
  unfold ImportGroup.declarators ImportGroup.locals
  split
  · next hidden hh =>
    rw [hh, List.flatMap_cons]
    exact .cons hidden (names_nameDeclarators _)
  · next hh =>
    rw [hh]
    exact names_nameDeclarators exports

end Declarators

section Includes

variable {name : String → String} {g : ImportGroup}

def declaratorCalls (name : String → String) (d : Declarator) : List String :=
  ((Declarator.descendAll (naming name) [d]).run []).2

theorem calls_vars (kind : VarKind) (ds : List Declarator) :
    (Stmt.decl (.vars kind ds)).calls name = ds.flatMap (declaratorCalls name) := by
  have hrun (d : Declarator) (names : List String) :
      ((Declarator.descendAll (naming name) [d]).run names).2 = names ++ declaratorCalls name d :=
    (Declarator.descendAll_related (naming_agree names) [d] names [] (List.append_nil _).symm).1
  have hall (ds : List Declarator) (names : List String) :
      ((Declarator.descendAll (naming name) ds).run names).2 =
        names ++ ds.flatMap (declaratorCalls name) := by
    induction ds generalizing names with
    | nil => exact (List.append_nil _).symm
    | cons d ds ih =>
      have hcons : ((Declarator.descendAll (naming name) (d :: ds)).run names).2 =
          ((Declarator.descendAll (naming name) ds).run
            ((Declarator.descendAll (naming name) [d]).run names).2).2 := by
        cases d
        rfl
      rw [hcons, ih, hrun, List.flatMap_cons, List.append_assoc]
  exact (hall ds []).trans (List.nil_append _)

theorem run_descendAll_nameProperty (l : List (String × String)) (names : List String) :
    (PatternProperty.descendAll (naming name) (l.map ImportGroup.nameProperty)).run names =
      (l.map ImportGroup.nameProperty, names) := by
  have hp (p : String × String) : ((ImportGroup.nameProperty p).descend (naming name)).run names =
      (ImportGroup.nameProperty p, names) := by
    obtain ⟨imported, localName⟩ := p
    simp only [ImportGroup.nameProperty, keyOf]
    split
    · rfl
    · split <;> rfl
  induction l with
  | nil => rfl
  | cons p l ih =>
    simp only [List.map_cons, PatternProperty.descendAll, StateT.run_bind, hp]
    exact congrArg (fun r => (ImportGroup.nameProperty p :: r.1, r.2)) ih

/-- What `name` makes of the specifiers of the calls in an expression. -/
def exprCalls (name : String → String) (e : Expr) : List String :=
  (((naming name).walkExpr e).run []).2

theorem declaratorCalls_namesPattern (e : Expr) :
    declaratorCalls name (.mk g.namesPattern (some e)) = exprCalls name e := by
  have hp : (g.namesPattern.descend (naming name)).run [] = (g.namesPattern, []) :=
    congrArg (fun r : List PatternProperty × List String => (Pattern.object r.1, r.2))
      (run_descendAll_nameProperty g.names [])
  simp only [declaratorCalls, Declarator.descendAll, StateT.run_bind, hp]
  rfl

theorem exprCalls_includeExpr (strategy : LoaderStrategy) (url : String) :
    exprCalls name (includeExpr strategy url) = [name url] := by
  cases strategy <;> rfl

theorem calls_nameDeclarators (e : Expr) (h : g.hidden = none ∨ exprCalls name e = []) :
    (g.nameDeclarators e).flatMap (declaratorCalls name) = exprCalls name e := by
  unfold ImportGroup.nameDeclarators
  split
  · next first others hn =>
    have hothers : (others.map fun other => Declarator.mk (.name other)
        (some (.ident first))).flatMap (declaratorCalls name) = [] := by
      rw [List.flatMap_map]
      exact List.flatMap_eq_nil_iff.2 fun _ _ => rfl
    have hnames : (if g.names.isEmpty then []
        else [Declarator.mk g.namesPattern (some (.ident first))]).flatMap
          (declaratorCalls name) = [] := by
      split
      · rfl
      · rw [List.flatMap_singleton, declaratorCalls_namesPattern]
        rfl
    rw [List.flatMap_append, List.flatMap_cons, hothers, hnames, List.append_nil, List.append_nil]
    rfl
  · split
    · next he =>
      rcases h with h | h
      · rw [h, Option.isSome_none, Bool.and_false] at he
        cases he
      · exact h.symm
    · rw [List.flatMap_singleton, declaratorCalls_namesPattern]

/-- The declaration of a group includes its module once, and makes no other calls. -/
theorem calls_toStmt (name : String → String) (strategy : LoaderStrategy) (url : String)
    (g : ImportGroup) : (g.toStmt (includeExpr strategy url)).calls name = [name url] := by
  rw [ImportGroup.toStmt, calls_vars, ImportGroup.declarators]
  split
  · next hidden hh =>
    rw [List.flatMap_cons, calls_nameDeclarators _ (.inr rfl)]
    exact (List.append_nil _).trans (exprCalls_includeExpr strategy url)
  · next hh => rw [calls_nameDeclarators _ (.inl hh), exprCalls_includeExpr]

end Includes

end Thunk

end ScriptBundler
