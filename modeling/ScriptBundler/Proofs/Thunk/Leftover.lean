import ScriptBundler.Proofs.Thunk.Marks

namespace ScriptBundler

open Node

variable {Q : Option Bool → Mark → Prop} {around : Option Bool}

namespace Stmt

/-- What a statement leaves of itself: it stays without its `export`, or as the value it exports. -/
def leftover (s : Stmt) : List Node :=
  s.stripped?.toList.map .stmt ++ s.defaultValue?.toList.map (.expr .operand)

/-- What is left of a statement has no marks that the statement has not. -/
theorem has_of_leftover {n : Node} {s : Stmt} (hn : n ∈ s.leftover) (h : Has Q around n) :
    Has Q around (.stmt s) := by
  have hpart {m : Node} {s : Stmt} (hm : m ∈ (Node.stmt s).parts) (h : Has Q around m) :
      Has Q around (.stmt s) := .part hm h
  -- an exported declaration stays as a statement of its own, and has the marks of the declaration
  have hdecl {d : Decl} (h : Has Q around (.stmt (.decl d))) : Has Q around (.decl d) :=
    (has_part_iff rfl rfl rfl).1 h
  cases s with
  | importDecl d => cases hn
  | exportNames specifiers source => cases hn
  | exportAll exported source attributes => cases hn
  | exportDecl d =>
    simp only [leftover, stripped?, defaultValue?] at hn
    split at hn
    · cases hn
    · obtain rfl := List.mem_singleton.1 hn
      exact hpart (List.mem_singleton_self _) (hdecl h)
  | exportDefaultFunction f =>
    simp only [leftover, stripped?, defaultValue?] at hn
    apply hpart (List.mem_singleton_self _)
    cases hf : f.name? with
    | some name =>
      rw [hf] at hn
      obtain rfl := List.mem_singleton.1 hn
      exact (has_part_iff rfl rfl rfl).1 (hdecl h)
    | none =>
      rw [hf] at hn
      obtain rfl := List.mem_singleton.1 hn
      exact (has_part_iff rfl rfl rfl).1 h
  | exportDefaultClass c =>
    simp only [leftover, stripped?, defaultValue?] at hn
    apply hpart (List.mem_singleton_self _)
    cases hc : c.name? with
    | some name =>
      rw [hc] at hn
      obtain rfl := List.mem_singleton.1 hn
      exact (has_part_iff rfl rfl rfl).1 (hdecl h)
    | none =>
      rw [hc] at hn
      obtain rfl := List.mem_singleton.1 hn
      exact (has_part_iff rfl rfl rfl).1 h
  | exportDefault e =>
    obtain rfl := List.mem_singleton.1 hn
    exact hpart (List.mem_singleton_self _) h
  | _ =>
    obtain rfl := List.mem_singleton.1 hn
    exact h

end Stmt

namespace Thunk

theorem not_has_keyOf (name : String) : ¬ Has Q around (.key (keyOf name)) := by
  rw [keyOf]
  split <;> simp [has_iff, mark?, Node.parts, Key.parts]

theorem not_has_propertyOf (dependency name : String) :
    ¬ Has Q around (.expr .operand (propertyOf (.ident dependency) name)) := by
  rw [propertyOf]
  split <;> simp [has_iff, mark?, Node.parts, Expr.parts, scope]

theorem has_named {name : String} {value : Expr} :
    Has Q around (.property (named name value)) ↔ Has Q around (.expr .operand value) := by
  rw [named, has_plain_iff rfl rfl]
  have hkey : ¬ Has Q around (.key (.ident name)) := by
    simp [has_iff, mark?, Node.parts, Key.parts]
  exact (hasAny_cons.trans (or_iff_right hkey)).trans hasAny_singleton

theorem has_getterOf {e : Expr} :
    Has Q around (.property (Descriptor.getterOf e)) ↔ Has Q (some false) (.expr .operand e) := by
  rw [Descriptor.getterOf, has_named, has_iff_parts rfl]
  exact hasAny_singleton

theorem not_has_enumerable : ¬ Has Q around (.property Descriptor.enumerable) := by
  rw [Descriptor.enumerable, has_named, has_plain_iff rfl rfl]
  exact hasAny_nil.1

theorem has_object {ps : List Property} : Has Q around (.expr .operand (.object ps)) ↔
    HasAny Q around (ps.map .property) := by
  rw [has_plain_iff rfl rfl]
  rfl

theorem not_has_ident {n : String} : ¬ Has Q around (.expr .operand (.ident n)) := by
  rw [has_plain_iff rfl rfl]
  exact hasAny_nil.1

theorem Descriptor.not_has_binding (localName : String) (isMutable : Bool) :
    ¬ Has Q around (.expr .operand (Descriptor.binding localName isMutable).toExpr) := by
  cases isMutable <;> simp [toExpr, has_object, has_getterOf, setterOf, has_named,
    not_has_enumerable, not_has_ident]
  simp [Expr.lambda, has_iff, mark?, Node.parts, Expr.parts, scope, Pattern.parts]

theorem Descriptor.not_has_getter {e : Expr} (h : ¬ Has Q (some false) (.expr .operand e)) :
    ¬ Has Q around (.expr .operand (Descriptor.getter e).toExpr) := by
  simp [toExpr, has_object, has_getterOf, not_has_enumerable, h]

theorem Descriptor.has_value {e : Expr} :
    Has Q around (.expr .operand (Descriptor.value e).toExpr) ↔
      Has Q around (.expr .operand e) := by
  simp [toExpr, has_object, has_named, not_has_enumerable]

theorem has_publish (hy : ¬ Q around .yield) (exports : List (String × Descriptor)) :
    Has Q around (.stmt (publish exports)) ↔
      ∃ p ∈ exports, Has Q around (.expr .operand p.2.toExpr) := by
  refine (has_part_iff rfl rfl rfl).trans ?_
  have hentry (name : String) (e : Expr) :
      Has Q around (.property (.keyValue (keyOf name) false e)) ↔
        Has Q around (.expr .operand e) := by
    rw [has_plain_iff rfl rfl]
    exact (hasAny_cons.trans (or_iff_right (not_has_keyOf name))).trans hasAny_singleton
  rw [Expr.has_yield hy, Option.toList_some, List.map_singleton, hasAny_singleton, has_object]
  simp only [HasAny, List.mem_map, exists_exists_and_eq_and, hentry]

theorem not_has_passThrough (hy : ¬ Q around .yield) (dependency : String) :
    ¬ Has Q around (.stmt (passThrough dependency)) := by
  simp [passThrough, Expr.lambda, has_iff, mark?, Node.parts, Expr.parts, Pattern.parts,
    Stmt.parts, scope, hy]

theorem of_has_includeExpr {strategy : LoaderStrategy} {url : String}
    (h : Has Q around (.expr .operand (includeExpr strategy url))) :
    strategy = .lazy ∧ Q around .await := by
  have hcall : ¬ Has Q around (.expr .operand (.call (.ident "include") [.string url])) :=
    Expr.not_has_of_specifier? .operand rfl
  cases strategy with
  | eager => exact absurd h hcall
  | lazy =>
    have hmark : (Node.expr .operand (includeExpr .lazy url)).mark? = some .await := rfl
    rw [has_iff_mark hmark] at h
    exact ⟨rfl, h.resolve_right fun h => hcall (hasAny_singleton.1 h)⟩

theorem not_has_namesPattern (g : ImportGroup) : ¬ Has Q around (.pattern g.namesPattern) := by
  rw [ImportGroup.namesPattern, has_plain_iff rfl rfl]
  rintro ⟨n, hn, h⟩
  obtain ⟨property, hp, rfl⟩ := List.mem_map.1 hn
  obtain ⟨⟨imported, localName⟩, -, rfl⟩ := List.mem_map.1 hp
  have hname : ¬ Has Q around (.pattern (.name localName)) := by
    rw [has_plain_iff rfl rfl]
    exact hasAny_nil.1
  rw [ImportGroup.nameProperty] at h
  split at h
  · rw [has_plain_iff rfl rfl] at h
    simp [has_iff, mark?, Node.parts, PatternProperty.parts, Pattern.parts, Key.parts] at h
  · rw [has_plain_iff rfl rfl] at h
    rcases hasAny_cons.1 h with h | h
    · exact not_has_keyOf _ h
    · exact hname (hasAny_singleton.1 h)

/-- What a group binds, it reads from the module or from a local of its own. -/
theorem mem_declarators {g : ImportGroup} {exports : Expr} {d : Declarator}
    (h : d ∈ g.declarators exports) : ∃ pattern source, d = .mk pattern (some source) ∧
      (source = exports ∨ ∃ name, source = .ident name) ∧
      ((∃ name, pattern = .name name ∨ pattern = .object [.rest (.name name)]) ∨
        pattern = g.namesPattern) := by
  have hnames {source : Expr} (hs : source = exports ∨ ∃ name, source = .ident name)
      (h : d ∈ g.nameDeclarators source) : ∃ pattern source, d = .mk pattern (some source) ∧
        (source = exports ∨ ∃ name, source = .ident name) ∧
        ((∃ name, pattern = .name name ∨ pattern = .object [.rest (.name name)]) ∨
          pattern = g.namesPattern) := by
    rw [ImportGroup.nameDeclarators] at h
    split at h
    · next first others _ =>
      rw [List.mem_append, List.mem_cons] at h
      rcases h with (rfl | h) | h
      · exact ⟨_, _, rfl, hs, .inl ⟨first, .inr rfl⟩⟩
      · split at h
        · cases h
        · obtain rfl := List.mem_singleton.1 h
          exact ⟨_, _, rfl, .inr ⟨first, rfl⟩, .inr rfl⟩
      · obtain ⟨other, -, rfl⟩ := List.mem_map.1 h
        exact ⟨_, _, rfl, .inr ⟨first, rfl⟩, .inl ⟨other, .inl rfl⟩⟩
    · split at h
      · cases h
      · obtain rfl := List.mem_singleton.1 h
        exact ⟨_, _, rfl, hs, .inr rfl⟩
  rw [ImportGroup.declarators] at h
  split at h
  · next hidden _ =>
    rcases List.mem_cons.1 h with rfl | h
    · exact ⟨_, _, rfl, .inl rfl, .inl ⟨hidden, .inl rfl⟩⟩
    · exact hnames (.inr ⟨hidden, rfl⟩) h
  · exact hnames (.inl rfl) h

theorem has_of_has_toStmt {g : ImportGroup} {exports : Expr}
    (h : Has Q around (.stmt (g.toStmt exports))) : Has Q around (.expr .operand exports) := by
  replace h := (has_part_iff rfl rfl rfl).1 h
  rw [has_plain_iff rfl rfl] at h
  obtain ⟨n, hn, h⟩ := h
  obtain ⟨d, hd, rfl⟩ := List.mem_map.1 hn
  obtain ⟨pattern, source, rfl, hs, hp⟩ := mem_declarators hd
  rw [has_plain_iff rfl rfl] at h
  rcases hasAny_cons.1 h with h | h
  · exfalso
    rcases hp with ⟨name, rfl | rfl⟩ | rfl
    · simp [has_iff, mark?, Node.parts, Pattern.parts] at h
    · simp [has_iff, mark?, Node.parts, Pattern.parts, PatternProperty.parts] at h
    · exact not_has_namesPattern g h
  · replace h := hasAny_singleton.1 h
    rcases hs with rfl | ⟨name, rfl⟩
    · exact h
    · exact absurd h not_has_ident

theorem Descriptor.IsReference.not_has {d : Descriptor} (h : d.IsReference) :
    ¬ Has Q around (.expr .operand d.toExpr) := by
  cases d with
  | binding localName isMutable => exact Descriptor.not_has_binding localName isMutable
  | getter e =>
    obtain ⟨localName, name, rfl⟩ := h
    exact Descriptor.not_has_getter (not_has_propertyOf localName name)
  | value e =>
    obtain ⟨localName, rfl⟩ := h
    exact fun h => not_has_ident (Descriptor.has_value.1 h)

/-- Only a default value brings marks into what is handed out. -/
theorem exists_has_exports (name : String → String) (scope : Scope) (hidden : String → String)
    (s : Stmt) :
    (∃ p ∈ s.exports name scope hidden, Has Q around (.expr .operand p.2.toExpr)) ↔
      HasAny Q around (s.defaultValue?.toList.map (.expr .operand)) := by
  cases hs : s.defaultValue? with
  | none =>
    rw [Option.toList_none, List.map_nil, hasAny_nil, iff_false]
    rintro ⟨p, hp, h⟩
    exact (isReference_of_mem_exports hs hp).not_has h
  | some e =>
    rw [(exports_of_defaultValue? hs).2]
    simp only [List.mem_singleton, exists_eq_left, Descriptor.has_value, Expr.has_renamed,
      Option.toList_some, List.map_singleton, hasAny_singleton]

theorem exists_of_mem_passed {name : String → String} {bare : Bool} {hidden : String → String}
    {s s' : Stmt} (h : s ∈ s'.passed name bare hidden) :
    ∃ dependency, s = passThrough dependency := by
  cases s' with
  | exportAll exported source attributes =>
    cases exported with
    | some exported => cases h
    | none =>
      cases bare with
      | true => cases h
      | false => exact ⟨_, List.mem_singleton.1 h⟩
  | _ => cases h

variable (hy : ¬ Q around .yield)
include hy

/-- A statement of the module has the marks of what it leaves. -/
theorem hasAny_leftover (name : String → String) (bare : Bool) (scope : Scope)
    (hidden : String → String) (s : Stmt) :
    HasAny Q around ((s.kept name bare ++ s.published name bare scope hidden).map .stmt) ↔
      HasAny Q around s.leftover := by
  have hstripped : HasAny Q around ((s.stripped?.map (Stmt.renamed name)).toList.map .stmt) ↔
      HasAny Q around (s.stripped?.toList.map .stmt) := by
    cases s.stripped? with
    | none => rfl
    | some s' =>
      simp only [Option.map_some, Option.toList_some, List.map_singleton, hasAny_singleton,
        Stmt.has_renamed]
  rw [Stmt.kept, Stmt.leftover, List.append_assoc, List.map_append, hasAny_append, hasAny_append,
    hstripped]
  apply or_congr_right
  cases bare with
  | true =>
    simp only [↓reduceIte, Stmt.published, Bool.not_true, Bool.false_and, Bool.false_eq_true,
      List.append_nil]
    cases s.defaultValue? with
    | none => rfl
    | some e =>
      have hexpr : Has Q around (.stmt (.expr (e.renamed name))) ↔
          Has Q around (.expr .operand (e.renamed name)) := by
        rw [has_plain_iff rfl rfl]
        exact hasAny_singleton
      simp only [Option.map_some, Option.toList_some, List.map_singleton, hasAny_singleton, hexpr,
        Expr.has_renamed]
  | false =>
    rw [← exists_has_exports name scope hidden s]
    simp only [Bool.false_eq_true, ↓reduceIte, List.nil_append, Stmt.published, Bool.not_false,
      Bool.true_and]
    cases he : s.exports name scope hidden with
    | nil => simp
    | cons p exports =>
      simp only [List.isEmpty_cons, Bool.not_false, ↓reduceIte, List.map_singleton,
        hasAny_singleton, has_publish hy]

/-- A lowered body has the marks of what the statements of its module leave. -/
theorem hasAny_statements (origin : String) (style : Style) (body : List Stmt)
    (ha : style.strategy = .lazy → ¬ Q around .await) :
    HasAny Q around (((piecesOf origin style body).statements style.strategy).map .stmt) ↔
      HasAny Q around (body.flatMap Stmt.leftover) := by
  have himports : ¬ HasAny Q around (((piecesOf origin style body).imports.map
      fun p => p.2.toStmt (includeExpr style.strategy p.1)).map .stmt) := by
    rintro ⟨n, hn, h⟩
    obtain ⟨s, hs, rfl⟩ := List.mem_map.1 hn
    obtain ⟨⟨url, g⟩, -, rfl⟩ := List.mem_map.1 hs
    obtain ⟨hl, hq⟩ := of_has_includeExpr (has_of_has_toStmt h)
    exact ha hl hq
  have hpassed : ¬ HasAny Q around ((piecesOf origin style body).passThroughs.map .stmt) := by
    rintro ⟨n, hn, h⟩
    obtain ⟨s, hs, rfl⟩ := List.mem_map.1 hn
    obtain ⟨s', -, hs⟩ := List.mem_flatMap.1 hs
    obtain ⟨dependency, rfl⟩ := exists_of_mem_passed hs
    exact not_has_passThrough hy dependency h
  have hbody : HasAny Q around ((piecesOf origin style body).body.map .stmt) ↔
      HasAny Q around (body.flatMap Stmt.leftover) := by
    simp only [piecesOf, Pieces.ofBody, List.map_flatMap, hasAny_flatMap, hasAny_leftover hy]
  rw [Pieces.statements, List.map_append, List.map_append, hasAny_append, hasAny_append,
    or_iff_right himports, or_iff_right hpassed, hbody]

end Thunk

end ScriptBundler
