import ScriptBundler.Syntax.Names

namespace ScriptBundler

def PatternProperty.pattern : PatternProperty → Pattern
  | .keyed _ _ p => p
  | .rest p => p

/-- The identifiers that a pattern binds, wherever they stand in it. -/
inductive Pattern.Binds : Pattern → String → Prop where
  | name (n : String) : Pattern.Binds (.name n) n
  | property {properties : List PatternProperty} {p : PatternProperty} {n : String}
    (hp : p ∈ properties) (h : Pattern.Binds p.pattern n) : Pattern.Binds (.object properties) n
  | item {items : List Pattern} {p : Pattern} {n : String} (hp : p ∈ items)
    (h : Pattern.Binds p n) : Pattern.Binds (.array items) n
  | withDefault {p : Pattern} {n : String} (value : Expr) (h : Pattern.Binds p n) :
    Pattern.Binds (.withDefault p value) n
  | rest {p : Pattern} {n : String} (h : Pattern.Binds p n) : Pattern.Binds (.rest p) n

/-- The identifiers that a declaration binds. -/
inductive Decl.Binds : Decl → String → Prop where
  | vars {ds : List Declarator} {p : Pattern} {init : Option Expr} {n : String} (kind : VarKind)
    (hd : .mk p init ∈ ds) (h : p.Binds n) : Decl.Binds (.vars kind ds) n
  | function {f : Function} {n : String} (h : f.name? = some n) : Decl.Binds (.function f) n
  | classDef {c : Class} {n : String} (h : c.name? = some n) : Decl.Binds (.classDef c) n

theorem PatternProperty.allBoundNames_eq (ps : List PatternProperty) :
    allBoundNames ps = ps.flatMap fun p => p.pattern.boundNames := by
  induction ps with
  | nil => rfl
  | cons p ps ih => cases p <;> rw [allBoundNames, ih, List.flatMap_cons] <;> rfl

namespace Pattern

variable {n : String}

theorem sizeOf_pattern_lt (p : PatternProperty) : sizeOf p.pattern < sizeOf p := by
  cases p with
  | keyed key isShorthand p =>
    simp only [PatternProperty.pattern, PatternProperty.keyed.sizeOf_spec]
    omega
  | rest p =>
    simp only [PatternProperty.pattern, PatternProperty.rest.sizeOf_spec]
    omega

theorem allBoundNames_eq (ps : List Pattern) : allBoundNames ps = ps.flatMap boundNames := by
  induction ps with
  | nil => rfl
  | cons p ps ih => rw [allBoundNames, ih, List.flatMap_cons]

theorem mem_boundNames_iff {p : Pattern} : n ∈ p.boundNames ↔ p.Binds n := by
  constructor
  · intro h
    match p with
    | .name m =>
      obtain rfl := List.mem_singleton.1 h
      exact .name n
    | .object properties =>
      rw [boundNames, PatternProperty.allBoundNames_eq] at h
      obtain ⟨q, hq, hn⟩ := List.mem_flatMap.1 h
      exact .property hq (mem_boundNames_iff.1 hn)
    | .array items =>
      rw [boundNames, allBoundNames_eq] at h
      obtain ⟨q, hq, hn⟩ := List.mem_flatMap.1 h
      exact .item hq (mem_boundNames_iff.1 hn)
    | .withDefault q value => exact .withDefault value (mem_boundNames_iff.1 h)
    | .rest q => exact .rest (mem_boundNames_iff.1 h)
    | .target _ => cases h
    | .hole => cases h
  · intro h
    induction h with
    | name n => exact List.mem_singleton_self n
    | property hp _ ih =>
      rw [boundNames, PatternProperty.allBoundNames_eq]
      exact List.mem_flatMap.2 ⟨_, hp, ih⟩
    | item hp _ ih =>
      rw [boundNames, allBoundNames_eq]
      exact List.mem_flatMap.2 ⟨_, hp, ih⟩
    | withDefault value _ ih => exact ih
    | rest _ ih => exact ih
termination_by sizeOf p
decreasing_by
  · have hlt := Nat.lt_trans (sizeOf_pattern_lt q) (List.sizeOf_lt_of_mem hq)
    simp only [object.sizeOf_spec]
    omega
  · have hlt := List.sizeOf_lt_of_mem hq
    simp only [array.sizeOf_spec]
    omega
  · simp only [withDefault.sizeOf_spec]
    omega
  · simp only [rest.sizeOf_spec]
    omega

end Pattern

theorem Decl.mem_names_iff {n : String} {d : Decl} : n ∈ d.names ↔ d.Binds n := by
  constructor
  · intro h
    cases d with
    | vars kind ds =>
      obtain ⟨⟨p, init⟩, hd, hn⟩ := List.mem_flatMap.1 h
      exact .vars kind hd (Pattern.mem_boundNames_iff.1 hn)
    | function f => exact .function (Option.mem_toList.1 h)
    | classDef c => exact .classDef (Option.mem_toList.1 h)
    | typeOnly _ => cases h
    | namespaceBlock _ _ _ _ => cases h
  · intro h
    cases h with
    | vars kind hd hp => exact List.mem_flatMap.2 ⟨_, hd, Pattern.mem_boundNames_iff.2 hp⟩
    | function h => exact Option.mem_toList.2 h
    | classDef h => exact Option.mem_toList.2 h

end ScriptBundler
