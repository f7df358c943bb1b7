import ScriptBundler.Proofs.Syntax.Declared
import ScriptBundler.Proofs.Syntax.Parts

namespace ScriptBundler.Node

variable {name : String} {inside : Bool} {n : Node}

/-- The names that a node itself declares with `var`. -/
def ownVarNames : Node → List String
  | .decl d => d.varNames
  | .head h => h.varNames
  | _ => []

def varNames : Node → List String
  | .decl d => d.varNames
  | .head h => h.varNames
  | .case (.mk _ body) => Stmt.allVarNames body
  | .stmt s => s.varNames
  | _ => []

def isNamespace : Node → Bool
  | .decl (.namespaceBlock _ _ _ _) => true
  | _ => false

/-- A `var` outside of functions declares the name, told together with whether a namespace is
around it. -/
inductive Hoists (name : String) : Bool → Node → Prop where
  | here {n : Node} (h : name ∈ n.ownVarNames) : Hoists name false n
  | part {inside : Bool} {n m : Node} (hs : n.isScope = false) (hm : m ∈ n.parts)
      (h : Hoists name inside m) : Hoists name (n.isNamespace || inside) n

/-- Nodes that have statements in functions only. -/
def isValue : Node → Bool
  | .decl _ => false
  | .head _ => false
  | .case _ => false
  | .stmt _ => false
  | _ => true

theorem isValue_of_mem_parts (hn : n.isValue = true) (hs : n.isScope = false) :
    ∀ m ∈ n.parts, m.isValue = true := by
  cases n
  case' expr place e => cases e
  case' key k => cases k
  case' property p => cases p
  case' pattern p => cases p
  case' patternProperty p => cases p
  case' function f => cases f
  case' classDef c => cases c
  case' member m => cases m
  case' declarator d => cases d
  all_goals first
    | exact Bool.noConfusion hn
    | exact Bool.noConfusion hs
    | simp [parts, Expr.parts, Key.parts, Property.parts, Pattern.parts, PatternProperty.parts,
        Class.parts, Member.parts, Declarator.parts, or_imp, forall_and, isValue]

theorem varNames_of_isValue (h : n.isValue = true) : n.varNames = [] := by
  cases n <;> first | rfl | cases h

theorem flatMap_varNames_eq_nil {ns : List Node} (h : ∀ n ∈ ns, n.isValue = true) :
    ns.flatMap varNames = [] :=
  List.flatMap_eq_nil_iff.2 fun n hn => varNames_of_isValue (h n hn)

theorem not_hoists_of_isValue (hn : n.isValue = true) : ¬ Hoists name inside n := by
  intro h
  induction h with
  | @here n h => cases n <;> first | cases h | cases hn
  | part hs hm h ih => exact ih (isValue_of_mem_parts hn hs _ hm)

section Lists

theorem varNames_exprs (es : List Expr) (place : Place) :
    (es.map (Node.expr place)).flatMap varNames = [] :=
  flatMap_varNames_eq_nil (List.forall_mem_map.2 fun _ _ => rfl)

theorem varNames_declarators (ds : List Declarator) :
    (ds.map Node.declarator).flatMap varNames = [] :=
  flatMap_varNames_eq_nil (List.forall_mem_map.2 fun _ _ => rfl)

theorem varNames_stmts (ss : List Stmt) :
    (ss.map Node.stmt).flatMap varNames = Stmt.allVarNames ss := by
  rw [List.flatMap_map, Stmt.allVarNames_eq]
  rfl

theorem allVarNames_toList (s : Option Stmt) :
    Stmt.allVarNames s.toList = Stmt.optionVarNames s := by
  cases s with
  | none => rfl
  | some s => exact List.append_nil _

theorem allVarNames_getD (body : Option (List Stmt)) :
    Stmt.allVarNames (body.getD []) = Stmt.blockVarNames body := by
  cases body <;> rfl

theorem varNames_cases (cs : List Case) :
    (cs.map Node.case).flatMap varNames = Case.allVarNames cs := by
  induction cs with
  | nil => rfl
  | cons c cs ih =>
    obtain ⟨test, body⟩ := c
    rw [List.map_cons, List.flatMap_cons, ih, Case.allVarNames]
    rfl

end Lists

/-- What a node hoists, it declares itself or hoists from its parts. -/
theorem varNames_eq (hs : n.isScope = false) (hn : n.isNamespace = false) :
    n.varNames = n.ownVarNames ++ n.parts.flatMap varNames := by
  cases hv : n.isValue with
  | true =>
    have hown : n.ownVarNames = [] := by cases n <;> first | rfl | exact Bool.noConfusion hv
    rw [varNames_of_isValue hv, hown, flatMap_varNames_eq_nil (isValue_of_mem_parts hv hs)]
    rfl
  | false =>
    cases n with
    | decl d =>
      cases d with
      | vars kind ds =>
        exact ((congrArg _ (varNames_declarators ds)).trans (List.append_nil _)).symm
      | namespaceBlock keyword name directives body => exact Bool.noConfusion hn
      | _ => rfl
    | head h =>
      cases h with
      | vars kind ds =>
        exact ((congrArg _ (varNames_declarators ds)).trans (List.append_nil _)).symm
      | _ => rfl
    | case c =>
      obtain ⟨test, body⟩ := c
      simp only [varNames, ownVarNames, parts, Case.parts, List.flatMap_append, List.nil_append,
        varNames_exprs, varNames_stmts]
    | stmt s =>
      cases s with
      | tryCatch body handler finalizer =>
        rcases handler with _ | ⟨param, handler⟩
        · simp only [varNames, ownVarNames, parts, Stmt.parts, Stmt.varNames, List.map_append,
            List.flatMap_append, List.nil_append, varNames_stmts, allVarNames_getD]
        · have hparam : (param.toList.map Node.pattern).flatMap varNames = [] :=
            flatMap_varNames_eq_nil (List.forall_mem_map.2 fun _ _ => rfl)
          simp only [varNames, ownVarNames, parts, Stmt.parts, Stmt.varNames, List.map_append,
            List.flatMap_append, List.nil_append, List.append_assoc, hparam,
            varNames_stmts, allVarNames_getD]
      | _ =>
        simp [varNames, ownVarNames, parts, Stmt.parts, Stmt.varNames, varNames_exprs,
          varNames_stmts, varNames_cases, allVarNames_toList]
    | _ => exact Bool.noConfusion hv

theorem varNames_of_isScope (hs : n.isScope = true) : n.varNames = [] := by
  cases n <;> first | rfl | exact Bool.noConfusion hs

theorem varNames_of_isNamespace (hn : n.isNamespace = true) : n.varNames = [] := by
  cases n with
  | decl d => cases d <;> first | rfl | exact Bool.noConfusion hn
  | _ => exact Bool.noConfusion hn

theorem mem_varNames_of_hoists (h : Hoists name inside n) (hi : inside = false) :
    name ∈ n.varNames := by
  induction h with
  | @here n h =>
    cases n with
    | decl d => exact h
    | head left => exact h
    | _ => cases h
  | @part inside n m hs hm h ih =>
    obtain ⟨hn, hi⟩ := Bool.or_eq_false_iff.1 hi
    rw [varNames_eq hs hn]
    exact List.mem_append_right _ (List.mem_flatMap.2 ⟨m, hm, ih hi⟩)

theorem hoists_of_mem_varNames (n : Node) (h : name ∈ n.varNames) : Hoists name false n := by
  induction n using parts_induction with
  | node n ih =>
    cases hs : n.isScope with
    | true =>
      rw [varNames_of_isScope hs] at h
      cases h
    | false =>
      cases hn : n.isNamespace with
      | true =>
        rw [varNames_of_isNamespace hn] at h
        cases h
      | false =>
        rw [varNames_eq hs hn] at h
        rcases List.mem_append.1 h with h | h
        · exact .here h
        · obtain ⟨m, hm, h⟩ := List.mem_flatMap.1 h
          have hpart := Hoists.part hs hm (ih m hm h)
          rwa [hn] at hpart

theorem hoists_iff : Hoists name false n ↔ name ∈ n.varNames := by
  constructor
  · intro h
    exact mem_varNames_of_hoists h rfl
  · exact hoists_of_mem_varNames n

end ScriptBundler.Node
