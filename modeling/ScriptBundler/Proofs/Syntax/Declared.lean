import ScriptBundler.Proofs.Thunk.Imports

namespace ScriptBundler

variable {σ : Type} (v : Visitor σ)

section Patterns

mutual

theorem Pattern.boundNames_descend :
    ∀ (p : Pattern) (st : σ), ((p.descend v).run st).1.boundNames = p.boundNames
  | .name _, _ => rfl
  | .target _, _ => rfl
  | .hole, _ => rfl
  | .object properties, st => PatternProperty.allBoundNames_descend properties st
  | .array items, st => Pattern.allBoundNames_descend items st
  | .withDefault p _, st => p.boundNames_descend st
  | .rest p, st => p.boundNames_descend st

theorem Pattern.allBoundNames_descend : ∀ (ps : List Pattern) (st : σ),
    Pattern.allBoundNames ((Pattern.descendAll v ps).run st).1 = Pattern.allBoundNames ps
  | [], _ => rfl
  | p :: ps, st =>
    congrArg₂ (· ++ ·) (p.boundNames_descend st) (Pattern.allBoundNames_descend ps _)

theorem PatternProperty.allBoundNames_descend : ∀ (ps : List PatternProperty) (st : σ),
    PatternProperty.allBoundNames ((PatternProperty.descendAll v ps).run st).1 =
      PatternProperty.allBoundNames ps
  | [], _ => rfl
  | .keyed _ _ p :: ps, _ =>
    congrArg₂ (· ++ ·) (p.boundNames_descend _) (PatternProperty.allBoundNames_descend ps _)
  | .rest p :: ps, st =>
    congrArg₂ (· ++ ·) (p.boundNames_descend st) (PatternProperty.allBoundNames_descend ps _)

end

theorem Declarator.names_descend (ds : List Declarator) (st : σ) :
    ((Declarator.descendAll v ds).run st).1.flatMap names = ds.flatMap names := by
  induction ds generalizing st with
  | nil => rfl
  | cons d ds ih =>
    obtain ⟨p, init⟩ := d
    exact congrArg₂ (· ++ ·) (p.boundNames_descend v st) (ih _)

end Patterns

namespace Function

theorem name?_descend (f : Function) (st : σ) : ((f.descend v).run st).1.name? = f.name? := by
  obtain ⟨isAsync, isGenerator, isPure, name, params, directives, body⟩ := f
  rw [Function.descend, Visitor.enter]
  split <;> rfl

end Function

theorem Class.name?_descend (c : Class) (st : σ) : ((c.descend v).run st).1.name? = c.name? := by
  cases c
  rfl

/-- The names that a declaration hoists out of blocks. -/
def Decl.varNames : Decl → List String
  | .vars .varKind ds => ds.flatMap Declarator.names
  | _ => []

/-- The names that a declaration declares where it stands. -/
def Decl.lexicalNames : Decl → List String
  | .vars .varKind _ => []
  | d => d.names

def ForHead.varNames : ForHead → List String
  | .vars .varKind ds => ds.flatMap Declarator.names
  | _ => []

mutual

/-- The names that a statement declares with `var`, outside of functions. -/
def Stmt.varNames : Stmt → List String
  | .decl d => d.varNames
  | .exportDecl d => d.varNames
  | .block body => Stmt.allVarNames body
  | .ifElse _ consequent alternate => consequent.varNames ++ Stmt.optionVarNames alternate
  | .whileLoop _ body => body.varNames
  | .doWhile body _ => body.varNames
  | .forLoop init _ _ body => init.varNames ++ body.varNames
  | .forIn left _ body => left.varNames ++ body.varNames
  | .forOf _ left _ body => left.varNames ++ body.varNames
  | .switch _ cases => Case.allVarNames cases
  | .tryCatch body none finalizer => Stmt.allVarNames body ++ Stmt.blockVarNames finalizer
  | .tryCatch body (some (_, handler)) finalizer =>
    Stmt.allVarNames body ++ Stmt.allVarNames handler ++ Stmt.blockVarNames finalizer
  | .labeled _ body => body.varNames
  | .withObject _ body => body.varNames
  | .commented _ s => Stmt.optionVarNames s
  | _ => []

def Stmt.optionVarNames : Option Stmt → List String
  | none => []
  | some s => s.varNames

def Stmt.blockVarNames : Option (List Stmt) → List String
  | none => []
  | some body => Stmt.allVarNames body

def Stmt.allVarNames : List Stmt → List String
  | [] => []
  | s :: ss => s.varNames ++ Stmt.allVarNames ss

def Case.allVarNames : List Case → List String
  | [] => []
  | .mk _ body :: cases => Stmt.allVarNames body ++ Case.allVarNames cases

end

theorem Stmt.allVarNames_eq (ss : List Stmt) : allVarNames ss = ss.flatMap varNames := by
  induction ss with
  | nil => rfl
  | cons s ss ih => rw [allVarNames, ih, List.flatMap_cons]

/-- The names that a statement declares in the scope where it stands. -/
def Stmt.lexicalNames : Stmt → List String
  | .importDecl d => (d.specifiers.getD []).map ImportSpecifier.localName
  | .decl d => d.lexicalNames
  | .exportDecl d => d.lexicalNames
  | .exportDefaultFunction f => f.name?.toList
  | .exportDefaultClass c => c.name?.toList
  | .labeled _ s => s.lexicalNames
  | .commented _ (some s) => s.lexicalNames
  | _ => []

theorem Decl.varNames_descend (d : Decl) (st : σ) :
    ((d.descend v).run st).1.varNames = d.varNames := by
  cases d with
  | vars kind ds => cases kind <;> first | exact Declarator.names_descend v ds _ | rfl
  | _ => rfl

theorem Decl.lexicalNames_descend (d : Decl) (st : σ) :
    ((d.descend v).run st).1.lexicalNames = d.lexicalNames := by
  cases d with
  | vars kind ds => cases kind <;> first | exact Declarator.names_descend v ds _ | rfl
  | function f => exact congrArg Option.toList (f.name?_descend v st)
  | classDef c => exact congrArg Option.toList (c.name?_descend v st)
  | _ => rfl

theorem ForHead.varNames_descend (head : ForHead) (st : σ) :
    ((head.descend v).run st).1.varNames = head.varNames := by
  cases head with
  | vars kind ds => cases kind <;> first | exact Declarator.names_descend v ds _ | rfl
  | _ => rfl

mutual

theorem Stmt.varNames_descend :
    ∀ (s : Stmt) (st : σ), ((s.descend v).run st).1.varNames = s.varNames
  | .decl d, st => d.varNames_descend v st
  | .exportDecl d, st => d.varNames_descend v st
  | .block body, st => Stmt.allVarNames_descend body st
  | .ifElse _ consequent alternate, _ =>
    congrArg₂ (· ++ ·) (consequent.varNames_descend _) (Stmt.optionVarNames_descend alternate _)
  | .whileLoop _ body, _ => body.varNames_descend _
  | .doWhile body _, st => body.varNames_descend st
  | .forLoop init _ _ body, st =>
    congrArg₂ (· ++ ·) (init.varNames_descend v st) (body.varNames_descend _)
  | .forIn left _ body, st =>
    congrArg₂ (· ++ ·) (left.varNames_descend v st) (body.varNames_descend _)
  | .forOf false left _ body, st =>
    congrArg₂ (· ++ ·) (left.varNames_descend v st) (body.varNames_descend _)
  | .forOf true left _ body, _ =>
    congrArg₂ (· ++ ·) (left.varNames_descend v _) (body.varNames_descend _)
  | .switch _ cases, _ => Case.allVarNames_descend cases _
  | .tryCatch body none finalizer, st =>
    congrArg₂ (· ++ ·) (Stmt.allVarNames_descend body st) (Stmt.blockVarNames_descend finalizer _)
  | .tryCatch body (some (none, handler)) finalizer, st =>
    congrArg₂ (· ++ ·)
      (congrArg₂ (· ++ ·) (Stmt.allVarNames_descend body st) (Stmt.allVarNames_descend handler _))
      (Stmt.blockVarNames_descend finalizer _)
  | .tryCatch body (some (some _, handler)) finalizer, st =>
    congrArg₂ (· ++ ·)
      (congrArg₂ (· ++ ·) (Stmt.allVarNames_descend body st) (Stmt.allVarNames_descend handler _))
      (Stmt.blockVarNames_descend finalizer _)
  | .labeled _ body, st => body.varNames_descend st
  | .withObject _ body, _ => body.varNames_descend _
  | .commented _ s, st => Stmt.optionVarNames_descend s st
  | .empty, _ | .expr _, _ | .throwValue _, _ | .returnValue _, _ | .breakTo _, _
  | .continueTo _, _ | .debugger, _ | .importDecl _, _ | .exportNames _ _, _ | .exportAll _ _ _, _
  | .exportDefaultFunction _, _ | .exportDefaultClass _, _ | .exportDefault _, _ => rfl

theorem Stmt.optionVarNames_descend : ∀ (s : Option Stmt) (st : σ),
    Stmt.optionVarNames ((Stmt.descendOption v s).run st).1 = Stmt.optionVarNames s
  | none, _ => rfl
  | some s, st => s.varNames_descend st

theorem Stmt.blockVarNames_descend : ∀ (body : Option (List Stmt)) (st : σ),
    Stmt.blockVarNames ((Stmt.descendBlock v body).run st).1 = Stmt.blockVarNames body
  | none, _ => rfl
  | some body, st => Stmt.allVarNames_descend body st

theorem Stmt.allVarNames_descend : ∀ (ss : List Stmt) (st : σ),
    Stmt.allVarNames ((Stmt.descendAll v ss).run st).1 = Stmt.allVarNames ss
  | [], _ => rfl
  | s :: ss, st => congrArg₂ (· ++ ·) (s.varNames_descend st) (Stmt.allVarNames_descend ss _)

theorem Case.allVarNames_descend : ∀ (cases : List Case) (st : σ),
    Case.allVarNames ((Case.descendAll v cases).run st).1 = Case.allVarNames cases
  | [], _ => rfl
  | .mk _ body :: cases, _ =>
    congrArg₂ (· ++ ·) (Stmt.allVarNames_descend body _) (Case.allVarNames_descend cases _)

end

theorem Stmt.lexicalNames_descend :
    ∀ (s : Stmt) (st : σ), ((s.descend v).run st).1.lexicalNames = s.lexicalNames
  | .decl d, st => d.lexicalNames_descend v st
  | .exportDecl d, st => d.lexicalNames_descend v st
  | .exportDefaultFunction f, st => congrArg Option.toList (f.name?_descend v st)
  | .exportDefaultClass c, st => congrArg Option.toList (c.name?_descend v st)
  | .labeled _ s, st => s.lexicalNames_descend st
  | .commented _ (some s), st => s.lexicalNames_descend st
  | .forOf true _ _ _, _ | .forOf false _ _ _, _ => rfl
  | .tryCatch _ none _, _ | .tryCatch _ (some (none, _)) _, _
  | .tryCatch _ (some (some _, _)) _, _ => rfl
  | .empty, _ | .expr _, _ | .block _, _ | .ifElse _ _ _, _ | .whileLoop _ _, _ | .doWhile _ _, _
  | .forLoop _ _ _ _, _ | .forIn _ _ _, _ | .switch _ _, _ | .throwValue _, _ | .returnValue _, _
  | .breakTo _, _ | .continueTo _, _ | .withObject _ _, _ | .debugger, _ | .importDecl _, _
  | .exportNames _ _, _ | .exportAll _ _ _, _ | .exportDefault _, _ | .commented _ none, _ => rfl

end ScriptBundler
