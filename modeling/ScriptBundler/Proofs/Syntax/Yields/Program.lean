import ScriptBundler.Proofs.Syntax.Yields.Expressions

namespace ScriptBundler

open Node

namespace Parser

section Goals

variable {rec : Grammar} (h : Grammar.IsPlain rec)
include h

section Declarations

theorem declarator_plain : Ensures (declarator rec) fun d => (Node.declarator d).IsPlain := by
  have hdeclarator {p : Pattern} {init : Option Expr} (hp : p.IsPlain)
      (hi : ∀ e ∈ init, e.IsPlain) : (Node.declarator (.mk p init)).IsPlain :=
    .of_parts nofun (List.forall_mem_cons.2 ⟨hp, forall_toList_isPlain hi⟩)
  refine h.pattern.bind fun p hp => .skip fun _ => ?_
  split
  · exact h.assign.optional.bind fun init hi => .pure (hdeclarator hp hi)
  · exact EnsuresIn.none.bind fun init hi => .pure (hdeclarator hp hi)

theorem declarators_plain (kind : VarKind) :
    Ensures (declarators rec kind) (∀ d ∈ ·, (Node.declarator d).IsPlain) :=
  .skip fun _ => (EnsuresIn.commaSeparated (declarator_plain h) _).bind fun _ hds =>
    .skip fun _ => .pure hds

theorem varDecl_plain (kind : VarKind) : Ensures (varDecl rec kind) Decl.IsPlain := by
  refine (declarators_plain h kind).bind fun ds hds => .skip fun _ => .skip fun _ => .pure ?_
  have hmark : (Node.decl (.vars kind ds)).mark? ≠ some .yield := by cases kind <;> nofun
  exact .of_parts hmark (List.forall_mem_map.2 hds)

theorem block_plain : Ensures (block rec) (∀ s ∈ ·, s.IsPlain) :=
  .skip fun _ => (statements_plain h).withIn.bind fun _ hbody => .skip fun _ => .pure hbody

theorem condition_plain : Ensures (condition rec) Expr.IsPlain :=
  .skip fun _ => (expression_plain h).withIn.bind fun _ he => .skip fun _ => .pure he

theorem leftSideExpr_plain : Ensures (leftSideExpr rec) Expr.IsPlain :=
  .skip fun _ => leftSide_plain h _

theorem classDeclaration_plain (modifiers : List String) {ds : List Expr}
    (hds : ∀ e ∈ ds, e.IsPlain) :
    Ensures (classDeclaration rec modifiers ds) fun c => (Node.classDef c).IsPlain :=
  .skip fun _ => classRest_plain h (leftSideExpr_plain h) (leftSideExpr_plain h) modifiers hds

end Declarations

section Loops

theorem forLoop_plain {init : ForHead} (hi : (Node.head init).IsPlain) :
    Ensures (forLoop rec init) Stmt.IsPlain := by
  have hbody : Ensures (rec (.statement true)) Stmt.IsPlain := h (.statement true)
  have hexpression := (expression_plain h).optional
  have hnone : Ensures (pure none) (fun o : Option Expr => ∀ e ∈ o, e.IsPlain) := .none
  have hloop {test update : Option Expr} {body : Stmt} (ht : ∀ e ∈ test, e.IsPlain)
      (hu : ∀ e ∈ update, e.IsPlain) (hb : body.IsPlain) :
      (Stmt.forLoop init test update body).IsPlain := by
    have hes : ∀ m ∈ (test.toList ++ update.toList).map (Node.expr .operand), m.IsPlain := by
      rw [List.map_append]
      exact List.forall_mem_append.2 ⟨forall_toList_isPlain ht, forall_toList_isPlain hu⟩
    exact .of_parts nofun (List.forall_mem_cons.2 ⟨hi, List.forall_mem_append.2
      ⟨hes, List.forall_mem_singleton.2 hb⟩⟩)
  unfold forLoop
  repeat' with_reducible first
    | refine hexpression.bind fun _ _ => ?_
    | refine hnone.bind fun _ _ => ?_
    | refine hbody.bind fun _ hb => .pure (hloop ‹_› ‹_› hb)
    | refine .skip fun _ => ?_
    | split

theorem forInOf_plain (isAwait : Bool) {left : ForHead} (hl : (Node.head left).IsPlain) :
    Ensures (forInOf rec isAwait left) Stmt.IsPlain := by
  have hbody : Ensures (rec (.statement true)) Stmt.IsPlain := h (.statement true)
  have hof {right : Expr} {body : Stmt} (hr : right.IsPlain) (hb : body.IsPlain) :
      (Stmt.forOf isAwait left right body).IsPlain := by
    have hmark : (Node.stmt (.forOf isAwait left right body)).mark? ≠ some .yield := by
      cases isAwait <;> nofun
    exact .of_parts hmark (List.forall_mem_cons.2 ⟨hl, List.forall_mem_cons.2
      ⟨hr, List.forall_mem_singleton.2 hb⟩⟩)
  have hin {right : Expr} {body : Stmt} (hr : right.IsPlain) (hb : body.IsPlain) :
      (Stmt.forIn left right body).IsPlain :=
    .of_parts nofun (List.forall_mem_cons.2 ⟨hl, List.forall_mem_cons.2
      ⟨hr, List.forall_mem_singleton.2 hb⟩⟩)
  unfold forInOf
  refine .skip fun _ => ?_
  split
  · exact h.assign.bind fun _ hr => .skip fun _ => hbody.bind fun _ hb => .pure (hof hr hb)
  · exact .skip fun _ => .skip fun _ => (expression_plain h).bind fun _ hr => .skip fun _ =>
      hbody.bind fun _ hb => .pure (hin hr hb)

theorem forVariables_plain (isAwait : Bool) (kind : VarKind) :
    Ensures (forVariables rec isAwait kind) Stmt.IsPlain := by
  have hdeclarators := (declarators_plain h kind).withReader (g := fun c =>
    { c with allowIn := false }) fun _ hc => hc
  refine hdeclarators.bind fun ds hds => .skip fun _ => ?_
  have hmark : (Node.head (.vars kind ds)).mark? ≠ some .yield := by cases kind <;> nofun
  have hhead : (Node.head (.vars kind ds)).IsPlain :=
    .of_parts hmark (List.forall_mem_map.2 hds)
  split
  · exact forInOf_plain h isAwait hhead
  · exact .skip fun _ => forLoop_plain h hhead

theorem forStatement_plain : Ensures (forStatement rec) Stmt.IsPlain := by
  have hnone : (Node.head .none).IsPlain := .of_parts nofun (List.forall_mem_nil _)
  have hexpression := (expression_plain h).withReader (g := fun c =>
    { c with allowIn := false }) fun _ hc => hc
  have hhead {e : Expr} (he : e.IsPlain) : (Node.head (.expr e)).IsPlain :=
    .of_parts nofun (List.forall_mem_singleton.2 he)
  have htarget {p : Pattern} (hp : p.IsPlain) : (Node.head (.target p)).IsPlain :=
    .of_parts nofun (List.forall_mem_singleton.2 hp)
  apply Ensures.withIn
  repeat' with_reducible first
    | exact forLoop_plain h hnone
    | exact forVariables_plain h _ _
    | exact forLoop_plain h (hhead ‹_›)
    | refine hexpression.bind fun _ _ => ?_
    | refine (target_plain ‹_›).bind fun _ hp => forInOf_plain h _ (htarget hp)
    | refine .skip fun _ => ?_
    | split

end Loops

section Blocks

theorem switchStatement_plain : Ensures (switchStatement rec) Stmt.IsPlain := by
  have hstatement : Ensures (rec (.statement false)) Stmt.IsPlain := h (.statement false)
  have hbody : Ensures (caseBody rec) (∀ s ∈ ·, s.IsPlain) := by
    refine .skip fun c => .many ?_ _
    repeat' with_reducible first
      | exact .none
      | refine hstatement.bind fun _ hs => .some hs
      | refine .skip fun _ => ?_
      | split
  have hcase {test : Option Expr} {body : List Stmt} (ht : ∀ e ∈ test, e.IsPlain)
      (hb : ∀ s ∈ body, s.IsPlain) : (Node.case (.mk test body)).IsPlain :=
    .of_parts nofun (List.forall_mem_append.2
      ⟨forall_toList_isPlain ht, List.forall_mem_map.2 hb⟩)
  have hnone : Ensures (pure none) (fun o : Option Expr => ∀ e ∈ o, e.IsPlain) := .none
  have hswitchCase : Ensures (switchCase rec) (∀ c ∈ ·, (Node.case c).IsPlain) := by
    unfold switchCase
    repeat' with_reducible first
      | exact .none
      | refine (expression_plain h).optional.bind fun _ _ => ?_
      | refine hnone.bind fun _ _ => ?_
      | refine hbody.bind fun _ hb => .some (hcase ‹_› hb)
      | refine .skip fun _ => ?_
      | split
  have hcases : Ensures (withIn do many (switchCase rec) (← read).size)
      (∀ c ∈ ·, (Node.case c).IsPlain) := .withIn (.skip fun _ => .many hswitchCase _)
  refine (condition_plain h).bind fun e he => .skip fun _ => hcases.bind fun cases hcases =>
    .skip fun _ => .pure ?_
  exact .of_parts nofun (List.forall_mem_cons.2 ⟨he, List.forall_mem_map.2 hcases⟩)

theorem catchClause_plain : Ensures (catchClause rec) fun r =>
    (∀ p ∈ r.1, p.IsPlain) ∧ ∀ s ∈ r.2, s.IsPlain := by
  have hblock {param : Option Pattern} (hp : ∀ p ∈ param, p.IsPlain) :
      Ensures (do return (param, ← block rec)) fun r =>
        (∀ p ∈ r.1, p.IsPlain) ∧ ∀ s ∈ r.2, s.IsPlain :=
    (block_plain h).bind fun _ hb => .pure ⟨hp, hb⟩
  have hnone : Ensures (pure none) (fun o : Option Pattern => ∀ p ∈ o, p.IsPlain) := .none
  refine .skip fun _ => ?_
  split
  · refine h.pattern.bind fun _ hp => .skip fun _ => ?_
    exact (EnsuresIn.some hp).bind fun _ hp => hblock hp
  · exact hnone.bind fun _ hp => hblock hp

theorem tryStatement_plain : Ensures (tryStatement rec) Stmt.IsPlain := by
  have htry {body : List Stmt} {handler : Option (Option Pattern × List Stmt)}
      {finalizer : Option (List Stmt)} (hb : ∀ s ∈ body, s.IsPlain)
      (hh : ∀ r ∈ handler, (∀ p ∈ r.1, p.IsPlain) ∧ ∀ s ∈ r.2, s.IsPlain)
      (hf : ∀ ss ∈ finalizer, ∀ s ∈ ss, s.IsPlain) :
      (Stmt.tryCatch body handler finalizer).IsPlain := by
    have hf : ∀ s ∈ finalizer.getD [], s.IsPlain := by
      cases finalizer with
      | none => exact List.forall_mem_nil _
      | some ss => exact hf ss rfl
    cases handler with
    | none => exact .of_parts nofun (List.forall_mem_map.2 (List.forall_mem_append.2 ⟨hb, hf⟩))
    | some r =>
      obtain ⟨param, handler⟩ := r
      obtain ⟨hp, hh⟩ := hh _ rfl
      have hb : ∀ m ∈ body.map Node.stmt, m.IsPlain := List.forall_mem_map.2 hb
      have hrest : ∀ m ∈ (handler ++ finalizer.getD []).map Node.stmt, m.IsPlain :=
        List.forall_mem_map.2 (List.forall_mem_append.2 ⟨hh, hf⟩)
      exact .of_parts nofun
        (List.forall_mem_append.2 ⟨List.forall_mem_append.2 ⟨hb, forall_toList_isPlain hp⟩, hrest⟩)
  have hnoHandler : Ensures (pure none) (fun o : Option (Option Pattern × List Stmt) =>
    ∀ r ∈ o, (∀ p ∈ r.1, p.IsPlain) ∧ ∀ s ∈ r.2, s.IsPlain) := .none
  have hnoFinalizer : Ensures (pure none) (fun o : Option (List Stmt) =>
    ∀ ss ∈ o, ∀ s ∈ ss, s.IsPlain) := .none
  unfold tryStatement
  refine (block_plain h).bind fun body hb => ?_
  repeat' with_reducible first
    | refine (catchClause_plain h).optional.bind fun _ _ => ?_
    | refine hnoHandler.bind fun _ _ => ?_
    | refine (block_plain h).optional.bind fun _ _ => ?_
    | refine hnoFinalizer.bind fun _ _ => ?_
    | exact .pure (htry hb ‹_› ‹_›)
    | refine .skip fun _ => ?_
    | split

end Blocks

section Exports

theorem exportDefault_plain {ds : List Expr} (hds : ∀ e ∈ ds, e.IsPlain) :
    Ensures (exportDefault rec ds) Stmt.IsPlain := by
  have hfunction {f : Function} : (Stmt.exportDefaultFunction f).IsPlain :=
    .of_parts nofun (List.forall_mem_singleton.2 (isPlain_function f))
  have hclass {c : Class} (hc : (Node.classDef c).IsPlain) : (Stmt.exportDefaultClass c).IsPlain :=
    .of_parts nofun (List.forall_mem_singleton.2 hc)
  have htype (text : String) : (Stmt.exportDecl (.typeOnly text)).IsPlain :=
    .of_parts nofun (List.forall_mem_singleton.2 (.of_parts nofun (List.forall_mem_nil _)))
  have hvalue {e : Expr} (he : e.IsPlain) : (Stmt.exportDefault e).IsPlain :=
    .of_parts nofun (List.forall_mem_singleton.2 he)
  have hexported {ds : List Expr} (hds : ∀ e ∈ ds, e.IsPlain) :
      Ensures (exportDefault.exported rec ds) Stmt.IsPlain := by
    unfold exportDefault.exported
    repeat' with_reducible first
      | exact .pure hfunction
      | exact .pure (htype _)
      | refine (classDeclaration_plain h _ hds).bind fun _ hc => .pure (hclass hc)
      | refine h.assign.withIn.bind fun _ he => .skip fun _ => .pure (hvalue he)
      | refine .skip fun _ => ?_
      | split
  have hdecorators := decorators_plain (leftSideExpr_plain h)
  refine .skip fun s => hdecorators.bind fun ds' hds' => ?_
  refine (hexported (List.forall_mem_append.2 ⟨hds, hds'⟩)).bind fun s hs => .pure ?_
  split
  · exact hs.asPureFunction
  · exact hs

theorem namespaceBlock_plain (keyword : String) :
    Ensures (namespaceBlock rec keyword) Decl.IsPlain :=
  .skip fun _ => .skip fun _ => .skip fun _ => (prologue_plain h _).bind fun _ hr =>
    .skip fun _ => .pure (.of_parts nofun (List.forall_mem_map.2 hr))

theorem exportedDeclaration_plain {ds : List Expr} (hds : ∀ e ∈ ds, e.IsPlain) :
    Ensures (exportedDeclaration rec ds) Decl.IsPlain := by
  have hdecorators := decorators_plain (leftSideExpr_plain h)
  have hfunction (f : Function) : (Decl.function f).IsPlain :=
    .of_parts nofun (List.forall_mem_singleton.2 (isPlain_function f))
  have hclass {c : Class} (hc : (Node.classDef c).IsPlain) : (Decl.classDef c).IsPlain :=
    .of_parts nofun (List.forall_mem_singleton.2 hc)
  have htype (text : String) : (Decl.typeOnly text).IsPlain :=
    .of_parts nofun (List.forall_mem_nil _)
  unfold exportedDeclaration
  refine hdecorators.bind fun ds' hds' => ?_
  have hds := List.forall_mem_append.2 ⟨hds, hds'⟩
  repeat' with_reducible first
    | exact varDecl_plain h _
    | exact namespaceBlock_plain h _
    | exact .pure (htype _)
    | exact .pure (hfunction _)
    | refine (classDeclaration_plain h _ hds).bind fun _ hc => .pure (hclass hc)
    | refine .skip fun _ => ?_
    | split

theorem exportStatement_plain {ds : List Expr} (hds : ∀ e ∈ ds, e.IsPlain) :
    Ensures (exportStatement rec ds) Stmt.IsPlain := by
  have hnames {specifiers : List ExportSpecifier} {source : Option String} :
      (Stmt.exportNames specifiers source).IsPlain := .of_parts nofun (List.forall_mem_nil _)
  have hexportNames : Ensures exportNames Stmt.IsPlain := by
    unfold exportNames
    repeat' with_reducible first
      | exact .pure hnames
      | refine .skip fun _ => ?_
      | split
  have hall {exported : Option ModuleName} {source : String} {a : Option ImportAttributes} :
      (Stmt.exportAll exported source a).IsPlain := .of_parts nofun (List.forall_mem_nil _)
  have hexportAll : Ensures exportAll Stmt.IsPlain := by
    unfold exportAll
    repeat' with_reducible first
      | exact .pure hall
      | refine .skip fun _ => ?_
      | split
  have hdecl {d : Decl} (hd : d.IsPlain) : (Stmt.exportDecl d).IsPlain :=
    .of_parts nofun (List.forall_mem_singleton.2 hd)
  unfold exportStatement
  repeat' with_reducible first
    | exact exportDefault_plain h hds
    | exact hexportNames
    | exact hexportAll
    | refine (exportedDeclaration_plain h hds).bind fun _ hd => .pure (hdecl hd)
    | refine .skip fun _ => ?_
    | split

end Exports

section Statements

theorem expressionStatement_plain : Ensures (expressionStatement rec) Stmt.IsPlain := by
  have hbody : Ensures (rec (.statement true)) Stmt.IsPlain := h (.statement true)
  have hexpr {e : Expr} (he : e.IsPlain) : (Stmt.expr e).IsPlain :=
    .of_parts nofun (List.forall_mem_singleton.2 he)
  have hlabeled {label : String} {body : Stmt} (hb : body.IsPlain) :
      (Stmt.labeled label body).IsPlain := .of_parts nofun (List.forall_mem_singleton.2 hb)
  refine (expression_plain h).withIn.bind fun e he => ?_
  repeat' with_reducible first
    | exact .pure (hexpr he)
    | refine hbody.bind fun _ hb => .pure (hlabeled hb)
    | refine .skip fun _ => ?_
    | split

theorem letStatement_plain (isSingle : Bool) :
    Ensures (letStatement rec isSingle) Stmt.IsPlain := by
  have hexpr {e : Expr} (he : e.IsPlain) : (Stmt.expr e).IsPlain :=
    .of_parts nofun (List.forall_mem_singleton.2 he)
  refine .skip fun isOperand => ?_
  split
  · exact h.assign.withIn.bind fun e he => .skip fun _ => .pure (hexpr he)
  · refine .skip fun isMember => ?_
    split
    · exact (expression_plain h).withIn.bind fun e he => .pure (hexpr he)
    · refine .skip fun isName => ?_
      split
      · exact .skip fun _ => .skip fun _ =>
          .pure (hexpr (.of_parts nofun (List.forall_mem_nil _)))
      · exact .skip fun _ => .skip fun _ => (varDecl_plain h .letKind).bind fun _ hd =>
          .pure (.of_parts nofun (List.forall_mem_singleton.2 hd))

omit h in
theorem elseBranch_plain {s : Stmt} (hs : s.IsPlain) : (elseBranch s).IsPlain := by
  unfold elseBranch
  split
  · exact hs.part rfl (List.mem_singleton_self _)
  · exact hs

theorem wordStatement_plain (isSingle : Bool) (word : String) :
    Ensures (wordStatement rec isSingle word) (∀ s ∈ ·, s.IsPlain) := by
  have hbody : Ensures (rec (.statement true)) Stmt.IsPlain := h (.statement true)
  have hcondition := condition_plain h
  have hfor := (forStatement_plain h).optional
  have hexport := (exportStatement_plain h (List.forall_mem_nil _)).optional
  have hlet := (letStatement_plain h isSingle).optional
  have hswitch := (switchStatement_plain h).optional
  have htry := (tryStatement_plain h).optional
  have hfunction (isAsync : Bool) :
      Ensures (some <$> functionStatement rec isAsync isSingle) (∀ s ∈ ·, s.IsPlain) := by
    refine EnsuresIn.optional (.skip fun _ => .skip fun _ => .skip fun f => .pure ?_)
    exact .of_parts nofun (List.forall_mem_singleton.2
      (.of_parts nofun (List.forall_mem_singleton.2 (isPlain_function f))))
  have himport : Ensures (some <$> importDeclaration) (∀ s ∈ ·, s.IsPlain) :=
    EnsuresIn.optional (.skip fun _ => .skip fun _ => .skip fun _ => .skip fun _ =>
      .pure (.of_parts nofun (List.forall_mem_nil _)))
  have helse : Ensures (some <$> elseBranch <$> rec (.statement true)) (∀ s ∈ ·, s.IsPlain) :=
    (hbody.map fun _ => elseBranch_plain).optional
  have hnoElse : Ensures (pure none) (fun o : Option Stmt => ∀ s ∈ o, s.IsPlain) := .none
  have hif {test : Expr} {consequent : Stmt} {alternate : Option Stmt} (ht : test.IsPlain)
      (hc : consequent.IsPlain) (ha : ∀ s ∈ alternate, s.IsPlain) :
      (Stmt.ifElse test consequent alternate).IsPlain :=
    .of_parts nofun (List.forall_mem_cons.2
      ⟨ht, List.forall_mem_cons.2 ⟨hc, forall_toList_isPlain ha⟩⟩)
  have hwhile {test : Expr} {body : Stmt} (ht : test.IsPlain) (hb : body.IsPlain) :
      (Stmt.whileLoop test body).IsPlain :=
    .of_parts nofun (List.forall_mem_cons.2 ⟨ht, List.forall_mem_singleton.2 hb⟩)
  have hdo {test : Expr} {body : Stmt} (hb : body.IsPlain) (ht : test.IsPlain) :
      (Stmt.doWhile body test).IsPlain :=
    .of_parts nofun (List.forall_mem_cons.2 ⟨hb, List.forall_mem_singleton.2 ht⟩)
  have hwith {base : Expr} {body : Stmt} (he : base.IsPlain) (hb : body.IsPlain) :
      (Stmt.withObject base body).IsPlain :=
    .of_parts nofun (List.forall_mem_cons.2 ⟨he, List.forall_mem_singleton.2 hb⟩)
  have hthrow {e : Expr} (he : e.IsPlain) : (Stmt.throwValue e).IsPlain :=
    .of_parts nofun (List.forall_mem_singleton.2 he)
  have hreturn {value : Option Expr} (hv : ∀ e ∈ value, e.IsPlain) :
      (Stmt.returnValue value).IsPlain := .of_parts nofun (forall_toList_isPlain hv)
  have hdecl {d : Decl} (hd : d.IsPlain) : (Stmt.decl d).IsPlain :=
    .of_parts nofun (List.forall_mem_singleton.2 hd)
  have hclass {c : Class} (hc : (Node.classDef c).IsPlain) : (Decl.classDef c).IsPlain :=
    .of_parts nofun (List.forall_mem_singleton.2 hc)
  have hexpression := (expression_plain h).withIn
  have hnoValue : Ensures (pure none) (fun o : Option Expr => ∀ e ∈ o, e.IsPlain) := .none
  unfold wordStatement
  split
  all_goals repeat' with_reducible first
    | exact .none
    | exact hfor
    | exact hexport
    | exact hlet
    | exact hswitch
    | exact htry
    | exact hfunction _
    | exact himport
    | refine hcondition.bind fun _ _ => ?_
    | refine hbody.bind fun _ _ => ?_
    | refine helse.bind fun _ _ => ?_
    | refine hnoElse.bind fun _ _ => ?_
    | refine hexpression.bind fun _ _ => ?_
    | refine hexpression.optional.bind fun _ _ => ?_
    | refine hnoValue.bind fun _ _ => ?_
    | refine (varDecl_plain h _).bind fun _ hd => .some (hdecl hd)
    | refine (classDeclaration_plain h _ (List.forall_mem_nil _)).bind fun _ hc =>
        .some (hdecl (hclass hc))
    | exact .some (hif ‹_› ‹_› ‹_›)
    | exact .some (hwhile ‹_› ‹_›)
    | exact .some (hdo ‹_› ‹_›)
    | exact .some (hwith ‹_› ‹_›)
    | exact .some (hthrow ‹_›)
    | exact .some (hreturn ‹_›)
    | refine .skip fun _ => ?_
    | split
    | dsimp only
  all_goals exact .some (.of_parts nofun (List.forall_mem_nil _))

theorem plainStatement_plain (isSingle : Bool) :
    Ensures (plainStatement rec isSingle) Stmt.IsPlain := by
  have hleft := leftSideExpr_plain h
  have hblock {body : List Stmt} (hb : ∀ s ∈ body, s.IsPlain) : (Stmt.block body).IsPlain :=
    .of_parts nofun (List.forall_mem_map.2 hb)
  have hclass {c : Class} (hc : (Node.classDef c).IsPlain) : (Stmt.decl (.classDef c)).IsPlain :=
    .of_parts nofun (List.forall_mem_singleton.2
      (.of_parts nofun (List.forall_mem_singleton.2 hc)))
  apply Ensures.withIn
  refine .skip fun token => ?_
  split
  · exact (block_plain h).bind fun _ hb => .pure (hblock hb)
  · exact .skip fun _ => .pure (.of_parts nofun (List.forall_mem_nil _))
  · refine (decorators_plain hleft).bind fun ds hds => .skip fun _ => ?_
    split
    · exact exportStatement_plain h hds
    · exact (decoratedClass_plain h hleft hleft hds).bind fun _ hc => .pure (hclass hc)
  · refine (wordStatement_plain h isSingle _).bind fun s? hs => ?_
    split
    · exact .pure (hs _ rfl)
    · exact expressionStatement_plain h
  · exact expressionStatement_plain h

theorem statement_plain (isSingle : Bool) : Ensures (statement rec isSingle) Stmt.IsPlain := by
  refine .skip fun comments => .skip fun start =>
    (plainStatement_plain h isSingle).bind fun s hs => .pure ?_
  have hcommented {s : Stmt} (hs : s.IsPlain) :
      (if comments.isEmpty || !takesComments isSingle s then s
        else .commented comments (some s)).IsPlain := by
    split
    · exact hs
    · exact .of_parts nofun (List.forall_mem_singleton.2 hs)
  split
  · exact hcommented hs.asPureFunction
  · exact hcommented hs

end Statements

end Goals

/-- Outside of generators all that is read is free of yields outside of functions, at any depth. -/
theorem grammar_plain (n : Nat) : Grammar.IsPlain (grammar n) := by
  induction n with
  | zero => exact fun _ => .failure
  | succ n ih =>
    intro g
    cases g with
    | assign => exact assignExpr_plain ih
    | unary => exact unaryExpr_plain ih
    | binary level => exact binaryExpr_plain ih level
    | newCallee => exact newCallee_plain ih
    | statement isSingle => exact statement_plain ih isSingle
    | pattern => exact pattern_plain ih
    | type => exact .trivial

theorem program_plain (hashbang : Option String) (depth : Nat) :
    Ensures (program hashbang depth) fun p => ∀ s ∈ p.body, s.IsPlain :=
  .skip fun _ => .skip fun _ => (prologue_plain (grammar_plain depth) _).bind fun _ hr =>
    .skip fun _ => .skip fun _ => .skip fun _ => .skip fun _ => .skip fun _ =>
      .skip fun _ => .skip fun _ => .pure hr

end Parser

/-- A program has no yield outside of its functions. -/
theorem Program.isPlain_of_parse? {source : String} {keepsComments : Bool} {p : Program}
    (h : Program.parse? source keepsComments = some p) : ∀ s ∈ p.body, s.IsPlain := by
  obtain ⟨⟨p', s⟩, hr, rfl⟩ := Option.map_eq_some_iff.1 h
  exact Parser.program_plain _ _ _ _ _ _ rfl hr

end ScriptBundler
