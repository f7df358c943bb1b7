import ScriptBundler.Syntax.Traversal

namespace ScriptBundler

variable {σ τ α β γ δ ε : Type}

/-- A relation between a tree and two walks over it that goes over from the parts to the whole. -/
structure Combines (rel : {α : Type} → α → StateM σ α → StateM τ α → Prop) : Prop where
  pure : ∀ {α : Type} (a : α), rel a (pure a) (pure a)
  map : ∀ {α β : Type} {a : α} {m : StateM σ α} {n : StateM τ α} (f : α → β), rel a m n →
    rel (f a) (do return f (← m)) (do return f (← n))
  map₂ : ∀ {α β γ : Type} {a : α} {b : β} {m : StateM σ α} {n : StateM τ α} {m' : StateM σ β}
    {n' : StateM τ β} (f : α → β → γ), rel a m n → rel b m' n' →
    rel (f a b) (do let a ← m; return f a (← m')) (do let a ← n; return f a (← n'))

/-- Wherever the relation holds of walks that go on, it holds of what the visitors do there. -/
structure Visitor.Related (rel : {α : Type} → α → StateM σ α → StateM τ α → Prop) (v : Visitor σ)
    (w : Visitor τ) : Prop extends Combines rel where
  scopes : v.entersScopes = w.entersScopes
  expr : ∀ e : Expr, rel e (e.descend v) (e.descend w) →
    rel e (v.visit e (e.descend v)) (w.visit e (e.descend w))
  body : ∀ ss, rel ss (Stmt.descendAll v ss) (Stmt.descendAll w ss) →
    rel ss (v.visitBody ss (Stmt.descendAll v ss)) (w.visitBody ss (Stmt.descendAll w ss))
  declarations : ∀ kind ds, rel () (v.onVariables kind ds) (w.onVariables kind ds)
  forAwait : rel () v.onForAwait w.onForAwait

variable {rel : {α : Type} → α → StateM σ α → StateM τ α → Prop}

namespace Combines

variable (h : Combines rel)
include h

theorem map₃ (f : α → β → γ → δ) {a : α} {b : β} {c : γ} {m₁ : StateM σ α} {m₂ : StateM σ β}
    {m₃ : StateM σ γ} {n₁ : StateM τ α} {n₂ : StateM τ β} {n₃ : StateM τ γ} (ha : rel a m₁ n₁)
    (hb : rel b m₂ n₂) (hc : rel c m₃ n₃) :
    rel (f a b c) (do let a ← m₁; let b ← m₂; return f a b (← m₃))
      (do let a ← n₁; let b ← n₂; return f a b (← n₃)) :=
  h.map₂ (fun a (b, c) => f a b c) ha (h.map₂ Prod.mk hb hc)

theorem map₄ (f : α → β → γ → δ → ε) {a : α} {b : β} {c : γ} {d : δ} {m₁ : StateM σ α}
    {m₂ : StateM σ β} {m₃ : StateM σ γ} {m₄ : StateM σ δ} {n₁ : StateM τ α} {n₂ : StateM τ β}
    {n₃ : StateM τ γ} {n₄ : StateM τ δ} (ha : rel a m₁ n₁) (hb : rel b m₂ n₂) (hc : rel c m₃ n₃)
    (hd : rel d m₄ n₄) :
    rel (f a b c d) (do let a ← m₁; let b ← m₂; let c ← m₃; return f a b c (← m₄))
      (do let a ← n₁; let b ← n₂; let c ← n₃; return f a b c (← n₄)) :=
  h.map₂ (fun a (b, c, d) => f a b c d) ha (h.map₃ (fun b c d => (b, c, d)) hb hc hd)

end Combines

section Walks

variable {v : Visitor σ} {w : Visitor τ} (h : Visitor.Related rel v w)
include h

theorem Visitor.Related.enter {a : α} {m : StateM σ α} {n : StateM τ α} (hm : rel a m n) :
    rel a (v.enter a m) (w.enter a n) := by
  simp only [Visitor.enter, h.scopes]
  split
  · exact hm
  · exact h.pure a

/-- The value of a spread item is walked on its own, just as the item as a whole would walk it. -/
theorem Visitor.Related.items {e : Expr} {es : List Expr} (he : rel e (e.descend v) (e.descend w))
    (hes : rel es (Expr.descendAll v es) (Expr.descendAll w es)) :
    rel (e :: es) (Expr.descendAll v (e :: es)) (Expr.descendAll w (e :: es)) := by
  have hitem := h.map₂ List.cons he hes
  have hvisit := h.map₂ List.cons (h.expr e he) hes
  cases e
  case spread value => exact hitem
  all_goals exact hvisit

mutual

theorem Expr.descend_related : ∀ e : Expr, rel e (e.descend v) (e.descend w)
  | .template quasis values =>
    h.map (Expr.template quasis) (Expr.descendAll_related values)
  | .taggedTemplate tag quasis values =>
    h.map₂ (Expr.taggedTemplate · quasis) (h.expr tag (Expr.descend_related tag))
      (Expr.descendAll_related values)
  | .array items finalComma =>
    h.map (Expr.array · finalComma) (Expr.descendAll_related items)
  | .spread value =>
    h.map Expr.spread (h.expr value (Expr.descend_related value))
  | .object properties =>
    h.map Expr.object (Property.descendAll_related properties)
  | .function f =>
    h.map Expr.function (Function.descend_related f)
  | .arrow isAsync isPure params value =>
    h.enter (h.map₂ (Expr.arrow isAsync isPure) (Pattern.descendAll_related params)
      (h.expr value (Expr.descend_related value)))
  | .arrowBlock isAsync isPure params directives body =>
    h.enter (h.map₂ (Expr.arrowBlock isAsync isPure · directives)
      (Pattern.descendAll_related params) (h.body body (Stmt.descendAll_related body)))
  | .classExpr c =>
    h.map Expr.classExpr (Class.descend_related c)
  | .unary op operand =>
    h.map (Expr.unary op) (h.expr operand (Expr.descend_related operand))
  | .update op isPrefix target =>
    h.map (Expr.update op isPrefix) (Pattern.descend_related target)
  | .binary op left right =>
    h.map₂ (Expr.binary op) (h.expr left (Expr.descend_related left))
      (h.expr right (Expr.descend_related right))
  | .privateIn name object =>
    h.map (Expr.privateIn name) (h.expr object (Expr.descend_related object))
  | .conditional test consequent alternate =>
    h.map₃ Expr.conditional (h.expr test (Expr.descend_related test))
      (h.expr consequent (Expr.descend_related consequent))
      (h.expr alternate (Expr.descend_related alternate))
  | .assign op target value =>
    h.map₂ (Expr.assign op) (Pattern.descend_related target)
      (h.expr value (Expr.descend_related value))
  | .sequence items =>
    h.map Expr.sequence (Expr.descendAll_related items)
  | .member object property isOptional =>
    h.map (Expr.member · property isOptional) (h.expr object (Expr.descend_related object))
  | .index object property isOptional =>
    h.map₂ (Expr.index · · isOptional) (h.expr object (Expr.descend_related object))
      (h.expr property (Expr.descend_related property))
  | .privateMember object name isOptional =>
    h.map (Expr.privateMember · name isOptional) (h.expr object (Expr.descend_related object))
  | .call callee args isOptional isPure =>
    h.map₂ (Expr.call · · isOptional isPure) (h.expr callee (Expr.descend_related callee))
      (Expr.descendAll_related args)
  | .new callee args isPure =>
    h.map₂ (Expr.new · · isPure) (h.expr callee (Expr.descend_related callee))
      (Expr.descendAll_related args)
  | .chain element =>
    h.map Expr.chain (Expr.descend_related element)
  | .importCall phase args =>
    h.map (Expr.importCall phase) (Expr.descendAll_related args)
  | .await operand =>
    h.map Expr.await (h.expr operand (Expr.descend_related operand))
  | .yield value =>
    h.map Expr.yield (Expr.descendOption_related value)
  | .yieldAll source =>
    h.map Expr.yieldAll (h.expr source (Expr.descend_related source))
  | .paren inner =>
    h.map Expr.paren (h.expr inner (Expr.descend_related inner))
  | .commented comments value =>
    h.map (Expr.commented comments) (Expr.descendOption_related value)
  | .ident _ | .thisValue | .superValue | .null | .bool _ | .number _ | .bigint _ | .string _ _
  | .regex _ _ | .hole | .importMeta | .newTarget =>
    h.pure _

theorem Expr.descendOption_related : ∀ e : Option Expr,
    rel e (Expr.descendOption v e) (Expr.descendOption w e)
  | none =>
    h.pure _
  | some e =>
    h.map some (h.expr e (Expr.descend_related e))

theorem Expr.descendAll_related : ∀ es : List Expr,
    rel es (Expr.descendAll v es) (Expr.descendAll w es)
  | [] =>
    h.pure _
  | e :: es =>
    h.items (Expr.descend_related e) (Expr.descendAll_related es)

theorem Key.descend_related : ∀ k : Key, rel k (k.descend v) (k.descend w)
  | .computed e =>
    h.map Key.computed (h.expr e (Expr.descend_related e))
  | .ident _ | .string _ _ | .number _ | .bigint _ | .privateName _ =>
    h.pure _

theorem Property.descend_related : ∀ p : Property, rel p (p.descend v) (p.descend w)
  | .keyValue key isShorthand value =>
    h.map₂ (Property.keyValue · isShorthand) (Key.descend_related key)
      (h.expr value (Expr.descend_related value))
  | .method kind key f =>
    h.map₂ (Property.method kind) (Key.descend_related key) (Function.descend_related f)
  | .spread value =>
    h.map Property.spread (h.expr value (Expr.descend_related value))

theorem Property.descendAll_related : ∀ ps : List Property,
    rel ps (Property.descendAll v ps) (Property.descendAll w ps)
  | [] =>
    h.pure _
  | p :: ps =>
    h.map₂ List.cons (Property.descend_related p) (Property.descendAll_related ps)

theorem Pattern.descend_related : ∀ p : Pattern, rel p (p.descend v) (p.descend w)
  | .target m =>
    h.map Pattern.target (Expr.descend_related m)
  | .object properties =>
    h.map Pattern.object (PatternProperty.descendAll_related properties)
  | .array items =>
    h.map Pattern.array (Pattern.descendAll_related items)
  | .withDefault p value =>
    h.map₂ Pattern.withDefault (Pattern.descend_related p)
      (h.expr value (Expr.descend_related value))
  | .rest p =>
    h.map Pattern.rest (Pattern.descend_related p)
  | .name _ | .hole =>
    h.pure _

theorem Pattern.descendAll_related : ∀ ps : List Pattern,
    rel ps (Pattern.descendAll v ps) (Pattern.descendAll w ps)
  | [] =>
    h.pure _
  | p :: ps =>
    h.map₂ List.cons (Pattern.descend_related p) (Pattern.descendAll_related ps)

theorem PatternProperty.descend_related : ∀ p : PatternProperty,
    rel p (p.descend v) (p.descend w)
  | .keyed key isShorthand p =>
    h.map₂ (PatternProperty.keyed · isShorthand) (Key.descend_related key)
      (Pattern.descend_related p)
  | .rest p =>
    h.map PatternProperty.rest (Pattern.descend_related p)

theorem PatternProperty.descendAll_related : ∀ ps : List PatternProperty,
    rel ps (PatternProperty.descendAll v ps) (PatternProperty.descendAll w ps)
  | [] =>
    h.pure _
  | p :: ps =>
    h.map₂ List.cons (PatternProperty.descend_related p) (PatternProperty.descendAll_related ps)

theorem Function.descend_related : ∀ f : Function, rel f (f.descend v) (f.descend w)
  | .mk isAsync isGenerator isPure name params directives body =>
    h.enter (h.map₂ (Function.mk isAsync isGenerator isPure name · directives)
      (Pattern.descendAll_related params) (h.body body (Stmt.descendAll_related body)))

theorem Class.descend_related : ∀ c : Class, rel c (c.descend v) (c.descend w)
  | .mk decorators types name superClass members =>
    h.map₃ (Class.mk · types name) (Expr.descendAll_related decorators)
      (Expr.descendOption_related superClass) (Member.descendAll_related members)

theorem Member.descend_related : ∀ m : Member, rel m (m.descend v) (m.descend w)
  | .method decorators modifiers kind key mark f =>
    h.map₃ (Member.method · modifiers kind · mark) (Expr.descendAll_related decorators)
      (Key.descend_related key) (Function.descend_related f)
  | .field decorators modifiers key mark value =>
    h.map₃ (Member.field · modifiers · mark) (Expr.descendAll_related decorators)
      (Key.descend_related key) (Expr.descendOption_related value)
  | .staticBlock body =>
    h.enter (h.map Member.staticBlock (Stmt.descendAll_related body))
  | .commented comments member =>
    h.map (Member.commented comments) (Member.descend_related member)

theorem Member.descendAll_related : ∀ ms : List Member,
    rel ms (Member.descendAll v ms) (Member.descendAll w ms)
  | [] =>
    h.pure _
  | m :: ms =>
    h.map₂ List.cons (Member.descend_related m) (Member.descendAll_related ms)

theorem Declarator.descendAll_related : ∀ ds : List Declarator,
    rel ds (Declarator.descendAll v ds) (Declarator.descendAll w ds)
  | [] =>
    h.pure _
  | .mk pattern init :: ds =>
    h.map₃ (fun pattern init ds => Declarator.mk pattern init :: ds)
      (Pattern.descend_related pattern) (Expr.descendOption_related init)
      (Declarator.descendAll_related ds)

theorem Decl.descend_related : ∀ d : Decl, rel d (d.descend v) (d.descend w)
  | .vars kind ds =>
    h.map₂ (fun _ => Decl.vars kind) (h.declarations kind ds) (Declarator.descendAll_related ds)
  | .function f =>
    h.map Decl.function (Function.descend_related f)
  | .classDef c =>
    h.map Decl.classDef (Class.descend_related c)
  | .typeOnly _ =>
    h.pure _
  | .namespaceBlock keyword name directives body =>
    h.map (Decl.namespaceBlock keyword name directives) (Stmt.descendAll_related body)

theorem ForHead.descend_related : ∀ f : ForHead, rel f (f.descend v) (f.descend w)
  | .none =>
    h.pure _
  | .vars kind ds =>
    h.map₂ (fun _ => ForHead.vars kind) (h.declarations kind ds) (Declarator.descendAll_related ds)
  | .expr e =>
    h.map ForHead.expr (h.expr e (Expr.descend_related e))
  | .target p =>
    h.map ForHead.target (Pattern.descend_related p)

theorem Case.descendAll_related : ∀ cs : List Case,
    rel cs (Case.descendAll v cs) (Case.descendAll w cs)
  | [] =>
    h.pure _
  | .mk test body :: cs =>
    h.map₃ (fun test body cs => Case.mk test body :: cs) (Expr.descendOption_related test)
      (Stmt.descendAll_related body) (Case.descendAll_related cs)

theorem Stmt.descend_related : ∀ s : Stmt, rel s (s.descend v) (s.descend w)
  | .expr e =>
    h.map Stmt.expr (h.expr e (Expr.descend_related e))
  | .decl d =>
    h.map Stmt.decl (Decl.descend_related d)
  | .block body =>
    h.map Stmt.block (Stmt.descendAll_related body)
  | .ifElse test consequent alternate =>
    h.map₃ Stmt.ifElse (h.expr test (Expr.descend_related test)) (Stmt.descend_related consequent)
      (Stmt.descendOption_related alternate)
  | .whileLoop test body =>
    h.map₂ Stmt.whileLoop (h.expr test (Expr.descend_related test)) (Stmt.descend_related body)
  | .doWhile body test =>
    h.map₂ Stmt.doWhile (Stmt.descend_related body) (h.expr test (Expr.descend_related test))
  | .forLoop init test update body =>
    h.map₄ Stmt.forLoop (ForHead.descend_related init) (Expr.descendOption_related test)
      (Expr.descendOption_related update) (Stmt.descend_related body)
  | .forIn left right body =>
    h.map₃ Stmt.forIn (ForHead.descend_related left) (h.expr right (Expr.descend_related right))
      (Stmt.descend_related body)
  | .forOf true left right body =>
    h.map₄ (fun _ => Stmt.forOf true) h.forAwait (ForHead.descend_related left)
      (h.expr right (Expr.descend_related right)) (Stmt.descend_related body)
  | .forOf false left right body =>
    h.map₃ (Stmt.forOf false) (ForHead.descend_related left)
      (h.expr right (Expr.descend_related right)) (Stmt.descend_related body)
  | .switch discriminant cases =>
    h.map₂ Stmt.switch (h.expr discriminant (Expr.descend_related discriminant))
      (Case.descendAll_related cases)
  | .tryCatch body none finalizer =>
    h.map₂ (Stmt.tryCatch · none) (Stmt.descendAll_related body)
      (Stmt.descendBlock_related finalizer)
  | .tryCatch body (some (none, handler)) finalizer =>
    h.map₃ (fun body handler => Stmt.tryCatch body (some (none, handler)))
      (Stmt.descendAll_related body) (Stmt.descendAll_related handler)
      (Stmt.descendBlock_related finalizer)
  | .tryCatch body (some (some param, handler)) finalizer =>
    h.map₄ (fun body param handler => Stmt.tryCatch body (some (some param, handler)))
      (Stmt.descendAll_related body) (Pattern.descend_related param)
      (Stmt.descendAll_related handler) (Stmt.descendBlock_related finalizer)
  | .throwValue value =>
    h.map Stmt.throwValue (h.expr value (Expr.descend_related value))
  | .returnValue value =>
    h.map Stmt.returnValue (Expr.descendOption_related value)
  | .labeled label body =>
    h.map (Stmt.labeled label) (Stmt.descend_related body)
  | .withObject object body =>
    h.map₂ Stmt.withObject (h.expr object (Expr.descend_related object)) (Stmt.descend_related body)
  | .exportDecl d =>
    h.map Stmt.exportDecl (Decl.descend_related d)
  | .exportDefaultFunction f =>
    h.map Stmt.exportDefaultFunction (Function.descend_related f)
  | .exportDefaultClass c =>
    h.map Stmt.exportDefaultClass (Class.descend_related c)
  | .exportDefault value =>
    h.map Stmt.exportDefault (h.expr value (Expr.descend_related value))
  | .commented comments s =>
    h.map (Stmt.commented comments) (Stmt.descendOption_related s)
  | .empty | .breakTo _ | .continueTo _ | .debugger | .importDecl _ | .exportNames _ _
  | .exportAll _ _ _ =>
    h.pure _

theorem Stmt.descendOption_related : ∀ s : Option Stmt,
    rel s (Stmt.descendOption v s) (Stmt.descendOption w s)
  | none =>
    h.pure _
  | some s =>
    h.map some (Stmt.descend_related s)

theorem Stmt.descendBlock_related : ∀ body : Option (List Stmt),
    rel body (Stmt.descendBlock v body) (Stmt.descendBlock w body)
  | none =>
    h.pure _
  | some body =>
    h.map some (Stmt.descendAll_related body)

theorem Stmt.descendAll_related : ∀ ss : List Stmt,
    rel ss (Stmt.descendAll v ss) (Stmt.descendAll w ss)
  | [] =>
    h.pure _
  | s :: ss =>
    h.map₂ List.cons (Stmt.descend_related s) (Stmt.descendAll_related ss)

end

end Walks

section Lengths

variable {v : Visitor σ}

theorem Expr.length_descendAll (es : List Expr) (st : σ) :
    ((Expr.descendAll v es).run st).1.length = es.length := by
  induction es generalizing st with
  | nil => rfl
  | cons e es ih => cases e <;> exact congrArg (· + 1) (ih _)

theorem Stmt.length_descendAll (ss : List Stmt) (st : σ) :
    ((Stmt.descendAll v ss).run st).1.length = ss.length := by
  induction ss generalizing st with
  | nil => rfl
  | cons s ss ih => exact congrArg (· + 1) (ih _)

end Lengths

end ScriptBundler
