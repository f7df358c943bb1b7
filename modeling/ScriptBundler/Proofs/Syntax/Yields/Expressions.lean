import ScriptBundler.Proofs.Syntax.Ensures
import ScriptBundler.Proofs.Syntax.Plain

namespace ScriptBundler

open Node

namespace Parser

@[reducible] def Goal.IsPlain : (g : Goal) → g.Result → Prop
  | .assign, e => Expr.IsPlain e
  | .unary, e => Expr.IsPlain e
  | .binary _, e => Expr.IsPlain e
  | .newCallee, e => Expr.IsPlain e
  | .statement _, s => Stmt.IsPlain s
  | .pattern, p => Pattern.IsPlain p
  | .type, _ => True

/-- A grammar that reads no yield outside of functions, outside of generators. -/
def Grammar.IsPlain (rec : Grammar) : Prop := ∀ g, Ensures (rec g) g.IsPlain

variable {rec : Grammar}

theorem Grammar.IsPlain.assign (h : Grammar.IsPlain rec) : Ensures (rec .assign) Expr.IsPlain :=
  h .assign

theorem Grammar.IsPlain.pattern (h : Grammar.IsPlain rec) :
    Ensures (rec .pattern) Pattern.IsPlain :=
  h .pattern

section Patterns

variable (h : Grammar.IsPlain rec)
include h

theorem expression_plain : Ensures (expression rec) Expr.IsPlain := by
  refine .skip fun size => (EnsuresIn.commaSeparated h.assign _).bind fun es hes => ?_
  split
  · exact .pure (hes _ (List.mem_singleton_self _))
  · exact .pure (.of_parts nofun (by simpa [Node.parts, Expr.parts] using hes))

theorem key_plain : Ensures (key rec) fun k => (Node.key k).IsPlain := by
  unfold key
  repeat' with_reducible first
    | refine .pure ?_
    | refine h.assign.nested.bind fun _ _ => ?_
    | refine .skip fun _ => ?_
    | exact .failure
    | split
  all_goals exact .of_unmarked rfl (by simp_all [Node.parts, Key.parts])

theorem propertyKey_plain : Ensures (propertyKey rec) fun k => (Node.key k).IsPlain := by
  refine (key_plain h).bind fun k hk => ?_
  split
  · exact .failure
  · exact .pure hk

theorem patternWithDefault_plain : Ensures (patternWithDefault rec) Pattern.IsPlain := by
  refine h.pattern.bind fun p hp => .skip fun _ => ?_
  split
  · refine h.assign.nested.bind fun e he => .pure ?_
    exact .of_parts nofun (by simp_all [Node.parts, Pattern.parts])
  · exact .pure hp

theorem patternProperty_plain : Ensures (patternProperty rec) PatternProperty.IsPlain := by
  have hname (name : String) : (Pattern.name name).IsPlain := Pattern.isPlain_name name
  have hkey (name : String) : (Node.key (.ident name)).IsPlain :=
    .of_unmarked rfl (List.forall_mem_nil _)
  refine .skip fun _ => .skip fun name? => ?_
  split
  · refine .skip fun _ => .skip fun _ => .skip fun _ => ?_
    split
    · refine h.assign.nested.bind fun e he => .pure ?_
      have hdefault (name : String) : (Pattern.withDefault (.name name) e).IsPlain :=
        .of_unmarked rfl (by simp_all [Node.parts, Pattern.parts])
      exact .of_unmarked rfl (by simp_all [Node.parts, PatternProperty.parts])
    · exact .pure (.of_unmarked rfl (by simp_all [Node.parts, PatternProperty.parts]))
  · refine (propertyKey_plain h).bind fun k hk => .skip fun _ =>
      (patternWithDefault_plain h).bind fun p hp => .pure ?_
    exact .of_unmarked rfl (by simp_all [Node.parts, PatternProperty.parts])

theorem patternProperties_plain (n : Nat) :
    Ensures (patternProperties rec n) (∀ p ∈ ·, p.IsPlain) := by
  induction n with
  | zero => exact .failure
  | succ n ih =>
    refine .skip fun _ => ?_
    split
    · exact .pure (List.forall_mem_nil _)
    · refine .skip fun _ => ?_
      split
      · refine .skip fun name => .skip fun _ => .skip fun _ => .pure ?_
        have hrest : (PatternProperty.rest (.name name)).IsPlain :=
          .of_parts nofun (List.forall_mem_singleton.2 (Pattern.isPlain_name name))
        exact List.forall_mem_singleton.2 hrest
      · refine (patternProperty_plain h).bind fun p hp => .skip fun _ => ?_
        split
        · exact ih.bind fun ps hps => .pure (List.forall_mem_cons.2 ⟨hp, hps⟩)
        · exact .skip fun _ => .skip fun _ => .pure (List.forall_mem_singleton.2 hp)

theorem patternItems_plain (close : Token) (allowHoles : Bool) (n : Nat) :
    Ensures (patternItems rec close allowHoles n) (∀ p ∈ ·, p.IsPlain) := by
  induction n with
  | zero => exact .failure
  | succ n ih =>
    have hhole : Pattern.hole.IsPlain := .of_parts nofun (List.forall_mem_nil _)
    have hitem : Ensures (do
        let p ← patternWithDefault rec
        if ← eat "," then return p :: (← patternItems rec close allowHoles n)
        require (← isAt close)
        return [p]) (∀ p ∈ ·, p.IsPlain) := by
      refine (patternWithDefault_plain h).bind fun p hp => .skip fun _ => ?_
      split
      · exact ih.bind fun ps hps => .pure (List.forall_mem_cons.2 ⟨hp, hps⟩)
      · exact .skip fun _ => .skip fun _ => .pure (List.forall_mem_singleton.2 hp)
    refine .skip fun _ => ?_
    split
    · exact .pure (List.forall_mem_nil _)
    · refine .skip fun _ => ?_
      split
      · refine h.pattern.bind fun p hp => .skip fun _ => .skip fun _ => .pure ?_
        have hrest : (Pattern.rest p).IsPlain :=
          .of_parts nofun (List.forall_mem_singleton.2 hp)
        exact List.forall_mem_singleton.2 hrest
      · split
        · refine .skip fun _ => ?_
          split
          · exact ih.bind fun ps hps => .pure (List.forall_mem_cons.2 ⟨hhole, hps⟩)
          · exact hitem
        · exact hitem

theorem pattern_plain : Ensures (pattern rec) Pattern.IsPlain := by
  refine .skip fun size => .skip fun token => ?_
  split
  · refine .skip fun _ => (patternProperties_plain h _).bind fun ps hps => .skip fun _ => .pure ?_
    exact .of_parts nofun (List.forall_mem_map.2 hps)
  · refine .skip fun _ => (patternItems_plain h _ _ _).bind fun ps hps => .skip fun _ => .pure ?_
    exact .of_parts nofun (List.forall_mem_map.2 hps)
  · exact .skip fun name => .pure (Pattern.isPlain_name name)

end Patterns

section Classes

variable (h : Grammar.IsPlain rec)
include h

theorem statements_plain : Ensures (statements rec) (∀ s ∈ ·, s.IsPlain) := by
  refine .skip fun c => .many ?_ _
  refine .skip fun token => ?_
  split
  · exact .none
  · exact .none
  · exact (h (.statement false)).bind fun s hs => .some hs

theorem prologue_plain (n : Nat) : Ensures (prologue rec n) (∀ s ∈ ·.2, s.IsPlain) := by
  induction n with
  | zero => exact .failure
  | succ n ih =>
    refine .skip fun token => ?_
    split
    · refine .skip fun start => (h (.statement false)).bind fun s hs => ?_
      split
      · exact ih.bind fun r hr => .pure hr
      · exact (statements_plain h).bind fun ss hss => .pure (List.forall_mem_cons.2 ⟨hs, hss⟩)
    · exact (statements_plain h).bind fun ss hss => .pure hss

theorem fieldValue_plain (isAccessor : Bool) :
    Ensures (fieldValue rec isAccessor) Expr.IsPlain := by
  unfold fieldValue
  split
  · exact h.assign.nested
  · exact (expression_plain h).withReader fun _ _ => rfl

omit h in
theorem decorators_plain {decorator : Parser Expr} (hd : Ensures decorator Expr.IsPlain) :
    Ensures (decorators decorator) (∀ e ∈ ·, e.IsPlain) := by
  refine .skip fun c => .many ?_ _
  refine .skip fun _ => ?_
  split
  · refine EnsuresIn.bind (P := Expr.IsPlain) ?_ fun e he => .some he
    exact hd.withReader fun _ hc => hc
  · exact .none

theorem namedMember_plain {ds : List Expr} (hds : ∀ e ∈ ds, e.IsPlain) :
    Ensures (namedMember rec ds) fun m => (Node.member m).IsPlain := by
  have hds : ∀ m ∈ ds.map (Node.expr .item), m.IsPlain :=
    List.forall_mem_map.2 fun e he => isPlain_item.2 (hds e he)
  have hmethod {modifiers : List String} {kind : MethodKind} {k : Key} {mark : String}
      {f : Function} (hk : (Node.key k).IsPlain) :
      (Node.member (.method ds modifiers kind k mark f)).IsPlain := by
    have hrest := List.forall_mem_cons.2 ⟨hk, List.forall_mem_singleton.2 (isPlain_function f)⟩
    exact .of_parts nofun (List.forall_mem_append.2 ⟨hds, hrest⟩)
  have hfield {modifiers : List String} {k : Key} {mark : String} {value : Option Expr}
      (hk : (Node.key k).IsPlain) (hvalue : ∀ e ∈ value, e.IsPlain) :
      (Node.member (.field ds modifiers k mark value)).IsPlain := by
    exact .of_parts nofun (List.forall_mem_append.2
      ⟨hds, List.forall_mem_cons.2 ⟨hk, forall_toList_isPlain hvalue⟩⟩)
  have hvalue (isAccessor : Bool) := (fieldValue_plain h isAccessor).optional
  have hnone : Ensures (pure none) (fun o : Option Expr => ∀ e ∈ o, e.IsPlain) := .none
  unfold namedMember
  repeat' with_reducible first
    | refine (key_plain h).bind fun _ _ => ?_
    | refine (hvalue _).bind fun _ _ => ?_
    | refine hnone.bind fun _ _ => ?_
    | exact .pure (hmethod ‹_›)
    | exact .pure (hfield ‹_› ‹_›)
    | refine .skip fun _ => ?_
    | split
    | dsimp only

/-- What a static block does, it does in a scope of its own. -/
theorem member_plain {decorator : Parser Expr} (hd : Ensures decorator Expr.IsPlain) :
    Ensures (member rec decorator) (∀ m ∈ ·, (Node.member m).IsPlain) := by
  have hblock : Ensures (staticBlock rec) fun m => (Node.member m).IsPlain :=
    .skip fun _ => .skip fun _ => .skip fun _ => .pure (.of_isScope rfl rfl)
  have hcommented {m : Member} (comments : List Comment) (hm : (Node.member m).IsPlain) :
      (Node.member (if comments.isEmpty then m else .commented comments m)).IsPlain := by
    split
    · exact hm
    · exact .of_parts nofun (List.forall_mem_singleton.2 hm)
  refine .skip fun _ => ?_
  split
  · exact .none
  · refine .skip fun comments => (decorators_plain hd).bind fun ds hds => .skip fun isBlock => ?_
    dsimp only
    split
    · exact .skip fun _ => .skip fun _ => hblock.bind fun m hm => .some (hcommented comments hm)
    · exact (namedMember_plain h hds).bind fun m hm => .some (hcommented comments hm)

omit h in
theorem superClass_plain {parent : Parser Expr} (hp : Ensures parent Expr.IsPlain) :
    Ensures (superClass rec parent) (∀ e ∈ ·.1, e.IsPlain) := by
  have hparents (n : Nat) : Ensures
      (commaSeparated (do return (← parent, ← typeArguments rec)) n) (∀ r ∈ ·, r.1.IsPlain) := by
    refine .commaSeparated (hp.bind fun e he => ?_) n
    exact .skip fun _ => .pure he
  refine .skip fun _ => ?_
  split
  · refine .skip fun c => (hparents _).bind fun parents hparents => .pure ?_
    split
    · exact fun e he => Option.some.inj he ▸ (List.forall_mem_cons.1 hparents).1
    · nofun
  · exact .pure nofun

theorem classRest_plain {parent decorator : Parser Expr} (hp : Ensures parent Expr.IsPlain)
    (hd : Ensures decorator Expr.IsPlain) (modifiers : List String) {ds : List Expr}
    (hds : ∀ e ∈ ds, e.IsPlain) :
    Ensures (classRest rec parent decorator modifiers ds) fun c => (Node.classDef c).IsPlain := by
  have hmembers : Ensures (nested do many (do
      if ← isAt .closeBrace then return none
      return some (← member rec decorator)) (← read).size)
      (∀ m ∈ ·, ∀ m' ∈ m, (Node.member m').IsPlain) := by
    refine .nested (.skip fun c => .many (.skip fun _ => ?_) _)
    split
    · exact .none
    · exact (member_plain h hd).bind fun m hm => .some hm
  have hclass {types : ClassTypes} {name : Option String} {extended : Option Expr}
      {members : List (Option Member)} (he : ∀ e ∈ extended, e.IsPlain)
      (hm : ∀ m ∈ members, ∀ m' ∈ m, (Node.member m').IsPlain) :
      (Node.classDef (.mk ds types name extended (members.filterMap id))).IsPlain := by
    have hds : ∀ m ∈ ds.map (Node.expr .item), m.IsPlain :=
      List.forall_mem_map.2 fun e he => isPlain_item.2 (hds e he)
    have hm : ∀ m ∈ (members.filterMap id).map Node.member, m.IsPlain := by
      refine List.forall_mem_map.2 fun m hmem => ?_
      obtain ⟨m', hmem, hm'⟩ := List.mem_filterMap.1 hmem
      exact hm m' hmem m hm'
    exact .of_parts nofun
      (List.forall_mem_append.2 ⟨List.forall_mem_append.2 ⟨hds, forall_toList_isPlain he⟩, hm⟩)
  unfold classRest
  repeat' with_reducible first
    | refine (superClass_plain hp).bind fun _ _ => ?_
    | refine hmembers.bind fun _ _ => ?_
    | exact .pure (hclass ‹_› ‹_›)
    | refine .skip fun _ => ?_
    | split
    | dsimp only

theorem decoratedClass_plain {parent decorator : Parser Expr} (hp : Ensures parent Expr.IsPlain)
    (hd : Ensures decorator Expr.IsPlain) {ds : List Expr} (hds : ∀ e ∈ ds, e.IsPlain) :
    Ensures (decoratedClass rec parent decorator ds) fun c => (Node.classDef c).IsPlain :=
  .skip fun _ => .skip fun _ => .skip fun _ => .skip fun _ => classRest_plain h hp hd _ hds

end Classes

section Expressions

theorem spread_plain {e : Expr} (he : e.IsPlain) : (Expr.spread e).IsPlain :=
  .of_parts nofun (List.forall_mem_singleton.2 he)

theorem commented_plain {e : Expr} (comments : List Comment) (he : e.IsPlain) :
    (if comments.isEmpty then e else .commented comments (some e)).IsPlain := by
  split
  · exact he
  · exact .of_parts nofun (List.forall_mem_singleton.2 he)

theorem items_plain {es : List Expr} (hes : ∀ e ∈ es, e.IsPlain) :
    ∀ m ∈ es.map (Node.expr .item), m.IsPlain :=
  List.forall_mem_map.2 fun e he => isPlain_item.2 (hes e he)

theorem closeArguments_plain {args : List Expr} (hargs : ∀ e ∈ args, e.IsPlain) :
    Ensures (closeArguments args) (∀ e ∈ ·, e.IsPlain) := by
  refine .skip fun comments => .skip fun _ => .pure ?_
  split
  · exact hargs
  · have hlast : (Expr.commented comments none).IsPlain := .of_parts nofun (List.forall_mem_nil _)
    exact List.forall_mem_append.2 ⟨hargs, List.forall_mem_singleton.2 hlast⟩

theorem spreadOr_plain {item : Parser Expr} (hi : Ensures item Expr.IsPlain) :
    Ensures (spreadOr item) Expr.IsPlain := by
  refine .skip fun _ => ?_
  split
  · exact hi.bind fun e he => .pure (spread_plain he)
  · exact hi

theorem functionExpr_plain (isAsync : Bool) : Ensures (functionExpr rec isAsync) Expr.IsPlain := by
  have hfunction (f : Function) : (Expr.function f).IsPlain :=
    .of_parts nofun (List.forall_mem_singleton.2 (isPlain_function f))
  unfold functionExpr
  refine .skip fun _ => .skip fun _ => ?_
  split
  · exact .skip fun _ => .skip fun f => .pure (hfunction f)
  · exact .skip fun _ => .skip fun f => .pure (hfunction f)

variable (h : Grammar.IsPlain rec)
include h

theorem templateParts_plain (isTagged : Bool) (n : Nat) :
    Ensures (templateParts rec isTagged n) (∀ e ∈ ·.2, e.IsPlain) := by
  induction n with
  | zero => exact .failure
  | succ n ih =>
    unfold templateParts
    repeat' with_reducible first
      | refine (expression_plain h).nested.bind fun _ _ => ?_
      | refine ih.bind fun _ _ => ?_
      | exact .pure (List.forall_mem_nil _)
      | exact .pure (List.forall_mem_cons.2 ⟨‹_›, ‹_›⟩)
      | refine .skip fun _ => ?_
      | split

theorem template_plain (isTagged : Bool) :
    Ensures (template rec isTagged) (∀ e ∈ ·.2, e.IsPlain) :=
  .skip fun _ => templateParts_plain h isTagged _

theorem argument_plain : Ensures (argument rec) Expr.IsPlain :=
  .skip fun comments => (spreadOr_plain h.assign).bind fun _ he =>
    .pure (commented_plain comments he)

theorem arguments_plain : Ensures (arguments rec) (∀ e ∈ ·, e.IsPlain) :=
  .nested (.skip fun _ => ((argument_plain h).commaList _ _).bind fun _ hargs =>
    closeArguments_plain hargs)

theorem arrayItems_plain (n : Nat) : Ensures (arrayItems rec n) (∀ e ∈ ·.1, e.IsPlain) := by
  induction n with
  | zero => exact .failure
  | succ n ih =>
    have hhole : Expr.hole.IsPlain := .of_parts nofun (List.forall_mem_nil _)
    unfold arrayItems
    repeat' with_reducible first
      | refine ih.bind fun _ _ => ?_
      | refine (spreadOr_plain h.assign).bind fun _ _ => ?_
      | exact .pure (List.forall_mem_nil _)
      | exact .pure (List.forall_mem_cons.2 ⟨hhole, ‹_›⟩)
      | exact .pure (List.forall_mem_cons.2 ⟨‹_›, ‹_›⟩)
      | exact .pure (List.forall_mem_singleton.2 ‹_›)
      | refine .skip fun _ => ?_
      | split

theorem plainProperty_plain : Ensures (plainProperty rec) Property.IsPlain := by
  have hproperty {k : Key} {isShorthand : Bool} {e : Expr} (hk : (Node.key k).IsPlain)
      (he : e.IsPlain) : (Property.keyValue k isShorthand e).IsPlain :=
    .of_parts nofun (List.forall_mem_cons.2 ⟨hk, List.forall_mem_singleton.2 he⟩)
  have hname (name : String) : (Expr.ident name).IsPlain := .of_parts nofun (List.forall_mem_nil _)
  have hdefault {name : String} {e : Expr} (he : e.IsPlain) :
      (Expr.assign none (.name name) e).IsPlain :=
    .of_parts nofun
      (List.forall_mem_cons.2 ⟨Pattern.isPlain_name name, List.forall_mem_singleton.2 he⟩)
  unfold plainProperty
  repeat' with_reducible first
    | refine (propertyKey_plain h).bind fun _ _ => ?_
    | refine h.assign.bind fun _ _ => ?_
    | exact .pure (hproperty ‹_› ‹_›)
    | exact .pure (hproperty ‹_› (hdefault ‹_›))
    | exact .pure (hproperty ‹_› (hname _))
    | refine .skip fun _ => ?_
    | split

theorem property_plain : Ensures (property rec) Property.IsPlain := by
  have hmethod {kind : MethodKind} {k : Key} {f : Function} (hk : (Node.key k).IsPlain) :
      (Property.method kind k f).IsPlain :=
    .of_parts nofun (List.forall_mem_cons.2 ⟨hk, List.forall_mem_singleton.2 (isPlain_function f)⟩)
  have hkey : Ensures (property.methodKey rec) fun k => (Node.key k).IsPlain :=
    (propertyKey_plain h).bind fun k hk => .skip fun _ => .skip fun _ => .pure hk
  unfold property
  refine .skip fun _ => ?_
  split
  · refine h.assign.bind fun e he => .pure ?_
    exact .of_parts nofun (List.forall_mem_singleton.2 he)
  · refine .skip fun kind => ?_
    split
    · refine .skip fun _ => .skip fun _ => hkey.attempt.bind fun k? hk => ?_
      split
      · exact .skip fun f => .pure (hmethod (hk _ rfl))
      · exact .skip fun _ => plainProperty_plain h
    · exact (propertyKey_plain h).bind fun k hk => .skip fun f => .pure (hmethod hk)

theorem importExpr_plain : Ensures (importExpr rec) Expr.IsPlain := by
  have hargument : Ensures (importExpr.importArgument rec) Expr.IsPlain :=
    .skip fun comments => h.assign.bind fun _ he => .pure (commented_plain comments he)
  have harguments (phase : Option ImportPhase) :
      Ensures (importExpr.importArguments rec phase) Expr.IsPlain := by
    refine .nested (.skip fun _ => (hargument.commaList _ _).bind fun args hargs => ?_)
    refine .skip fun _ => (closeArguments_plain hargs).bind fun args hargs => .pure ?_
    exact .of_parts nofun (items_plain hargs)
  unfold importExpr
  refine .skip fun _ => ?_
  split
  · refine .skip fun _ => ?_
    split
    · exact .pure (.of_parts nofun (List.forall_mem_nil _))
    · refine .skip fun _ => ?_
      split
      · exact .skip fun _ => harguments _
      · exact .skip fun _ => .skip fun _ => harguments _
  · exact .skip fun _ => harguments _

theorem memberStep_plain (allowChain : Bool) {e : Expr × Bool} (he : e.1.IsPlain) :
    Ensures (memberStep rec allowChain e) (∀ r ∈ ·, r.1.IsPlain) := by
  have hnamed (isOptional : Bool) : Ensures (memberStep.named e.1 isOptional) Expr.IsPlain := by
    refine .skip fun _ => ?_
    split
    · exact .skip fun _ => .pure (.of_parts nofun (List.forall_mem_singleton.2 he))
    · exact .skip fun _ => .pure (.of_parts nofun (List.forall_mem_singleton.2 he))
  have hindex {property : Expr} (isOptional : Bool) (hp : property.IsPlain) :
      (Expr.index e.1 property isOptional).IsPlain :=
    .of_parts nofun (List.forall_mem_cons.2 ⟨he, List.forall_mem_singleton.2 hp⟩)
  have htemplate {quasis : List String} {values : List Expr} (hv : ∀ v ∈ values, v.IsPlain) :
      (Expr.taggedTemplate e.1 quasis values).IsPlain :=
    .of_parts nofun (List.forall_mem_cons.2 ⟨he, items_plain hv⟩)
  unfold memberStep
  repeat' with_reducible first
    | exact .none
    | exact .some (hindex _ ‹_›)
    | exact .some (htemplate ‹_›)
    | refine (hnamed _).bind fun _ h => .some h
    | refine (expression_plain h).nested.bind fun _ _ => ?_
    | refine (template_plain h _).bind fun _ _ => ?_
    | refine .skip fun _ => ?_
    | split

theorem callStep_plain {e : Expr × Bool} (he : e.1.IsPlain) :
    Ensures (callStep rec e) (∀ r ∈ ·, r.1.IsPlain) := by
  unfold callStep
  refine (memberStep_plain h true he).bind fun next hnext => ?_
  split
  · exact .pure hnext
  · refine .skip fun isOptional => .skip fun _ => ?_
    split
    · refine (arguments_plain h).bind fun args hargs => .some ?_
      exact .of_parts nofun (List.forall_mem_cons.2 ⟨he, items_plain hargs⟩)
    · exact .skip fun _ => .none

theorem newExpr_plain : Ensures (newExpr rec) Expr.IsPlain := by
  have hnew {callee : Expr} {args : List Expr} (hc : callee.IsPlain)
      (ha : ∀ e ∈ args, e.IsPlain) : (Expr.new callee args).IsPlain :=
    .of_parts nofun (List.forall_mem_cons.2 ⟨hc, items_plain ha⟩)
  have hcomments (comments : List Comment) : (Expr.commented comments none).IsPlain :=
    .of_parts nofun (List.forall_mem_nil _)
  have hcallee : Ensures (rec .newCallee) Expr.IsPlain := h .newCallee
  unfold newExpr
  refine .skip fun _ => ?_
  split
  · exact .skip fun _ => .pure (.of_parts nofun (List.forall_mem_nil _))
  · refine .skip fun comments => hcallee.bind fun callee hc => ?_
    repeat' with_reducible first
      | refine (arguments_plain h).bind fun _ ha => .pure (hnew hc ha)
      | exact .pure (hnew hc (List.forall_mem_nil _))
      | exact .pure (hnew hc (List.forall_mem_singleton.2 (hcomments _)))
      | exact .failure
      | refine .skip fun _ => ?_
      | split

theorem primary_plain {leftSide : Parser Expr} (hl : Ensures leftSide Expr.IsPlain) :
    Ensures (primary rec leftSide) Expr.IsPlain := by
  have hregex : Ensures regex Expr.IsPlain :=
    .skip fun _ => .skip fun _ => .skip fun _ => .skip fun _ =>
      .pure (.of_parts nofun (List.forall_mem_nil _))
  have hsuper : Ensures superExpr Expr.IsPlain := by
    unfold superExpr
    exact .skip fun _ => .skip fun _ => .skip fun _ => .skip fun _ =>
      .pure (.of_parts nofun (List.forall_mem_nil _))
  have hclass {c : Class} (hc : (Node.classDef c).IsPlain) : (Expr.classExpr c).IsPlain :=
    .of_parts nofun (List.forall_mem_singleton.2 hc)
  have harray {es : List Expr} {finalComma : Bool} (hes : ∀ e ∈ es, e.IsPlain) :
      (Expr.array es finalComma).IsPlain := .of_parts nofun (items_plain hes)
  have htemplate {quasis : List String} {values : List Expr} (hv : ∀ v ∈ values, v.IsPlain) :
      (Expr.template quasis values).IsPlain := .of_parts nofun (items_plain hv)
  have hparen {e : Expr} (he : e.IsPlain) : (Expr.paren e).IsPlain :=
    .of_parts nofun (List.forall_mem_singleton.2 he)
  have hobject {ps : List Property} (hps : ∀ p ∈ ps, p.IsPlain) : (Expr.object ps).IsPlain :=
    .of_parts nofun (List.forall_mem_map.2 hps)
  have hproperties := (property_plain h).listUntil .closeBrace
  have hitems : Ensures (nested do arrayItems rec (← read).size) (∀ e ∈ ·.1, e.IsPlain) :=
    .nested (.skip fun _ => arrayItems_plain h _)
  have hdecorated {ds : List Expr} (hds : ∀ e ∈ ds, e.IsPlain) :=
    decoratedClass_plain h hl hl hds
  have hrest := classRest_plain h hl hl [] (List.forall_mem_nil _)
  unfold primary
  refine .skip fun token => ?_
  split
  all_goals repeat' with_reducible first
    | exact hregex
    | exact hsuper
    | exact functionExpr_plain _
    | exact importExpr_plain h
    | exact newExpr_plain h
    | refine (template_plain h _).bind fun _ hv => .pure (htemplate hv)
    | refine (Ensures.nested hproperties).bind fun _ hps => .pure (hobject hps)
    | refine hitems.bind fun _ hes => .skip fun _ => .pure (harray hes)
    | refine (expression_plain h).nested.bind fun _ he => .skip fun _ => .pure (hparen he)
    | refine (decorators_plain hl).bind fun _ hds => (hdecorated hds).bind fun _ hc =>
        .pure (hclass hc)
    | refine hrest.bind fun _ hc => .pure (hclass hc)
    | refine .pure ?_
    | refine .skip fun _ => ?_
    | split
  all_goals exact .of_parts nofun (List.forall_mem_nil _)

theorem leftSide_plain (n : Nat) : Ensures (leftSide rec n) Expr.IsPlain := by
  induction n with
  | zero => exact .failure
  | succ n ih =>
    have hchain {e : Expr} (he : e.IsPlain) : (Expr.chain e).IsPlain :=
      .of_parts nofun (List.forall_mem_singleton.2 he.element)
    refine .skip fun size => (primary_plain h ih).bind fun e he => ?_
    refine (EnsuresIn.iterate (P := fun r : Expr × Bool => r.1.IsPlain)
      (fun r hr => callStep_plain h hr) _ he).bind fun r hr => ?_
    refine .pure ?_
    split
    · exact hchain hr
    · exact hr

theorem newCallee_plain : Ensures (newCallee rec) Expr.IsPlain :=
  .skip fun _ => (primary_plain h (leftSide_plain h _)).bind fun _ he =>
    (EnsuresIn.iterate (P := fun r : Expr × Bool => r.1.IsPlain)
      (fun _ hr => memberStep_plain h false hr) _ he).bind fun _ hr => .pure hr

theorem updateExpr_plain : Ensures (updateExpr rec) Expr.IsPlain := by
  have hupdate {op : UpdateOp} {isBefore : Bool} {p : Pattern} (hp : p.IsPlain) :
      (Expr.update op isBefore p).IsPlain := .of_parts nofun (List.forall_mem_singleton.2 hp)
  have htarget {e : Expr} (he : e.IsPlain) :
      Ensures (liftOption e.simpleTarget?) Pattern.IsPlain :=
    .liftOption fun p hp => Expr.isPlain_simpleTarget he hp
  have hoperand : Ensures (rec .unary) Expr.IsPlain := h .unary
  unfold updateExpr
  refine .skip fun _ => ?_
  split
  · exact .skip fun _ => hoperand.bind fun e he => (htarget he).bind fun p hp => .pure (hupdate hp)
  · refine .skip fun _ => (leftSide_plain h _).bind fun e he => .skip fun s => ?_
    split
    · split
      · exact .pure he
      · exact .skip fun _ => (htarget he).bind fun p hp => .pure (hupdate hp)
    · exact .pure he

omit h in
theorem marked_plain {e : Expr} (isPure : Bool) (he : e.IsPlain) :
    (if isPure then e.asPureCall else e).IsPlain := by
  split
  · exact he.asPureCall
  · exact he

theorem unaryExpr_plain : Ensures (unaryExpr rec) Expr.IsPlain := by
  have hoperand : Ensures (rec .unary) Expr.IsPlain := h .unary
  have hupdate := updateExpr_plain h
  have hunary {op : UnaryOp} {e : Expr} (he : e.IsPlain) : (Expr.unary op e).IsPlain :=
    .of_parts nofun (List.forall_mem_singleton.2 he)
  have hawait {e : Expr} (he : e.IsPlain) : (Expr.await e).IsPlain :=
    .of_parts nofun (List.forall_mem_singleton.2 he)
  unfold unaryExpr
  refine .skip fun _ => ?_
  split
  · exact .skip fun _ => .skip fun s => hoperand.bind fun e he =>
      .pure (hunary (marked_plain _ he))
  · repeat' with_reducible first
      | exact hupdate
      | refine hoperand.bind fun _ he => .pure (hawait he)
      | refine .skip fun _ => ?_
      | split

theorem binaryStep_plain (level : Nat) (isOpened : Bool) {left : Expr} (hl : left.IsPlain) :
    Ensures (binaryStep rec level isOpened left) (∀ e ∈ ·, e.IsPlain) := by
  have hoperand (level : Nat) : Ensures (rec (.binary level)) Expr.IsPlain := h (.binary level)
  have hbinary {op : BinaryOp} {right : Expr} (hr : right.IsPlain) :
      (Expr.binary op left right).IsPlain :=
    .of_parts nofun (List.forall_mem_cons.2 ⟨hl, List.forall_mem_singleton.2 hr⟩)
  unfold binaryStep
  repeat' with_reducible first
    | exact .none
    | exact .some (hbinary ‹_›)
    | refine (hoperand _).bind fun _ _ => ?_
    | refine .skip fun _ => ?_
    | split

theorem binaryExpr_plain (level : Nat) : Ensures (binaryExpr rec level) Expr.IsPlain := by
  have hoperand : Ensures (rec (.binary 8)) Expr.IsPlain := h (.binary 8)
  unfold binaryExpr
  refine .skip fun c => .skip fun isOpened => .skip fun token => ?_
  have hsteps {left : Expr} (hl : left.IsPlain) :
      Ensures (iterate (binaryStep rec level isOpened) c.size left) Expr.IsPlain :=
    .iterate (fun left hl => binaryStep_plain h level isOpened hl) _ hl
  split
  · refine .skip fun _ => .skip fun _ => hoperand.bind fun e he => .skip fun _ => ?_
    refine (EnsuresIn.pure (P := Expr.IsPlain) ?_).bind fun _ hl => hsteps hl
    exact .of_parts nofun (List.forall_mem_singleton.2 he)
  · refine .skip fun s => (unaryExpr_plain h).bind fun e he => ?_
    exact (EnsuresIn.pure (P := Expr.IsPlain) (marked_plain _ he)).bind fun _ hl => hsteps hl

omit h in
theorem arrowBody_plain (isAsync : Bool) (params : List Pattern) :
    Ensures (arrowBody rec isAsync params) Expr.IsPlain := by
  refine EnsuresIn.withReader (D := fun c => c.inYield = false) (.skip fun _ => ?_) fun _ _ => rfl
  split
  · exact .skip fun _ => .pure (.of_isScope rfl rfl)
  · exact .skip fun _ => .pure (.of_isScope rfl rfl)

omit h in
theorem arrowFunction?_plain : Ensures (arrowFunction? rec) (∀ e ∈ ·, e.IsPlain) := by
  unfold arrowFunction?
  repeat' with_reducible first
    | exact .none
    | refine (arrowBody_plain _ _).bind fun _ he => .some he
    | refine .skip fun _ => ?_
    | split

omit h in
theorem target_plain {e : Expr} (he : e.IsPlain) : Ensures (target e) Pattern.IsPlain := by
  have htarget : Ensures (liftOption e.target?) fun r => r.1.IsPlain :=
    .liftOption fun r hr => Expr.isPlain_of_target? he hr
  exact htarget.bind fun r hr => .skip fun _ => .pure hr

/-- The word `yield` starts no operand outside of generators. -/
theorem plainAssignExpr_plain : Ensures (plainAssignExpr rec) Expr.IsPlain := by
  have hassign {op : Option BinaryOp} {p : Pattern} {e : Expr} (hp : p.IsPlain) (he : e.IsPlain) :
      (Expr.assign op p e).IsPlain :=
    .of_parts nofun (List.forall_mem_cons.2 ⟨hp, List.forall_mem_singleton.2 he⟩)
  have hconditional {test consequent alternate : Expr} (ht : test.IsPlain) (hc : consequent.IsPlain)
      (ha : alternate.IsPlain) : (Expr.conditional test consequent alternate).IsPlain :=
    .of_parts nofun (List.forall_mem_cons.2 ⟨ht, List.forall_mem_cons.2 ⟨hc,
      List.forall_mem_singleton.2 ha⟩⟩)
  unfold plainAssignExpr
  refine .skip fun atYield => ?_
  split
  -- outside of generators the branch that reads an operand of `yield` is not taken
  case' isTrue =>
    refine EnsuresIn.read.bind fun c hc => ?_
    rw [hc]
    refine .skip fun _ => .skip fun _ => ?_
  all_goals
    refine arrowFunction?_plain.bind fun e? he => ?_
    split
    · exact .pure (he _ rfl)
    · refine (binaryExpr_plain h 0).bind fun left hl => ?_
      repeat' with_reducible first
        | exact .pure hl
        | exact arrowBody_plain _ _
        | refine (target_plain hl).bind fun _ ht => .skip fun _ => h.assign.bind fun _ he =>
            .pure (hassign ht he)
        | refine h.assign.withIn.bind fun _ hc => .skip fun _ => h.assign.bind fun _ ha =>
            .pure (hconditional hl hc ha)
        | refine .skip fun _ => ?_
        | split

theorem assignExpr_plain : Ensures (assignExpr rec) Expr.IsPlain := by
  refine .skip fun s => (plainAssignExpr_plain h).bind fun e he => .pure ?_
  split
  · exact he.asPureFunction
  · exact he

end Expressions

end Parser

end ScriptBundler
