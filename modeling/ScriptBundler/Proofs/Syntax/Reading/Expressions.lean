import ScriptBundler.Proofs.Syntax.Reading

namespace ScriptBundler.Parser

open Lexer (Tokens separated)

variable {rec : Grammar} {c : Context} {t : Token} {l : Bool} {ts ts' : Tokens} {e : Expr}

/-- The tokens that end an operand which stands alone, an assignment to it included. -/
def operandEnds : List Token :=
  [.closeBrace, .punct ",", .punct ")", .punct "]", .punct ";", .punct "="]

/-- The tokens that end an expression without a comma. -/
def expressionEnds : List Token :=
  [.closeBrace, .punct ",", .punct ")", .punct "]", .punct ";"]

theorem operandEnds_of_expressionEnds : ∀ t ∈ expressionEnds, t ∈ operandEnds := by decide

/-- After the word `async` the token makes no arrow function. -/
def IsNoArrow (t : Token) : Prop := t ≠ .punct "(" ∧ isBindingToken t = false ∧ t ≠ .eof

theorem isNoArrow_of_operandEnds : ∀ t ∈ operandEnds, IsNoArrow t := by
  unfold IsNoArrow
  decide

/-- An operand starts here; a word that could be an operator as well stands alone. -/
structure StartsOperand (c : Context) (t : Token) (ts : Tokens) : Prop where
  unary : unary? t = none
  update : update? t = none
  isPublic : ∀ n, t ≠ .privateName n
  alone : t ∈ [.name "yield" false, .name "await" false] → ts.first ∈ operandEnds
  async : t = .name "async" false → IsNoArrow ts.first
  yield : t = .name "yield" false → c.inYield = false
  await : t = .name "await" false → c.inAwait = false

/-- Where expressions are read without comments and outside of decorators. -/
structure Context.IsPlain (c : Context) : Prop where
  comments : c.keepsComments = false
  decorator : c.inDecorator = false
  size : 8 ≤ c.size

theorem punct_ne {p q : String} (h : p ≠ q) : Token.punct p ≠ Token.punct q :=
  fun he => h (Token.punct.inj he)

theorem name_ne_punct {n p : String} {isEscaped : Bool} : Token.name n isEscaped ≠ .punct p := by
  intro h
  cases h

theorem name_ne_eof {n : String} {isEscaped : Bool} : Token.name n isEscaped ≠ .eof := by
  intro h
  cases h

theorem Context.IsPlain.exists_size (hc : c.IsPlain) : ∃ n, c.size = n + 8 :=
  ⟨c.size - 8, (Nat.sub_add_cancel hc.size).symm⟩

theorem callStep_none {isChain : Bool} (h : ts.first ∈ operandEnds) :
    Reads (callStep rec (e, isChain)) c ts none ts := by
  have hcall : ∀ t ∈ operandEnds, t ≠ .punct "?." ∧ t ≠ .punct "(" := by decide
  have hmember : Reads (memberStep rec true (e, isChain)) c ts none ts := by
    refine .bind .read (.bind .current ?_)
    generalize ts.first = t at h
    simp only [operandEnds, List.mem_cons, List.not_mem_nil, or_false] at h
    rcases h with rfl | rfl | rfl | rfl | rfl | rfl <;> exact .pure
  refine .bind hmember (.bind (.notEaten (hcall _ h).1) ?_)
  exact .no (.notEaten (hcall _ h).2) (.bind (.require rfl) .pure)

theorem binaryStep_none {level : Nat} {isOpened : Bool} (h : ts.first ∈ operandEnds) :
    Reads (binaryStep rec level isOpened e) c ts none ts := by
  have hoperator : ∀ t ∈ operandEnds, operator? t = none := by decide
  refine .bind .current ?_
  rw [hoperator _ h]
  exact .pure

theorem callSteps_end {n : Nat} {isChain : Bool} (h : ts.first ∈ operandEnds) :
    Reads (iterate (callStep rec) (n + 1) (e, isChain)) c ts (e, isChain) ts :=
  .iterate_none (Nat.succ_ne_zero n) (callStep_none h)

/-- A left-hand side, given how its members and calls are read where there is room for them. -/
theorem leftSide_of_steps (hc : c.IsPlain) {e' : Expr} {ts₁ : Tokens}
    (h : ∀ n, Reads (primary rec (leftSide rec n)) c ts e ts₁)
    (hsteps : Reads (iterate (callStep rec) c.size (e, false)) c ts₁ (e', false) ts') :
    Reads (leftSide rec c.size) c ts e' ts' := by
  obtain ⟨size, hsize⟩ := hc.exists_size
  have hleft (n : Nat) : Reads (leftSide rec (n + 1)) c ts e' ts' :=
    .bind .read (.bind (h n) (.bind hsteps .pure))
  rw [hsize]
  exact hleft _

theorem leftSide_reads (hc : c.IsPlain) {e' : Expr} {ts₁ : Tokens}
    (h : ∀ n, Reads (primary rec (leftSide rec n)) c ts e ts₁)
    (hsteps : ∀ n, Reads (iterate (callStep rec) (n + 8) (e, false)) c ts₁ (e', false) ts') :
    Reads (leftSide rec c.size) c ts e' ts' := by
  obtain ⟨size, hsize⟩ := hc.exists_size
  refine leftSide_of_steps hc h ?_
  rw [hsize]
  exact hsteps size

theorem updateExpr_reads (hs : StartsOperand c t ts)
    (h : Reads (leftSide rec c.size) c ((t, l) :: ts) e ts') (he : ts'.first ∈ operandEnds) :
    Reads (updateExpr rec) c ((t, l) :: ts) e ts' := by
  have hupdate : ∀ t ∈ operandEnds, update? t = none := by decide
  have hfirst : update? (Tokens.first ((t, l) :: ts)) = none := hs.update
  refine .bind .current ?_
  rw [hfirst]
  refine .bind .read (.bind h (.get fun s hs' => ?_))
  rw [hs'.token, hupdate _ he]
  exact .pure

theorem operandFollows_reads (ht : t ≠ .eof) (h : ts.first ∈ operandEnds) :
    Reads operandFollows c ((t, l) :: ts) false ((t, l) :: ts) := by
  refine .nextIs ht fun s hs => ?_
  rw [hs.token]
  generalize ts.first = t at h
  simp only [operandEnds, List.mem_cons, List.not_mem_nil, or_false] at h
  rcases h with rfl | rfl | rfl | rfl | rfl | rfl <;> exact Bool.and_false _

theorem unaryExpr_reads (hs : StartsOperand c t ts)
    (h : Reads (leftSide rec c.size) c ((t, l) :: ts) e ts') (he : ts'.first ∈ operandEnds) :
    Reads (unaryExpr rec) c ((t, l) :: ts) e ts' := by
  have hfirst : unary? (Tokens.first ((t, l) :: ts)) = none := hs.unary
  have hupdate := updateExpr_reads hs h he
  refine .bind .current ?_
  rw [hfirst]
  by_cases hw : t = .name "await" false
  · subst hw
    have hends := hs.alone (by decide)
    refine .yes (.isAt rfl) (.bind .read ?_)
    rw [hs.await rfl]
    have hof : Reads (nextIs fun s => s.token = .name "of" false) c
        ((.name "await" false, l) :: ts) (ts.first = .name "of" false)
        ((.name "await" false, l) :: ts) :=
      .nextIs nofun fun s hs' => by rw [hs'.token]
    exact .bind (operandFollows_reads nofun hends) (.bind hof (.bind (.require rfl) hupdate))
  · exact .no (.notAt hw) hupdate

theorem binaryExpr_reads {level : Nat} (hc : c.IsPlain)
    (hs : ∀ n, ts.first ≠ .privateName n) (h : Reads (unaryExpr rec) c ts e ts')
    (he : ts'.first ∈ operandEnds) : Reads (binaryExpr rec level) c ts e ts' := by
  have hsize : c.size ≠ 0 := Nat.ne_of_gt (Nat.lt_of_lt_of_le (by decide) hc.size)
  refine .bind .read (.bind .isAt_decide (.bind .current ?_))
  dsimp only
  split
  · next name ht => exact absurd ht (hs name)
  · refine .get fun s hs' => ?_
    rw [hs'.marksCall]
    exact .bind h (.bind .pure (.iterate_none hsize (binaryStep_none he)))

theorem arrowLikeness_reads {k : Likeness} (h : Reads arrowTokens c ts k ts') :
    Reads arrowLikeness c ts k ts := by
  intro s hs
  obtain ⟨s', h, -⟩ := h s hs
  refine ⟨s, ?_, hs⟩
  simp only [arrowLikeness, h]

/-- No arrow function starts at an operand that has no parenthesis. -/
theorem arrowFunction?_none (ht : t ≠ .punct "(")
    (hs : t = .name "async" false → IsNoArrow ts.first) :
    Reads (arrowFunction? rec) c ((t, l) :: ts) none ((t, l) :: ts) := by
  by_cases hw : t = .name "async" false
  · subst hw
    obtain ⟨hopen, hbinding, heof⟩ := hs rfl
    have hlikeness : Reads arrowTokens c ((.name "async" false, l) :: ts) .no ts := by
      refine .yes (.isAt rfl) (.bind (.advance nofun) (.bind .hasLineEnd ?_))
      split
      · exact .pure
      · exact .bind (.notEaten hopen) .pure
    have hasync : Reads startsAsyncArrow c ((.name "async" false, l) :: ts) false
        ((.name "async" false, l) :: ts) := by
      cases ts with
      | nil => exact absurd rfl heof
      | cons next ts =>
        obtain ⟨t, l'⟩ := next
        cases l' with
        | true =>
          exact .looksAhead_none
            (.bind (.expectToken nofun) (.bind .hasLineEnd (.first (.require rfl))))
        | false =>
          have hlook : Reads (do
              expectWord "async"
              require (!(← hasLineEnd))
              let token ← current
              advance
              return isBindingToken token && (← at? "=>") && !(← hasLineEnd)) c
              ((.name "async" false, l) :: (t, false) :: ts) false ts := by
            refine .bind (.expectToken nofun) (.bind .hasLineEnd (.bind (.require rfl) ?_))
            refine .bind .current (.bind (.advance heof) ?_)
            refine .bind .isAt_decide (.bind .hasLineEnd ?_)
            rw [hbinding, Bool.false_and, Bool.false_and]
            exact .pure
          exact hlook.looksAhead
    exact .bind (arrowLikeness_reads hlikeness) (.no hasync .pure)
  · have hlikeness : Reads arrowTokens c ((t, l) :: ts) .no ((t, l) :: ts) :=
      .no (.notAt hw) (.bind (.notEaten ht) .pure)
    have hasync : Reads startsAsyncArrow c ((t, l) :: ts) false ((t, l) :: ts) :=
      .looksAhead_none (.first (.expectToken hw))
    exact .bind (arrowLikeness_reads hlikeness) (.no hasync .pure)

/-- An operand is extended by what follows it, unless it is the parameter of an arrow function. -/
theorem plainAssignExpr_operand {e' : Expr} {ts₁ : Tokens}
    (hs : t = .name "yield" false → c.inYield = false ∧ ts.first ∈ operandEnds)
    (hf : Reads (arrowFunction? rec) c ((t, l) :: ts) none ((t, l) :: ts))
    (hb : Reads (binaryExpr rec 0) c ((t, l) :: ts) e ts₁) (ha : ts₁.first ≠ .punct "=>")
    (h : Reads (do
      match assignment? (← current) with
      | some op =>
        let t ← target e
        advance
        return .assign op t (← rec .assign)
      | none =>
        if ← eat "?" then
          let consequent ← withIn (rec .assign)
          expect ":"
          return .conditional e consequent (← rec .assign)
        return e) c ts₁ e' ts') :
    Reads (plainAssignExpr rec) c ((t, l) :: ts) e' ts' := by
  have hyield {p q : Parser Expr} (hp : Reads p c ((t, l) :: ts) e' ts') : Reads (do
      if ← atWord "yield" then
        if (← read).inYield then q
        else do
          require (!(← operandFollows))
          p
      else p) c ((t, l) :: ts) e' ts' := by
    by_cases hw : t = .name "yield" false
    · subst hw
      refine .yes (.isAt rfl) (.bind .read ?_)
      rw [(hs rfl).1]
      exact .bind (operandFollows_reads nofun (hs rfl).2) (.bind (.require rfl) hp)
    · exact .no (.notAt hw) hp
  refine hyield (.bind hf (.bind hb ?_))
  dsimp only
  split
  · exact .no (.notAt ha) h
  · exact h

theorem assignExpr_of_plain (h : Reads (plainAssignExpr rec) c ts e ts') :
    Reads (assignExpr rec) c ts e ts' := by
  refine .get fun s hs => ?_
  rw [hs.marksFunction]
  exact .bind h .pure

theorem assignExpr_operand (hc : c.IsPlain) (hp : ∀ n, t ≠ .privateName n)
    (hs : t = .name "yield" false → c.inYield = false ∧ ts.first ∈ operandEnds)
    (hf : Reads (arrowFunction? rec) c ((t, l) :: ts) none ((t, l) :: ts))
    (h : Reads (unaryExpr rec) c ((t, l) :: ts) e ts') (he : ts'.first ∈ expressionEnds) :
    Reads (assignExpr rec) c ((t, l) :: ts) e ts' := by
  have hends : ∀ t ∈ expressionEnds,
      assignment? t = none ∧ t ≠ .punct "?" ∧ t ≠ .punct "=>" := by decide
  obtain ⟨hassign, hcond, harrow⟩ := hends _ he
  have hb : Reads (binaryExpr rec 0) c ((t, l) :: ts) e ts' :=
    binaryExpr_reads hc hp h (operandEnds_of_expressionEnds _ he)
  refine assignExpr_of_plain (plainAssignExpr_operand hs hf hb harrow (.bind .current ?_))
  rw [hassign]
  exact .no (.notEaten hcond) .pure

section Operands

variable {first : Parser Expr} {n : String}

theorem primary_name (hn : c.Names n) (h : ts.first ≠ .name "function" false) :
    Reads (primary rec first) c ((.name n false, l) :: ts) (.ident n) ts := by
  have hfree : Token.isReserved n = false := hn.bindable.free
  have hname : Reads (do return .ident (← bindingName)) c ((.name n false, l) :: ts)
    (Expr.ident n) ts := .bind (.bindingName hn) .pure
  refine .bind .current ?_
  dsimp only [Tokens.first]
  split
  case h_20 he =>
    cases he
    have hnext : Reads (nextIs fun s => s.token = .name "function" false && !s.hasLineEnd) c
        ((.name "async" false, l) :: ts) false ((.name "async" false, l) :: ts) := by
      refine .nextIs nofun fun s hs => ?_
      rw [hs.token, decide_eq_false h]
      rfl
    exact .no hnext hname
  case h_21 => exact hname
  all_goals
    next he =>
      cases he
      first
        | done
        | exact absurd hfree (by decide)

theorem primary_string {value : String} {lone : Bool} :
    Reads (primary rec first) c ((.string value lone, l) :: ts) (.string value lone) ts :=
  .bind .current (.bind (.advance nofun) .pure)

theorem primary_true :
    Reads (primary rec first) c ((.name "true" false, l) :: ts) (.bool true) ts :=
  .bind .current (.bind (.advance nofun) .pure)

/-- A name is no prefix operator. -/
theorem unary?_name (h : Token.isReserved n = false) : unary? (.name n false) = none := by
  unfold unary?
  split
  case h_8 => rfl
  all_goals
    next he =>
      cases he
      first
        | done
        | exact absurd h (by decide)

theorem StartsOperand.name (hn : c.Names n) (h : ts.first ∈ operandEnds) :
    StartsOperand c (.name n false) ts where
  unary := unary?_name hn.bindable.free
  update := rfl
  isPublic := nofun
  alone _ := h
  async _ := isNoArrow_of_operandEnds _ h
  yield he := hn.yield (Token.name.inj he).1
  await he := hn.await (Token.name.inj he).1

theorem StartsOperand.of_word (hu : unary? (.name n false) = none)
    (hn : n ∉ ["yield", "await", "async"]) : StartsOperand c (.name n false) ts where
  unary := hu
  update := rfl
  isPublic := nofun
  alone h := by
    simp only [List.mem_cons, Token.name.injEq, and_true, List.not_mem_nil, or_false] at h hn
    rcases h with h | h <;> simp [h] at hn
  async h := absurd (Token.name.inj h).1 fun h => hn (by simp [h])
  yield h := absurd (Token.name.inj h).1 fun h => hn (by simp [h])
  await h := absurd (Token.name.inj h).1 fun h => hn (by simp [h])

theorem StartsOperand.of_string {value : String} {lone : Bool} :
    StartsOperand c (.string value lone) ts :=
  ⟨rfl, rfl, nofun, nofun, nofun, nofun, nofun⟩

end Operands

section Simple

variable {n : String}

theorem assignExpr_leftSide (hc : c.IsPlain) (hs : StartsOperand c t ts) (ht : t ≠ .punct "(")
    (h : Reads (leftSide rec c.size) c ((t, l) :: ts) e ts') (he : ts'.first ∈ expressionEnds) :
    Reads (assignExpr rec) c ((t, l) :: ts) e ts' :=
  assignExpr_operand hc hs.isPublic (fun hw => ⟨hs.yield hw, hs.alone (by simp [hw])⟩)
    (arrowFunction?_none ht hs.async)
    (unaryExpr_reads hs h (operandEnds_of_expressionEnds _ he)) he

theorem assignExpr_primary (hc : c.IsPlain) (hs : StartsOperand c t ts) (ht : t ≠ .punct "(")
    (h : ∀ n, Reads (primary rec (leftSide rec n)) c ((t, l) :: ts) e ts')
    (he : ts'.first ∈ expressionEnds) : Reads (assignExpr rec) c ((t, l) :: ts) e ts' := by
  have hends := operandEnds_of_expressionEnds _ he
  exact assignExpr_leftSide hc hs ht (leftSide_reads hc h fun _ => callSteps_end hends) he

theorem assignExpr_name (hc : c.IsPlain) (hn : c.Names n) (he : ts.first ∈ expressionEnds) :
    Reads (assignExpr rec) c ((.name n false, l) :: ts) (.ident n) ts := by
  have hends := operandEnds_of_expressionEnds _ he
  have hfunction : ts.first ≠ .name "function" false := fun h => by
    rw [h] at he
    revert he
    decide
  exact assignExpr_primary hc (.name hn hends) nofun (fun _ => primary_name hn hfunction) he

theorem assignExpr_string (hc : c.IsPlain) {value : String} {lone : Bool}
    (he : ts.first ∈ expressionEnds) :
    Reads (assignExpr rec) c ((.string value lone, l) :: ts) (.string value lone) ts :=
  assignExpr_primary hc (.of_string) nofun (fun _ => primary_string) he

theorem assignExpr_true (hc : c.IsPlain) (he : ts.first ∈ expressionEnds) :
    Reads (assignExpr rec) c ((.name "true" false, l) :: ts) (.bool true) ts :=
  assignExpr_primary hc (.of_word rfl (by decide)) nofun (fun _ => primary_true) he

end Simple

section Steps

variable {n : String} {b : Bool} {l' : Bool} {ts₁ : Tokens} {e' : Expr}

/-- A context without what decorators and loops forbid. -/
abbrev Context.nested (c : Context) : Context := { c with allowIn := true, inDecorator := false }

theorem Context.IsPlain.nested (hc : c.IsPlain) : c.nested.IsPlain := ⟨hc.comments, rfl, hc.size⟩

theorem expression_single (hc : c.IsPlain) (h : Reads (rec .assign) c ts e ts')
    (he : ts'.first ≠ .punct ",") : Reads (expression rec) c ts e ts' := by
  obtain ⟨size, hsize⟩ := hc.exists_size
  have hlist : Reads (commaSeparated (rec .assign) c.size) c ts [e] ts' := by
    rw [hsize]
    exact .bind h (.no (.notEaten he) .pure)
  exact .bind .read (.bind hlist .pure)

theorem callStep_of_member {next : Expr × Bool}
    (h : Reads (memberStep rec true (e, b)) c ts (some next) ts') :
    Reads (callStep rec (e, b)) c ts (some next) ts' := .bind h .pure

theorem callStep_member {f : Bool} :
    Reads (callStep rec (e, b)) c ((.punct ".", l) :: (.name n f, l') :: ts)
      (some (.member e n, b)) ts := by
  refine callStep_of_member (.bind .read (.bind .current (.bind (.advance nofun) (.bind ?_ .pure))))
  exact .bind .current (.bind .anyName .pure)

theorem callStep_index (hc : c.IsPlain) (h : Reads (rec .assign) c.nested ts₁ e'
    ((.punct "]", l') :: ts)) :
    Reads (callStep rec (e, b)) c ((.punct "[", l) :: ts₁) (some (.index e e', b)) ts := by
  refine callStep_of_member (.bind .read (.bind .current ?_))
  have hproperty : Reads (expression rec) c.nested ts₁ e' ((.punct "]", l') :: ts) :=
    expression_single hc.nested h (punct_ne (by decide))
  rw [hc.decorator]
  exact .bind (.advance nofun) (.bind (.withReader hproperty)
    (.bind (.expectToken nofun) .pure))

theorem argument_reads (hc : c.IsPlain) (h : Reads (rec .assign) c ts e ts')
    (hs : ts.first ≠ .punct "...") : Reads (argument rec) c ts e ts' :=
  .bind (.leading hc.comments) (.bind (.no (.notEaten hs) h) .pure)

theorem callStep_call (hc : c.IsPlain) (hs : ts₁.first ≠ .punct "..." ∧ ts₁.first ≠ .punct ")")
    (h : Reads (rec .assign) c.nested ts₁ e' ((.punct ")", l') :: ts)) :
    Reads (callStep rec (e, b)) c ((.punct "(", l) :: ts₁) (some (.call e [e'], b)) ts := by
  have hmember : Reads (memberStep rec true (e, b)) c ((.punct "(", l) :: ts₁) none
      ((.punct "(", l) :: ts₁) := .bind .read (.bind .current .pure)
  have hargs : Reads (commaList (.punct ")") (argument rec) c.size) c.nested ts₁ [e']
      ((.punct ")", l') :: ts) := by
    obtain ⟨size, hsize⟩ := hc.exists_size
    rw [hsize]
    refine .no (.notAt hs.2) (.bind (argument_reads hc.nested h hs.1) ?_)
    exact .no (.notEaten (punct_ne (by decide)))
      (.bind (.isAt rfl) (.bind (.require rfl) .pure))
  have hclose : Reads (closeArguments [e']) c.nested ((.punct ")", l') :: ts) [e'] ts :=
    .bind (.leading hc.comments) (.bind (.expectToken nofun) .pure)
  have harguments : Reads (arguments rec) c ts₁ [e'] ts :=
    .withReader (.bind .read (.bind hargs hclose))
  refine .bind hmember (.bind (.notEaten (punct_ne (by decide))) ?_)
  refine .yes (.eaten nofun) (.bind harguments ?_)
  rw [Bool.or_false]
  exact .pure

end Steps

section Arrows

variable {l₁ l₂ l₃ : Bool} {n param : String}

/-- The context of the value of an arrow function. -/
abbrev Context.inArrow (c : Context) : Context :=
  { c with inAwait := false, inYield := false, inDecorator := false }

/-- The context of the parameters of an arrow function. -/
abbrev Context.inParameters (c : Context) : Context :=
  { c with allowIn := true, inDecorator := false, inAwait := c.inAwait || false }

theorem Context.IsPlain.inArrow (hc : c.IsPlain) : c.inArrow.IsPlain := ⟨hc.comments, rfl, hc.size⟩

theorem assignExpr_arrow (ht : ts.first ≠ .name "yield" false)
    (h : Reads (arrowFunction? rec) c ts (some e) ts') : Reads (assignExpr rec) c ts e ts' :=
  assignExpr_of_plain (.no (.notAt ht) (.bind h .pure))

theorem arrowHead_reads {params : List Pattern} (hs : ts.first ≠ .name "async" false)
    (h : Reads (parameters rec) c.inParameters ts params ((.punct "=>", false) :: ts')) :
    Reads (arrowHead rec) c ts (false, params) ts' := by
  have harrow : Reads arrow c ((.punct "=>", false) :: ts') () ts' :=
    .bind .hasLineEnd (.bind (.require rfl) (.expectToken nofun))
  exact .bind (.notEaten hs) (.bind (.withReader h) (.bind harrow .pure))

theorem arrowBody_reads {params : List Pattern} (hs : ts.first ≠ .openBrace)
    (h : Reads (rec .assign) c.inArrow ts e ts') :
    Reads (arrowBody rec false params) c ts (.arrow false false params e) ts' :=
  .withReader (.no (.notAt hs) (.bind h .pure))

theorem assignExpr_getter (hc : c.IsPlain) (hs : ts.first ≠ .openBrace)
    (h : Reads (rec .assign) c.inArrow ts e ts') :
    Reads (assignExpr rec) c ((.punct "(", l) :: (.punct ")", l₁) :: (.punct "=>", false) :: ts)
      (.lambda [] e) ts' := by
  have htokens : Reads arrowTokens c
      ((.punct "(", l) :: (.punct ")", l₁) :: (.punct "=>", false) :: ts) .yes
      ((.punct "=>", false) :: ts) :=
    .no (.notAt nofun) (.bind (.eaten nofun) (.bind .current (.bind (.advance nofun)
      (.bind (.isAt rfl) (.bind .isAt_decide .pure)))))
  have hitems : Reads (patternItems rec (.punct ")") false c.size) c.inParameters
      ((.punct ")", l₁) :: (.punct "=>", false) :: ts) []
      ((.punct ")", l₁) :: (.punct "=>", false) :: ts) := by
    obtain ⟨size, hsize⟩ := hc.exists_size
    rw [hsize]
    exact .yes (.isAt rfl) .pure
  have hparams : Reads (parameters rec) c.inParameters
      ((.punct "(", l) :: (.punct ")", l₁) :: (.punct "=>", false) :: ts) []
      ((.punct "=>", false) :: ts) :=
    .bind (.expectToken nofun) (.bind .read (.bind hitems (.bind (.expectToken nofun) .pure)))
  exact assignExpr_arrow nofun (.bind (arrowLikeness_reads htokens)
    (.bind (arrowHead_reads nofun hparams) (.bind (arrowBody_reads hs h) .pure)))

theorem assignExpr_lambda (hc : c.IsPlain) (hp : Token.isReserved param = false)
    (hpattern : Reads (rec .pattern) c.inParameters
      ((.name param false, l₁) :: (.punct ")", l₂) :: (.punct "=>", false) :: ts) (.name param)
      ((.punct ")", l₂) :: (.punct "=>", false) :: ts))
    (hs : ts.first ≠ .openBrace) (h : Reads (rec .assign) c.inArrow ts e ts') :
    Reads (assignExpr rec) c ((.punct "(", l) :: (.name param false, l₁) :: (.punct ")", l₂) ::
      (.punct "=>", false) :: ts) (.lambda [.name param] e) ts' := by
  have hbinding : isBindingToken (.name param false) = true := by
    rw [isBindingToken, hp, Bool.not_false]
  have htokens : Reads arrowTokens c ((.punct "(", l) :: (.name param false, l₁) ::
      (.punct ")", l₂) :: (.punct "=>", false) :: ts) .maybe
      ((.punct ")", l₂) :: (.punct "=>", false) :: ts) := by
    refine .no (.notAt name_ne_punct.symm) (.bind (.eaten (by decide)) (.bind .current ?_))
    dsimp only [Tokens.first]
    rw [hbinding]
    exact .bind (.advance name_ne_eof) (.bind (.notAt (punct_ne (by decide)))
      (.bind (.notAt (punct_ne (by decide))) (.bind (.isAt rfl) .pure)))
  have hitems : Reads (patternItems rec (.punct ")") false c.size) c.inParameters
      ((.name param false, l₁) :: (.punct ")", l₂) :: (.punct "=>", false) :: ts) [.name param]
      ((.punct ")", l₂) :: (.punct "=>", false) :: ts) := by
    obtain ⟨size, hsize⟩ := hc.exists_size
    rw [hsize]
    refine .no (.notAt name_ne_punct) (.no (.notEaten name_ne_punct) ?_)
    refine .bind (.bind hpattern (.no (.notEaten (punct_ne (by decide))) .pure)) ?_
    exact .no (.notEaten (punct_ne (by decide)))
      (.bind (.isAt rfl) (.bind (.require rfl) .pure))
  have hparams : Reads (parameters rec) c.inParameters ((.punct "(", l) ::
      (.name param false, l₁) :: (.punct ")", l₂) :: (.punct "=>", false) :: ts) [.name param]
      ((.punct "=>", false) :: ts) :=
    .bind (.expectToken (by decide)) (.bind .read (.bind hitems
      (.bind (.expectToken (by decide)) .pure)))
  have hhead : Reads (arrowHead rec) c ((.punct "(", l) :: (.name param false, l₁) ::
      (.punct ")", l₂) :: (.punct "=>", false) :: ts) (false, [.name param]) ts :=
    arrowHead_reads name_ne_punct.symm hparams
  exact assignExpr_arrow name_ne_punct.symm (.bind (arrowLikeness_reads htokens)
    (.bind (.attempt hhead) (.bind (arrowBody_reads hs h) .pure)))

theorem assignExpr_assign (hc : c.IsPlain) (hn : c.Names n)
    (h : Reads (rec .assign) c ts e ts') :
    Reads (assignExpr rec) c ((.name n false, l) :: (.punct "=", l₁) :: ts)
      (.assign none (.name n) e) ts' := by
  have hends : Token.punct "=" ∈ operandEnds := by decide
  have hstart : StartsOperand c (.name n false) ((.punct "=", l₁) :: ts) := .name hn hends
  have hleft : Reads (leftSide rec c.size) c ((.name n false, l) :: (.punct "=", l₁) :: ts)
      (.ident n) ((.punct "=", l₁) :: ts) :=
    leftSide_reads hc (fun _ => primary_name hn nofun) fun _ => callSteps_end hends
  have htarget : Reads (target (.ident n)) c ((.punct "=", l₁) :: ts) (.name n)
      ((.punct "=", l₁) :: ts) :=
    .bind (.liftOption rfl) (.bind (.modify fun _ hs => hs) .pure)
  have hbinary : Reads (binaryExpr rec 0) c ((.name n false, l) :: (.punct "=", l₁) :: ts)
      (.ident n) ((.punct "=", l₁) :: ts) :=
    binaryExpr_reads hc nofun (unaryExpr_reads hstart hleft hends) hends
  refine assignExpr_of_plain (plainAssignExpr_operand (fun hw => ⟨hstart.yield hw, hends⟩)
    (arrowFunction?_none nofun hstart.async) hbinary (punct_ne (by decide)) ?_)
  exact .bind .current (.bind htarget (.bind (.advance nofun) (.bind h .pure)))

end Arrows

section Objects

variable {k : Key} {l₁ l₂ : Bool}

/-- A token and the key that it is. -/
inductive IsKey : Token → Key → Prop where
  | name (n : String) : IsKey (.name n false) (.ident n)
  | string (value : String) : IsKey (.string value false) (.string value)

theorem propertyKey_reads (hk : IsKey t k) : Reads (propertyKey rec) c ((t, l) :: ts) k ts := by
  cases hk with
  | name n => exact .bind (.bind .current (.bind (.advance nofun) .pure)) .pure
  | string value => exact .bind (.bind .current (.bind (.advance nofun) .pure)) .pure

theorem eatAccessor_none {w : String} (ht : t ≠ .eof) (h : startsKey ts.first = false) :
    Reads (eatAccessor w) c ((t, l) :: ts) false ((t, l) :: ts) := by
  have hand : Reads (atWord w <&&> nextIs fun s => startsKey s.token) c ((t, l) :: ts) false
      ((t, l) :: ts) := by
    by_cases hw : t = .name w false
    · refine .and_yes (.isAt hw) (.nextIs ht fun s hs => ?_)
      rw [hs.token, h]
    · exact .and_no (.notAt hw)
  exact .no hand .pure

theorem eatAsync_none (ht : t ≠ .eof) (h : followsModifier ts.first = false) :
    Reads eatAsync c ((t, l) :: ts) false ((t, l) :: ts) := by
  have hand : Reads (atWord "async" <&&> nextIs fun s => followsModifier s.token && !s.hasLineEnd)
      c ((t, l) :: ts) false ((t, l) :: ts) := by
    by_cases hw : t = .name "async" false
    · refine .and_yes (.isAt hw) (.nextIs ht fun s hs => ?_)
      rw [hs.token, h, Bool.false_and]
    · exact .and_no (.notAt hw)
  exact .no hand .pure

theorem property_reads (hk : IsKey t k) (h : Reads (rec .assign) c ts e ts') :
    Reads (property rec) c ((t, l) :: (.punct ":", l₁) :: ts) (.keyValue k false e) ts' := by
  have hkey : Reads (propertyKey rec) c ((t, l) :: (.punct ":", l₁) :: ts) k
      ((.punct ":", l₁) :: ts) := propertyKey_reads hk
  have heof : t ≠ .eof := by cases hk <;> nofun
  have hpunct {p : String} : t ≠ .punct p := by cases hk <;> nofun
  have hkind : Reads methodKind c ((t, l) :: (.punct ":", l₁) :: ts) .method
      ((t, l) :: (.punct ":", l₁) :: ts) :=
    .no (eatAccessor_none heof rfl) (.no (eatAccessor_none heof rfl) .pure)
  have hmethod : Refuses (property.methodKey rec) c ((t, l) :: (.punct ":", l₁) :: ts) :=
    .bind hkey (.bind (.notAt (punct_ne (by decide))) (.first (.require rfl)))
  have hvalue : Reads (do
      expect ":"
      return .keyValue k false (← rec .assign)) c ((.punct ":", l₁) :: ts)
      (Property.keyValue k false e) ts' := .bind (.expectToken nofun) (.bind h .pure)
  have hplain : Reads (plainProperty rec) c ((t, l) :: (.punct ":", l₁) :: ts)
      (.keyValue k false e) ts' := by
    refine .bind .current (.bind hkey (.bind .read ?_))
    dsimp only
    split
    · refine .bind (.isAt rfl) ?_
      rw [Bool.not_true, Bool.and_false]
      exact hvalue
    · exact hvalue
  refine .no (.notEaten hpunct) (.bind hkind (.bind (eatAsync_none heof rfl) ?_))
  exact .bind (.notEaten hpunct) (.bind (.attempt_none hmethod) (.bind (.require rfl) hplain))

theorem assignExpr_object (hc : c.IsPlain) {items : List (Tokens × Property)}
    (hopen : ∀ i ∈ items, ∀ rest, (i.1 ++ rest).first ≠ .closeBrace)
    (hitem : ∀ i ∈ items, ∀ rest, rest.first = .punct "," ∨ rest.first = .closeBrace →
      Reads (property rec) c.nested (i.1 ++ rest) i.2 rest)
    (hsize : items.length < c.size) (he : ts.first ∈ expressionEnds) :
    Reads (assignExpr rec) c
      ((.openBrace, l) :: (separated (items.map (·.1)) ++ (.closeBrace, l₁) :: ts))
      (.object (items.map (·.2))) ts := by
  have hclose : Token.closeBrace ≠ .punct "," := nofun
  have hlist : Reads (listUntil .closeBrace (property rec)) c.nested
      (separated (items.map (·.1)) ++ (.closeBrace, l₁) :: ts) (items.map (·.2)) ts :=
    .bind .read (.bind (.commaList hclose hopen hitem hsize) (.bind (.expectToken nofun) .pure))
  have hstart : StartsOperand c .openBrace
      (separated (items.map (·.1)) ++ (.closeBrace, l₁) :: ts) :=
    ⟨rfl, rfl, nofun, nofun, nofun, nofun, nofun⟩
  refine assignExpr_primary hc hstart nofun (fun n => ?_) he
  exact .bind .current (.bind (.advance nofun) (.bind (.withReader hlist) .pure))

end Objects

section Words

variable {isOpened : Bool}

theorem assignExpr_yield (hy : c.inYield = true) (hs : ts.onNewLine = false)
    (ht : ts.first = .openBrace ∨ ts.first = .punct "(") (h : Reads (rec .assign) c ts e ts') :
    Reads (assignExpr rec) c ((.name "yield" false, l) :: ts) (.yield (some e)) ts' := by
  have hyield : Reads (yieldExpr rec) c ts (.yield (some e)) ts' := by
    refine .get fun s hs' => ?_
    rw [hs'.hasLineEnd, hs]
    rcases ht with ht | ht
    · refine .no (.notEaten (ht ▸ nofun)) ?_
      rw [hs'.token, ht]
      exact .bind h .pure
    · refine .no (.notEaten (ht ▸ punct_ne (by decide))) ?_
      rw [hs'.token, ht]
      exact .bind h .pure
  refine assignExpr_of_plain (.yes (.isAt rfl) (.bind .read ?_))
  rw [hy]
  exact .bind (.advance nofun) hyield

theorem assignExpr_await (hc : c.IsPlain) (ha : c.inAwait = true)
    (h : Reads (rec .unary) c ts e ts') (he : ts'.first ∈ expressionEnds) :
    Reads (assignExpr rec) c ((.name "await" false, l) :: ts) (.await e) ts' := by
  have hunary : Reads (unaryExpr rec) c ((.name "await" false, l) :: ts) (.await e) ts' := by
    refine .bind .current (.yes (.isAt rfl) (.bind .read ?_))
    rw [ha]
    exact .bind (.advance nofun) (.bind h .pure)
  exact assignExpr_operand hc nofun (by simp) (arrowFunction?_none nofun (by simp)) hunary he

theorem assignExpr_delete (hc : c.IsPlain)
    (h : Reads (rec .unary) c ts e ts') (he : ts'.first ∈ expressionEnds) :
    Reads (assignExpr rec) c ((.name "delete" false, l) :: ts) (.unary .delete e) ts' := by
  have hunary : Reads (unaryExpr rec) c ((.name "delete" false, l) :: ts) (.unary .delete e)
      ts' := by
    refine .bind .current (.bind (.advance nofun) (.get fun s hs => ?_))
    rw [hs.marksCall]
    exact .bind h .pure
  exact assignExpr_operand hc nofun (by simp) (arrowFunction?_none nofun (by simp)) hunary he

end Words

section Parentheses

variable {first : Parser Expr} {l' : Bool} {e₁ e₂ : Expr} {ts₁ : Tokens}

theorem expression_pair (hc : c.IsPlain)
    (h₁ : Reads (rec .assign) c ts e₁ ((.punct ",", l) :: ts₁))
    (h₂ : Reads (rec .assign) c ts₁ e₂ ts') (he : ts'.first ≠ .punct ",") :
    Reads (expression rec) c ts (.sequence [e₁, e₂]) ts' := by
  obtain ⟨size, hsize⟩ := hc.exists_size
  have hlist : Reads (commaSeparated (rec .assign) c.size) c ts [e₁, e₂] ts' := by
    rw [hsize]
    exact .bind h₁ (.yes (.eaten nofun) (.bind (.bind h₂ (.no (.notEaten he) .pure)) .pure))
  exact .bind .read (.bind hlist .pure)

theorem primary_paren (h : Reads (expression rec) c.nested ts e ((.punct ")", l') :: ts')) :
    Reads (primary rec first) c ((.punct "(", l) :: ts) (.paren e) ts' :=
  .bind .current (.bind (.advance nofun)
    (.bind (.withReader h) (.bind (.expectToken nofun) .pure)))

/-- No parameters of an arrow function are among the parentheses. -/
theorem arrowFunction?_paren (h : ts.first = .punct "(" ∨ ts.first = .name "delete" false) :
    Reads (arrowFunction? rec) c ((.punct "(", l) :: ts) none ((.punct "(", l) :: ts) := by
  have htokens : Reads arrowTokens c ((.punct "(", l) :: ts) .no ts := by
    refine .no (.notAt nofun) (.bind (.eaten nofun) (.bind .current ?_))
    rcases h with h | h <;> rw [h] <;> exact .pure
  have hasync : Reads startsAsyncArrow c ((.punct "(", l) :: ts) false ((.punct "(", l) :: ts) :=
    .looksAhead_none (.first (.expectToken nofun))
  exact .bind (arrowLikeness_reads htokens) (.no hasync .pure)

theorem assignExpr_paren (hc : c.IsPlain)
    (hs : ts.first = .punct "(" ∨ ts.first = .name "delete" false)
    (h : Reads (leftSide rec c.size) c ((.punct "(", l) :: ts) e ts')
    (he : ts'.first ∈ expressionEnds) :
    Reads (assignExpr rec) c ((.punct "(", l) :: ts) e ts' :=
  assignExpr_operand hc nofun nofun (arrowFunction?_paren hs)
    (unaryExpr_reads ⟨rfl, rfl, nofun, by simp, nofun, nofun, nofun⟩ h
      (operandEnds_of_expressionEnds _ he)) he

end Parentheses

end ScriptBundler.Parser
