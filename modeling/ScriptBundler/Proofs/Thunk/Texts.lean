import ScriptBundler.Proofs.Syntax.Denotes
import ScriptBundler.Proofs.Thunk.Lowering
import ScriptBundler.Text.Quoted

namespace ScriptBundler.Thunk

open Lexer (Tokens Spelled Closed word sign)
open ScriptBundler.Parser

/-- Where the values of getters stand. -/
structure InGetter (c : Context) : Prop extends c.IsPlain where
  yield : c.inYield = false
  await : c.inAwait = false

section Values

variable {n dependency text : String} {t : Token} {e : Expr} {c : Context} {C : Context → Prop}
  {depth : Nat}

theorem InGetter.of_isPlain (hc : c.IsPlain) : InGetter c.inArrow := ⟨hc.inArrow, rfl, rfl⟩

theorem InGetter.names (hc : InGetter c) (hn : IsBindable n) : c.Names n :=
  ⟨hn, fun _ => hc.yield, fun _ => hc.await⟩

/-- The names that are no operators in a generator. -/
def IsPlainName (n : String) : Prop := IsBindable n ∧ n ∉ ["yield", "await", "async"]

theorem IsPlainName.names (hn : IsPlainName n) (c : Context) : c.Names n :=
  ⟨hn.1, fun h => absurd (by simp [h]) hn.2, fun h => absurd (by simp [h]) hn.2⟩

theorem IsPlainName.importable (hn : IsPlainName n) : IsImportable n :=
  ⟨hn.1, fun h => hn.2 (by simp [h])⟩

theorem IsPlainName.unlessYield {α : Type} (hn : IsPlainName n) (a : α) :
    unlessYield [n] a = some a := by
  have hne : "yield" ≠ n := fun h => hn.2 (by simp [← h])
  simp [Parser.unlessYield, hne]

theorem denotesOperand_name (hn : IsPlainName n) :
    DenotesOperand Context.IsPlain depth (.name n false) n (.ident n) := by
  refine ⟨[], Lexer.spelled_name hn.1.isName, fun c hc _ k rest ts' e' hends he hsteps => ?_⟩
  have hfunction : rest.first ≠ .name "function" false := by
    intro h
    rw [h] at hends
    revert hends
    decide
  exact assignExpr_leftSide hc (.of_word (unary?_name hn.1.free) hn.2) nofun
    (leftSide_of_steps hc (fun _ => primary_name (hn.names c) hfunction)
      (hsteps c.size (Nat.le_refl _))) he

theorem denotesOperand_access (hC : ∀ c, C c → c.IsPlain) (hd : 1 ≤ depth)
    (h : DenotesOperand C depth t text e) (name : String) :
    DenotesOperand C depth t (Text.propertyAccess text name) (propertyOf e name) := by
  obtain ⟨ts, hspelled, hreads⟩ := h
  unfold Text.propertyAccess propertyOf
  split
  · next h =>
    refine ⟨ts ++ [sign ".", word name], ?_, fun c hc hsize k rest ts' e' _ he hsteps => ?_⟩
    · intro rest more hr hrest
      have hmember := Lexer.spelled_member h rest more hr hrest
      have hdot : Lexer.endsName (("." ++ name).toList ++ rest) = true := by
        rw [String.toList_append]
        rfl
      rw [String.append_assoc, String.toList_append, List.append_assoc, ← List.cons_append,
        List.append_assoc]
      exact hspelled _ _ hdot hmember
    · rw [List.length_append, List.length_cons, List.length_singleton] at hsize hsteps
      rw [List.append_assoc]
      -- one step for at least two tokens, so that there is room for the steps after it
      refine hreads c hc (by omega) k _ ts' e' List.mem_cons_self he fun m hm => ?_
      obtain ⟨m, rfl⟩ : ∃ i, m = i + 1 := ⟨m - 1, by omega⟩
      exact .iterate_some callStep_member (hsteps m (by omega))
  · refine ⟨ts ++ [sign "[", (.string name false, false), sign "]"], ?_,
      fun c hc hsize k rest ts' e' _ he hsteps => ?_⟩
    · have hopen : Closed "[" [sign "["] := fun _ _ h => .sign "[" rfl rfl h
      have hclose : Closed "]" [sign "]"] := fun _ _ h => .sign "]" rfl rfl h
      have hindex := ((hspelled.append hopen fun _ => rfl).append (Lexer.closed_quote name)).append
        hclose
      rw [List.append_assoc, List.append_assoc] at hindex
      exact hindex.spelled
    · simp only [List.length_append, List.length_cons, List.length_nil] at hsize hsteps
      rw [List.append_assoc]
      refine hreads c hc (by omega) k _ ts' e' (by simp [memberEnds, Tokens.first]) he
        fun m hm => ?_
      obtain ⟨m, rfl⟩ : ∃ i, m = i + 1 := ⟨m - 1, by omega⟩
      obtain ⟨d, rfl⟩ : ∃ d, depth = d + 1 := ⟨depth - 1, by omega⟩
      have hplain := hC c hc
      have hname : Parser.Reads (grammar (k + d + 1) .assign) c.nested
          ((.string name false, false) :: sign "]" :: rest) (.string name) (sign "]" :: rest) :=
        assignExpr_string hplain.nested (show Token.punct "]" ∈ expressionEnds by decide)
      exact .iterate_some (callStep_index hplain hname) (hsteps m (by omega))

theorem denotes_access (hd : IsPlainName dependency) (name : String) :
    DenotesExpr InGetter 2 (.name dependency false) (Text.propertyAccess dependency name)
      (propertyOf (.ident dependency) name) :=
  (denotesOperand_access (fun _ hc => hc) (Nat.le_refl 1) (denotesOperand_name hd) name).expr.imp
    fun _ hc => hc.toIsPlain

theorem parameter_reads {rec : Grammar} {l : Bool} {ts : Tokens} (hc : c.InGenerator)
    (hn : IsPlainName n) :
    Parser.Reads (pattern rec) c.inParameters ((.name n false, l) :: ts) (.name n) ts := by
  have hparameters : c.inParameters.InGenerator :=
    ⟨⟨hc.comments, rfl, hc.size⟩, hc.yield, (Bool.or_false _).trans hc.await⟩
  have hpattern : Gives (pattern rec) c.inParameters ((.name n false, l) :: ts)
      (unlessYield [n] (.name n)) ts := pattern_name hparameters hn.importable
  rw [hn.unlessYield] at hpattern
  exact hpattern

/-- The function that sets a binding is read wherever the module can be handed out. -/
theorem denotes_setter (hn : IsBindable n) :
    DenotesExpr Context.InGenerator 3 (.punct "(") (setterText n)
      (.lambda [.name (Descriptor.parameter n)]
        (.assign none (.name n) (.ident (Descriptor.parameter n)))) := by
  unfold setterText
  have hparam : IsPlainName (Descriptor.parameter n) := by
    unfold Descriptor.parameter
    split <;> exact ⟨⟨by decide, by decide⟩, by decide⟩
  generalize Descriptor.parameter n = param at hparam
  have hopen : Closed "(" [sign "("] := fun _ _ h => .sign "(" rfl rfl h
  have harrow : Closed ") => " [sign ")", sign "=>"] := fun _ _ h =>
    .sign ")" rfl rfl (.blank (.sign "=>" rfl rfl (.blank h)))
  have hequal : Closed " = " [sign "="] := fun _ _ h => .blank (.sign "=" rfl rfl (.blank h))
  have hword := Lexer.spelled_name hparam.1.isName
  have hhead := (hopen.before hword).append harrow fun _ => rfl
  have htarget := (hhead.before (Lexer.spelled_name hn.isName)).append hequal fun _ => rfl
  refine ⟨_, htarget.before hword, fun c hc _ k rest he => ?_⟩
  have hbody := InGetter.of_isPlain hc.toIsPlain
  exact assignExpr_lambda hc.toIsPlain hparam.1.free (parameter_reads hc hparam) nofun
    (assignExpr_assign hbody.toIsPlain (hbody.names hn)
      (assignExpr_name hbody.toIsPlain (hparam.names _) he))

end Values

section Descriptors

variable {C : Context → Prop} {depth : Nat} {n text : String} {t : Token} {e : Expr}

theorem denotes_named {key : String} (hk : Identifier.isName key = true)
    (h : DenotesExpr C depth t text e) :
    DenotesProperty C depth (Text.property key text) (named key e) :=
  h.property (.name key) (Lexer.spelled_name hk)

theorem denotes_enumerable :
    DenotesProperty Context.InGenerator 3 (Text.property "enumerable" "true")
      Descriptor.enumerable :=
  denotes_named (by decide) ((denotes_true fun _ hc => hc.toIsPlain).mono (by decide))

theorem denotes_getter (ht : t ≠ .openBrace) (h : DenotesExpr InGetter 2 t text e) :
    DenotesProperty Context.InGenerator 3 (Text.property "get" ("() => " ++ text))
      (Descriptor.getterOf e) :=
  denotes_named (by decide) (Denotes.getter
    (fun _ hc => ⟨hc.toIsPlain, .of_isPlain hc.toIsPlain⟩) ht h)

theorem denotes_descriptor {texts : List String} {properties : List Property}
    (h : List.Forall₂ (DenotesProperty Context.InGenerator 3) texts properties) :
    DenotesExpr Context.InGenerator 4 .openBrace (Text.object texts) (.object properties) :=
  denotes_object (fun _ hc => ⟨hc.toIsPlain, hc.nested⟩) h

theorem denotes_getterText (ht : t ≠ .openBrace) (h : DenotesExpr InGetter 2 t text e) :
    DenotesExpr Context.InGenerator 4 .openBrace (getterText text) (Descriptor.getter e).toExpr :=
  denotes_descriptor (.cons (denotes_getter ht h) (.cons denotes_enumerable .nil))

theorem denotes_valueText (hn : IsPlainName n) :
    DenotesExpr Context.InGenerator 4 .openBrace (valueText n)
      (Descriptor.value (.ident n)).toExpr := by
  have hvalue := denotes_name hn.1 fun c (hc : c.InGenerator) => ⟨hc.toIsPlain, hn.names c⟩
  exact denotes_descriptor (.cons (denotes_named (by decide) (hvalue.mono (by decide)))
    (.cons denotes_enumerable .nil))

/-- Whatever a binding is called, `yield` and `await` included, its descriptor is read. -/
theorem denotes_bindingText (hn : IsBindable n) (isMutable : Bool) :
    DenotesExpr Context.InGenerator 4 .openBrace (bindingText n isMutable)
      (Descriptor.binding n isMutable).toExpr := by
  have hname : DenotesExpr InGetter 2 (.name n false) n (.ident n) :=
    (denotes_name hn fun c hc => ⟨hc.toIsPlain, hc.names hn⟩).mono (by decide)
  have hstart : Token.name n false ≠ .openBrace := nofun
  have hget := denotes_getter hstart hname
  cases isMutable with
  | false => exact denotes_descriptor (.cons hget (.cons denotes_enumerable .nil))
  | true =>
    have hset : DenotesProperty Context.InGenerator 3 (Text.property "set" (setterText n))
        (Descriptor.setterOf n) := denotes_named (by decide) (denotes_setter hn)
    exact denotes_descriptor (.cons hget (.cons hset (.cons denotes_enumerable .nil)))

end Descriptors

section Statements

variable {text name : String} {t : Token} {e : Expr}

/-- What hands something out is read as one statement. -/
theorem generatorStatements?_yield (ht : t = .openBrace ∨ t = .punct "(")
    (h : DenotesExpr Context.InGenerator 6 t text e) :
    Template.generatorStatements? ("yield " ++ text ++ ";") = some [.expr (.yield (some e))] := by
  obtain ⟨ts, hspelled, hreads⟩ := h
  have hyield : Closed "yield " [word "yield"] := fun _ _ h => .word "yield" rfl rfl (.blank h)
  have hsemicolon : Closed ";" [sign ";"] := fun _ _ h => .sign ";" rfl rfl h
  have htext := (hyield.before hspelled).append hsemicolon fun _ => rfl
  have hread {c : Context} (hc : c.InGenerator)
      (hsize : ((t, false) :: (ts ++ [sign ";"])).length < c.size) (n : Nat) (l : Bool)
      (more : Tokens) : Gives (grammar (n + 8) (.statement false)) c
        ((.name "yield" false, l) :: (((t, false) :: (ts ++ [sign ";"])) ++ more))
        (if false then none else some (.expr (.yield (some e)))) more := by
    have hin : { c with allowIn := true }.InGenerator :=
      ⟨⟨hc.comments, hc.decorator, hc.size⟩, hc.yield, hc.await⟩
    have hroom : ts.length + 1 < c.size := by
      rw [List.length_cons, List.length_append, List.length_singleton] at hsize
      omega
    have hvalue := hreads { c with allowIn := true } hin hroom n (sign ";" :: more)
      (show Token.punct ";" ∈ expressionEnds by decide)
    rw [List.cons_append, List.append_assoc]
    exact statement_yield hc.toIsPlain (assignExpr_yield hin.yield rfl ht hvalue)
  exact generatorStatements?_eq (Nat.le_add_left 8 _) (htext _ _) hread

theorem exists_key (name : String) :
    ∃ t, IsKey t (keyOf name) ∧ Spelled (Text.propertyKey name) [(t, false)] := by
  unfold keyOf Text.propertyKey
  split
  · next h => exact ⟨_, .name name, Lexer.spelled_name h⟩
  · exact ⟨_, .string name, (Lexer.closed_quote name).spelled⟩

/-- An export, with the text of its descriptor. -/
def DenotesExport (text : String × String) (p : String × Descriptor) : Prop :=
  text.1 = p.1 ∧ DenotesExpr Context.InGenerator 4 .openBrace text.2 p.2.toExpr

theorem generatorStatements?_publish {texts : List (String × String)}
    {exports : List (String × Descriptor)} (h : List.Forall₂ DenotesExport texts exports) :
    Template.generatorStatements? (publishText texts) = some [publish exports] := by
  have hproperties : List.Forall₂ (DenotesProperty Context.InGenerator 4)
      (texts.map fun p => Text.property (Text.propertyKey p.1) p.2)
      (exports.map fun p => .keyValue (keyOf p.1) false p.2.toExpr) := by
    rw [List.forall₂_map_left_iff, List.forall₂_map_right_iff]
    apply h.imp
    rintro ⟨name, text⟩ ⟨name', d⟩ ⟨rfl, hvalue⟩
    obtain ⟨t, hkey, hspelled⟩ := exists_key name
    exact hvalue.property hkey hspelled
  have hobject := denotes_object (fun c (hc : c.InGenerator) => ⟨hc.toIsPlain, hc.nested⟩)
    hproperties
  exact generatorStatements?_yield (.inl rfl) (hobject.mono (by decide))

theorem isPlainName_descriptors : IsPlainName "descriptors" :=
  ⟨⟨by decide, by decide⟩, by decide⟩

theorem withoutDefault_reads {c : Context} (hc : c.IsPlain) {n : Nat} {more : Tokens}
    (he : more.first ∈ expressionEnds) :
    Parser.Reads (grammar (n + 3) .assign) c (sign "(" :: word "delete" :: word "descriptors" ::
        sign "." :: word "default" :: sign "," :: word "descriptors" :: sign ")" :: more)
      (.paren (.sequence [.unary .delete (.member (.ident "descriptors") "default"),
        .ident "descriptors"])) more := by
  have hnames := isPlainName_descriptors.names c.nested
  have hcomma : Token.punct "," ∈ expressionEnds := by decide
  have hends := operandEnds_of_expressionEnds _ hcomma
  have hclose : Token.punct ")" ∈ expressionEnds := by decide
  have hmember : Parser.Reads (grammar (n + 1) .unary) c.nested (word "descriptors" :: sign "." ::
      word "default" :: sign "," :: word "descriptors" :: sign ")" :: more)
      (.member (.ident "descriptors") "default")
      (sign "," :: word "descriptors" :: sign ")" :: more) :=
    unaryExpr_reads (.of_word rfl (by decide)) (leftSide_reads hc.nested
      (fun _ => primary_name hnames nofun)
      fun _ => .iterate_some callStep_member (callSteps_end hends)) hends
  have hpair : Parser.Reads (expression (grammar (n + 2))) c.nested (word "delete" ::
      word "descriptors" :: sign "." :: word "default" :: sign "," :: word "descriptors" ::
        sign ")" :: more) (.sequence [.unary .delete (.member (.ident "descriptors") "default"),
          .ident "descriptors"]) (sign ")" :: more) :=
    expression_pair hc.nested (assignExpr_delete hc.nested hmember hcomma)
      (assignExpr_name hc.nested hnames hclose) (punct_ne (by decide))
  exact assignExpr_paren hc (.inr rfl) (leftSide_reads hc (fun _ => primary_paren hpair)
    fun _ => callSteps_end (operandEnds_of_expressionEnds _ he)) he

theorem closed_passed :
    Closed ("((descriptors) => " ++ "(delete descriptors.default, descriptors))" ++
        "(Object.getOwnPropertyDescriptors(")
      ([sign "(", sign "(", word "descriptors", sign ")", sign "=>"] ++
        [sign "(", word "delete", word "descriptors", sign ".", word "default", sign ",",
          word "descriptors", sign ")", sign ")"] ++
        [sign "(", word "Object", sign ".", word "getOwnPropertyDescriptors", sign "("]) := by
  have hparameter : Closed "((descriptors) => "
      [sign "(", sign "(", word "descriptors", sign ")", sign "=>"] := fun _ _ h =>
    .sign "(" rfl rfl <| .sign "(" rfl rfl <| .word "descriptors" rfl rfl <| .sign ")" rfl rfl <|
      .blank <| .sign "=>" rfl rfl <| .blank h
  have hvalue : Closed "(delete descriptors.default, descriptors))" [sign "(", word "delete",
      word "descriptors", sign ".", word "default", sign ",", word "descriptors", sign ")",
      sign ")"] := fun _ _ h =>
    .sign "(" rfl rfl <| .word "delete" rfl rfl <| .blank <| .word "descriptors" rfl rfl <|
      .sign "." rfl rfl <| .word "default" rfl rfl <| .sign "," rfl rfl <| .blank <|
      .word "descriptors" rfl rfl <| .sign ")" rfl rfl <| .sign ")" rfl rfl h
  have hall : Closed "(Object.getOwnPropertyDescriptors("
      [sign "(", word "Object", sign ".", word "getOwnPropertyDescriptors", sign "("] :=
    fun _ _ h => .sign "(" rfl rfl <| .word "Object" rfl rfl <| .sign "." rfl rfl <|
      .word "getOwnPropertyDescriptors" rfl rfl <| .sign "(" rfl rfl h
  exact (hparameter.append hvalue).append hall

theorem denotes_passed (hn : IsPlainName name) :
    DenotesExpr Context.InGenerator 5 (.punct "(") (passedText name)
      (.call (.paren (.lambda [.name "descriptors"] (.paren (.sequence
        [.unary .delete (.member (.ident "descriptors") "default"), .ident "descriptors"]))))
        [.call (.member (.ident "Object") "getOwnPropertyDescriptors") [.ident name]]) := by
  have hend : Closed "))" [sign ")", sign ")"] := fun _ _ h =>
    .sign ")" rfl rfl (.sign ")" rfl rfl h)
  have htext := (closed_passed.before (Lexer.spelled_name hn.1.isName)).append hend fun _ => rfl
  have hobject : IsPlainName "Object" := ⟨⟨by decide, by decide⟩, by decide⟩
  have hclose : Token.punct ")" ∈ expressionEnds := by decide
  have hcloses := operandEnds_of_expressionEnds _ hclose
  refine ⟨_, htext.spelled, fun c hc _ n more he => ?_⟩
  have hends := operandEnds_of_expressionEnds _ he
  have hplain := hc.toIsPlain
  let arguments : Tokens := word "Object" :: sign "." :: word "getOwnPropertyDescriptors" ::
    sign "(" :: word name :: sign ")" :: sign ")" :: more
  have hall : Parser.Reads (grammar (n + 4) .assign) c.nested arguments
      (.call (.member (.ident "Object") "getOwnPropertyDescriptors") [.ident name])
      (sign ")" :: more) := by
    have hname : Parser.Reads (grammar (n + 3) .assign) c.nested.nested
        (word name :: sign ")" :: sign ")" :: more) (.ident name) (sign ")" :: sign ")" :: more) :=
      assignExpr_name hplain.nested.nested (hn.names _) hclose
    exact assignExpr_leftSide hplain.nested (.of_word rfl (by decide)) nofun (leftSide_reads
      hplain.nested (fun _ => primary_name (hobject.names _) nofun) fun _ => .iterate_some
      callStep_member (.iterate_some (callStep_call hplain.nested ⟨nofun, nofun⟩ hname)
        (callSteps_end hcloses))) hclose
  have hlambda : Parser.Reads (grammar (n + 4) .assign) c.nested (sign "(" :: word "descriptors" ::
      sign ")" :: sign "=>" :: sign "(" :: word "delete" :: word "descriptors" :: sign "." ::
      word "default" :: sign "," :: word "descriptors" :: sign ")" :: sign ")" :: sign "(" ::
      arguments)
      (.lambda [.name "descriptors"] (.paren (.sequence
        [.unary .delete (.member (.ident "descriptors") "default"), .ident "descriptors"])))
      (sign ")" :: sign "(" :: arguments) := by
    exact assignExpr_lambda hplain.nested rfl
      (parameter_reads hc.nested isPlainName_descriptors) nofun
      (withoutDefault_reads hplain.nested.inArrow hclose)
  have hfunction := expression_single hplain.nested hlambda (punct_ne (by decide))
  exact assignExpr_paren hplain (.inl rfl) (leftSide_reads hplain
    (fun _ => primary_paren hfunction) fun _ => .iterate_some
    (callStep_call hplain ⟨nofun, nofun⟩ hall) (callSteps_end hends)) he

theorem generatorStatements?_passThrough (hn : IsPlainName name) :
    Template.generatorStatements? (passThroughText name) = some [passThrough name] :=
  generatorStatements?_yield (.inr rfl) ((denotes_passed hn).mono (by decide))

/-- A default value takes the place of the name that stands for it. -/
theorem generatorStatements?_default (e : Expr) :
    (Template.generatorStatements? (publishText [("default", valueText defaultPlaceholder)])).map
      (Template.fillExpression defaultPlaceholder e) = some [publish [("default", .value e)]] := by
  have hn : IsPlainName defaultPlaceholder := ⟨⟨by decide, by decide⟩, by decide⟩
  have hexport : DenotesExport ("default", valueText defaultPlaceholder)
      ("default", .value (.ident defaultPlaceholder)) := ⟨rfl, denotes_valueText hn⟩
  rw [generatorStatements?_publish (.cons hexport .nil)]
  rfl

example : publishText [("a", bindingText "a" true), ("b-c", bindingText "v" true),
    ("d", bindingText "d" false)] =
    "yield \x7ba: \x7bget: () => a, set: (v) => a = v, enumerable: true\x7d, " ++
      "\"b-c\": \x7bget: () => v, set: (value) => v = value, enumerable: true\x7d, " ++
      "d: \x7bget: () => d, enumerable: true\x7d\x7d;" := by
  rfl

end Statements

end ScriptBundler.Thunk
