import ScriptBundler.Proofs.Thunk.Texts

namespace ScriptBundler.Thunk

open Lexer (Tokens Spelled Closed word sign separated)
open ScriptBundler.Parser

section Names

theorem isPart_of_isDigit {c : Char} (h : c.isDigit = true) : Identifier.isPart c = true := by
  have hc : c.toNat < 128 := by
    rw [Char.isDigit, Bool.and_eq_true, decide_eq_true_eq, decide_eq_true_eq] at h
    have hle : c.toNat ≤ 57 := h.2
    omega
  simp only [Identifier.isPart, if_pos hc, Char.isAlphanum, h, Bool.or_true, Bool.true_or]

theorem isPlainName_hiddenName (i : Nat) : IsPlainName (ImportGroup.hiddenName i) := by
  have hlist : (ImportGroup.hiddenName i).toList =
      '_' :: ("_stitch_dep".toList ++ Nat.toDigits 10 i ++ "__".toList) := by
    rw [ImportGroup.hiddenName, String.toList_append, String.toList_append, Nat.toString_eq_repr,
      Nat.toList_repr]
    rfl
  have hdigits : (Nat.toDigits 10 i).all Identifier.isPart = true := List.all_eq_true.2 fun c hc =>
    isPart_of_isDigit (Nat.isDigit_of_mem_toDigits (by decide) (by decide) hc)
  have hwords : ∀ w ∈ Token.reserved, w.toList.head? ≠ some '_' := by decide
  refine ⟨⟨?_, ?_⟩, fun h => ?_⟩
  · rw [Identifier.isName, hlist]
    simp only [List.all_append, hdigits, Bool.and_true]
    decide
  · rw [Token.isReserved, List.contains_eq_mem, decide_eq_false_iff_not]
    exact fun h => ne_hiddenName (hwords _ h) i rfl
  · have hwords : ∀ w ∈ ["yield", "await", "async"], w.toList.head? ≠ some '_' := by decide
    exact ne_hiddenName (hwords _ h) i rfl

end Names

section Includes

variable {strategy : LoaderStrategy} {url : String}

theorem closed_call : Closed ("include(" ++ Text.quote url ++ ")")
    (word "include" :: [sign "(", (.string url false, false), sign ")"]) := by
  have hopen : Closed "include(" [word "include", sign "("] := fun _ _ h =>
    .word "include" rfl rfl (.sign "(" rfl rfl h)
  have hclose : Closed ")" [sign ")"] := fun _ _ h => .sign ")" rfl rfl h
  exact (hopen.append (Lexer.closed_quote url)).append hclose

theorem call_reads {c : Context} (hc : c.IsPlain) {n : Nat} {more : Tokens}
    (he : more.first ∈ operandEnds) :
    Parser.Reads (leftSide (grammar (n + 1)) c.size) c
      (word "include" :: sign "(" :: (.string url false, false) :: sign ")" :: more)
      (.call (.ident "include") [.string url]) more := by
  have hinclude : IsPlainName "include" := ⟨⟨by decide, by decide⟩, by decide⟩
  have hurl : Parser.Reads (grammar (n + 1) .assign) c.nested
      ((.string url false, false) :: sign ")" :: more) (.string url) (sign ")" :: more) :=
    assignExpr_string hc.nested (show Token.punct ")" ∈ expressionEnds by decide)
  exact leftSide_reads hc (fun _ => primary_name (hinclude.names c) nofun)
    fun _ => .iterate_some (callStep_call hc ⟨nofun, nofun⟩ hurl) (callSteps_end he)

theorem exists_denotes_include (strategy : LoaderStrategy) (url : String) :
    ∃ t, DenotesExpr Context.InGenerator 3 t (includeText strategy url)
      (includeExpr strategy url) := by
  have hstart {c : Context} {ts : Tokens} : StartsOperand c (.name "include" false) ts :=
    .of_word rfl (by decide)
  cases strategy with
  | eager =>
    refine ⟨.name "include" false, _, closed_call.spelled, fun c hc _ n more he => ?_⟩
    have hends := operandEnds_of_expressionEnds _ he
    exact assignExpr_leftSide hc.toIsPlain hstart nofun (call_reads hc.toIsPlain hends) he
  | «lazy» =>
    have hawait : Closed "await include(" [word "await", word "include", sign "("] :=
      fun _ _ h => .word "await" rfl rfl (.blank (.word "include" rfl rfl (.sign "(" rfl rfl h)))
    have hclose : Closed ")" [sign ")"] := fun _ _ h => .sign ")" rfl rfl h
    have htext := (hawait.append (Lexer.closed_quote url)).append hclose
    refine ⟨.name "await" false, _, htext.spelled, fun c hc _ n more he => ?_⟩
    have hends := operandEnds_of_expressionEnds _ he
    have hcall : Parser.Reads (grammar (n + 2) .unary) c
        (word "include" :: sign "(" :: (.string url false, false) :: sign ")" :: more)
        (.call (.ident "include") [.string url]) more :=
      unaryExpr_reads hstart (call_reads hc.toIsPlain hends) hends
    exact assignExpr_await hc.toIsPlain hc.await hcall he

end Includes

section Patterns

variable {C : Context → Prop} {names : List String} {t t' : Token} {text text' n : String}
  {p : Pattern} {e : Expr}

/-- A text that is a pattern, unless one of its names is `yield`. -/
abbrev DenotesPattern (t : Token) (text : String) (p : Pattern) : Prop :=
  Denotes Context.InGenerator (fun n => pattern (grammar (n + 2))) [.punct "="] t text
    (unlessYield p.boundNames p)

theorem denotes_namePattern (hn : IsImportable n) :
    DenotesPattern (.name n false) n (.name n) :=
  ⟨[], Lexer.spelled_name hn.1.isName, fun _ hc _ _ _ _ => pattern_name hc hn⟩

theorem denotes_copyPattern (hn : IsImportable n) :
    DenotesPattern .openBrace ("\x7b..." ++ n ++ "\x7d") (.object [.rest (.name n)]) := by
  have hopen : Closed "\x7b..." [(.openBrace, false), sign "..."] := fun _ _ h =>
    .openBrace (.sign "..." rfl rfl h)
  have hclose : Closed "\x7d" [(.closeBrace, false)] := fun _ _ h => .closeBrace h
  have htext := (hopen.before (Lexer.spelled_name hn.1.isName)).append hclose fun _ => rfl
  exact ⟨_, htext.spelled, fun _ hc _ _ _ _ => pattern_rest hc hn⟩

theorem denotes_keyedText {localName : String} (hn : IsImportable localName) (name : String) :
    ∃ t ∉ nonKeys, Denotes Context.InGenerator (fun n => patternProperty (grammar (n + 2)))
      propertyEnds t (Text.property (Text.propertyKey name) localName)
      (unlessYield [localName] (.keyed (keyOf name) false (.name localName))) := by
  obtain ⟨t, hkey, hspelled⟩ := exists_key name
  have hlocal := Lexer.spelled_name hn.1.isName
  refine ⟨t, hkey.not_mem_nonKeys, _, spelled_property hspelled hlocal,
    fun c hc _ n rest he => ?_⟩
  have hequal : ∀ t ∈ propertyEnds, t ≠ .punct "=" := by decide
  exact patternProperty_keyed hkey (pattern_name hc hn) (hequal _ he)

theorem denotes_nameText {x : String × String} (hn : IsImportable x.2) :
    ∃ t ∉ nonKeys, Denotes Context.InGenerator (fun n => patternProperty (grammar (n + 2)))
      propertyEnds t (ImportGroup.nameText x)
      (unlessYield (ImportGroup.nameProperty x).pattern.boundNames
        (ImportGroup.nameProperty x)) := by
  obtain ⟨imported, localName⟩ := x
  have hname := Lexer.spelled_name hn.1.isName
  unfold ImportGroup.nameText ImportGroup.nameProperty
  dsimp only
  split
  · have hkey : IsKey (.name localName false) (.ident localName) := .name localName
    refine ⟨_, hkey.not_mem_nonKeys, [], hname, fun c hc _ n rest he => ?_⟩
    exact patternProperty_shorthand hc hn (by simpa [propertyEnds] using he)
  · exact denotes_keyedText hn imported

theorem denotes_patternText {g : ImportGroup} (hg : ∀ x ∈ g.names, IsImportable x.2) :
    DenotesPattern .openBrace g.patternText g.namesPattern := by
  have hnames : List.Forall₂ (fun text p => ∃ t ∉ nonKeys, Denotes Context.InGenerator
      (fun n => patternProperty (grammar (n + 2))) propertyEnds t text
        (unlessYield p.pattern.boundNames p)) (g.names.map ImportGroup.nameText)
      (g.names.map ImportGroup.nameProperty) := by
    rw [List.forall₂_map_left_iff, List.forall₂_map_right_iff, List.forall₂_same]
    exact fun x hx => denotes_nameText (hg x hx)
  obtain ⟨items, hvalues, hspelled, hlength, hitems⟩ := exists_items hnames
  refine ⟨_, spelled_object hspelled, fun c hc hsize n rest _ => ?_⟩
  rw [List.length_append, List.length_singleton] at hsize
  rw [List.append_assoc, ImportGroup.namesPattern, ← hvalues]
  refine pattern_object (fun i hi rest => ?_) (fun i hi rest hr => ?_) (by omega)
  · have hopen := (hitems i hi).1 rest
    simp only [nonKeys, List.mem_cons, List.not_mem_nil, or_false, not_or] at hopen
    exact hopen
  · have hr : rest.first ∈ propertyEnds := by
      rcases hr with hr | hr <;> rw [hr] <;> decide
    exact (hitems i hi).2 c hc (by omega) n rest hr

end Patterns

section Declarators

def value? : Declarator → Option Expr
  | .mk _ e => e

/--
A text that is a declarator, unless it binds `yield`. In a generator, `yield` is no name to declare
another one by either.
-/
def DenotesDeclarator (depth : Nat) (text : String) (d : Declarator) : Prop :=
  ∃ t ∉ ([] : List Token), Denotes (fun c => c.InGenerator ∧ value? d ≠ some (.ident "yield"))
    (fun n => declarator (grammar (n + depth))) [.punct ",", .punct ";"] t text
    (unlessYield d.names d)

/-- The names of a group can be declared, in a generator all but `yield`. -/
structure ImportGroup.IsReadable (g : ImportGroup) : Prop where
  imported : ∀ n ∈ g.imported, IsImportable n
  hidden : ∀ n, g.hidden = some n → IsPlainName n

variable {t t' : Token} {text text' source n : String} {p : Pattern} {e : Expr} {g : ImportGroup}
  {depth : Nat}

/-- A text that is an expression, unless it is the name `yield`. -/
abbrev DenotesSource (depth : Nat) (t : Token) (text : String) (e : Expr) : Prop :=
  DenotesExpr (fun c => c.InGenerator ∧ some e ≠ some (.ident "yield")) depth t text e

theorem denotes_declarator (hd : 3 ≤ depth) (hp : DenotesPattern t text p)
    (he : DenotesSource depth t' text' e) :
    DenotesDeclarator depth (text ++ " = " ++ text') (.mk p (some e)) := by
  obtain ⟨k, rfl⟩ : ∃ k, depth = k + 3 := ⟨depth - 3, by omega⟩
  obtain ⟨ts, hpattern, hgives⟩ := hp
  obtain ⟨ts', hvalue, hreads⟩ := he
  have hequal : Closed " = " [sign "="] := fun _ _ h => .blank (.sign "=" rfl rfl (.blank h))
  have htext := (hpattern.append hequal fun _ => rfl).before hvalue
  rw [List.append_assoc] at htext
  refine ⟨t, List.not_mem_nil, _, htext, fun c hc hsize n rest hr => ?_⟩
  have hends : ∀ t ∈ [Token.punct ",", .punct ";"], t ∈ expressionEnds := by decide
  simp only [List.append_eq, List.length_append, List.length_cons, List.length_nil] at hsize
  rw [List.append_eq, List.append_assoc]
  exact declarator_gives (hgives c hc.1 (by omega) (n + k) _ List.mem_cons_self)
    (hreads c hc (by omega) n rest (hends _ hr))

theorem denotesSource_name (hd : 3 ≤ depth) (hn : IsImportable n) :
    DenotesSource depth (.name n false) n (.ident n) := by
  refine (denotes_name hn.1 fun c hc => ⟨hc.1.toIsPlain, hn.1, fun h => ?_, fun h => ?_⟩).mono
    (by omega)
  · exact absurd (congrArg (fun n => some (Expr.ident n)) h) hc.2
  · exact absurd h hn.2

theorem denotes_nameTexts (hd : 3 ≤ depth) (hg : g.IsReadable)
    (he : DenotesSource depth t source e) :
    List.Forall₂ (DenotesDeclarator depth) (g.nameTexts source) (g.nameDeclarators e) := by
  have hpattern : DenotesPattern .openBrace g.patternText g.namesPattern :=
    denotes_patternText fun x hx =>
      hg.imported _ (List.mem_append_right _ (List.mem_map_of_mem hx))
  have hnamespaces : ∀ n ∈ g.namespaces, IsImportable n := fun n hn =>
    hg.imported n (List.mem_append_left _ hn)
  unfold ImportGroup.nameTexts ImportGroup.nameDeclarators
  cases hn : g.namespaces with
  | nil =>
    dsimp only
    split
    · exact .nil
    · exact .cons (denotes_declarator hd hpattern he) .nil
  | cons first others =>
    rw [hn] at hnamespaces
    obtain ⟨hfirst, hothers⟩ := List.forall_mem_cons.1 hnamespaces
    have hsource := denotesSource_name hd hfirst
    refine .cons (denotes_declarator hd (denotes_copyPattern hfirst) he) (List.rel_append ?_ ?_)
    · split
      · exact .nil
      · exact .cons (denotes_declarator hd hpattern hsource) .nil
    · rw [List.forall₂_map_left_iff, List.forall₂_map_right_iff, List.forall₂_same]
      exact fun n hn => denotes_declarator hd (denotes_namePattern (hothers n hn)) hsource

theorem denotes_texts (hd : 3 ≤ depth) (hg : g.IsReadable)
    (he : DenotesExpr Context.InGenerator depth t source e) :
    List.Forall₂ (DenotesDeclarator depth) (g.texts source) (g.declarators e) := by
  have hsource : DenotesSource depth t source e := he.imp fun c hc => hc.1
  unfold ImportGroup.texts ImportGroup.declarators
  cases hh : g.hidden with
  | none => exact denotes_nameTexts hd hg hsource
  | some hidden =>
    have hn := (hg.hidden hidden hh).importable
    exact .cons (denotes_declarator hd (denotes_namePattern hn) hsource)
      (denotes_nameTexts hd hg (denotesSource_name hd hn))

end Declarators

section Groups

variable {g : ImportGroup} {e : Expr} {text : String}

/-- Nothing is declared by the name `yield` before that is declared. -/
theorem upToBad_nameDeclarators (he : some e ≠ some (.ident "yield")) :
    UpToBad (·.names.contains "yield") (value? · ≠ some (.ident "yield"))
      (g.nameDeclarators e) := by
  unfold ImportGroup.nameDeclarators
  split
  · next first others hn =>
    refine ⟨he, fun hb => .of_forall fun d hd => ?_⟩
    have hfirst : some (Expr.ident first) ≠ some (.ident "yield") := by
      rintro ⟨⟩
      cases hb
    rcases List.mem_append.1 hd with hd | hd
    · split at hd
      · cases hd
      · rw [List.mem_singleton.1 hd]
        exact hfirst
    · obtain ⟨other, -, rfl⟩ := List.mem_map.1 hd
      exact hfirst
  · split
    · trivial
    · exact ⟨he, fun _ => trivial⟩

theorem upToBad_declarators (hg : g.IsReadable) (he : some e ≠ some (.ident "yield")) :
    UpToBad (·.names.contains "yield") (value? · ≠ some (.ident "yield")) (g.declarators e) := by
  unfold ImportGroup.declarators
  split
  · next hidden hh =>
    have hne : some (Expr.ident hidden) ≠ some (.ident "yield") := by
      rintro ⟨⟩
      exact (hg.hidden _ hh).2 (by decide)
    exact ⟨he, fun _ => upToBad_nameDeclarators hne⟩
  · exact upToBad_nameDeclarators he

theorem exists_value_of_mem {d : Declarator} (hd : d ∈ g.declarators e) :
    ∃ p e', d = .mk p (some e') := by
  have hnames {e : Expr} (hd : d ∈ g.nameDeclarators e) : ∃ p e', d = .mk p (some e') := by
    unfold ImportGroup.nameDeclarators at hd
    split at hd
    · rcases List.mem_cons.1 hd with rfl | hd
      · exact ⟨_, _, rfl⟩
      rcases List.mem_append.1 hd with hd | hd
      · split at hd
        · cases hd
        · exact ⟨_, _, List.mem_singleton.1 hd⟩
      · obtain ⟨_, -, rfl⟩ := List.mem_map.1 hd
        exact ⟨_, _, rfl⟩
    · split at hd
      · cases hd
      · exact ⟨_, _, List.mem_singleton.1 hd⟩
  unfold ImportGroup.declarators at hd
  split at hd
  · rcases List.mem_cons.1 hd with rfl | hd
    · exact ⟨_, _, rfl⟩
    · exact hnames hd
  · exact hnames hd

theorem declarators_ne_nil : g.declarators e ≠ [] := by
  unfold ImportGroup.declarators ImportGroup.nameDeclarators
  split
  · exact List.cons_ne_nil _ _
  · next hh =>
    split
    · exact List.cons_ne_nil _ _
    · rw [hh, Option.isSome_none, Bool.and_false]
      exact List.cons_ne_nil _ _

/-- The declaration of a group, given how its declarators are read. -/
theorem statement_group {depth : Nat} (hg : g.IsReadable) (he : some e ≠ some (.ident "yield"))
    {items : List (Tokens × Declarator)} (hvalues : items.map (·.2) = g.declarators e)
    (hlength : items.length ≤ (separated (items.map (·.1))).length)
    (hitems : ∀ i ∈ items, ∀ c : Context, c.InGenerator ∧ value? i.2 ≠ some (.ident "yield") →
      (separated (items.map (·.1))).length < c.size → ∀ n (rest : Tokens),
      rest.first ∈ [Token.punct ",", .punct ";"] →
      Gives (declarator (grammar (n + depth))) c (i.1 ++ rest) (unlessYield i.2.names i.2) rest)
    {c : Context} (hc : c.InGenerator) (hsize : (separated (items.map (·.1))).length < c.size)
    {n : Nat} {l : Bool} {more : Tokens} :
    Gives (grammar (n + (depth + 1)) (.statement false)) c
      ((.name "const" false, l) :: (separated (items.map (·.1)) ++ sign ";" :: more))
      (unlessYield ((g.declarators e).flatMap Declarator.names) (g.toStmt e)) more := by
  have hin : { c with allowIn := true }.InGenerator :=
    ⟨⟨hc.comments, hc.decorator, hc.size⟩, hc.yield, hc.await⟩
  have hne : items ≠ [] := by
    rintro rfl
    exact declarators_ne_nil hvalues.symm
  have hgood := upToBad_declarators hg he
  rw [← hvalues] at hgood
  have hlist := Gives.commaSeparated (·.names.contains "yield") (hgood.of_values
    fun i hi hvalue rest hr => hitems i hi { c with allowIn := true } ⟨hin, hvalue⟩ hsize
      n rest (List.mem_cons.2 (hr.imp_right List.mem_singleton.2)))
    (show Tokens.first (sign ";" :: more) ≠ .punct "," from punct_ne (by decide)) hne
    (Nat.le_trans hlength (Nat.le_of_lt hsize))
  rw [← unlessYield_flatMap items (·.2.names), ← List.flatMap_map, hvalues] at hlist
  exact statement_const hc.toIsPlain (fun d hd => exists_value_of_mem hd) hlist

theorem exists_texts_eq_cons (g : ImportGroup) (text : String) :
    ∃ before others, g.texts text = (before ++ text) :: others := by
  unfold ImportGroup.texts ImportGroup.nameTexts
  split
  · exact ⟨_, _, rfl⟩
  · next hh =>
    split
    · exact ⟨_, _, rfl⟩
    · rw [hh, Option.isSome_none, Bool.and_false]
      exact ⟨_, _, rfl⟩

theorem length_le_text (g : ImportGroup) (text : String) :
    text.toList.length ≤ (g.text text).toList.length := by
  obtain ⟨before, others, htexts⟩ := exists_texts_eq_cons g text
  have hfirst : text.toList.length ≤ (", ".intercalate (g.texts text)).toList.length := by
    rw [htexts]
    cases others with
    | nil =>
      rw [String.intercalate_singleton, String.toList_append, List.length_append]
      omega
    | cons other others =>
      simp only [String.intercalate_cons_cons, String.toList_append, List.length_append]
      omega
  rw [ImportGroup.text, String.toList_append, String.toList_append, List.length_append,
    List.length_append]
  omega

/-- A text that is an expression where something is declared to be it. In a generator, `yield` is
no name. -/
structure IsInitializer (text : String) (e : Expr) : Prop where
  reads : ∃ depth ≤ 8 * text.toList.length, ∃ t, DenotesExpr Context.InGenerator depth t text e
  ne_yield : e ≠ .ident "yield"

theorem isInitializer_includeText (strategy : LoaderStrategy) (url : String) :
    IsInitializer (includeText strategy url) (includeExpr strategy url) := by
  constructor
  · obtain ⟨t, he⟩ := exists_denotes_include strategy url
    refine ⟨3, ?_, t, he⟩
    cases strategy <;>
      simp only [includeText, String.toList_append, List.length_append] <;>
      exact Nat.le_trans (by decide) (Nat.mul_le_mul_left 8 (Nat.le_add_left 1 _))
  · cases strategy <;> nofun

/-- The declaration of a group is read, unless one of its names is `yield`. -/
theorem generatorStatements?_group (hg : g.IsReadable) (ht : IsInitializer text e) :
    Template.generatorStatements? (g.text text) = unlessYield g.locals [g.toStmt e] := by
  obtain ⟨depth, hdepth, t, he⟩ := ht.reads
  obtain ⟨items, hvalues, hspelled, hlength, hitems⟩ :=
    exists_items (denotes_texts (Nat.le_max_right depth 3) hg (he.mono (Nat.le_max_left depth 3)))
  have hconst : Closed "const " [word "const"] := fun _ _ h => .word "const" rfl rfl (.blank h)
  have hsemicolon : Closed ";" [sign ";"] := fun _ _ h => .sign ";" rfl rfl h
  have htext := (hconst.before hspelled).append hsemicolon fun _ => rfl
  have hne : some e ≠ some (.ident "yield") := fun h => ht.ne_yield (Option.some.inj h)
  have hread {c : Context} (hc : c.InGenerator)
      (hsize : (separated (items.map (·.1)) ++ [sign ";"]).length < c.size) (n : Nat) (l : Bool)
      (more : Tokens) : Gives (grammar (n + (max depth 3 + 1)) (.statement false)) c
        ((.name "const" false, l) :: ((separated (items.map (·.1)) ++ [sign ";"]) ++ more))
        (unlessYield ((g.declarators e).flatMap Declarator.names) (g.toStmt e)) more := by
    rw [List.length_append, List.length_singleton] at hsize
    rw [List.append_assoc]
    exact statement_group hg hne hvalues hlength (fun i hi => (hitems i hi).2) hc
      (Nat.lt_of_succ_lt hsize)
  have hlocals : ((g.declarators e).flatMap Declarator.names).contains "yield" =
      g.locals.contains "yield" := by
    rw [Bool.eq_iff_iff, List.contains_iff_mem, List.contains_iff_mem]
    exact (names_declarators e).mem_iff
  have hfuel : max depth 3 + 1 ≤ 8 * (g.text text).toList.length + 8 := by
    have hle := length_le_text g text
    omega
  have hgroup := generatorStatements?_eq hfuel (htext _ _) hread
  rw [hlocals] at hgroup
  exact hgroup

end Groups

end ScriptBundler.Thunk
