import ScriptBundler.Proofs.Syntax.Reading.Expressions
import ScriptBundler.Syntax.Template

namespace ScriptBundler.Parser

open Lexer (Tokens word sign separated)

variable {rec : Grammar} {c : Context} {t : Token} {l l' l₁ l₂ : Bool} {ts ts' : Tokens} {e : Expr}
  {n : String}

/-- Where the statements of an async generator are read. -/
structure Context.InGenerator (c : Context) : Prop extends c.IsPlain where
  yield : c.inYield = true
  await : c.inAwait = true

theorem Context.InGenerator.nested (hc : c.InGenerator) : c.nested.InGenerator :=
  ⟨hc.toIsPlain.nested, hc.yield, hc.await⟩

/-- A name that an import can bind. -/
def IsImportable (n : String) : Prop := IsBindable n ∧ n ≠ "await"

/-- A value, unless one of the names that it binds is `yield`. -/
abbrev unlessYield {α : Type} (names : List String) (a : α) : Option α :=
  if names.contains "yield" then none else some a

theorem unlessYield_flatMap {α β : Type} (items : List α) (names : α → List String) (b : β) :
    unlessYield (items.flatMap names) b =
      if items.any fun i => (names i).contains "yield" then none else some b := by
  have hany : (items.flatMap names).contains "yield" =
      items.any fun i => (names i).contains "yield" := by
    rw [Bool.eq_iff_iff, List.any_eq_true, List.contains_iff_mem, List.mem_flatMap]
    simp only [List.contains_iff_mem]
  rw [unlessYield, hany]

section Patterns

/-- A generator binds no `yield`. -/
theorem require_gives (hc : c.InGenerator) (hn : IsImportable n) :
    Gives (require (!(n = "yield" && c.inYield) && !(n = "await" && c.inAwait))) c ts
      (unlessYield [n] ()) ts := by
  have hawait : decide (n = "await") = false := decide_eq_false hn.2
  rw [hc.yield, hc.await, hawait, Bool.and_true, Bool.false_and, Bool.not_false, Bool.and_true]
  by_cases hy : n = "yield"
  · subst hy
    exact Refuses.require rfl
  · have hn' : unlessYield [n] () = some () := by simp [unlessYield, Ne.symm hy]
    rw [hn', decide_eq_false hy]
    exact Reads.require rfl

theorem bindingName_gives (hc : c.InGenerator) (hn : IsImportable n) :
    Gives bindingName c ((.name n false, l) :: ts) (unlessYield [n] n) ts := by
  have hfree : (!Token.isReserved n) = true := by rw [hn.1.free, Bool.not_false]
  exact .after .read (.after .current (.after (.require hfree)
    (.next (require_gives hc hn) (.bind (.advance nofun) .pure))))

theorem pattern_name (hc : c.InGenerator) (hn : IsImportable n) :
    Gives (pattern rec) c ((.name n false, l) :: ts) (unlessYield [n] (.name n)) ts :=
  .after .read (.after .current (.next (bindingName_gives hc hn) .pure))

theorem patternProperty_shorthand (hc : c.InGenerator) (hn : IsImportable n)
    (hts : ts.first = .punct "," ∨ ts.first = .closeBrace) :
    Gives (patternProperty rec) c ((.name n false, l) :: ts)
      (unlessYield [n] (.keyed (.ident n) true (.name n))) ts := by
  have hcolon : ts.first ≠ .punct ":" ∧ ts.first ≠ .punct "=" := by
    rcases hts with h | h <;> rw [h] <;> decide
  have hbinding : isBindingToken (.name n false) = true := by
    rw [isBindingToken, hn.1.free, Bool.not_false]
  have hname : Reads (patternProperty.looksBinding true) c ((.name n false, l) :: ts) n ts :=
    .bind (.require rfl) (.bind .anyName (.bind (.notAt hcolon.1) (.bind (.require rfl) .pure)))
  refine .after .current ?_
  dsimp only [Tokens.first]
  rw [hbinding]
  exact .after (.attempt hname) (.after .read (.next (require_gives hc hn)
    (.no (.notEaten hcolon.2) .pure)))

theorem patternProperty_keyed {k : Key} (hk : IsKey t k)
    (hpattern : Gives (rec .pattern) c ((.name n false, l₂) :: ts) (unlessYield [n] (.name n)) ts)
    (hts : ts.first ≠ .punct "=") :
    Gives (patternProperty rec) c ((t, l) :: (.punct ":", l₁) :: (.name n false, l₂) :: ts)
      (unlessYield [n] (.keyed k false (.name n))) ts := by
  have hname : Refuses (patternProperty.looksBinding (isBindingToken t)) c
      ((t, l) :: (.punct ":", l₁) :: (.name n false, l₂) :: ts) := by
    cases hk with
    | name key =>
      by_cases hb : isBindingToken (.name key false) = true
      · exact .bind (.require hb) (.bind .anyName (.bind (.isAt rfl) (.first (.require rfl))))
      · exact .first (.require (Bool.eq_false_iff.2 hb))
    | string value => exact .first (.require rfl)
  exact .after .current (.after (.attempt_none hname) (.after (propertyKey_reads hk)
    (.after (.expectToken nofun) (.next (.next hpattern (.no (.notEaten hts) .pure)) .pure))))

theorem pattern_object {items : List (Tokens × PatternProperty)}
    (hopen : ∀ i ∈ items, ∀ rest,
      (i.1 ++ rest).first ≠ .closeBrace ∧ (i.1 ++ rest).first ≠ .punct "...")
    (hitem : ∀ i ∈ items, ∀ rest, rest.first = .punct "," ∨ rest.first = .closeBrace →
      Gives (patternProperty rec) c (i.1 ++ rest) (unlessYield i.2.pattern.boundNames i.2) rest)
    (hsize : items.length < c.size) :
    Gives (pattern rec) c
      ((.openBrace, l) :: (separated (items.map (·.1)) ++ (.closeBrace, l₁) :: ts))
      (unlessYield (Pattern.object (items.map (·.2))).boundNames
        (.object (items.map (·.2)))) ts := by
  have hclose : Token.closeBrace ≠ .punct "," := by decide
  have hlist : Gives (patternProperties rec c.size) c
      (separated (items.map (·.1)) ++ (.closeBrace, l₁) :: ts)
      (if items.any fun i => i.2.pattern.boundNames.contains "yield" then none
        else some (items.map (·.2))) ((.closeBrace, l₁) :: ts) :=
    Gives.loop (fun p => p.pattern.boundNames.contains "yield") hclose
      (fun n => .yes (.isAt rfl) .pure)
      (fun n i hi rest o ts' h => .after (.notAt (hopen i hi rest).1)
        (.after (.notEaten (hopen i hi rest).2) h)) hitem hsize
  rw [Pattern.boundNames, PatternProperty.allBoundNames_eq, List.flatMap_map, unlessYield_flatMap]
  exact .after .read (.after .current (.after (.advance (by decide)) (.next hlist
    (.bind (.expectToken (by decide)) .pure))))

theorem pattern_rest (hc : c.InGenerator) (hn : IsImportable n) :
    Gives (pattern rec) c ((.openBrace, l) :: (.punct "...", l₁) :: (.name n false, l₂) ::
      (.closeBrace, l') :: ts) (unlessYield [n] (.object [.rest (.name n)])) ts := by
  obtain ⟨size, hsize⟩ := hc.exists_size
  have hlist : Gives (patternProperties rec c.size) c ((.punct "...", l₁) ::
      (.name n false, l₂) :: (.closeBrace, l') :: ts) (unlessYield [n] [.rest (.name n)])
      ((.closeBrace, l') :: ts) := by
    rw [hsize]
    exact .after (.notAt nofun) (.after (.eaten nofun) (.next (bindingName_gives hc hn)
      (.bind (.isAt rfl) (.bind (.require rfl) .pure))))
  exact .after .read (.after .current (.after (.advance nofun) (.next hlist
    (.bind (.expectToken nofun) .pure))))

end Patterns

section Declarations

theorem declarator_gives {p : Pattern} {names : List String}
    (hp : Gives (rec .pattern) c ts (unlessYield names p) ((.punct "=", l) :: ts'))
    {ts₂ : Tokens} (he : Reads (rec .assign) c ts' e ts₂) :
    Gives (declarator rec) c ts (unlessYield names (.mk p (some e))) ts₂ :=
  .next hp (.yes (.eaten nofun) (.bind (.map he) .pure))

theorem statement_of_plain {s : Stmt} {isBad isSingle : Bool} (hc : c.IsPlain)
    (h : Gives (plainStatement rec isSingle) c ts (if isBad then none else some s) ts') :
    Gives (statement rec isSingle) c ts (if isBad then none else some s) ts' := by
  refine .after (.leading hc.comments) (.get fun state hs => ?_)
  rw [hs.marksFunction]
  exact .next h .pure

theorem statement_reads {s : Stmt} {isSingle : Bool} (hc : c.IsPlain)
    (h : Reads (plainStatement rec isSingle) c ts s ts') :
    Reads (statement rec isSingle) c ts s ts' := by
  have hgives : Gives (plainStatement rec isSingle) c ts (if false then none else some s) ts' := h
  exact statement_of_plain hc hgives

theorem statement_const (hc : c.IsPlain) {ds : List Declarator}
    (hinit : ∀ d ∈ ds, ∃ p e, d = .mk p (some e))
    (hlist : Gives (commaSeparated (declarator rec) c.size) { c with allowIn := true } ts
      (unlessYield (ds.flatMap Declarator.names) ds) ((.punct ";", l₁) :: ts')) :
    Gives (statement rec false) c ((.name "const" false, l) :: ts)
      (unlessYield (ds.flatMap Declarator.names) (.decl (.vars .constKind ds))) ts' := by
  have hbinds : ds.all (bindsWell .constKind) = true := by
    rw [List.all_eq_true]
    intro d hd
    obtain ⟨p, e, rfl⟩ := hinit d hd
    rfl
  have hinits : ds.all (isInitialized .constKind) = true := by
    rw [List.all_eq_true]
    intro d hd
    obtain ⟨p, e, rfl⟩ := hinit d hd
    rfl
  have hdeclarators : Gives (declarators rec .constKind) { c with allowIn := true } ts
      (unlessYield (ds.flatMap Declarator.names) ds) ((.punct ";", l₁) :: ts') :=
    .after .read (.next hlist (.bind (.require hbinds) .pure))
  have hdecl : Gives (varDecl rec .constKind) { c with allowIn := true } ts
      (unlessYield (ds.flatMap Declarator.names) (Decl.vars .constKind ds)) ts' :=
    .next hdeclarators (.bind (.require hinits) (.bind .semicolon .pure))
  exact statement_of_plain hc (.withReader (.after .current (.next (.after (.require rfl)
    (.after (.advance nofun) (.next hdecl .pure))) .pure)))

/-- An expression up to its semicolon; a name alone could be a label. -/
theorem expressionStatement_reads (hc : c.IsPlain) (he : ∀ name, e ≠ .ident name)
    (h : Reads (rec .assign) { c with allowIn := true } ts e ((.punct ";", l₁) :: ts')) :
    Reads (expressionStatement rec) c ts (.expr e) ts' := by
  have hin : { c with allowIn := true }.IsPlain := ⟨hc.comments, hc.decorator, hc.size⟩
  refine .bind (.withReader (expression_single hin h (punct_ne (by decide)))) ?_
  dsimp only
  split
  · next name => exact absurd rfl (he name)
  · exact .bind .semicolon .pure

/-- A statement that is an expression, where no other one starts with its first word. -/
theorem statement_word (hc : c.IsPlain) (hw : wordStatement rec false n = pure none)
    (he : ∀ name, e ≠ .ident name)
    (h : Reads (rec .assign) { c with allowIn := true } ((.name n false, l) :: ts) e
      ((.punct ";", l₁) :: ts')) :
    Reads (statement rec false) c ((.name n false, l) :: ts) (.expr e) ts' := by
  have hin : { c with allowIn := true }.IsPlain := ⟨hc.comments, hc.decorator, hc.size⟩
  have hnone : Reads (wordStatement rec false n) { c with allowIn := true }
      ((.name n false, l) :: ts) none ((.name n false, l) :: ts) := by
    rw [hw]
    exact .pure
  exact statement_reads hc
    (.withReader (.bind .current (.bind hnone (expressionStatement_reads hin he h))))

theorem statement_string (hc : c.IsPlain) {value : String} {lone : Bool}
    (h : Reads (rec .assign) { c with allowIn := true } ((.string value lone, l) :: ts)
      (.string value lone) ((.punct ";", l₁) :: ts')) :
    Reads (statement rec false) c ((.string value lone, l) :: ts) (.expr (.string value lone))
      ts' := by
  have hin : { c with allowIn := true }.IsPlain := ⟨hc.comments, hc.decorator, hc.size⟩
  exact statement_reads hc
    (.withReader (.bind .current (expressionStatement_reads hin nofun h)))

theorem statement_yield (hc : c.IsPlain)
    (h : Reads (rec .assign) { c with allowIn := true } ((.name "yield" false, l) :: ts)
      (.yield (some e)) ((.punct ";", l₁) :: ts')) :
    Reads (statement rec false) c ((.name "yield" false, l) :: ts) (.expr (.yield (some e))) ts' :=
  statement_word hc rfl nofun h

end Declarations

section Functions

variable {s : Stmt} {w : String} {isBad : Bool}

/-- What is read of a body in turn: nothing where it ends, and else a statement. -/
def bodyItem (rec : Grammar) : Parser (Option Stmt) := do
  match ← current with
  | .closeBrace => return none
  | .eof => return none
  | _ => return some (← rec (.statement false))

theorem bodyItem_end (h : ts.first = .closeBrace ∨ ts.first = .eof) :
    Reads (bodyItem rec) c ts none ts := by
  refine .bind .current ?_
  rcases h with h | h <;> rw [h] <;> exact .pure

theorem bodyItem_statement (hw : ts.first = .name w false)
    (h : Gives (rec (.statement false)) c ts (if isBad then none else some s) ts') :
    Gives (bodyItem rec) c ts (if isBad then none else some (some s)) ts' := by
  refine .after .current ?_
  rw [hw]
  exact .next h .pure

theorem statements_end (hc : c.IsPlain) (h : ts.first = .closeBrace ∨ ts.first = .eof) :
    Reads (statements rec) c ts [] ts := by
  obtain ⟨size, hsize⟩ := hc.exists_size
  have hmany : Reads (many (bodyItem rec) (size + 8)) c ts [] ts := .bind (bodyItem_end h) .pure
  rw [← hsize] at hmany
  exact .bind .read hmany

theorem statements_gives (hc : c.IsPlain) (hw : ts.first = .name w false)
    (h : Gives (rec (.statement false)) c ts (if isBad then none else some s) ts')
    (hts : ts'.first = .closeBrace ∨ ts'.first = .eof) :
    Gives (statements rec) c ts (if isBad then none else some [s]) ts' := by
  obtain ⟨size, hsize⟩ := hc.exists_size
  have hmany : Gives (many (bodyItem rec) (size + 8)) c ts (if isBad then none else some [s]) ts' :=
    .next (bodyItem_statement hw h) (.bind (.bind (bodyItem_end hts) .pure) .pure)
  rw [← hsize] at hmany
  exact .after .read hmany

theorem prologue_gives {body : List Stmt} {k : Nat} (hw : ts.first = .name w false)
    (h : Gives (statements rec) c ts (if isBad then none else some body) ts') :
    Gives (prologue rec (k + 1)) c ts (if isBad then none else some ([], body)) ts' := by
  refine .after .current ?_
  rw [hw]
  exact .next h .pure

abbrev Context.function (c : Context) (isAsync : Bool) : Context :=
  { c with allowIn := true, inDecorator := false, inAwait := isAsync, inYield := true }

abbrev Context.generator (c : Context) (isAsync : Bool) : Context :=
  { c.function isAsync with inReturn := true }

theorem Context.IsPlain.generator (hc : c.IsPlain) {isAsync : Bool} :
    (c.generator isAsync).IsPlain := ⟨hc.comments, rfl, hc.size⟩

theorem Context.IsPlain.asyncGenerator (hc : c.IsPlain) : (c.generator true).InGenerator :=
  ⟨hc.generator, rfl, rfl⟩

theorem functionRest_gives (hc : c.IsPlain) {isAsync : Bool} {name : Option String}
    {directives : List String} {body : List Stmt}
    (h : Gives (prologue rec c.size) (c.generator isAsync) ts
      (if isBad then none else some (directives, body)) ((.closeBrace, l') :: ts')) :
    Gives (functionRest rec isAsync true name) c (sign "(" :: sign ")" :: (.openBrace, l) :: ts)
      (if isBad then none else some (.mk isAsync true false name [] directives body)) ts' := by
  obtain ⟨size, hsize⟩ := hc.exists_size
  have hitems : Reads (patternItems rec (.punct ")") false c.size) (c.function isAsync)
      (sign ")" :: (.openBrace, l) :: ts) [] (sign ")" :: (.openBrace, l) :: ts) := by
    rw [hsize]
    exact .yes (.isAt rfl) .pure
  have hparams : Reads (parameters rec) (c.function isAsync)
      (sign "(" :: sign ")" :: (.openBrace, l) :: ts) [] ((.openBrace, l) :: ts) :=
    .bind (.expectToken nofun) (.bind .read (.bind hitems (.bind (.expectToken nofun) .pure)))
  have hbody : Gives (functionBody rec) (c.function isAsync) ((.openBrace, l) :: ts)
      (if isBad then none else some (directives, body)) ts' :=
    .after (.expectToken nofun) (.next (.withReader (.after .read h))
      (.bind (.leading hc.comments) (.bind (.expectToken nofun) .pure)))
  exact .withReader (.after hparams (.next hbody .pure))

theorem generatorBody_gives (hc : c.IsPlain) (hw : ts.first = .name w false)
    (h : Gives (rec (.statement false)) (c.generator true) ts
      (if isBad then none else some s) ((.closeBrace, l') :: ts')) :
    Gives (prologue rec c.size) (c.generator true) ts (if isBad then none else some ([], [s]))
      ((.closeBrace, l') :: ts') := by
  obtain ⟨size, hsize⟩ := hc.exists_size
  rw [hsize]
  exact prologue_gives hw (statements_gives hc.generator hw h (.inl rfl))

theorem statement_host (hc : c.IsPlain) {name : String} (hn : c.Names name)
    (hw : ts.first = .name w false)
    (h : Gives (rec (.statement false)) (c.generator true) ts (if isBad then none else some s)
      ((.closeBrace, l') :: ts')) :
    Gives (statement rec false) c ((.name "async" false, l) :: word "function" :: sign "*" ::
        word name :: sign "(" :: sign ")" :: (.openBrace, l₁) :: ts)
      (if isBad then none
        else some (.decl (.function (.mk true true false (some name) [] [] [s])))) ts' := by
  let rest : Tokens := word name :: sign "(" :: sign ")" :: (.openBrace, l₁) :: ts
  have hdecl : Gives (functionDecl rec true false) { c with allowIn := true } (sign "*" :: rest)
      (if isBad then none else some (.mk true true false (some name) [] [] [s])) ts' :=
    .after (.eaten nofun) (.after (.notAt nofun) (.after (.map (.bindingName
      ⟨hn.bindable, hn.yield, hn.await⟩))
      (functionRest_gives ⟨hc.comments, hc.decorator, hc.size⟩ (generatorBody_gives hc hw h))))
  have hstatement : Gives (functionStatement rec true false) { c with allowIn := true }
      (sign "*" :: rest)
      (if isBad then none
        else some (.decl (.function (.mk true true false (some name) [] [] [s])))) ts' :=
    .after (.isAt rfl) (.after (.require rfl) (.next hdecl .pure))
  have hasync : Reads startsAsyncFunction { c with allowIn := true }
      ((.name "async" false, l) :: word "function" :: sign "*" :: rest) true
      ((.name "async" false, l) :: word "function" :: sign "*" :: rest) := by
    refine .and_yes (.isAt rfl) (.nextIs nofun fun s hs => ?_)
    rw [hs.token, hs.hasLineEnd]
    rfl
  refine statement_of_plain hc (.withReader (.after .current (.next (a := some (Stmt.decl
    (.function (.mk true true false (some name) [] [] [s])))) ?_ .pure)))
  exact .after hasync (.after (.advance nofun) (.after (.advance nofun) hstatement.map))

end Functions

section Programs

open Lexer (Spells)

theorem advance_start {text : List Char} (h : Spells text ((t, l) :: ts)) :
    ∃ s, advance c { rest := text } = some ((), s) ∧ At s ((t, true) :: ts) := by
  obtain ⟨s, hs, htoken, hline, hcall, hfunction, hd, hstart, hrest⟩ :=
    @advance_eq c _ { rest := text } h rfl
  exact ⟨s, hs, htoken, hline, hcall, hfunction, hd, hstart, hrest⟩

theorem spells_host {rest : List Char} (h : Spells rest ((t, l) :: ts)) :
    Spells ("async function* __stitch_snippet__() \x7b\n".toList ++ rest)
      (word "async" :: word "function" :: sign "*" :: word "__stitch_snippet__" :: sign "(" ::
        sign ")" :: (.openBrace, false) :: (t, true) :: ts) :=
  .word "async" rfl rfl <| .blank <| .word "function" rfl rfl <| .sign "*" rfl rfl <| .blank <|
    .word "__stitch_snippet__" rfl rfl <| .sign "(" rfl rfl <| .sign ")" rfl rfl <| .blank <|
    .openBrace <| .newLine h

theorem parse?_eq {source : String} {a : Char} (h : source.toList.head? = some a)
    (ha : a ≠ '#' ∧ a.toNat ≠ 0xfeff) :
    Program.parse? source = ((program none (8 * (source.toList.length + 2))).run
      { size := source.toList.length + 2 } { rest := source.toList }).map (·.1) := by
  unfold Program.parse?
  generalize source.toList = text at h
  cases text with
  | nil => cases h
  | cons b text =>
    obtain rfl := Option.some.inj h
    have hmark : decide (b.toNat = 0xfeff) = false := decide_eq_false ha.2
    have hbang : hashbang? (b :: text) = none := by
      unfold hashbang?
      split
      · next he => exact absurd (List.cons.inj he).1 ha.1
      · rfl
    simp only [List.head?_cons, Option.any_some, hmark, Bool.false_eq_true, ↓reduceIte, hbang,
      List.length_cons]

/-- What is read of a module after its first token. -/
def programRest (depth : Nat) : Parser Program := do
  let (directives, body) ← prologue (grammar depth) (← read).size
  require (← isAt .eof)
  require ((← get).openDefaults = 0)
  require (body.flatMap Stmt.exportedNames).Nodup
  return ⟨(← read).keepsComments, none, directives, body, ← leading⟩

/-- A program that is one statement, which exports nothing. -/
theorem program_eq {text : List Char} {w : String} {s : Stmt} {isBad : Bool} {depth : Nat}
    (hc : c.IsPlain) (hspells : Spells text (word w :: ts)) (hs : s.exportedNames = [])
    (h : Gives (grammar depth (.statement false)) c ((.name w false, true) :: ts)
      (if isBad then none else some s) []) :
    ((program none depth).run c { rest := text }).map (·.1.body) =
      if isBad then none else some [s] := by
  obtain ⟨size, hsize⟩ := hc.exists_size
  obtain ⟨state, hstate, hat⟩ := @advance_start c _ _ _ _ hspells
  have hprologue : Gives (prologue (grammar depth) c.size) c ((.name w false, true) :: ts)
      (if isBad then none else some ([], [s])) [] := by
    rw [hsize]
    exact prologue_gives rfl (statements_gives hc rfl h (.inr rfl))
  have hnames : ([s].flatMap Stmt.exportedNames).Nodup := by
    rw [List.flatMap_singleton, hs]
    exact List.nodup_nil
  have hrest : Gives (programRest depth) c ((.name w false, true) :: ts)
      (if isBad then none else some ⟨c.keepsComments, none, [], [s], []⟩) [] := by
    refine .after .read (.next hprologue (.bind (.isAt rfl) (.bind (.require rfl) ?_)))
    refine .get fun s hs => .bind (.require (decide_eq_true hs.openDefaults)) ?_
    exact .bind (.require (decide_eq_true hnames))
      (.bind .read (.bind (.leading hc.comments) .pure))
  have hrun : (program none depth).run c { rest := text } = programRest depth c state :=
    bind_apply hstate
  rw [hrun]
  cases isBad with
  | true =>
    rw [hrest state hat]
    rfl
  | false =>
    obtain ⟨state', hstate', -⟩ := hrest state hat
    rw [hstate']
    rfl

theorem host_toList (code : String) :
    ("async function* __stitch_snippet__() \x7b\n" ++ code ++ "\n\x7d").toList =
      "async function* __stitch_snippet__() \x7b\n".toList ++ (code.toList ++ "\n\x7d".toList) := by
  rw [String.toList_append, String.toList_append, List.append_assoc]

theorem generatorStatements?_eq {code w : String} {s : Stmt} {isBad : Bool} {depth : Nat}
    (hdepth : depth ≤ 8 * code.toList.length + 8)
    (hspells : ∀ {rest more}, Spells rest more →
      Spells (code.toList ++ rest) (word w :: (ts ++ more)))
    (hreads : ∀ {c}, c.InGenerator → ts.length < c.size → ∀ n l more,
      Gives (grammar (n + depth) (.statement false)) c ((.name w false, l) :: (ts ++ more))
        (if isBad then none else some s) more) :
    Template.generatorStatements? code = if isBad then none else some [s] := by
  have hend : Spells "\n\x7d".toList [(.closeBrace, true)] := .newLine (.closeBrace .done)
  have hlength : ts.length < code.toList.length := by
    have h := (hspells .done).length_le
    rw [List.append_nil, List.append_nil, List.length_cons] at h
    exact h
  have hspelled := spells_host (hspells hend)
  rw [← host_toList] at hspelled
  have hroom : code.toList.length + 39 ≤
      ("async function* __stitch_snippet__() \x7b\n" ++ code ++ "\n\x7d").toList.length := by
    have hhost : "async function* __stitch_snippet__() \x7b\n".toList.length = 39 := rfl
    rw [host_toList, List.length_append, List.length_append, hhost]
    omega
  unfold Template.generatorStatements? Template.statements?
  rw [parse?_eq (by rw [host_toList]; rfl) ⟨by decide, by decide⟩]
  generalize ("async function* __stitch_snippet__() \x7b\n" ++ code ++ "\n\x7d").toList = text
    at hspelled hroom
  obtain ⟨n, hn⟩ : ∃ n, 8 * (text.length + 2) = n + (depth + 1) :=
    ⟨8 * (text.length + 2) - (depth + 1), by omega⟩
  let c : Context := { size := text.length + 2 }
  have hc : c.IsPlain := ⟨rfl, rfl, show 8 ≤ text.length + 2 by omega⟩
  have hname : c.Names "__stitch_snippet__" :=
    ⟨⟨by decide, by decide⟩, fun h => absurd h (by decide), fun h => absurd h (by decide)⟩
  have hsnippet := hreads hc.asyncGenerator (show ts.length < text.length + 2 by omega) n true
    [(.closeBrace, true)]
  have hstatement : Gives (grammar (n + (depth + 1)) (.statement false)) c
      ((.name "async" false, true) :: word "function" :: sign "*" :: word "__stitch_snippet__" ::
        sign "(" :: sign ")" :: (.openBrace, false) :: (.name w false, true) ::
        (ts ++ [(.closeBrace, true)]))
      (if isBad then none else some (.decl (.function
        (.mk true true false (some "__stitch_snippet__") [] [] [s])))) [] :=
    statement_host hc hname rfl hsnippet
  have hprogram := congrArg (Option.map Template.firstBody) (program_eq hc hspelled rfl hstatement)
  rw [Option.map_map] at hprogram
  rw [hn, Option.map_map, Option.map_map]
  refine hprogram.trans ?_
  cases isBad <;> rfl

end Programs

end ScriptBundler.Parser
