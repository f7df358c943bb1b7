import ScriptBundler.Loader
import ScriptBundler.Proofs.Syntax.Reading.Functions

namespace ScriptBundler.Loader

open Lexer (Tokens Spells Closed word sign)
open ScriptBundler.Parser

section Texts

variable (isAsync : Bool) (url : String)

/-- What follows the words of the function of a module. -/
def functionTokens : Tokens :=
  [sign "*", sign "(", sign ")", (.openBrace, false), (.string "use strict" false, false),
    sign ";", (.closeBrace, false)]

theorem closed_functionText :
    Closed (functionText isAsync) (functionWords isAsync ++ functionTokens) := by
  have hwords : Closed ((if isAsync then "async " else "") ++ "function* () \x7b ")
      (functionWords isAsync ++ [sign "*", sign "(", sign ")", (.openBrace, false)]) := by
    have hhead : Closed "function* () \x7b "
        [word "function", sign "*", sign "(", sign ")", (.openBrace, false)] := fun _ _ h =>
      .word "function" rfl rfl <| .sign "*" rfl rfl <| .blank <| .sign "(" rfl rfl <|
        .sign ")" rfl rfl <| .blank <| .openBrace <| .blank h
    cases isAsync with
    | false => exact fun _ _ h => hhead _ _ h
    | true =>
      have hasync : Closed "async " [word "async"] := fun _ _ h => .word "async" rfl rfl (.blank h)
      exact hasync.append hhead
  have hend : Closed "; \x7d" [sign ";", (.closeBrace, false)] := fun _ _ h =>
    .sign ";" rfl rfl (.blank (.closeBrace h))
  have hall := (hwords.append (Lexer.closed_quote "use strict")).append hend
  rw [List.append_assoc, List.append_assoc] at hall
  exact hall

def entryTokens (isAsync : Bool) (url : String) : Tokens :=
  sign "." :: word "push" :: sign "(" :: sign "[" :: (.string url false, false) :: sign "," ::
    (functionWords isAsync ++ (functionTokens ++ [sign "]", sign ")", sign ";"]))

theorem closed_entryText :
    Closed (entryText isAsync url) (word "modules" :: entryTokens isAsync url) := by
  have hhead :
      Closed "modules.push([" [word "modules", sign ".", word "push", sign "(", sign "["] :=
    fun _ _ h => .word "modules" rfl rfl <| .sign "." rfl rfl <| .word "push" rfl rfl <|
      .sign "(" rfl rfl <| .sign "[" rfl rfl h
  have hend : Closed "]);" [sign "]", sign ")", sign ";"] := fun _ _ h =>
    .sign "]" rfl rfl <| .sign ")" rfl rfl <| .sign ";" rfl rfl h
  have hall := (((hhead.append (Lexer.closed_quote url)).append Lexer.closed_comma).append
    (closed_functionText isAsync)).append hend
  simp only [List.append_assoc] at hall
  exact hall

theorem directive_reads {c : Context} (hc : c.IsPlain) {n : Nat} {ts : Tokens} :
    Reads (prologue (grammar (n + 2)) c.size) c
      ((.string "use strict" false, false) :: sign ";" :: (.closeBrace, false) :: ts)
      (["use strict"], []) ((.closeBrace, false) :: ts) := by
  obtain ⟨size, hsize⟩ := hc.exists_size
  have hin : { c with allowIn := true }.IsPlain := ⟨hc.comments, hc.decorator, hc.size⟩
  have hstatement : Reads (grammar (n + 2) (.statement false)) c
      ((.string "use strict" false, false) :: sign ";" :: (.closeBrace, false) :: ts)
      (.expr (.string "use strict")) ((.closeBrace, false) :: ts) :=
    statement_string hc (assignExpr_string hin (show Token.punct ";" ∈ expressionEnds by decide))
  -- a directive is kept as it is written, so its text must have nothing to be escaped
  have hkept : String.ofList ("use strict".toList.flatMap Text.quotedChar) = "use strict" := by
    decide
  have hprologue : Reads (prologue (grammar (n + 2)) (size + 8)) c
      ((.string "use strict" false, false) :: sign ";" :: (.closeBrace, false) :: ts)
      ([String.ofList ("use strict".toList.flatMap Text.quotedChar)], [])
      ((.closeBrace, false) :: ts) := prologue_directive hstatement (prologue_end hc rfl)
  rw [hkept] at hprologue
  rw [hsize]
  exact hprologue

theorem entry_reads {c : Context} (hc : c.IsPlain) (n : Nat) (l : Bool) :
    Reads (grammar (n + 7) .assign) c ((.name "modules" false, l) :: entryTokens isAsync url)
      (invoke (.ident "modules") "push"
        [.array [.string url, .function (Thunk.toFunction isAsync ⟨url, []⟩)]]) [sign ";"] := by
  have hnames : c.Names "modules" :=
    ⟨⟨by decide, by decide⟩, fun h => absurd h (by decide), fun h => absurd h (by decide)⟩
  have hclose : Token.punct ")" ∈ expressionEnds := by decide
  have hend : Token.punct ";" ∈ expressionEnds := by decide
  have hfunction : Reads (grammar (n + 5) .assign) c.nested.nested
      (functionWords isAsync ++ (functionTokens ++ [sign "]", sign ")", sign ";"]))
      (.function (Thunk.toFunction isAsync ⟨url, []⟩)) [sign "]", sign ")", sign ";"] :=
    assignExpr_generator hc.nested.nested (directive_reads hc.nested.nested.generator)
      (show Token.punct "]" ∈ expressionEnds by decide)
  have hstart : (functionWords isAsync ++
      (functionTokens ++ [sign "]", sign ")", sign ";"])).first ∉ nonItems := by
    cases isAsync <;> decide
  have harray : Reads (grammar (n + 6) .assign) c.nested
      (sign "[" :: (.string url false, false) :: sign "," ::
        (functionWords isAsync ++ (functionTokens ++ [sign "]", sign ")", sign ";"])))
      (.array [.string url, .function (Thunk.toFunction isAsync ⟨url, []⟩)])
      [sign ")", sign ";"] :=
    assignExpr_pair hc.nested (by simp [Tokens.first, nonItems]) hstart
      (assignExpr_string hc.nested.nested (show Token.punct "," ∈ expressionEnds by decide))
      hfunction hclose
  exact assignExpr_leftSide hc (.of_word rfl (by decide)) name_ne_punct (leftSide_reads hc
    (fun _ => primary_name hnames name_ne_punct.symm) fun _ => .iterate_some callStep_member
    (.iterate_some (callStep_call hc ⟨punct_ne (by decide), punct_ne (by decide)⟩ harray)
      (callSteps_end (operandEnds_of_expressionEnds _ hend)))) hend

theorem statements?_entryText : Template.statements? (entryText isAsync url) =
    some [Thunk.register isAsync ⟨url, []⟩] := by
  have hspells := closed_entryText isAsync url [] [] .done
  rw [List.append_nil, List.append_nil] at hspells
  have htext : (entryText isAsync url).toList = "modules.push([".toList ++
      (Text.quote url ++ ", " ++ functionText isAsync ++ "]);").toList := by
    rw [← String.toList_append]
    delta entryText
    simp only [String.append_assoc]
  have hlength : 14 ≤ (entryText isAsync url).toList.length := by
    have hhead : "modules.push([".toList.length = 14 := rfl
    rw [htext, List.length_append, hhead]
    exact Nat.le_add_right 14 _
  unfold Template.statements?
  rw [parse?_eq (by rw [htext]; rfl) ⟨by decide, by decide⟩]
  generalize (entryText isAsync url).toList = text at hspells hlength
  obtain ⟨n, hn⟩ : ∃ n, 8 * (text.length + 2) = n + 8 := ⟨8 * (text.length + 2) - 8, by omega⟩
  let c : Context := { size := text.length + 2 }
  have hc : c.IsPlain := ⟨rfl, rfl, show 8 ≤ text.length + 2 by omega⟩
  have hin : { c with allowIn := true }.IsPlain := ⟨hc.comments, hc.decorator, hc.size⟩
  have hstatement : Gives (grammar (n + 8) (.statement false)) c
      ((.name "modules" false, true) :: entryTokens isAsync url)
      (if false then none else some (Thunk.register isAsync ⟨url, []⟩)) [] :=
    statement_word hc rfl nofun (entry_reads isAsync url hin n true)
  have hprogram := program_eq hc hspells rfl hstatement
  rw [hn, Option.map_map]
  exact hprogram

/-- The statements of a module take the only empty body there is. -/
theorem fillBody_register (body : List Stmt) :
    Template.fillBody body [Thunk.register isAsync ⟨url, []⟩] =
      [Thunk.register isAsync ⟨url, body⟩] := rfl

end Texts

section Bundles

def pushed? : Stmt → Option (List Expr)
  | .expr (.call (.member (.ident "modules") "push" _) args _ _) => some args
  | _ => none

def opening : LoaderStrategy → List String → List Stmt
  | .eager, notNeeded => Eager.prelude (!notNeeded.isEmpty)
  | .lazy, _ => Lazy.prelude

def closing : LoaderStrategy → List Stmt
  | .eager => Eager.startup
  | .lazy => Lazy.startup

def contents : List Stmt → List Stmt
  | [.block body] => body
  | ss => ss

def IsEntry (strategy : LoaderStrategy) (t : Thunk) (entry : Stmt) : Prop :=
  (Template.statements? (entryText (strategy = .lazy) t.url)).map (Template.fillBody t.body) =
    some [entry]

/-- How the statements of a bundle carry its modules. -/
structure Carries (strategy : LoaderStrategy) (thunks : List Thunk) (notNeeded : List String)
    (ss : List Stmt) : Prop where
  pushed : (contents ss).filterMap pushed? = thunks.map fun t => [.array [.string t.url,
    .function (.mk (strategy = .lazy) true false none [] ["use strict"] t.body)]]
  between : thunks ≠ [] ∨ strategy = .lazy → ∃ entries,
    ss = [.block (opening strategy notNeeded ++ entries ++ closing strategy)] ∧
      List.Forall₂ (IsEntry strategy) thunks entries

variable (strategy : LoaderStrategy) (thunks : List Thunk) (notNeeded : List String)

theorem isEntry_register (t : Thunk) : IsEntry strategy t (t.register (strategy = .lazy)) := by
  unfold IsEntry
  rw [statements?_entryText, Option.map_some, fillBody_register]

theorem pushed?_opening : (opening strategy notNeeded).filterMap pushed? = [] := by
  cases strategy <;> rfl

theorem pushed?_closing : (closing strategy).filterMap pushed? = [] := by
  cases strategy <;> rfl

theorem carries_block : Carries strategy thunks notNeeded [.block (opening strategy notNeeded ++
    thunks.map (Thunk.register (strategy = .lazy)) ++ closing strategy)] := by
  constructor
  · rw [contents, List.filterMap_append, List.filterMap_append, pushed?_opening, pushed?_closing,
      List.nil_append, List.append_nil, List.filterMap_map]
    exact congrFun List.filterMap_eq_map' thunks
  · intro _
    refine ⟨_, rfl, ?_⟩
    rw [List.forall₂_map_right_iff, List.forall₂_same]
    exact fun t _ => isEntry_register strategy t

/-- A bundle carries each of its modules once, in order, and keeps their statements apart. -/
theorem assemble_carries :
    Carries strategy thunks notNeeded (assemble strategy thunks notNeeded).1 := by
  have hblock := carries_block strategy thunks notNeeded
  cases strategy with
  | «lazy» => exact hblock
  | eager =>
    cases thunks with
    | cons t thunks => exact hblock
    | nil =>
      constructor
      · rfl
      · rintro (h | h)
        · exact absurd rfl h
        · cases h

example : entryText true "/a \"b\".js" =
    "modules.push([\"/a \\\"b\\\".js\", async function* () \x7b \"use strict\"; \x7d]);" := by
  decide

end Bundles

end ScriptBundler.Loader
