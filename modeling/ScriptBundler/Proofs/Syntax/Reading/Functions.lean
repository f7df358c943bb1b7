import ScriptBundler.Proofs.Syntax.Reading.Statements

namespace ScriptBundler.Parser

open Lexer (Tokens word sign)

variable {rec : Grammar} {c : Context} {l l' l₁ : Bool} {ts ts' ts₁ : Tokens} {e e₁ e₂ : Expr}

section Directives

variable {directives : List String} {body : List Stmt} {k : Nat}

/-- A directive is kept as it is written. -/
theorem prologue_directive {value : String}
    (h : Reads (rec (.statement false)) c ((.string value false, l) :: ts)
      (.expr (.string value false)) ts₁)
    (hrest : Reads (prologue rec k) c ts₁ (directives, body) ts') :
    Reads (prologue rec (k + 1)) c ((.string value false, l) :: ts)
      (String.ofList (value.toList.flatMap Text.quotedChar) :: directives, body) ts' := by
  refine .bind .current (.get fun s hs => .bind h ?_)
  have hstart : s.start = '"' :: (value.toList.flatMap Text.quotedChar ++ '"' :: s.rest) := by
    rw [hs.start value false hs.token, Text.quote, String.toList_ofList, List.cons_append,
      List.cons_append, List.append_assoc]
    rfl
  have hraw : Lexer.rawString (s.start.headD '"') (s.start.drop 1) =
      value.toList.flatMap Text.quotedChar := by
    rw [hstart]
    exact Lexer.rawString_quoted value.toList
  dsimp only [withoutComments]
  rw [hraw]
  exact .bind hrest .pure

theorem prologue_end (hc : c.IsPlain) (h : ts.first = .closeBrace) :
    Reads (prologue rec (k + 1)) c ts ([], []) ts := by
  refine .bind .current ?_
  rw [h]
  exact .bind (statements_end hc (.inl h)) .pure

end Directives

section Functions

variable {isAsync : Bool} {directives : List String} {body : List Stmt}

def functionWords (isAsync : Bool) : Tokens :=
  if isAsync then [word "async", word "function"] else [word "function"]

/-- What follows the words of a generator. -/
theorem functionExpr_reads (hc : c.IsPlain)
    (h : Reads (prologue rec c.size) (c.generator isAsync) ts (directives, body)
      ((.closeBrace, l') :: ts')) :
    Reads (functionExpr rec isAsync) c (sign "*" :: sign "(" :: sign ")" :: (.openBrace, l) :: ts)
      (.function (.mk isAsync true false none [] directives body)) ts' := by
  have hbody : Gives (prologue rec c.size) (c.generator isAsync) ts
      (if false then none else some (directives, body)) ((.closeBrace, l') :: ts') := h
  have hfunction : Reads (functionRest rec isAsync true none) c
      (sign "(" :: sign ")" :: (.openBrace, l) :: ts)
      (.mk isAsync true false none [] directives body) ts' := functionRest_gives hc hbody
  exact .bind (.eaten nofun) (.yes (.isAt rfl) (.bind .pure (.bind hfunction .pure)))

theorem assignExpr_generator (hc : c.IsPlain)
    (h : Reads (prologue rec c.size) (c.generator isAsync) ts (directives, body)
      ((.closeBrace, l') :: ts')) (he : ts'.first ∈ expressionEnds) :
    Reads (assignExpr rec) c
      (functionWords isAsync ++ sign "*" :: sign "(" :: sign ")" :: (.openBrace, l) :: ts)
      (.function (.mk isAsync true false none [] directives body)) ts' := by
  have hfunction := functionExpr_reads (l := l) hc h
  cases isAsync with
  | false =>
    exact assignExpr_primary hc (.of_word rfl (by decide)) nofun
      (fun _ => .bind .current (.bind (.advance nofun) hfunction)) he
  | true =>
    let rest : Tokens := sign "*" :: sign "(" :: sign ")" :: (.openBrace, l) :: ts
    have hnext : Reads (nextIs fun s => s.token = .name "function" false && !s.hasLineEnd) c
        (word "async" :: word "function" :: rest) true
        (word "async" :: word "function" :: rest) := by
      refine .nextIs nofun fun s hs => ?_
      rw [hs.token, hs.hasLineEnd]
      rfl
    have hstart : StartsOperand c (.name "async" false) (word "function" :: rest) :=
      ⟨rfl, rfl, nofun, by simp, fun _ => ⟨nofun, rfl, nofun⟩, by simp, by simp⟩
    exact assignExpr_primary hc hstart nofun (fun _ => .bind .current (.yes hnext
      (.bind (.advance nofun) (.bind (.advance nofun) hfunction)))) he

end Functions

section Arrays

/-- No item of an array starts like its end, or like a place that is left out or spread. -/
def nonItems : List Token := [.punct "]", .punct ",", .punct "..."]

theorem item_reads {n : Nat} (hs : ts.first ∉ nonItems) (h : Reads (rec .assign) c ts e ts₁)
    {items : List Expr} {finalComma : Bool}
    (hrest : Reads (do
      if ← eat "," then
        let (es, finalComma) ← arrayItems rec n
        return (e :: es, finalComma)
      require (← isAt (.punct "]"))
      return ([e], false)) c ts₁ (items, finalComma) ts') :
    Reads (arrayItems rec (n + 1)) c ts (items, finalComma) ts' := by
  simp only [nonItems, List.mem_cons, List.not_mem_nil, or_false, not_or] at hs
  obtain ⟨hclose, hcomma, hspread⟩ := hs
  exact .no (.notAt hclose) (.no (.notEaten hcomma) (.bind (.no (.notEaten hspread) h) hrest))

theorem assignExpr_pair (hc : c.IsPlain) (hs : ts.first ∉ nonItems) (hs₁ : ts₁.first ∉ nonItems)
    (h₁ : Reads (rec .assign) c.nested ts e₁ ((.punct ",", l₁) :: ts₁))
    (h₂ : Reads (rec .assign) c.nested ts₁ e₂ ((.punct "]", l') :: ts'))
    (he : ts'.first ∈ expressionEnds) :
    Reads (assignExpr rec) c ((.punct "[", l) :: ts) (.array [e₁, e₂]) ts' := by
  obtain ⟨size, hsize⟩ := hc.exists_size
  have hlast : Reads (arrayItems rec (size + 7)) c.nested ts₁ ([e₂], false)
      ((.punct "]", l') :: ts') :=
    item_reads hs₁ h₂ (.no (.notEaten (punct_ne (by decide)))
      (.bind (.isAt rfl) (.bind (.require rfl) .pure)))
  have hitems : Reads (arrayItems rec (size + 8)) c.nested ts ([e₁, e₂], false)
      ((.punct "]", l') :: ts') := item_reads hs h₁ (.yes (.eaten nofun) (.bind hlast .pure))
  have hall : Reads (do arrayItems rec (← read).size) c.nested ts ([e₁, e₂], false)
      ((.punct "]", l') :: ts') := by
    refine .bind .read ?_
    rw [hsize]
    exact hitems
  have hstart : StartsOperand c (.punct "[") ts :=
    ⟨rfl, rfl, nofun, by simp, nofun, nofun, nofun⟩
  exact assignExpr_primary hc hstart (punct_ne (by decide)) (fun _ => .bind .current
    (.bind (.advance nofun) (.bind (.withReader hall) (.bind (.expectToken nofun) .pure)))) he

end Arrays

end ScriptBundler.Parser
