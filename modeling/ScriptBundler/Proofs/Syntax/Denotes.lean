import ScriptBundler.Proofs.Syntax.Reading.Statements

namespace ScriptBundler.Lexer

theorem length_le_separated {items : List Tokens} {ts : Tokens} (h : ts ∈ items) :
    ts.length ≤ (separated items).length := by
  fun_induction separated items with
  | case1 => cases h
  | case2 item => rw [List.mem_singleton.1 h]
  | case3 item items _ ih =>
    rw [List.length_append, List.length_cons]
    rcases List.mem_cons.1 h with rfl | h
    · omega
    · have hle := ih h
      omega

theorem length_le_separated_of_ne_nil {items : List Tokens} (h : ∀ ts ∈ items, ts ≠ []) :
    items.length ≤ (separated items).length := by
  fun_induction separated items with
  | case1 => exact Nat.le_refl 0
  | case2 item => exact List.length_pos_of_ne_nil (h item List.mem_cons_self)
  | case3 item items _ ih =>
    have hle := ih fun ts hts => h ts (List.mem_cons_of_mem _ hts)
    rw [List.length_append, List.length_cons, List.length_cons]
    omega

end ScriptBundler.Lexer

namespace ScriptBundler.Parser

open Lexer (Tokens Spelled Closed word sign separated)

/-- What is read of a text that starts with `t`, where `C` holds and there is room for it. -/
def Denotes {α : Type} (C : Context → Prop) (p : Nat → Parser α) (ends : List Token) (t : Token)
    (text : String) (o : Option α) : Prop :=
  ∃ ts : Tokens, Spelled text ((t, false) :: ts) ∧ ∀ c, C c → ts.length + 1 < c.size →
    ∀ (n : Nat) (rest : Tokens), rest.first ∈ ends →
      Gives (p n) c ((t, false) :: (ts ++ rest)) o rest

/-- A text that is an expression, read at some depth of the grammar. -/
abbrev DenotesExpr (C : Context → Prop) (depth : Nat) (t : Token) (text : String) (e : Expr) :
    Prop :=
  Denotes C (fun n => grammar (n + depth) .assign) expressionEnds t text (some e)

theorem Denotes.imp {α : Type} {C C' : Context → Prop} {p : Nat → Parser α} {ends : List Token}
    {t : Token} {text : String} {o : Option α} (h : Denotes C p ends t text o)
    (hC : ∀ c, C' c → C c) : Denotes C' p ends t text o := by
  obtain ⟨ts, hspelled, hgives⟩ := h
  exact ⟨ts, hspelled, fun c hc => hgives c (hC c hc)⟩

section Lists

variable {α : Type} {C : α → Context → Prop} {p : Nat → Parser α} {ends bad : List Token}
  {o : α → Option α} {texts : List String} {as : List α}

theorem exists_items
    (h : List.Forall₂ (fun text a => ∃ t ∉ bad, Denotes (C a) p ends t text (o a)) texts as) :
    ∃ items : List (Tokens × α), items.map (·.2) = as ∧
      Spelled (", ".intercalate texts) (separated (items.map (·.1))) ∧
      items.length ≤ (separated (items.map (·.1))).length ∧
      ∀ i ∈ items, (∀ rest, (i.1 ++ rest).first ∉ bad) ∧
        ∀ c, C i.2 c → (separated (items.map (·.1))).length < c.size → ∀ n rest, rest.first ∈ ends →
          Gives (p n) c (i.1 ++ rest) (o i.2) rest := by
  obtain ⟨items, hvalues, hspelled, hitems⟩ : ∃ items : List (Tokens × α),
      items.map (·.2) = as ∧ List.Forall₂ Spelled texts (items.map (·.1)) ∧
      ∀ i ∈ items, i.1 ≠ [] ∧ (∀ rest, (i.1 ++ rest).first ∉ bad) ∧
        ∀ c, C i.2 c → i.1.length < c.size → ∀ n rest, rest.first ∈ ends →
          Gives (p n) c (i.1 ++ rest) (o i.2) rest := by
    induction h with
    | nil => exact ⟨[], rfl, .nil, fun _ hi => nomatch hi⟩
    | @cons text a texts as ha has ih =>
      obtain ⟨items, hvalues, hspelled, hitems⟩ := ih
      obtain ⟨t, ht, ts, htext, hgives⟩ := ha
      refine ⟨((t, false) :: ts, a) :: items, congrArg (a :: ·) hvalues, .cons htext hspelled, ?_⟩
      exact List.forall_mem_cons.2 ⟨⟨List.cons_ne_nil _ _, fun rest => ht, hgives⟩, hitems⟩
  refine ⟨items, hvalues, Lexer.spelled_intercalate hspelled, ?_, fun i hi => ?_⟩
  · have hle := Lexer.length_le_separated_of_ne_nil (List.forall_mem_map.2 fun i hi =>
      (hitems i hi).1)
    rwa [List.length_map] at hle
  · obtain ⟨-, hopen, hgives⟩ := hitems i hi
    exact ⟨hopen, fun c hc hsize => hgives c hc
      (Nat.lt_of_le_of_lt (Lexer.length_le_separated (List.mem_map_of_mem hi)) hsize)⟩

end Lists

section Expressions

variable {C C' : Context → Prop} {depth : Nat} {t : Token} {text n : String} {e : Expr}

theorem denotes_name (hn : IsBindable n) (hC : ∀ c, C c → c.IsPlain ∧ c.Names n) :
    DenotesExpr C 1 (.name n false) n (.ident n) :=
  ⟨[], Lexer.spelled_name hn.isName,
    fun c hc _ _ _ he => assignExpr_name (hC c hc).1 (hC c hc).2 he⟩

theorem DenotesExpr.mono {depth' : Nat} (h : DenotesExpr C depth t text e) (hd : depth ≤ depth') :
    DenotesExpr C depth' t text e := by
  obtain ⟨ts, hspelled, hreads⟩ := h
  obtain ⟨k, rfl⟩ := Nat.exists_eq_add_of_le hd
  refine ⟨ts, hspelled, fun c hc hsize n rest he => ?_⟩
  have hn : n + k + depth = n + (depth + k) := by omega
  change Reads (grammar (n + (depth + k)) .assign) c ((t, false) :: (ts ++ rest)) e rest
  rw [← hn]
  exact hreads c hc hsize (n + k) rest he

theorem denotes_true (hC : ∀ c, C c → c.IsPlain) :
    DenotesExpr C 1 (.name "true" false) "true" (.bool true) :=
  ⟨[], Lexer.spelled_name (by decide), fun c hc _ _ _ he => assignExpr_true (hC c hc) he⟩

theorem Denotes.getter (hC : ∀ c, C' c → c.IsPlain ∧ C c.inArrow) (ht : t ≠ .openBrace)
    (h : DenotesExpr C depth t text e) :
    DenotesExpr C' (depth + 1) (.punct "(") ("() => " ++ text) (.lambda [] e) := by
  obtain ⟨ts, hspelled, hreads⟩ := h
  have hhead : Closed "() => " [sign "(", sign ")", sign "=>"] := fun _ _ h =>
    .sign "(" rfl rfl (.sign ")" rfl rfl (.blank (.sign "=>" rfl rfl (.blank h))))
  refine ⟨sign ")" :: sign "=>" :: (t, false) :: ts, hhead.before hspelled,
    fun c hc hsize n rest he => ?_⟩
  obtain ⟨hplain, hinner⟩ := hC c hc
  have hroom : ts.length + 1 < c.inArrow.size := by
    simp only [List.length_cons] at hsize ⊢
    omega
  exact assignExpr_getter hplain ht (hreads _ hinner hroom n rest he)

/-- The tokens that end an operand or begin a member of it. -/
def memberEnds : List Token := .punct "." :: .punct "[" :: expressionEnds

/--
A text that is an operand, members of which may follow. Whatever they and arguments make of it is
read of the whole.
-/
def DenotesOperand (C : Context → Prop) (depth : Nat) (t : Token) (text : String) (e : Expr) :
    Prop :=
  ∃ ts : Tokens, Spelled text ((t, false) :: ts) ∧ ∀ c, C c → ts.length + 1 < c.size →
    ∀ (n : Nat) (rest ts' : Tokens) (e' : Expr), rest.first ∈ memberEnds →
      ts'.first ∈ expressionEnds →
      (∀ m, c.size ≤ m + ts.length →
        Reads (iterate (callStep (grammar (n + depth))) m (e, false)) c rest (e', false) ts') →
      Reads (grammar (n + depth + 1) .assign) c ((t, false) :: (ts ++ rest)) e' ts'

theorem DenotesOperand.expr (h : DenotesOperand C depth t text e) :
    DenotesExpr C (depth + 1) t text e := by
  obtain ⟨ts, hspelled, hreads⟩ := h
  refine ⟨ts, hspelled, fun c hc hsize n rest he => ?_⟩
  have hends : rest.first ∈ memberEnds := List.mem_cons_of_mem _ (List.mem_cons_of_mem _ he)
  refine hreads c hc hsize n rest rest e hends he fun m hm => ?_
  obtain ⟨k, rfl⟩ : ∃ k, m = k + 1 := ⟨m - 1, by omega⟩
  exact callSteps_end (operandEnds_of_expressionEnds _ he)

end Expressions

section Objects

variable {C C' : Context → Prop} {depth : Nat} {t key : Token} {text keyText : String} {k : Key}
  {e : Expr} {texts : List String} {properties : List Property}

def propertyEnds : List Token := [.punct ",", .closeBrace]

def nonKeys : List Token := [.closeBrace, .punct "..."]

theorem IsKey.not_mem_nonKeys (hk : IsKey key k) : key ∉ nonKeys := by
  simp only [nonKeys, List.mem_cons, List.not_mem_nil, or_false, not_or]
  cases hk <;> exact ⟨nofun, nofun⟩

theorem spelled_object {ts : Tokens} (h : Spelled (", ".intercalate texts) ts) :
    Spelled (Text.object texts) ((.openBrace, false) :: (ts ++ [(.closeBrace, false)])) := by
  have hopen : Closed "\x7b" [(.openBrace, false)] := fun _ _ h => .openBrace h
  have hclose : Closed "\x7d" [(.closeBrace, false)] := fun _ _ h => .closeBrace h
  exact ((hopen.before h).append hclose fun _ => rfl).spelled

theorem spelled_property {ts : Tokens} (hk : Spelled keyText [(key, false)])
    (h : Spelled text ts) :
    Spelled (Text.property keyText text) ((key, false) :: sign ":" :: ts) := by
  have hcolon : Closed ": " [sign ":"] := fun _ _ h => .sign ":" rfl rfl (.blank h)
  exact (hk.append hcolon fun _ => rfl).before h

def DenotesProperty (C : Context → Prop) (depth : Nat) (text : String) (p : Property) : Prop :=
  ∃ t ∉ nonKeys,
    Denotes C (fun n => property (grammar (n + depth))) propertyEnds t text (some p)

theorem Denotes.property (hk : IsKey key k) (hs : Spelled keyText [(key, false)])
    (h : DenotesExpr C depth t text e) :
    DenotesProperty C depth (Text.property keyText text) (.keyValue k false e) := by
  obtain ⟨ts, hspelled, hreads⟩ := h
  refine ⟨key, hk.not_mem_nonKeys, sign ":" :: (t, false) :: ts,
    spelled_property hs hspelled, fun c hc hsize n rest he => ?_⟩
  have hends : ∀ t ∈ propertyEnds, t ∈ expressionEnds := by decide
  have hroom : ts.length + 1 < c.size := by
    rw [List.length_cons, List.length_cons] at hsize
    omega
  exact property_reads hk (hreads c hc hroom n rest (hends _ he))

theorem denotes_object (hC : ∀ c, C' c → c.IsPlain ∧ C c.nested)
    (h : List.Forall₂ (DenotesProperty C depth) texts properties) :
    DenotesExpr C' (depth + 1) .openBrace (Text.object texts) (.object properties) := by
  obtain ⟨items, hvalues, hspelled, hlength, hitems⟩ := exists_items h
  refine ⟨_, spelled_object hspelled, fun c hc hsize n rest he => ?_⟩
  obtain ⟨hplain, hinner⟩ := hC c hc
  rw [List.length_append, List.length_singleton] at hsize
  rw [List.append_assoc, ← hvalues]
  refine assignExpr_object hplain (fun i hi rest => ?_) (fun i hi rest hr => ?_) (by omega) he
  · exact List.ne_of_not_mem_cons ((hitems i hi).1 rest)
  · exact (hitems i hi).2 c.nested hinner (show _ < c.size by omega) n rest (by
      rcases hr with hr | hr <;> rw [hr] <;> decide)

end Objects

end ScriptBundler.Parser
