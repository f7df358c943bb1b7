import ScriptBundler.Syntax.Lexer
import ScriptBundler.Text.Quoted
import Mathlib.Data.List.Basic

namespace ScriptBundler.Lexer

abbrev Tokens := List (Token × Bool)

abbrev word (w : String) : Token × Bool := (.name w false, false)

/-- A token of fixed spelling on the line of what stands before it. -/
abbrev sign (p : String) : Token × Bool := (.punct p, false)

/-- The next token; after the last one the text ends. -/
def Tokens.first : Tokens → Token
  | [] => .eof
  | (t, _) :: _ => t

def Tokens.onNewLine : Tokens → Bool
  | [] => false
  | (_, l) :: _ => l

/-- Whether a text starts with something else than what stands between tokens. -/
def opensToken : List Char → Bool
  | [] => false
  | c :: _ => c ≠ '/' && !isLineEnd c && !isBlank c

def endsName : List Char → Bool
  | [] => true
  | c :: _ => !Identifier.isPart c && c ≠ '\\'

/--
The tokens that a text spells, its strings in double quotes. Each is read with all that follows at
hand, since that could belong to it as well.
-/
inductive Spells : List Char → Tokens → Prop where
  | done : Spells [] []
  | token {t : Token} {text rest : List Char} {ts : Tokens} (ho : opensToken text = true)
      (ht : token? (text ++ rest) = some (t, rest))
      (hq : ∀ value lone, t = .string value lone → text = (Text.quote value).toList)
      (h : Spells rest ts) : Spells (text ++ rest) ((t, false) :: ts)
  | blank {cs : List Char} {ts : Tokens} (h : Spells cs ts) : Spells (' ' :: cs) ts
  | newLine {cs : List Char} {t : Token} {l : Bool} {ts : Tokens} (h : Spells cs ((t, l) :: ts)) :
      Spells ('\n' :: cs) ((t, true) :: ts)

section Names

variable {c : Char} {cs rest : List Char} {n : String}

/-- The characters that stand between tokens, and the one that starts a comment. -/
def gaps : List Nat :=
  [9, 10, 11, 12, 13, 32, 47, 0x85, 0xa0, 0x1680, 0x180e, 0x2028, 0x2029, 0x202f, 0x205f, 0x3000,
    0xfeff] ++ List.range' 0x2000 12

theorem isStart_of_mem_gaps : ∀ n ∈ gaps, Identifier.isStart (Char.ofNat n) = false := by
  decide +kernel

theorem opensToken_of_not_mem_gaps (h : c.toNat ∉ gaps) : opensToken (c :: cs) = true := by
  have hslash : c = '/' → c.toNat = 47 := fun h => h ▸ rfl
  have hfeed : c = '\n' → c.toNat = 10 := fun h => h ▸ rfl
  have hreturn : c = '\r' → c.toNat = 13 := fun h => h ▸ rfl
  simp only [gaps, List.mem_append, List.mem_cons, List.not_mem_nil, or_false, List.mem_range'_1,
    not_or] at h
  simp only [opensToken, isLineEnd, isBlank, Bool.and_eq_true, Bool.not_eq_true',
    Bool.or_eq_false_iff, decide_eq_true_eq, decide_eq_false_iff_not, Bool.and_eq_false_iff]
  grind

theorem opensToken_of_isStart (h : Identifier.isStart c = true) : opensToken (c :: cs) = true := by
  apply opensToken_of_not_mem_gaps
  intro hmem
  have hfalse := isStart_of_mem_gaps c.toNat hmem
  rw [Char.ofNat_toNat, h] at hfalse
  cases hfalse

theorem nameChar?_of_accepts {accepts : Char → Bool} (hc : c ≠ '\\') (ha : accepts c = true) :
    nameChar? accepts (c :: cs) = some (c, false, cs) := by
  unfold nameChar?
  split
  · next he => exact absurd (List.cons.inj he).1 hc
  · next he => exact absurd (List.cons.inj he).1 hc
  · next he =>
    cases he
    exact if_pos ha
  · next he => cases he

theorem ne_backslash_of_isPart (h : Identifier.isPart c = true) : c ≠ '\\' := by
  rintro rfl
  revert h
  decide

theorem nameRest_append (hcs : ∀ c ∈ cs, Identifier.isPart c = true) (hr : endsName rest = true) :
    ∀ {fuel : Nat} {acc : List Char}, cs.length < fuel →
      nameRest fuel false acc (cs ++ rest) = some (acc.reverse ++ cs, false, rest) := by
  induction cs with
  | nil =>
    intro fuel acc hf
    obtain ⟨fuel, rfl⟩ := Nat.exists_eq_succ_of_ne_zero (Nat.ne_of_gt hf)
    cases rest with
    | nil => simp [nameRest, nameChar?]
    | cons d rest =>
      rw [endsName, Bool.and_eq_true, Bool.not_eq_true', decide_eq_true_eq] at hr
      have hnone : nameChar? Identifier.isPart (d :: rest) = none := by
        unfold nameChar?
        split
        · next he => exact absurd (List.cons.inj he).1 hr.2
        · rfl
        · next he =>
          cases he
          simp only [hr.1, Bool.false_eq_true, ↓reduceIte]
        · rfl
      simp only [List.nil_append, nameRest, hnone, List.head?_cons, Option.some.injEq, hr.2,
        ↓reduceIte, List.append_nil]
  | cons c cs ih =>
    intro fuel acc hf
    obtain ⟨fuel, rfl⟩ := Nat.exists_eq_succ_of_ne_zero (Nat.ne_of_gt (Nat.zero_lt_of_lt hf))
    obtain ⟨hc, hcs⟩ := List.forall_mem_cons.1 hcs
    rw [List.cons_append, nameRest, nameChar?_of_accepts (ne_backslash_of_isPart hc) hc]
    simp only [Bool.or_false]
    rw [ih hcs (Nat.lt_of_succ_lt_succ hf), List.reverse_cons, List.append_assoc]
    rfl

theorem name?_append (hn : Identifier.isName n = true) (hr : endsName rest = true) :
    name? (n.toList ++ rest) = some (n, false, rest) := by
  unfold Identifier.isName at hn
  split at hn
  · cases hn
  · next c cs hcs =>
    rw [Bool.and_eq_true, List.all_eq_true] at hn
    obtain ⟨hc, hparts⟩ := hn
    have hfuel : cs.length < ((cs ++ rest).takeWhile occursInName).length + 1 := by
      rw [List.takeWhile_append_of_pos fun d hd => by
        simp only [occursInName, hparts d hd, Bool.true_or], List.length_append]
      exact Nat.lt_succ_of_le (Nat.le_add_right _ _)
    have hback := ne_backslash_of_isPart (Identifier.isPart_of_isStart hc)
    rw [hcs, List.cons_append, name?, nameChar?_of_accepts hback hc]
    simp only [Option.bind_eq_bind, Option.bind_some, nameRest_append hparts hr hfuel,
      List.reverse_singleton, List.singleton_append]
    rw [← hcs, String.ofList_toList]

/-- The characters that make another token than a name. -/
def marks : List Char := "{}\x60\"'#.0123456789".toList

theorem isStart_of_mem_marks (h : c ∈ marks) : Identifier.isStart c = false := by
  have hall : marks.all (fun d => !Identifier.isStart d) = true := by decide +kernel
  rw [← Bool.not_eq_true']
  exact List.all_eq_true.1 hall c h

theorem isDigit_of_isStart (h : Identifier.isStart c = true) : c.isDigit = false := by
  rw [Bool.eq_false_iff]
  intro hd
  have hmem : c ∈ marks := by
    rw [Char.isDigit, Bool.and_eq_true, decide_eq_true_eq, decide_eq_true_eq] at hd
    have hnat : 48 ≤ c.toNat ∧ c.toNat ≤ 57 := hd
    have hdigits : ∀ n < 58, 48 ≤ n → Char.ofNat n ∈ marks := by decide
    rw [← Char.ofNat_toNat c]
    exact hdigits c.toNat (Nat.lt_succ_of_le hnat.2) hnat.1
  rw [isStart_of_mem_marks hmem] at h
  cases h

theorem token?_name (hn : Identifier.isName n = true) (hr : endsName rest = true) :
    token? (n.toList ++ rest) = some (.name n false, rest) := by
  have hname := name?_append hn hr
  unfold Identifier.isName at hn
  split at hn
  · cases hn
  · next c cs hcs =>
    rw [Bool.and_eq_true] at hn
    have hc := hn.1
    have hmark : c ∉ marks := fun hm => by
      rw [isStart_of_mem_marks hm] at hc
      cases hc
    rw [hcs, List.cons_append] at hname ⊢
    unfold token?
    split
    case h_8 he =>
      cases he
      have hdot : c ≠ '.' := fun he => hmark (he ▸ by decide)
      simp only [isDigit_of_isStart hc, hdot, hc, decide_false, Bool.false_and, Bool.or_false,
        Bool.true_or, Bool.false_eq_true, ↓reduceIte, hname, Option.map_some]
    case h_1 he => cases he
    all_goals
      next he =>
        cases he
        exact absurd (by decide) hmark

/-- A dot before a name belongs to no number. -/
theorem token?_dot (hn : Identifier.isName n = true) :
    token? ('.' :: (n.toList ++ rest)) = some (.punct ".", n.toList ++ rest) := by
  unfold Identifier.isName at hn
  split at hn
  · cases hn
  · next c cs hcs =>
    rw [Bool.and_eq_true] at hn
    have hdot : '.' ≠ c := by
      rintro rfl
      exact absurd hn.1 (by decide)
    have hdigit := isDigit_of_isStart hn.1
    have hdrop : ('.' :: c :: (cs ++ rest)).drop ".".length = c :: (cs ++ rest) := rfl
    have hpunct : punct? ('.' :: c :: (cs ++ rest)) = some (.punct ".", c :: (cs ++ rest)) := by
      simp [punct?, Token.puncts, startsWith, hdot, hdrop]
    have hself : Char.isDigit '.' = false ∧ Identifier.isStart '.' = false := by decide
    rw [hcs, List.cons_append]
    simp [token?, hdigit, hpunct, hself]

end Names

section Quotes

variable {rest : List Char} {c : Char} {cs : List Char} {fuel : Nat}

theorem hexValue?_hexDigit : ∀ n < 16, hexValue? (Text.hexDigit n) = some n := by decide

theorem escape?_control (h : c.toNat < 32) :
    escape? ('u' :: '0' :: '0' :: Text.hexDigit (c.toNat / 16) :: Text.hexDigit (c.toNat % 16) ::
      cs) = some (some (.char c), cs) := by
  have hhigh := hexValue?_hexDigit (c.toNat / 16) (by omega)
  have hlow := hexValue?_hexDigit (c.toNat % 16) (by omega)
  have hzero : hexValue? '0' = some 0 := rfl
  have hvalue : (0 * 16 + 0 + 0) * 16 + c.toNat / 16 = c.toNat / 16 := by omega
  have hunicode : unicodeEscape? ('0' :: '0' :: Text.hexDigit (c.toNat / 16) ::
      Text.hexDigit (c.toNat % 16) :: cs) = some (c.toNat, cs) := by
    have hsum : c.toNat / 16 * 16 + c.toNat % 16 = c.toNat := by omega
    simp [unicodeEscape?, hexDigits?, ofDigits, hhigh, hlow, hzero, hsum]
  have hunit : unicodeUnit? ('0' :: '0' :: Text.hexDigit (c.toNat / 16) ::
      Text.hexDigit (c.toNat % 16) :: cs) = some (.char c, cs) := by
    have hsmall : ¬ 0xd800 ≤ c.toNat := by omega
    simp [unicodeUnit?, hunicode, hsmall, Char.ofNat_toNat]
  simp only [escape?, hunit, Option.map_some]

theorem stringUnits_quotedChar (fuel : Nat) (acc : List Unit16) :
    stringUnits '"' (fuel + 1) acc (Text.quotedChar c ++ cs) =
      stringUnits '"' fuel (.char c :: acc) cs := by
  have hof {n : Nat} (h : c.toNat = n) : Char.ofNat n = c := h ▸ Char.ofNat_toNat c
  unfold Text.quotedChar
  split
  · next h => subst h; rfl
  split
  · next h => subst h; rfl
  split
  · next h => rw [← hof h]; rfl
  split
  · next h => rw [← hof h]; rfl
  split
  · next h => rw [← hof h]; rfl
  split
  · next h => rw [← hof h]; rfl
  split
  · next h => rw [← hof h]; rfl
  split
  · next h =>
    simp only [List.cons_append, List.nil_append, stringUnits, escape?_control h,
      Option.bind_eq_bind, Option.bind_some, Option.toList_some]
  · next hquote hback _ _ hfeed _ hreturn _ =>
    have hne : ¬ (c = '\n' ∨ c = '\r') := by
      rintro (rfl | rfl)
      · exact hfeed rfl
      · exact hreturn rfl
    rw [List.singleton_append, stringUnits, if_neg hquote]
    · simp only [Bool.or_eq_true, decide_eq_true_eq, hne, ↓reduceIte]
    · exact hback

theorem rawString_cons (hback : c ≠ '\\') (hquote : c ≠ '"') :
    rawString '"' (c :: cs) = c :: rawString '"' cs := by
  rw [rawString, if_neg hquote]
  exact fun d ds he => absurd he hback

theorem rawString_quotedChar :
    rawString '"' (Text.quotedChar c ++ cs) = Text.quotedChar c ++ rawString '"' cs := by
  unfold Text.quotedChar
  split
  · rfl
  split
  · rfl
  split
  · rfl
  split
  · rfl
  split
  · rfl
  split
  · rfl
  split
  · rfl
  split
  · have hdigit : ∀ n < 16, Text.hexDigit n ≠ '\\' ∧ Text.hexDigit n ≠ '"' := by decide
    obtain ⟨hhigh, hhigh'⟩ := hdigit (c.toNat / 16) (by omega)
    obtain ⟨hlow, hlow'⟩ := hdigit (c.toNat % 16) (by omega)
    have hzero : '0' ≠ '\\' ∧ '0' ≠ '"' := by decide
    simp only [List.cons_append, List.nil_append, rawString, rawString_cons hzero.1 hzero.2,
      rawString_cons hhigh hhigh', rawString_cons hlow hlow']
  · next hquote hback _ _ _ _ _ _ =>
    rw [List.singleton_append, List.singleton_append, rawString_cons hback hquote]

theorem rawString_quoted (cs : List Char) :
    rawString '"' (cs.flatMap Text.quotedChar ++ '"' :: rest) = cs.flatMap Text.quotedChar := by
  induction cs with
  | nil => rfl
  | cons c cs ih => rw [List.flatMap_cons, List.append_assoc, rawString_quotedChar, ih]

theorem stringUnits_quoted (hf : cs.length < fuel) (acc : List Unit16) :
    stringUnits '"' fuel acc (cs.flatMap Text.quotedChar ++ '"' :: rest) =
      some (acc.reverse ++ cs.map .char, rest) := by
  induction cs generalizing fuel acc with
  | nil =>
    obtain ⟨fuel, rfl⟩ := Nat.exists_eq_succ_of_ne_zero (Nat.ne_of_gt hf)
    simp [stringUnits]
  | cons c cs ih =>
    obtain ⟨fuel, rfl⟩ := Nat.exists_eq_succ_of_ne_zero (Nat.ne_of_gt (Nat.zero_lt_of_lt hf))
    rw [List.flatMap_cons, List.append_assoc, stringUnits_quotedChar,
      ih (Nat.lt_of_succ_lt_succ hf), List.reverse_cons, List.append_assoc]
    rfl

theorem length_le_quoted (cs : List Char) : cs.length ≤ (cs.flatMap Text.quotedChar).length := by
  have hpos (c : Char) : 1 ≤ (Text.quotedChar c).length := by
    unfold Text.quotedChar
    repeat' split
    all_goals exact Nat.le_add_left 1 _
  induction cs with
  | nil => exact Nat.le_refl 0
  | cons c cs ih =>
    rw [List.flatMap_cons, List.length_append, List.length_cons, Nat.add_comm]
    exact Nat.add_le_add (hpos c) ih

theorem ofUnits_char (cs : List Char) : ofUnits (cs.map .char) = (String.ofList cs, false) := by
  have htext : cs.flatMap (fun c => [c]) = cs := List.flatMap_singleton' cs
  simp [ofUnits, List.any_map, List.flatMap_map, Function.comp_def, htext]

theorem token?_quote (s : String) :
    token? ((Text.quote s).toList ++ rest) = some (.string s false, rest) := by
  have hquote : (Text.quote s).toList ++ rest =
      '"' :: (s.toList.flatMap Text.quotedChar ++ '"' :: rest) := by
    rw [Text.quote, String.toList_ofList, List.cons_append, List.cons_append, List.append_assoc]
    rfl
  have hunits : stringUnits '"' ((s.toList.flatMap Text.quotedChar).length + 1) []
      (s.toList.flatMap Text.quotedChar ++ '"' :: rest) = some (s.toList.map .char, rest) :=
    stringUnits_quoted (Nat.lt_succ_of_le (length_le_quoted s.toList)) []
  simp only [hquote, token?, string?, rawString_quoted, hunits, Option.bind_eq_bind,
    Option.bind_some, ofUnits_char, String.ofList_toList]

end Quotes

namespace Spells

variable {rest : List Char} {ts : Tokens}

protected theorem name {n : String} (hn : Identifier.isName n = true)
    (hr : endsName rest = true) (h : Spells rest ts) :
    Spells (n.toList ++ rest) ((.name n false, false) :: ts) := by
  refine .token ?_ (token?_name hn hr) nofun h
  unfold Identifier.isName at hn
  split at hn
  · cases hn
  · next hcs =>
    rw [hcs]
    rw [Bool.and_eq_true] at hn
    exact opensToken_of_isStart hn.1

protected theorem quote (s : String) (h : Spells rest ts) :
    Spells ((Text.quote s).toList ++ rest) ((.string s false, false) :: ts) := by
  refine .token ?_ (token?_quote s) (fun _ _ he => by rw [(Token.string.inj he).1]) h
  rw [Text.quote, String.toList_ofList]
  rfl

protected theorem word (w : String) (ho : opensToken w.toList = true)
    (ht : token? (w.toList ++ rest) = some (.name w false, rest)) (h : Spells rest ts) :
    Spells (w.toList ++ rest) ((.name w false, false) :: ts) := .token ho ht nofun h

protected theorem sign (p : String) (ho : opensToken p.toList = true)
    (ht : token? (p.toList ++ rest) = some (.punct p, rest)) (h : Spells rest ts) :
    Spells (p.toList ++ rest) ((.punct p, false) :: ts) := .token ho ht nofun h

protected theorem openBrace (h : Spells rest ts) :
    Spells ('{' :: rest) ((.openBrace, false) :: ts) :=
  @Spells.token .openBrace ['{'] rest ts rfl rfl nofun h

protected theorem closeBrace (h : Spells rest ts) :
    Spells ('}' :: rest) ((.closeBrace, false) :: ts) :=
  @Spells.token .closeBrace ['}'] rest ts rfl rfl nofun h

theorem length_le {cs : List Char} (h : Spells cs ts) : ts.length ≤ cs.length := by
  induction h with
  | done => exact Nat.le_refl 0
  | @token t text rest ts ho ht hq h ih =>
    cases text with
    | nil => cases ho
    | cons c text =>
      rw [List.length_cons, List.length_append, List.length_cons]
      omega
  | blank h ih => exact Nat.le_succ_of_le ih
  | newLine h ih => exact Nat.le_succ_of_le ih

end Spells

section Texts

variable {text text' : String} {ts ts' : Tokens}

/-- The tokens of a text which anything may follow that does not go on with a name. -/
def Spelled (text : String) (ts : Tokens) : Prop :=
  ∀ (rest : List Char) (more : Tokens), endsName rest = true → Spells rest more →
    Spells (text.toList ++ rest) (ts ++ more)

/-- The tokens of a text which anything may follow. -/
def Closed (text : String) (ts : Tokens) : Prop :=
  ∀ (rest : List Char) (more : Tokens), Spells rest more →
    Spells (text.toList ++ rest) (ts ++ more)

theorem Closed.spelled (h : Closed text ts) : Spelled text ts :=
  fun rest more _ hrest => h rest more hrest

theorem Closed.append (h : Closed text ts) (h' : Closed text' ts') :
    Closed (text ++ text') (ts ++ ts') := by
  intro rest more hrest
  rw [String.toList_append, List.append_assoc, List.append_assoc]
  exact h _ _ (h' _ _ hrest)

theorem Closed.before (h : Closed text ts) (h' : Spelled text' ts') :
    Spelled (text ++ text') (ts ++ ts') := by
  intro rest more hr hrest
  rw [String.toList_append, List.append_assoc, List.append_assoc]
  exact h _ _ (h' _ _ hr hrest)

/-- What does not go on with a name may follow. -/
theorem Spelled.append (h : Spelled text ts) (h' : Closed text' ts')
    (he : ∀ rest, endsName (text'.toList ++ rest) = true) :
    Closed (text ++ text') (ts ++ ts') := by
  intro rest more hrest
  rw [String.toList_append, List.append_assoc, List.append_assoc]
  exact h _ _ (he rest) (h' _ _ hrest)

theorem spelled_name {n : String} (h : Identifier.isName n = true) : Spelled n [word n] :=
  fun _ _ hr hrest => .name h hr hrest

theorem spelled_member {n : String} (h : Identifier.isName n = true) :
    Spelled ("." ++ n) [sign ".", word n] := by
  intro rest more hr hrest
  rw [String.toList_append, List.append_assoc]
  exact .sign "." rfl (token?_dot h) (.name h hr hrest)

theorem closed_quote (s : String) : Closed (Text.quote s) [(.string s false, false)] :=
  fun _ _ hrest => .quote s hrest

def separated : List Tokens → Tokens
  | [] => []
  | [item] => item
  | item :: items => item ++ sign "," :: separated items

theorem closed_comma : Closed ", " [sign ","] := fun _ _ h => .sign "," rfl rfl (.blank h)

theorem spelled_intercalate {texts : List String} {items : List Tokens}
    (h : List.Forall₂ Spelled texts items) :
    Spelled (", ".intercalate texts) (separated items) := by
  induction h with
  | nil => exact fun _ _ _ hrest => hrest
  | @cons text item texts items hitem hitems ih =>
    cases hitems with
    | nil =>
      rw [String.intercalate_singleton]
      exact hitem
    | @cons text' item' texts items hitem' hitems =>
      rw [String.intercalate_cons_cons]
      have hcomma := hitem.append closed_comma fun _ => rfl
      have hall := hcomma.before ih
      rw [List.append_assoc] at hall
      exact hall

end Texts

theorem trivia_of_opensToken {mayLead : Bool} {t : Trivia} {cs : List Char}
    (h : opensToken cs = true) : trivia mayLead none t cs = some (t, cs) := by
  cases cs with
  | nil => cases h
  | cons c cs =>
    rw [opensToken, Bool.and_eq_true, Bool.and_eq_true, Bool.not_eq_true', Bool.not_eq_true',
      decide_eq_true_eq] at h
    obtain ⟨⟨hslash, hend⟩, hblank⟩ := h
    rw [trivia, hend, hblank]
    · rfl
    all_goals exact fun _ he _ => hslash he

theorem Spells.exists_trivia {cs : List Char} {ts : Tokens} (h : Spells cs ts) (mayLead l : Bool) :
    ∃ start rest,
      trivia mayLead none { hasLineEnd := l } cs =
        some ({ hasLineEnd := l || ts.onNewLine }, start) ∧
      token? start = some (ts.first, rest) ∧
      (∀ value lone, ts.first = .string value lone → start = (Text.quote value).toList ++ rest) ∧
      Spells rest ts.tail := by
  induction h generalizing l with
  | done =>
    refine ⟨[], [], ?_, rfl, nofun, .done⟩
    rw [Tokens.onNewLine, Bool.or_false]
    rfl
  | @token t text rest ts ho ht hq h ih =>
    have hstart (value : String) (lone : Bool) (he : t = .string value lone) :
        text ++ rest = (Text.quote value).toList ++ rest := by rw [hq value lone he]
    refine ⟨text ++ rest, rest, ?_, ht, hstart, h⟩
    have hopens : opensToken (text ++ rest) = true := by
      cases text with
      | nil => cases ho
      | cons c text => exact ho
    rw [Tokens.onNewLine, Bool.or_false, trivia_of_opensToken hopens]
  | blank h ih => exact ih l
  | newLine h ih =>
    obtain ⟨start, rest, htrivia, htoken, hquote, hrest⟩ := ih true
    refine ⟨start, rest, ?_, htoken, hquote, hrest⟩
    rw [Tokens.onNewLine, Bool.or_true]
    cases l <;> exact htrivia

end ScriptBundler.Lexer
