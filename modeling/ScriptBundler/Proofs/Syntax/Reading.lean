import ScriptBundler.Proofs.Syntax.Accepted
import ScriptBundler.Proofs.Syntax.Spelling

namespace ScriptBundler.Parser

open Lexer (Tokens Spells separated)

/-- The parser has come to the first of the tokens, which the text spells. -/
structure At (s : State) (ts : Tokens) : Prop where
  token : s.token = ts.first
  hasLineEnd : s.hasLineEnd = ts.onNewLine
  marksCall : s.marksCall = false
  marksFunction : s.marksFunction = false
  openDefaults : s.openDefaults = 0
  start : ∀ value lone, s.token = .string value lone →
    s.start = (Text.quote value).toList ++ s.rest
  rest : Spells s.rest ts.tail

/-- At the tokens `ts` the parser reads `a`, up to the tokens `ts'`. -/
def Reads {α : Type} (p : Parser α) (c : Context) (ts : Tokens) (a : α) (ts' : Tokens) : Prop :=
  ∀ s, At s ts → ∃ s', p c s = some (a, s') ∧ At s' ts'

def Refuses {α : Type} (p : Parser α) (c : Context) (ts : Tokens) : Prop :=
  ∀ s, At s ts → p c s = none

variable {α β : Type} {c : Context} {ts ts₁ ts₂ : Tokens} {t : Token} {l : Bool} {a : α} {b : β}
  {p : Parser α} {f : α → Parser β}

theorem bind_apply {s s' : State} (h : p c s = some (a, s')) : (p >>= f) c s = f a c s' := by
  have hbind : (p >>= f) c s = (p c s).bind fun r => f r.1 c r.2 := rfl
  rw [hbind, h]
  rfl

theorem bind_apply_none {s : State} (h : p c s = none) : (p >>= f) c s = none := by
  have hbind : (p >>= f) c s = (p c s).bind fun r => f r.1 c r.2 := rfl
  rw [hbind, h]
  rfl

/-- The next token is read off the text; a text starts like a line. -/
theorem advance_eq {s : State} (h : Spells s.rest ts) (hd : s.openDefaults = 0) :
    ∃ s', advance c s = some ((), s') ∧ s'.token = ts.first ∧
      s'.hasLineEnd = (s.token = .eof || ts.onNewLine) ∧ s'.marksCall = false ∧
      s'.marksFunction = false ∧ s'.openDefaults = 0 ∧
      (∀ value lone, s'.token = .string value lone →
        s'.start = (Text.quote value).toList ++ s'.rest) ∧ Spells s'.rest ts.tail := by
  obtain ⟨start, rest, htrivia, htoken, hquote, hrest⟩ := h.exists_trivia
    (s.token = .punct "=" || s.token = .punct "(") (s.token = .eof)
  have hget : (MonadState.get : Parser State) c s = some (s, s) := rfl
  have hlift : liftOption (Lexer.trivia (s.token = .punct "=" || s.token = .punct "(") none
      { hasLineEnd := s.token = .eof } s.rest) c s =
        some (({ hasLineEnd := s.token = .eof || ts.onNewLine }, start), s) :=
    congrArg (Option.map fun a => (a, s)) htrivia
  have hnext : liftOption (Lexer.properToken? start) c s =
      some ((⟨ts.first, Lexer.isProper_of_token? htoken⟩, rest), s) :=
    congrArg (Option.map fun a => (a, s)) (Lexer.properToken?_eq_some htoken)
  unfold advance
  rw [bind_apply hget, bind_apply hlift]
  dsimp only
  rw [bind_apply hnext]
  exact ⟨_, rfl, rfl, Bool.or_false _, rfl, rfl, hd, hquote, hrest⟩

namespace Reads

protected theorem pure : Reads (pure a : Parser α) c ts a ts := fun s hs => ⟨s, rfl, hs⟩

protected theorem bind (hp : Reads p c ts a ts₁) (hf : Reads (f a) c ts₁ b ts₂) :
    Reads (p >>= f) c ts b ts₂ := by
  intro s hs
  obtain ⟨s₁, hp, hs₁⟩ := hp s hs
  rw [bind_apply hp]
  exact hf s₁ hs₁

protected theorem map {g : α → β} (hp : Reads p c ts a ts₁) : Reads (g <$> p) c ts (g a) ts₁ := by
  intro s hs
  obtain ⟨s₁, hp, hs₁⟩ := hp s hs
  have hmap : (g <$> p) c s = (p c s).bind fun r => some (g r.1, r.2) := rfl
  exact ⟨s₁, by rw [hmap, hp]; rfl, hs₁⟩

protected theorem withReader {g : Context → Context} (hp : Reads p (g c) ts a ts₁) :
    Reads (withReader g p) c ts a ts₁ := hp

protected theorem read : Reads read c ts c ts := fun s hs => ⟨s, rfl, hs⟩

theorem get {f : State → Parser β} (hf : ∀ s, At s ts → Reads (f s) c ts b ts₁) :
    Reads (MonadState.get >>= f) c ts b ts₁ := by
  intro s hs
  exact hf s hs s hs

protected theorem current : Reads current c ts ts.first ts :=
  fun s hs => ⟨s, congrArg (fun t => some (t, s)) hs.token, hs⟩

protected theorem modify {g : State → State} (hg : ∀ s, At s ts → At (g s) ts) :
    Reads (modify g) c ts PUnit.unit ts := fun s hs => ⟨g s, rfl, hg s hs⟩

protected theorem hasLineEnd : Reads hasLineEnd c ts ts.onNewLine ts :=
  fun s hs => ⟨s, congrArg (fun l => some (l, s)) hs.hasLineEnd, hs⟩

protected theorem require {b : Bool} (hb : b = true) : Reads (require b) c ts () ts := by
  subst hb
  exact .pure

theorem yes {p : Parser Bool} {q q' : Parser β} (hp : Reads p c ts true ts₁)
    (hq : Reads q c ts₁ b ts₂) : Reads (p >>= fun x => if x = true then q else q') c ts b ts₂ :=
  hp.bind hq

theorem no {p : Parser Bool} {q q' : Parser β} (hp : Reads p c ts false ts₁)
    (hq : Reads q' c ts₁ b ts₂) : Reads (p >>= fun x => if x = true then q else q') c ts b ts₂ :=
  hp.bind hq

protected theorem advance (ht : t ≠ .eof) : Reads advance c ((t, l) :: ts) () ts := by
  intro s hs
  obtain ⟨s', h, htoken, hline, hcall, hfunction, hd, hstart, hrest⟩ :=
    advance_eq (c := c) hs.rest hs.openDefaults
  have hne : s.token ≠ .eof := hs.token ▸ ht
  rw [decide_eq_false hne, Bool.false_or] at hline
  exact ⟨s', h, htoken, hline, hcall, hfunction, hd, hstart, hrest⟩

theorem isAt_decide : Reads (Parser.isAt t) c ts (ts.first = t) ts := .bind .current .pure

protected theorem isAt (h : ts.first = t) : Reads (isAt t) c ts true ts :=
  decide_eq_true h ▸ isAt_decide

theorem notAt (h : ts.first ≠ t) : Reads (Parser.isAt t) c ts false ts :=
  decide_eq_false h ▸ isAt_decide

theorem eaten (ht : t ≠ .eof) : Reads (eatToken t) c ((t, l) :: ts) true ts :=
  .yes (.isAt rfl) (.bind (.advance ht) .pure)

theorem notEaten (h : ts.first ≠ t) : Reads (eatToken t) c ts false ts := .no (.notAt h) .pure

protected theorem expectToken (ht : t ≠ .eof) : Reads (expectToken t) c ((t, l) :: ts) () ts :=
  .bind (.eaten ht) (.require rfl)

protected theorem attempt (hp : Reads p c ts a ts₁) : Reads (attempt p) c ts (some a) ts₁ := by
  intro s hs
  obtain ⟨s₁, hp, hs₁⟩ := hp s hs
  refine ⟨s₁, ?_, hs₁⟩
  simp only [Parser.attempt, hp]

theorem attempt_none (hp : Refuses p c ts) : Reads (Parser.attempt p) c ts none ts := by
  intro s hs
  refine ⟨s, ?_, hs⟩
  simp only [Parser.attempt, hp s hs]

protected theorem looksAhead {p : Parser Bool} {b : Bool} (hp : Reads p c ts b ts₁) :
    Reads (looksAhead p) c ts b ts := by
  intro s hs
  obtain ⟨s₁, hp, -⟩ := hp s hs
  refine ⟨s, ?_, hs⟩
  simp only [Parser.looksAhead, hp]

theorem looksAhead_none {p : Parser Bool} (hp : Refuses p c ts) :
    Reads (Parser.looksAhead p) c ts false ts := by
  intro s hs
  refine ⟨s, ?_, hs⟩
  simp only [Parser.looksAhead, hp s hs]

protected theorem nextIs {q : State → Bool} {b : Bool} (ht : t ≠ .eof)
    (hq : ∀ s, At s ts → q s = b) : Reads (nextIs q) c ((t, l) :: ts) b ((t, l) :: ts) := by
  have hnext : Reads (do advance; return q (← MonadState.get)) c ((t, l) :: ts) b ts := by
    refine .bind (.advance ht) (.get fun s hs => ?_)
    rw [hq s hs]
    exact .pure
  exact hnext.looksAhead

theorem and_no {p q : Parser Bool} (hp : Reads p c ts false ts₁) :
    Reads (p <&&> q) c ts false ts₁ := hp.bind .pure

theorem and_yes {p q : Parser Bool} {b : Bool} (hp : Reads p c ts true ts₁)
    (hq : Reads q c ts₁ b ts₂) : Reads (p <&&> q) c ts b ts₂ := hp.bind hq

protected theorem leading (hc : c.keepsComments = false) : Reads leading c ts [] ts := by
  refine .get fun s _ => .bind .read ?_
  rw [hc]
  exact .pure

protected theorem liftOption {o : Option α} (h : o = some a) :
    Reads (liftOption o) c ts a ts := by
  subst h
  exact .pure

protected theorem anyName {n : String} {e : Bool} :
    Reads anyName c ((.name n e, l) :: ts) n ts :=
  .bind .current (.bind (.advance nofun) .pure)

protected theorem semicolon : Reads semicolon c ((.punct ";", l) :: ts) () ts :=
  .yes (.eaten nofun) .pure

theorem iterate_none {step : α → Parser (Option α)} {n : Nat} (hn : n ≠ 0)
    (h : Reads (step a) c ts none ts) : Reads (iterate step n a) c ts a ts := by
  cases n with
  | zero => exact absurd rfl hn
  | succ n => exact .bind h .pure

theorem iterate_some {step : α → Parser (Option α)} {n : Nat} {a' b : α}
    (h : Reads (step a) c ts (some a') ts₁) (h' : Reads (iterate step n a') c ts₁ b ts₂) :
    Reads (iterate step (n + 1) a) c ts b ts₂ := .bind h h'

end Reads

namespace Refuses

protected theorem failure : Refuses (failure : Parser α) c ts := fun _ _ => rfl

theorem first (hp : Refuses p c ts) : Refuses (p >>= f) c ts :=
  fun s hs => bind_apply_none (hp s hs)

protected theorem bind (hp : Reads p c ts a ts₁) (hf : Refuses (f a) c ts₁) :
    Refuses (p >>= f) c ts := by
  intro s hs
  obtain ⟨s₁, hp, hs₁⟩ := hp s hs
  rw [bind_apply hp]
  exact hf s₁ hs₁

protected theorem require {b : Bool} (hb : b = false) : Refuses (require b) c ts := by
  subst hb
  exact .failure

protected theorem expectToken (h : ts.first ≠ t) : Refuses (expectToken t) c ts :=
  .bind (.notEaten h) (.require rfl)

end Refuses

/-- At the tokens `ts` the parser reads what `o` holds, or fails if it holds nothing. -/
def Gives {α : Type} (p : Parser α) (c : Context) (ts : Tokens) (o : Option α) (ts' : Tokens) :
    Prop :=
  match o with
  | some a => Reads p c ts a ts'
  | none => Refuses p c ts

namespace Gives

variable {o : Option α} {o' : Option β}

/-- What is read first never fails. -/
theorem after (hp : Reads p c ts a ts₁) (hf : Gives (f a) c ts₁ o' ts₂) :
    Gives (p >>= f) c ts o' ts₂ := by
  cases o' with
  | none => exact Refuses.bind hp hf
  | some b => exact Reads.bind hp hf

protected theorem get {f : State → Parser β} (hf : ∀ s, At s ts → Gives (f s) c ts o' ts₁) :
    Gives (MonadState.get >>= f) c ts o' ts₁ := by
  cases o' with
  | none => exact fun s hs => hf s hs s hs
  | some b => exact Reads.get hf

theorem next {isBad : Bool} (hp : Gives p c ts (if isBad then none else some a) ts₁)
    (hf : Reads (f a) c ts₁ b ts₂) :
    Gives (p >>= f) c ts (if isBad then none else some b) ts₂ := by
  cases isBad with
  | true => exact Refuses.first hp
  | false => exact Reads.bind hp hf

protected theorem map {g : α → β} {isBad : Bool}
    (hp : Gives p c ts (if isBad then none else some a) ts₁) :
    Gives (g <$> p) c ts (if isBad then none else some (g a)) ts₁ := by
  cases isBad with
  | true =>
    intro s hs
    have hmap : (g <$> p) c s = (p c s).bind fun r => some (g r.1, r.2) := rfl
    rw [hmap, hp s hs]
    rfl
  | false => exact Reads.map hp

protected theorem withReader {g : Context → Context} (hp : Gives p (g c) ts o ts₁) :
    Gives (withReader g p) c ts o ts₁ := by
  cases o with
  | none => exact hp
  | some a => exact hp

end Gives

/-- Where `name` can be bound and referred to. -/
structure Context.Names (c : Context) (name : String) : Prop where
  bindable : IsBindable name
  yield : name = "yield" → c.inYield = false
  await : name = "await" → c.inAwait = false

theorem Reads.bindingName {n : String} {e : Bool} (hn : c.Names n) :
    Reads bindingName c ((.name n e, l) :: ts) n ts := by
  refine .bind .read (.bind .current ?_)
  refine .bind (.require ?_) (.bind (.require ?_) (.bind (.advance nofun) .pure))
  · rw [hn.bindable.free, Bool.not_false]
  · rw [Bool.and_eq_true, Bool.not_eq_true', Bool.not_eq_true', Bool.and_eq_false_iff,
      Bool.and_eq_false_iff, decide_eq_false_iff_not, decide_eq_false_iff_not]
    exact ⟨Decidable.or_iff_not_imp_left.2 fun h => hn.yield (not_not.1 h),
      Decidable.or_iff_not_imp_left.2 fun h => hn.await (not_not.1 h)⟩

section Lists

theorem separated_cons (i j : Tokens × α) (items : List (Tokens × α)) :
    separated ((i :: j :: items).map (·.1)) ++ ts =
      i.1 ++ (.punct ",", false) :: (separated ((j :: items).map (·.1)) ++ ts) := by
  simp only [List.map_cons, separated, List.append_assoc, List.cons_append]

def itemsFrom (close : Token) (item : Parser α) (rest : Parser (List α)) : Parser (List α) := do
  let a ← item
  if ← eat "," then return a :: (← rest)
  require (← isAt close)
  return [a]

variable {item : Parser α} {items : List (Tokens × α)} {close : Token}

/--
Items with commas between them up to a closing token, each given with its tokens, as a loop `p`
reads them. `isBad` says which values are refused; the first of them ends it.
-/
theorem Gives.loop (isBad : α → Bool) {p : Nat → Parser (List α)} (hcomma : close ≠ .punct ",")
    (hstop : ∀ n, Reads (p (n + 1)) c ((close, l) :: ts) [] ((close, l) :: ts))
    (hstep : ∀ n, ∀ i ∈ items, ∀ rest o ts',
      Gives (itemsFrom close item (p n)) c (i.1 ++ rest) o ts' →
        Gives (p (n + 1)) c (i.1 ++ rest) o ts')
    (hitem : ∀ i ∈ items, ∀ rest, rest.first = .punct "," ∨ rest.first = close →
      Gives item c (i.1 ++ rest) (if isBad i.2 then none else some i.2) rest) :
    ∀ {n}, items.length < n →
      Gives (p n) c (separated (items.map (·.1)) ++ (close, l) :: ts)
        (if items.any (isBad ·.2) then none else some (items.map (·.2))) ((close, l) :: ts) := by
  induction items with
  | nil =>
    intro n hn
    obtain ⟨n, rfl⟩ := Nat.exists_eq_succ_of_ne_zero (Nat.ne_of_gt hn)
    exact hstop n
  | cons i items ih =>
    intro n hn
    obtain ⟨n, rfl⟩ := Nat.exists_eq_succ_of_ne_zero (Nat.ne_of_gt (Nat.zero_lt_of_lt hn))
    obtain ⟨hi, hitems⟩ := List.forall_mem_cons.1 hitem
    -- a bad item ends the loop, whatever comes after it
    have hfrom := hstep n i List.mem_cons_self
    rw [List.any_cons]
    cases hbad : isBad i.2 with
    | true =>
      rw [hbad] at hi
      rw [Bool.true_or]
      cases items with
      | nil => exact hfrom _ none _ (Refuses.first (hi _ (.inr rfl)))
      | cons j items =>
        rw [separated_cons]
        exact hfrom _ none _ (Refuses.first (hi _ (.inl rfl)))
    | false =>
      rw [hbad] at hi
      rw [Bool.false_or]
      cases items with
      | nil =>
        refine hfrom _ (some [i.2]) _ (Reads.bind (hi _ (.inr rfl)) ?_)
        exact .no (.notEaten hcomma) (.bind (.isAt rfl) (.bind (.require rfl) .pure))
      | cons j items =>
        have hrest := ih (fun n i hi => hstep n i (List.mem_cons_of_mem _ hi)) hitems
          (Nat.lt_of_succ_lt_succ hn)
        rw [separated_cons]
        exact hfrom _ _ _ (.after (hi _ (.inl rfl)) (.after (.eaten nofun) (.next hrest .pure)))

protected theorem Reads.commaList (hcomma : close ≠ .punct ",")
    (hopen : ∀ i ∈ items, ∀ rest, (i.1 ++ rest).first ≠ close)
    (hitem : ∀ i ∈ items, ∀ rest, rest.first = .punct "," ∨ rest.first = close →
      Reads item c (i.1 ++ rest) i.2 rest) {n : Nat} (hn : items.length < n) :
    Reads (commaList close item n) c (separated (items.map (·.1)) ++ (close, l) :: ts)
      (items.map (·.2)) ((close, l) :: ts) := by
  have hloop : Gives (commaList close item n) c
      (separated (items.map (·.1)) ++ (close, l) :: ts)
      (if items.any fun _ => false then none else some (items.map (·.2))) ((close, l) :: ts) :=
    Gives.loop (fun _ => false) hcomma (fun n => .yes (.isAt rfl) .pure)
      (fun n i hi rest o ts' h => .after (.notAt (hopen i hi rest)) h) hitem hn
  rw [List.any_eq_false.2 fun _ _ => Bool.false_ne_true] at hloop
  exact hloop

/-- All items of a list satisfy `P`, at least up to the first bad one. -/
def UpToBad (isBad : β → Bool) (P : β → Prop) : List β → Prop
  | [] => True
  | b :: bs => P b ∧ (isBad b = false → UpToBad isBad P bs)

theorem UpToBad.of_forall {isBad : β → Bool} {P : β → Prop} {bs : List β} (h : ∀ b ∈ bs, P b) :
    UpToBad isBad P bs := by
  induction bs with
  | nil => trivial
  | cons b bs ih =>
    obtain ⟨hb, hbs⟩ := List.forall_mem_cons.1 h
    exact ⟨hb, fun _ => ih hbs⟩

theorem UpToBad.of_values {isBad : α → Bool} {P : α → Prop} {Q : Tokens × α → Prop}
    (h : UpToBad isBad P (items.map (·.2))) (hq : ∀ i ∈ items, P i.2 → Q i) :
    UpToBad (isBad ·.2) Q items := by
  induction items with
  | nil => trivial
  | cons i items ih =>
    obtain ⟨hi, hitems⟩ := List.forall_mem_cons.1 hq
    exact ⟨hi h.1, fun hb => ih (h.2 hb) hitems⟩

/--
One or more items with commas between them. `isBad` says which values are refused, and the first of
them ends it.
-/
protected theorem Gives.commaSeparated (isBad : α → Bool)
    (hitem : UpToBad (isBad ·.2) (fun i : Tokens × α => ∀ rest : Tokens,
      rest.first = .punct "," ∨ rest.first = ts.first →
        Gives item c (i.1 ++ rest) (if isBad i.2 then none else some i.2) rest) items)
    (hts : ts.first ≠ .punct ",") (hne : items ≠ []) :
    ∀ {n}, items.length ≤ n → Gives (commaSeparated item n) c (separated (items.map (·.1)) ++ ts)
      (if items.any (isBad ·.2) then none else some (items.map (·.2))) ts := by
  induction items with
  | nil => exact absurd rfl hne
  | cons i items ih =>
    intro n hn
    obtain ⟨n, rfl⟩ := Nat.exists_eq_succ_of_ne_zero (Nat.ne_of_gt (Nat.lt_of_lt_of_le
      (Nat.succ_pos _) hn))
    obtain ⟨hi, hitems⟩ := hitem
    rw [List.any_cons]
    cases hbad : isBad i.2 with
    | true =>
      rw [hbad] at hi
      rw [Bool.true_or]
      cases items with
      | nil => exact Refuses.first (hi ts (.inr rfl))
      | cons j items =>
        rw [separated_cons]
        exact Refuses.first (hi _ (.inl rfl))
    | false =>
      rw [hbad] at hi
      rw [Bool.false_or]
      cases items with
      | nil => exact Reads.bind (hi ts (.inr rfl)) (.no (.notEaten hts) .pure)
      | cons j items =>
        have hrest := ih (hitems hbad) (List.cons_ne_nil _ _) (Nat.le_of_succ_le_succ hn)
        rw [separated_cons]
        exact .after (hi _ (.inl rfl)) (.after (.eaten nofun) (.next hrest .pure))

end Lists

end ScriptBundler.Parser
