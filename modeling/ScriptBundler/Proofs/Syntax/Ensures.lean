import ScriptBundler.Syntax.Parser

namespace ScriptBundler.Parser

variable {α β : Type}

/-- All that `p` reads in a context of `C` satisfies `P`. -/
def EnsuresIn (C : Context → Prop) (p : Parser α) (P : α → Prop) : Prop :=
  ∀ c s a s', C c → p c s = some (a, s') → P a

/-- All that `p` reads outside of generators satisfies `P`. -/
abbrev Ensures (p : Parser α) (P : α → Prop) : Prop := EnsuresIn (fun c => c.inYield = false) p P

namespace EnsuresIn

variable {C D : Context → Prop} {p : Parser α} {f : α → Parser β} {P : α → Prop} {Q : β → Prop}

protected theorem pure {a : α} (h : P a) : EnsuresIn C (pure a : Parser α) P := by
  intro c s a' s' _ ha
  cases ha
  exact h

protected theorem none : EnsuresIn C (pure none : Parser (Option α)) (∀ a ∈ ·, P a) := .pure nofun

protected theorem some {a : α} (h : P a) : EnsuresIn C (pure (some a)) (∀ a ∈ ·, P a) := by
  apply EnsuresIn.pure
  intro a' ha
  cases ha
  exact h

protected theorem failure : EnsuresIn C (failure : Parser α) P := by
  intro c s a s' _ ha
  cases ha

protected theorem trivial : EnsuresIn C p fun _ => True := fun _ _ _ _ _ _ => True.intro

protected theorem bind (hp : EnsuresIn C p P) (hf : ∀ a, P a → EnsuresIn C (f a) Q) :
    EnsuresIn C (p >>= f) Q := by
  intro c s b s' hc hb
  obtain ⟨⟨a, t⟩, ha, hb⟩ := Option.bind_eq_some_iff.1 hb
  exact hf a (hp c s a t hc ha) c t b s' hc hb

theorem skip (hf : ∀ a, EnsuresIn C (f a) Q) : EnsuresIn C (p >>= f) Q :=
  EnsuresIn.trivial.bind fun a _ => hf a

protected theorem map {g : α → β} (hp : EnsuresIn C p P) (hg : ∀ a, P a → Q (g a)) :
    EnsuresIn C (g <$> p) Q := by
  intro c s b s' hc hb
  obtain ⟨⟨a, t⟩, ha, hb⟩ := Option.bind_eq_some_iff.1 hb
  cases hb
  exact hg a (hp c s a s' hc ha)

protected theorem read : EnsuresIn C read C := by
  intro c s a s' hc ha
  cases ha
  exact hc

protected theorem require (b : Bool) : EnsuresIn C (require b) fun _ => b = true := by
  cases b with
  | false => exact .failure
  | true => exact .pure rfl

protected theorem withReader {g : Context → Context} (hp : EnsuresIn D p P)
    (hg : ∀ c, C c → D (g c)) : EnsuresIn C (withReader g p) P := by
  intro c s a s' hc ha
  exact hp (g c) s a s' (hg c hc) ha

protected theorem commaSeparated (hp : EnsuresIn C p P) (n : Nat) :
    EnsuresIn C (commaSeparated p n) (∀ a ∈ ·, P a) := by
  induction n with
  | zero => exact .failure
  | succ n ih =>
    refine hp.bind fun a ha => .skip fun _ => ?_
    split
    · exact ih.bind fun as has => .pure (List.forall_mem_cons.2 ⟨ha, has⟩)
    · exact .pure (List.forall_mem_singleton.2 ha)

protected theorem many {p : Parser (Option α)} (hp : EnsuresIn C p (∀ a ∈ ·, P a)) (n : Nat) :
    EnsuresIn C (many p n) (∀ a ∈ ·, P a) := by
  induction n with
  | zero => exact .failure
  | succ n ih =>
    refine hp.bind fun o ho => ?_
    cases o with
    | none => exact .pure nofun
    | some a => exact ih.bind fun as has => .pure (List.forall_mem_cons.2 ⟨ho a rfl, has⟩)

protected theorem iterate {step : α → Parser (Option α)}
    (hs : ∀ a, P a → EnsuresIn C (step a) (∀ a' ∈ ·, P a')) (n : Nat) :
    ∀ {a}, P a → EnsuresIn C (iterate step n a) P := by
  induction n with
  | zero => exact fun _ => .failure
  | succ n ih =>
    intro a ha
    refine (hs a ha).bind fun o ho => ?_
    cases o with
    | none => exact .pure ha
    | some a' => exact ih (ho a' rfl)

protected theorem commaList (hp : EnsuresIn C p P) (close : Token) (n : Nat) :
    EnsuresIn C (commaList close p n) (∀ a ∈ ·, P a) := by
  induction n with
  | zero => exact .failure
  | succ n ih =>
    refine .skip fun isClosed => ?_
    split
    · exact .pure (List.forall_mem_nil _)
    · refine hp.bind fun a ha => .skip fun _ => ?_
      split
      · exact ih.bind fun as has => .pure (List.forall_mem_cons.2 ⟨ha, has⟩)
      · exact .skip fun _ => .skip fun _ => .pure (List.forall_mem_singleton.2 ha)

protected theorem listUntil (hp : EnsuresIn C p P) (close : Token) :
    EnsuresIn C (listUntil close p) (∀ a ∈ ·, P a) :=
  .skip fun _ => (hp.commaList close _).bind fun _ has => .skip fun _ => .pure has

protected theorem optional (hp : EnsuresIn C p P) : EnsuresIn C (some <$> p) (∀ a ∈ ·, P a) :=
  hp.map fun _ ha _ he => Option.some.inj he ▸ ha

protected theorem attempt (hp : EnsuresIn C p P) : EnsuresIn C (attempt p) (∀ a ∈ ·, P a) := by
  intro c s o s' hc ho a ha
  unfold attempt at ho
  split at ho
  · next he =>
    cases ho
    cases ha
    exact hp c s a s' hc he
  · cases ho
    cases ha

protected theorem liftOption {o : Option α} (h : ∀ a, o = some a → P a) :
    EnsuresIn C (liftOption o) P := by
  cases o with
  | none => exact .failure
  | some a => exact .pure (h a rfl)

end EnsuresIn

namespace Ensures

variable {p : Parser α} {P : α → Prop}

protected theorem withIn (hp : Ensures p P) : Ensures (withIn p) P :=
  hp.withReader fun _ hc => hc

protected theorem nested (hp : Ensures p P) : Ensures (nested p) P :=
  hp.withReader fun _ hc => hc

end Ensures

end ScriptBundler.Parser
