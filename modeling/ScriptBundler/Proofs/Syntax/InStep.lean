import ScriptBundler.Proofs.Syntax.Walk

namespace ScriptBundler

variable {σ τ α β γ δ : Type}

/--
Computations that keep two states related. Their results are related too if the first one ends in a
good state, which it then started from as well.
-/
def InStep (rel : σ → τ → Prop) (good : σ → Prop) (result : α → β → Prop) (m : StateM σ α)
    (n : StateM τ β) : Prop :=
  ∀ s t, rel s t → rel (m.run s).2 (n.run t).2 ∧
    (good (m.run s).2 → good s ∧ result (m.run s).1 (n.run t).1)

namespace InStep

variable {rel : σ → τ → Prop} {good : σ → Prop} {result : α → β → Prop}

theorem pure {a : α} {b : β} (h : result a b) :
    InStep rel good result (pure a : StateM σ α) (pure b : StateM τ β) :=
  fun _ _ hs => ⟨hs, fun hg => ⟨hg, h⟩⟩

theorem bind {result' : γ → δ → Prop} {m : StateM σ α} {n : StateM τ β} {f : α → StateM σ γ}
    {g : β → StateM τ δ} (h : InStep rel good result m n)
    (hf : ∀ a b, InStep rel good (fun c d => result a b → result' c d) (f a) (g b)) :
    InStep rel good result' (m >>= f) (n >>= g) := by
  intro s t hs
  obtain ⟨hst, hr⟩ := h s t hs
  obtain ⟨hst', hr'⟩ := hf (m.run s).1 (n.run t).1 _ _ hst
  refine ⟨hst', fun hg => ?_⟩
  obtain ⟨hg', hq⟩ := hr' hg
  obtain ⟨hg'', hq'⟩ := hr hg'
  exact ⟨hg'', hq hq'⟩

theorem map {f : α → β} {m : StateM σ α} {n : StateM τ α} (h : InStep rel good Eq m n) :
    InStep rel good Eq (do return f (← m)) (do return f (← n)) :=
  h.bind fun _ _ => .pure (congrArg f)

theorem map₂ {f : α → β → γ} {m : StateM σ α} {n : StateM τ α} {m' : StateM σ β} {n' : StateM τ β}
    (h : InStep rel good Eq m n) (h' : InStep rel good Eq m' n') :
    InStep rel good Eq (do let a ← m; return f a (← m')) (do let a ← n; return f a (← n')) :=
  h.bind fun _ _ => h'.bind fun _ _ => .pure (by rintro rfl rfl; rfl)

theorem combines (rel : σ → τ → Prop) (good : σ → Prop) :
    Combines fun _ m n => InStep rel good Eq m n where
  pure _ := .pure rfl
  map _ h := h.map
  map₂ _ h h' := h.map₂ h'

end InStep

abbrev Visitor.Agree (rel : σ → τ → Prop) (good : σ → Prop) (v : Visitor σ) (w : Visitor τ) :
    Prop :=
  Visitor.Related (fun _ m n => InStep rel good Eq m n) v w

end ScriptBundler
