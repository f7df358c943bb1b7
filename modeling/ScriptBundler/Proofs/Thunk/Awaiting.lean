import ScriptBundler.Proofs.Thunk.Awaits
import ScriptBundler.Proofs.Thunk.Leftover
import ScriptBundler.Proofs.Thunk.Lowering

namespace ScriptBundler.Thunk

open Node

variable {origin url : String} {style : Style} {body result : List Stmt} {links : Links}
  {es : List BuildError}

/-- An await is reported for one reason only. -/
theorem Ends.awaits_of_mem {links' : Links}
    (h : Ends origin style body links (.error es) links') (he : .topLevelAwait url ∈ es) :
    (Scope.ofBody body).hasAwait = true ∧ style.strategy = .eager := by
  cases h with
  | awaits await eager => exact ⟨await, eager⟩
  | refused initial linked ne subset =>
    obtain ⟨chain, hchain⟩ := linked.exists_chain _ (subset he)
    cases hchain
  | reserved linked mem => cases List.mem_singleton.1 he

theorem ofBody_of_hasAwait (h : (Scope.ofBody body).hasAwait = true)
    (hs : style.strategy = .eager) :
    ofBody origin style body links = (.error [.topLevelAwait origin], links) := by
  rw [ofBody]
  exact if_pos (by rw [h, hs]; rfl)

theorem hasAny_outerAwait_of_ok (h : (ofBody origin style body links).1 = .ok result)
    (hs : style.strategy = .eager) (ha : HasAny Mark.IsOuterAwait none (result.map .stmt)) :
    HasAny Mark.IsOuterAwait none (body.map .stmt) := by
  obtain ⟨rfl, -, -⟩ := ofBody_ok h
  have hyield : ¬ Mark.IsOuterAwait none .yield := fun hq => nomatch hq.2
  have hlazy : style.strategy = .lazy → ¬ Mark.IsOuterAwait none .await := by
    intro hl
    rw [hs] at hl
    cases hl
  rw [hasAny_statements hyield origin style body hlazy, hasAny_flatMap] at ha
  obtain ⟨s, hmem, n, hn, hhas⟩ := ha
  exact ⟨.stmt s, List.mem_map_of_mem hmem, Stmt.has_of_leftover hn hhas⟩

/-- What becomes of the awaits of a body. -/
structure GuardsAwaits (origin : String) (bare : Bool) (body : List Stmt) (links : Links) :
    Prop where
  reported : (∃ es url, (ofBody origin ⟨.eager, bare⟩ body links).1 = .error es ∧
    .topLevelAwait url ∈ es) ↔ HasAny Mark.IsOuterAwait none (body.map .stmt)
  unlinked : HasAny Mark.IsOuterAwait none (body.map .stmt) →
    ofBody origin ⟨.eager, bare⟩ body links = (.error [.topLevelAwait origin], links)
  plain : ∀ result, (ofBody origin ⟨.eager, bare⟩ body links).1 = .ok result →
    ¬ HasAny Mark.IsOuterAwait none (result.map .stmt)
  allowed : ∀ es, (ofBody origin ⟨.lazy, bare⟩ body links).1 = .error es →
    ∀ url, .topLevelAwait url ∉ es

theorem ofBody_guardsAwaits (origin : String) (bare : Bool) (body : List Stmt) (links : Links) :
    GuardsAwaits origin bare body links := by
  have hrefused (h : HasAny Mark.IsOuterAwait none (body.map .stmt)) :
      ofBody origin ⟨.eager, bare⟩ body links = (.error [.topLevelAwait origin], links) :=
    ofBody_of_hasAwait ((Scope.hasAwait_iff body).2 h) rfl
  constructor
  · constructor
    · rintro ⟨es, url, h, he⟩
      have hends := ofBody_ends origin ⟨.eager, bare⟩ body links
      rw [h] at hends
      exact (Scope.hasAwait_iff body).1 (hends.awaits_of_mem he).1
    · intro h
      rw [hrefused h]
      exact ⟨_, origin, rfl, List.mem_singleton_self _⟩
  · exact hrefused
  · intro result h ha
    have hbody := hasAny_outerAwait_of_ok h rfl ha
    rw [hrefused hbody] at h
    cases h
  · intro es h url he
    have hends := ofBody_ends origin ⟨.lazy, bare⟩ body links
    rw [h] at hends
    cases (hends.awaits_of_mem he).2

example : (ofBody "/a.js" ⟨.eager, false⟩ [.decl (.classDef (.mk [] {} (some "C") none
    [.field [] [] (.computed (.await (.ident "k"))) "" none]))] links).1 =
    .error [.topLevelAwait "/a.js"] := rfl

end ScriptBundler.Thunk
