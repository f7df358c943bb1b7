import ScriptBundler.Proofs.Thunk.Exports
import ScriptBundler.Proofs.Thunk.Lowering

namespace ScriptBundler

namespace Graph

variable {g g' : Graph} {origin : String} {refs : List String} {es : List BuildError}

theorem Linked.exports_of_ne (h : Linked origin g refs es g') {u : String} (hne : u ≠ origin) :
    g'.exports u = g.exports u := by
  induction h with
  | refl => rfl
  | require _ url ih => exact (exports_require _ _ _ _).trans ih
  | addExport _ name binding ih =>
    rw [exports, Graph.addExport, find?_update, if_neg hne]
    exact ih

/-- Whatever else the graph holds, a module that is not refused requires what it refers to. -/
theorem Linked.requires_of_nil (h : Linked origin g refs es g') (ho : origin ∈ g.urls)
    (he : es = []) {before : List String} (hb : g.requires origin = distinct before) :
    origin ∈ g'.urls ∧ g'.requires origin = distinct (before ++ refs) := by
  induction h with
  | refl => exact ⟨ho, by rw [List.append_nil, hb]⟩
  | @require refs es g' h url ih =>
    obtain ⟨hes, hnone⟩ := List.append_eq_nil_iff.1 he
    obtain ⟨ho', hr⟩ := ih hes
    refine ⟨mem_urls_require url ho', ?_⟩
    have hoa : origin ∈ (g'.add url).urls := mem_urls_add.2 (.inl ho')
    have hmem : url ∈ before ++ refs ↔ (g'.add url).Requires origin url := by
      rw [Requires, requires_add, hr, mem_distinct]
    rw [← List.append_assoc, distinct_concat]
    rw [Graph.require] at hnone ⊢
    have hua : url ∈ (g'.add url).urls := mem_urls_add.2 (.inr rfl)
    rcases addEdge_cases hoa hua with ⟨hq, ha⟩ | ⟨-, path, -, ha⟩ | ⟨hq, -, ha⟩
    · rw [ha, if_pos (hmem.2 hq), requires_add, hr]
    · rw [ha] at hnone
      cases hnone
    · rw [ha, if_neg (hmem.not.2 hq), requires_join hoa hua hq, if_pos rfl, requires_add, hr]
  | @addExport _ _ g' _ name binding ih =>
    obtain ⟨ho', hr⟩ := ih he
    rw [urls_addExport, (sameLinks_addExport g' origin name binding).requires]
    exact ⟨ho', hr⟩

end Graph

namespace Thunk

variable {origin : String} {style : Style} {body result : List Stmt} {links : Links}

def exportsOf (origin : String) (body : List Stmt) : ExportMap :=
  ExportMap.record [] (body.flatMap (Stmt.bindings (Url.resolve origin) (Scope.ofBody body)))

/-- A module that is known and was not linked yet. -/
structure Unlinked (links : Links) (origin : String) : Prop where
  known : origin ∈ links.graph.urls
  requires : links.graph.requires origin = []
  exports : links.graph.exports origin = []

theorem ofBody_eq (hu : Unlinked links origin)
    (h : (ofBody origin style body links).1 = .ok result) :
    result = (piecesOf origin style body).statements style.strategy ∧
      (ofBody origin style body links).2.graph.requires origin =
        distinct (referencesOf origin body) ∧
      (ofBody origin style body links).2.graph.exports origin = exportsOf origin body := by
  have hexports := exports_ofBody hu.known h
  rw [hu.exports] at hexports
  obtain ⟨hresult, linked, -⟩ := ofBody_ok h
  have hbefore : links.graph.requires origin = distinct [] := hu.requires
  obtain ⟨-, hrequires⟩ := linked.requires_of_nil hu.known rfl hbefore
  exact ⟨hresult, hrequires, hexports⟩

theorem exports_ofBody_of_ne (h : (ofBody origin style body links).1 = .ok result) {u : String}
    (hne : u ≠ origin) :
    (ofBody origin style body links).2.graph.exports u = links.graph.exports u := by
  obtain ⟨-, linked, -⟩ := ofBody_ok h
  exact linked.exports_of_ne hne

theorem ofBody_sound (h : (ofBody origin style body links).1 = .ok result) :
    ((Scope.ofBody body).hasAwait && style.strategy = .eager) = false ∧
      "yield" ∉ importedLocals body := by
  constructor
  · rw [Bool.eq_false_iff]
    intro hawait
    simp only [ofBody] at h
    rw [if_pos hawait] at h
    cases h
  · obtain ⟨-, -, hyield⟩ := ofBody_ok h
    exact hyield

end Thunk

end ScriptBundler
