import Mathlib.Data.List.Basic
import ScriptBundler.Proofs.Thunk.Statement

namespace ScriptBundler

/-- The url of the module that an import or an export names. -/
def Stmt.sourceUrl? (origin : String) (s : Stmt) : Option String :=
  s.source?.map (Url.resolve origin)

/-- The url of the module that an export takes its names from. -/
def Stmt.reexportedUrl? (origin : String) : Stmt → Option String
  | .importDecl _ => none
  | s => s.sourceUrl? origin

namespace Thunk

/-- The urls that the imports and exports of a body name, in the order of the text. -/
def importedUrls (origin : String) (body : List Stmt) : List String :=
  distinct (body.filterMap (Stmt.sourceUrl? origin))

/-- The urls of the modules that the exports of a body take names from. -/
def reexportedUrls (origin : String) (body : List Stmt) : List String :=
  body.filterMap (Stmt.reexportedUrl? origin)

/-- All that a body imports from `url`, where `index` gives the positions of the groups. -/
def groupOf (origin : String) (bare : Bool) (index : String → Nat) (url : String)
    (body : List Stmt) : ImportGroup :=
  body.foldl (fun g s =>
    if s.sourceUrl? origin = some url then s.fill bare (index url) g else g) {}

def Pieces.ofBody (origin : String) (style : Style) (scope : Scope) (index : String → Nat)
    (body : List Stmt) : Pieces where
  imports := (importedUrls origin body).map fun url =>
    (url, groupOf origin style.bare index url body)
  passThroughs := body.flatMap
    (Stmt.passed (Url.resolve origin) style.bare fun url => ImportGroup.hiddenName (index url))
  body := body.flatMap fun s => s.kept (Url.resolve origin) style.bare ++
    s.published (Url.resolve origin) style.bare scope fun url => ImportGroup.hiddenName (index url)

section Groups

variable {origin url : String} {bare : Bool} {index : String → Nat} {body : List Stmt} {s : Stmt}

theorem nodup_importedUrls : (importedUrls origin body).Nodup := nodup_distinct _

theorem importedUrls_concat : importedUrls origin (body ++ [s]) =
    match s.sourceUrl? origin with
    | some url => if url ∈ importedUrls origin body then importedUrls origin body
        else importedUrls origin body ++ [url]
    | none => importedUrls origin body := by
  rw [importedUrls, List.filterMap_append]
  cases hs : s.sourceUrl? origin with
  | none => simp only [List.filterMap_cons, hs, List.filterMap_nil, List.append_nil, importedUrls]
  | some url =>
    simp only [List.filterMap_cons, hs, List.filterMap_nil, distinct_concat, importedUrls,
      mem_distinct]

theorem groupOf_concat : groupOf origin bare index url (body ++ [s]) =
    if s.sourceUrl? origin = some url
    then s.fill bare (index url) (groupOf origin bare index url body)
    else groupOf origin bare index url body := by
  rw [groupOf, List.foldl_append]
  rfl

theorem groupOf_of_not_mem (h : url ∉ importedUrls origin body) :
    groupOf origin bare index url body = {} := by
  induction body using List.reverseRecOn with
  | nil => rfl
  | append_singleton body s ih =>
    rw [importedUrls_concat] at h
    rw [groupOf_concat]
    cases hs : s.sourceUrl? origin with
    | none =>
      rw [hs] at h
      exact ih h
    | some u =>
      rw [hs] at h
      have hb : url ∉ importedUrls origin body ∧ url ≠ u := by
        simp only at h
        split at h
        · next hu => exact ⟨h, fun he => h (he ▸ hu)⟩
        · exact ⟨fun hm => h (List.mem_append_left _ hm),
            fun he => h (List.mem_append_right _ (List.mem_singleton.2 he))⟩
      rw [if_neg fun he => hb.2 (Option.some.inj he).symm, ih hb.1]

theorem hidden_foldl_addSpecifier (l : List ImportSpecifier) (g : ImportGroup) :
    (l.foldl ImportGroup.addSpecifier g).hidden = g.hidden := by
  induction l generalizing g with
  | nil => rfl
  | cons s l ih =>
    rw [List.foldl_cons, ih]
    cases s <;> rfl

theorem hidden_fill (hs : s.sourceUrl? origin = some url) (i : Nat) (g : ImportGroup) :
    (s.fill bare i g).hidden = if bare = false ∧ s.reexportedUrl? origin = some url
      then some (g.hidden.getD (ImportGroup.hiddenName i)) else g.hidden := by
  cases s with
  | importDecl d => exact (hidden_foldl_addSpecifier _ g).trans (if_neg fun h => nomatch h.2).symm
  | exportNames specifiers source =>
    cases source with
    | some source =>
      cases bare with
      | true => exact (if_neg fun h => nomatch h.1).symm
      | false => exact (if_pos ⟨rfl, hs⟩).symm
    | none => cases hs
  | exportAll exported source attributes =>
    cases bare with
    | true => exact (if_neg fun h => nomatch h.1).symm
    | false => exact (if_pos ⟨rfl, hs⟩).symm
  | _ => cases hs

theorem hidden_groupOf : (groupOf origin bare index url body).hidden =
    if bare = false ∧ url ∈ reexportedUrls origin body
      then some (ImportGroup.hiddenName (index url)) else none := by
  induction body using List.reverseRecOn with
  | nil => exact (if_neg fun h => nomatch h.2).symm
  | append_singleton body s ih =>
    have hmem : url ∈ reexportedUrls origin (body ++ [s]) ↔
        url ∈ reexportedUrls origin body ∨ s.reexportedUrl? origin = some url := by
      simp only [reexportedUrls, List.mem_filterMap, List.mem_append, List.mem_singleton,
        or_and_right, exists_or, exists_eq_left]
    simp only [groupOf_concat, hmem]
    split
    · next hs =>
      rw [hidden_fill hs, ih]
      cases bare with
      | true => simp only [Bool.true_eq_false, false_and, ↓reduceIte]
      | false =>
        by_cases hr : s.reexportedUrl? origin = some url
        · simp only [hr, and_self, or_true, ↓reduceIte]
          split <;> rfl
        · simp only [hr, and_false, or_false, ↓reduceIte]
    · next hs =>
      have hr : s.reexportedUrl? origin ≠ some url := fun hr => by
        cases s <;> first | exact hs hr | cases hr
      simp only [ih, hr, or_false]

theorem getD_hidden_groupOf : (groupOf origin bare index url body).hidden.getD
    (ImportGroup.hiddenName (index url)) = ImportGroup.hiddenName (index url) := by
  rw [hidden_groupOf]
  split <;> rfl

end Groups

section Lists

variable {urls : List String} {url : String} {G : String → ImportGroup}

theorem position_map : position url (urls.map fun u => (u, G u)) = urls.idxOf url := by
  rw [position, List.map_map]
  exact congrArg (List.idxOf url) (List.map_id _)

theorem groupAt_map (h : url ∉ urls → G url = {}) :
    groupAt url (urls.map fun u => (u, G u)) = G url := by
  rw [groupAt]
  induction urls with
  | nil => exact (h List.not_mem_nil).symm
  | cons u urls ih =>
    rw [List.map_cons, lookup_cons_eq]
    split
    · next he => rw [he, Option.getD_some]
    · next he => exact ih fun hn => h fun hm => (List.mem_cons.1 hm).elim he hn

theorem updateGroup_map {f : ImportGroup → ImportGroup} (hn : urls.Nodup)
    (h : url ∉ urls → G url = {}) :
    Drafting.updateGroup url f (urls.map fun u => (u, G u)) =
      (if url ∈ urls then urls else urls ++ [url]).map
        fun u => (u, if u = url then f (G u) else G u) := by
  induction urls with
  | nil => simp [Drafting.updateGroup, h]
  | cons u urls ih =>
    obtain ⟨hu, hurls⟩ := List.nodup_cons.1 hn
    rw [List.map_cons, Drafting.updateGroup]
    by_cases he : u = url
    · subst he
      have hrest : urls.map (fun v => (v, G v)) =
          urls.map fun v => (v, if v = u then f (G v) else G v) :=
        List.map_congr_left fun v hv => by rw [if_neg fun hvu : v = u => hu (hvu ▸ hv)]
      rw [if_pos rfl, if_pos List.mem_cons_self, List.map_cons, if_pos rfl, hrest]
    · have hmem : url ∈ u :: urls ↔ url ∈ urls :=
        ⟨fun hm => (List.mem_cons.1 hm).resolve_left (Ne.symm he), List.mem_cons_of_mem _⟩
      rw [if_neg he, ih hurls fun hn => h fun hm => hn (hmem.1 hm)]
      simp only [hmem]
      split
      · rw [List.map_cons, if_neg he]
      · rw [List.cons_append, List.map_cons, if_neg he]

end Lists

section Whole

variable {origin : String} {style : Style} {scope : Scope} {index : String → Nat}
  {body : List Stmt} {s : Stmt}

/-- A statement that names no module does the same for all hidden locals. -/
theorem passed_congr (bare : Bool) {hidden hidden' : String → String}
    (h : ∀ url, s.sourceUrl? origin = some url → hidden url = hidden' url) :
    s.passed (Url.resolve origin) bare hidden = s.passed (Url.resolve origin) bare hidden' := by
  unfold Stmt.passed
  split
  · rw [h _ rfl]
  · rfl

theorem published_congr (bare : Bool) (scope : Scope) {hidden hidden' : String → String}
    (h : ∀ url, s.sourceUrl? origin = some url → hidden url = hidden' url) :
    s.published (Url.resolve origin) bare scope hidden =
      s.published (Url.resolve origin) bare scope hidden' := by
  have he : s.exports (Url.resolve origin) scope hidden =
      s.exports (Url.resolve origin) scope hidden' := by
    unfold Stmt.exports
    split
    case h_2 => rw [h _ rfl]
    case h_4 => rw [h _ rfl]
    all_goals rfl
  rw [Stmt.published, Stmt.published, he]

theorem take_ofBody (h : ∀ url, s.sourceUrl? origin = some url →
      (importedUrls origin body).idxOf url = index url) :
    (Pieces.ofBody origin style scope index body).take origin style scope s =
      Pieces.ofBody origin style scope index (body ++ [s]) := by
  have hidden_eq : ∀ url, s.sourceUrl? origin = some url →
      hiddenAt (Pieces.ofBody origin style scope index body).imports url =
        ImportGroup.hiddenName (index url) := fun url hs => by
    rw [hiddenAt, Pieces.ofBody, position_map, groupAt_map groupOf_of_not_mem, h url hs]
    exact getD_hidden_groupOf
  have himports :
      ((Pieces.ofBody origin style scope index body).take origin style scope s).imports =
        (Pieces.ofBody origin style scope index (body ++ [s])).imports := by
    simp only [Pieces.take, Pieces.ofBody, importedUrls_concat, groupOf_concat]
    cases hs : s.source? with
    | none =>
      have hn : s.sourceUrl? origin = none := by rw [Stmt.sourceUrl?, hs, Option.map_none]
      simp only [hn, reduceCtorEq, ↓reduceIte]
    | some source =>
      have hu : s.sourceUrl? origin = some (Url.resolve origin source) := by
        rw [Stmt.sourceUrl?, hs, Option.map_some]
      simp only [hu, Option.some.injEq]
      rw [updateGroup_map nodup_importedUrls groupOf_of_not_mem, position_map, h _ hu]
      refine List.map_congr_left fun u _ => ?_
      by_cases he : u = Url.resolve origin source
      · subst he
        rw [if_pos rfl]
      · rw [if_neg he, if_neg (Ne.symm he)]
  have hpassed := passed_congr style.bare hidden_eq
  have hpublished := published_congr style.bare scope hidden_eq
  simp only [Pieces.take] at himports ⊢
  rw [himports, hpassed, hpublished]
  simp only [Pieces.ofBody, List.flatMap_append, List.flatMap_singleton, List.append_assoc]

theorem idxOf_eq_of_prefix {l urls : List String} {url : String}
    (h : (if url ∈ l then l else l ++ [url]) <+: urls) : l.idxOf url = urls.idxOf url := by
  split at h
  · next hm => exact h.idxOf_eq_of_mem hm
  · next hm =>
    rw [← h.idxOf_eq_of_mem (List.mem_append_right _ (List.mem_singleton_self url)),
      List.idxOf_append_of_notMem hm, List.idxOf_eq_length_iff.2 hm, List.idxOf_cons_self]
    rfl

theorem foldl_take (origin : String) (style : Style) (scope : Scope) (body : List Stmt) :
    body.foldl (Pieces.take origin style scope) {} =
      Pieces.ofBody origin style scope ((importedUrls origin body).idxOf ·) body := by
  suffices h : ∀ urls pre, importedUrls origin pre <+: urls →
      pre.foldl (Pieces.take origin style scope) {} =
        Pieces.ofBody origin style scope (urls.idxOf ·) pre from h _ body List.prefix_rfl
  intro urls pre
  -- the positions are those among all urls, of which the ones met so far come first
  induction pre using List.reverseRecOn with
  | nil => exact fun _ => rfl
  | append_singleton pre s ih =>
    intro h
    rw [importedUrls_concat] at h
    have hpre : importedUrls origin pre <+: urls := by
      split at h
      · refine List.IsPrefix.trans ?_ h
        split
        · exact List.prefix_rfl
        · exact List.prefix_append _ _
      · exact h
    rw [List.foldl_append, ih hpre]
    refine take_ofBody fun url hs => ?_
    rw [hs] at h
    exact idxOf_eq_of_prefix h

end Whole

end Thunk

end ScriptBundler
