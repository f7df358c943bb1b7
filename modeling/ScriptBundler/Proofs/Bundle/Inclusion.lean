import ScriptBundler.Proofs.Bundle.Draining
import ScriptBundler.Proofs.Bundle.Scope

namespace ScriptBundler

namespace Loader

open ScriptBundler.Thunk (Own assign)

section Awaiting

variable {δ : Type} {call? : δ → Option (Option (Value δ))} {items : List (Own δ)}

/-- Each property of what is put together is that of one of the objects. -/
theorem exists_of_foldl_assign {name : String} {d : δ} {target : Own δ}
    (h : items.foldl assign target name = some d) :
    target name = some d ∨ ∃ o ∈ items, o name = some d := by
  induction items generalizing target with
  | nil => exact .inl h
  | cons o items ih =>
    rcases ih h with ho | ⟨o', ho', hd⟩
    · rw [assign] at ho
      split at ho
      · exact .inl ho
      · rcases Option.or_eq_some_iff.1 ho with ho | ⟨-, ho⟩
        · exact .inr ⟨o, List.mem_cons_self, ho⟩
        · exact .inl ho
    · exact .inr ⟨o', List.mem_cons_of_mem _ ho', hd⟩

theorem awaited?_registered (h : ∀ o ∈ items, (o "then").bind call? = none) :
    (registered items).awaited? call? = some (registered items) := by
  have hthen : (items.foldl assign (fun _ => none) "then").bind call? = none := by
    cases hd : items.foldl assign (fun _ => none) "then" with
    | none => rfl
    | some d =>
      rcases exists_of_foldl_assign hd with hnone | ⟨o, ho, hd⟩
      · cases hnone
      · have hcall := h o ho
        rw [hd] at hcall
        exact hcall
  rw [registered, Value.awaited?, hthen, Option.getD_none]

end Awaiting

section Provided

variable {δ : Type} (call? : δ → Option (Option (Value δ))) (n : Nat)

/-- What a module gets for a url when it is run, wherever it has no name `include` of its own. -/
structure Provides (m : Moment δ) (url : String) (items : List (Own δ)) : Prop where
  lookup : ∃ entries, m.env.lookup? "included" = some (.map entries) ∧
    entries.lookup url = some (registered items)
  immediate : ∀ locals, "include" ∉ locals.map (·.1) →
    value? call? (n + 6) (m.env.declare locals)
      (.call (.ident "include") [.string url, .bool true]) = some (registered items)
  awaited : ∀ locals, "include" ∉ locals.map (·.1) →
    value? call? (n + 7) (m.env.declare locals) (Thunk.includeExpr .lazy url) =
      (registered items).awaited? call?
  itself : (∀ o ∈ items, (o "then").bind call? = none) →
    ∀ locals, "include" ∉ locals.map (·.1) →
      value? call? (n + 7) (m.env.declare locals) (Thunk.includeExpr .lazy url) =
        some (registered items)

/-- How the modules of a bundle are run: in their order, after all that they require. -/
structure RunsInOrder (hands : Moment δ → Option (List (Own δ))) (requires : String → List String)
    (thunks : List Thunk) (ms : List (Moment δ)) : Prop where
  next : ∀ k < thunks.length, (∀ m ∈ ms.take k, (hands m).isSome) → k < ms.length
  provided : ∀ (k : Nat) (m : Moment δ), ms[k]? = some m →
    ∃ t : Thunk, thunks[k]? = some t ∧ m.body = t.body ∧
      ∀ u ∈ requires t.url, u ∈ thunks.map (·.url) →
        ∃ j < k, ∃ (t' : Thunk) (m' : Moment δ) (items : List (Own δ)),
          thunks[j]? = some t' ∧ t'.url = u ∧ ms[j]? = some m' ∧ hands m' = some items ∧
            Provides call? n m u items

variable {call? n} {url : String} {entries : List (String × Value δ)} {all : List (Value δ)}
  {body : List Stmt} {items : List (Own δ)}

theorem provides_outer (h : entries.lookup url = some (registered items)) :
    Provides call? n ⟨body, Lazy.outer entries all⟩ url items := by
  have hawaited (locals : List (String × Value δ)) (hlocals : "include" ∉ locals.map (·.1)) :
      value? call? (n + 7) ((Lazy.outer entries all).declare locals)
        (Thunk.includeExpr .lazy url) = (registered items).awaited? call? := by
    have hpromise : value? call? (n + 6) ((Lazy.outer entries all).declare locals)
        (.call (.ident "include") [.string url]) = _ := Lazy.value?_include hlocals h
    exact congrArg (Option.bind · (Value.awaited? call?)) hpromise
  refine ⟨⟨entries, rfl, h⟩, fun _ hlocals => Lazy.value?_include_immediate hlocals h, hawaited,
    fun hthen locals hlocals => ?_⟩
  rw [hawaited locals hlocals, awaited?_registered hthen]

theorem runsInOrder_assemble {hands : Moment δ → Option (List (Own δ))}
    {requires : String → List String} {thunks : List Thunk} (hd : (thunks.map (·.url)).Nodup)
    (hbefore : ∀ pre u post, thunks.map (·.url) = pre ++ u :: post →
      ∀ v ∈ requires u, v ∈ thunks.map (·.url) → v ∈ pre) :
    RunsInOrder call? n hands requires thunks
      (moments call? hands (n + 12) (Lazy.assemble thunks)) := by
  rw [Lazy.moments_assemble]
  constructor
  · exact fun k hk h => Lazy.lt_length_drained hk h
  · intro k m hm
    obtain ⟨t, entries, ht, rfl, -, hregistered⟩ := Lazy.getElem?_drained hd hm
    refine ⟨t, ht, rfl, fun u hu hmem => ?_⟩
    have hsplit : thunks = thunks.take k ++ t :: thunks.drop (k + 1) := by
      obtain ⟨hk, rfl⟩ := List.getElem?_eq_some_iff.1 ht
      rw [← List.drop_eq_getElem_cons, List.take_append_drop]
    have hurls := congrArg (List.map (·.url)) hsplit
    rw [List.map_append, List.map_cons] at hurls
    obtain ⟨t', ht', rfl⟩ := List.mem_map.1 (hbefore _ _ _ hurls u hu hmem)
    obtain ⟨j, hj⟩ := List.mem_iff_getElem?.1 ht'
    rw [List.getElem?_take] at hj
    split at hj
    · next hlt =>
      obtain ⟨m', items, hm', hitems, hlookup⟩ := hregistered j hlt t' hj
      exact ⟨j, hlt, t', m', items, hj, rfl, hm', hitems, provides_outer hlookup⟩
    · cases hj

theorem RunsInOrder.exists_moment {hands : Moment δ → Option (List (Own δ))}
    {requires : String → List String} {thunks : List Thunk} {ms : List (Moment δ)}
    (h : RunsInOrder call? n hands requires thunks ms) (hends : ∀ m, (hands m).isSome) {t : Thunk}
    (ht : t ∈ thunks) : ∃ m ∈ ms, m.body = t.body ∧
      ∀ u ∈ requires t.url, u ∈ thunks.map (·.url) → ∃ t' ∈ thunks, ∃ m' items,
        t'.url = u ∧ m'.body = t'.body ∧ hands m' = some items ∧ Provides call? n m u items := by
  obtain ⟨k, hk⟩ := List.mem_iff_getElem?.1 ht
  have hlength := h.next k (List.getElem?_eq_some_iff.1 hk).1 fun m _ => hends m
  obtain ⟨t', ht', hbody, hprovided⟩ := h.provided k _ (List.getElem?_eq_getElem hlength)
  obtain rfl := Option.some.inj (hk.symm.trans ht')
  refine ⟨_, List.getElem_mem hlength, hbody, fun u hu hmem => ?_⟩
  obtain ⟨j, -, t', m', items, hj, hurl, hm', hitems, hprovides⟩ := hprovided u hu hmem
  obtain ⟨t'', ht'', hbody', -⟩ := h.provided j m' hm'
  obtain rfl := Option.some.inj (hj.symm.trans ht'')
  exact ⟨t', List.mem_of_getElem? hj, m', items, hurl, hbody', hitems, hprovides⟩

end Provided

end Loader

namespace Scan

variable {load : ModuleLoader} {s : Scan}

theorem Finished.before (h : Finished load s) {pre post : List String} {u v : String}
    (he : s.toBundle.modules = pre ++ u :: post) (hv : v ∈ s.graph.requires u)
    (hm : v ∈ s.toBundle.modules) : v ∈ pre := by
  have hu : s.isLoaded u = true := by
    rw [← h.invariant.mem_modules_iff h.all, he]
    exact List.mem_append_right _ List.mem_cons_self
  have hknown := h.invariant.keys_known u (h.invariant.isLoaded_iff.1 hu)
  rw [(h.invariant.looked_of_all h.all hknown).requires_eq] at hv
  exact h.invariant.modules_before h.all he hv hm

theorem Finished.runsInOrder (h : Finished load s) (hl : s.settings.loader = .lazy) {δ : Type}
    (call? : δ → Option (Option (Loader.Value δ)))
    (hands : Loader.Moment δ → Option (List (Thunk.Own δ))) (n : Nat) :
    Loader.RunsInOrder call? n hands s.graph.requires s.thunks
      (Loader.moments call? hands (n + 12) s.toBundle.statements) := by
  have hstatements : s.toBundle.statements = Loader.Lazy.assemble s.thunks := by
    simp only [toBundle, Loader.assemble, hl]
  rw [hstatements]
  exact Loader.runsInOrder_assemble (h.invariant.modules_nodup h.all)
    fun _ _ _ he _ hv hm => h.before he hv hm

end Scan

namespace Build

open Loader (Value Moment RunsInOrder moments)
open ScriptBundler.Thunk (Own)

variable {settings : Settings} {sources : Sources} {bundle : Bundle}

/--
A lazy bundle runs its modules in order. Whatever a module and its url are, the frozen exports
object of each bundled module that it requires is registered by then; to await `include` gives what
an `await` of that object gives, which is the object itself unless one of the handed out objects
describes a `then` that can be called.
-/
theorem bundle_runsInOrder (h : (Build.bundle settings sources).result = .ok bundle)
    (hl : settings.loader = .lazy) {δ : Type} (call? : δ → Option (Option (Value δ)))
    (hands : Moment δ → Option (List (Own δ))) (n : Nat) :
    ∃ thunks, bundle.modules = thunks.map Loader.Thunk.url ∧
      (∀ t ∈ thunks, Scan.Kept sources.load (sources.scan settings).2 t.url t.body) ∧
      RunsInOrder call? n hands (sources.scan settings).2.graph.requires thunks
        (moments call? hands (n + 12) bundle.statements) := by
  obtain ⟨rfl, hset, hfinished⟩ := bundle_finished h
  refine ⟨_, rfl, fun t ht => hfinished.kept ht, hfinished.runsInOrder ?_ call? hands n⟩
  rw [hset, hl]

def importingSource : String := "import \x7b x \x7d from './u.js'; f(x);"

def thenableSource : String :=
  "export const x = 1; export function then(resolve) \x7b resolve('late'); \x7d"

def thenableModules : MemoryModules :=
  { modules := [("/a.js", importingSource), ("/u.js", thenableSource)] }

def thenableSettings : Settings where
  input := ["/a.js"]
  cwd := "/"
  root := "/"
  base := "/"
  external := []
  file := none
  loader := .lazy
  bare := false

theorem thenable_finished : ∃ s,
    (Build.bundle thenableSettings (.ofMemory thenableModules)).result = .ok s.toBundle ∧
      s = ((Sources.ofMemory thenableModules).scan thenableSettings).2 ∧
      s.settings = thenableSettings ∧ Scan.Finished thenableModules.load s := by
  have hok : ((Sources.ofMemory thenableModules).scan thenableSettings).1 = .ok () :=
    Sources.scan_ofMemory_ok ["/u.js", "/a.js"] (by decide +kernel) (by decide +kernel)
      (by decide +kernel)
  have h := result_of_scan hok
  obtain ⟨-, hset, hfinished⟩ := bundle_finished h
  exact ⟨_, h, rfl, hset, hfinished⟩

def handsOut (m : Moment Expr) : Option (List (Own Expr)) :=
  some ((Thunk.handedOut m.body).map (Thunk.objectOf id fun _ _ => none))

/-- The only `then` there is fulfils its promise with a text. -/
def settlesLate (_ : Expr) : Option (Option (Value Expr)) := some (some (.string "late"))

theorem thenable_runsInOrder : ∃ bundle,
    (Build.bundle thenableSettings (.ofMemory thenableModules)).result = .ok bundle ∧
      thenableSettings.loader = .lazy ∧
      ∃ thunks, bundle.modules = thunks.map Loader.Thunk.url ∧
        (∀ t ∈ thunks, Scan.Kept thenableModules.load
          ((Sources.ofMemory thenableModules).scan thenableSettings).2 t.url t.body) ∧
        RunsInOrder settlesLate 0 handsOut
          ((Sources.ofMemory thenableModules).scan thenableSettings).2.graph.requires thunks
          (moments settlesLate handsOut 12 bundle.statements) := by
  obtain ⟨s, h, -⟩ := thenable_finished
  exact ⟨s.toBundle, h, rfl, bundle_runsInOrder h rfl settlesLate handsOut 0⟩

theorem thenable_handed {s : Scan} (hset : s.settings = thenableSettings) {body : List Stmt}
    (hk : Scan.Kept thenableModules.load s "/u.js" body) :
    (((Thunk.handedOut body).map (Thunk.objectOf id fun _ _ => none)).foldl Thunk.assign
      (fun _ => none) "then").isSome = true := by
  cases hk with
  | @mk source program answer parsed sound body_eq exports =>
    rw [hset] at answer body_eq
    have hanswer : thenableSettings.answer thenableModules.load "/u.js" =
        .ok (.loaded thenableSource) := by decide +kernel
    rw [hanswer] at answer
    cases answer
    have hthen : (Program.parse? thenableSource).all
        (fun program => (((Thunk.handedOut (Thunk.compact ((Thunk.piecesOf "/u.js"
          thenableSettings.style program.body).statements thenableSettings.loader))).map
          (Thunk.objectOf id fun _ _ => none)).foldl Thunk.assign (fun _ => none)
          "then").isSome) = true := by
      decide +kernel
    rw [parsed] at hthen
    rw [body_eq]
    exact hthen

/-- To await `include` for the module with a `then` does not give its exports object. -/
theorem thenable_included_late : ∃ bundle,
    ∃ (t : Loader.Thunk) (m : Moment Expr) (entries : List (String × Value Expr))
      (items : List (Own Expr)),
    (Build.bundle thenableSettings (.ofMemory thenableModules)).result = .ok bundle ∧
      t.url ∈ bundle.modules ∧ "/u.js" ∈ bundle.modules ∧
      "/u.js" ∈ ((Sources.ofMemory thenableModules).scan thenableSettings).2.graph.requires
        t.url ∧
      m ∈ moments settlesLate handsOut 12 bundle.statements ∧ m.body = t.body ∧
      m.env.lookup? "included" = some (.map entries) ∧
      entries.lookup "/u.js" = some (Loader.registered items) ∧
      Loader.value? settlesLate 7 m.env (Thunk.includeExpr .lazy "/u.js") =
        some (.string "late") ∧
      Loader.value? settlesLate 7 m.env (Thunk.includeExpr .lazy "/u.js") ≠
        some (Loader.registered items) := by
  obtain ⟨s, h, hs, hset, hfinished⟩ := thenable_finished
  have hruns := hfinished.runsInOrder (by rw [hset]; rfl) settlesLate handsOut 0
  have hmem {url : String} (source : String)
      (hr : thenableSettings.Reaches thenableModules.load url)
      (ha : thenableSettings.answer thenableModules.load url = .ok (.loaded source)) :
      url ∈ s.toBundle.modules := by
    rw [← hset] at hr ha
    exact hfinished.mem_modules hr ha
  have hreached : thenableSettings.Reaches thenableModules.load "/a.js" :=
    ⟨"/a.js", by decide +kernel, .refl⟩
  have hdeps : "/u.js" ∈ thenableSettings.deps thenableModules.load "/a.js" := by decide +kernel
  have hu : "/u.js" ∈ s.toBundle.modules :=
    hmem thenableSource (hreached.tail hdeps) (by decide +kernel)
  obtain ⟨t, ht, hurl⟩ : ∃ t ∈ s.thunks, t.url = "/a.js" := List.mem_map.1
    (hmem importingSource hreached (by decide +kernel))
  have hrequires : "/u.js" ∈ s.graph.requires t.url := by
    have hlooked := hfinished.invariant.looked_of_reaches hfinished.all (hset ▸ hreached)
    rw [hurl, hlooked.requires_eq, hset]
    exact hdeps
  obtain ⟨m, hm, hbody, hprovided⟩ := hruns.exists_moment (fun _ => rfl) ht
  obtain ⟨t', ht', m', items, hurl', hbody', hitems, hprovides⟩ := hprovided _ hrequires hu
  obtain ⟨entries, hentries, hregistered⟩ := hprovides.lookup
  have hlate : Loader.value? settlesLate 7 m.env (Thunk.includeExpr .lazy "/u.js") =
      some (.string "late") := by
    have hkept := hfinished.kept ht'
    rw [hurl', ← hbody'] at hkept
    obtain ⟨d, hd⟩ := Option.isSome_iff_exists.1 (thenable_handed hset hkept)
    obtain rfl := Option.some.inj hitems
    refine (hprovides.awaited [] List.not_mem_nil).trans ?_
    rw [Loader.registered, Value.awaited?, hd]
    rfl
  refine ⟨s.toBundle, t, m, entries, items, h, List.mem_map_of_mem ht, hu, hs ▸ hrequires, hm,
    hbody, hentries, hregistered, hlate, ?_⟩
  rw [hlate]
  intro h
  cases h

end Build

end ScriptBundler
