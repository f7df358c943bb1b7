import ScriptBundler.Proofs.Bundle.Script
import ScriptBundler.Proofs.Syntax.Free

namespace ScriptBundler

namespace Loader

def ownNames : LoaderStrategy → List String
  | .eager => ["table", "modules"]
  | .lazy => ["included", "scriptURL", "toURL", "modules"]

/-- The globals that the code of a bundle refers to itself. -/
def usedGlobals : LoaderStrategy → List String
  | .eager => ["Object", "window", "document", "Promise", "addEventListener"]
  | .lazy => ["Object", "window", "document", "Promise", "addEventListener", "Map", "Error",
      "location", "URL"]

/-- The names that a module refers to from within a bundle. Its function binds `arguments`. -/
def Thunk.outerNames (strategy : LoaderStrategy) (t : Thunk) : List String :=
  outside ("arguments" :: ownNames strategy) (freeNames t.body)

/-- The statements of a block that registers modules, as far as names go. -/
structure Encloses (strategy : LoaderStrategy) (thunks : List Thunk) (ss : List Stmt) : Prop where
  registers : ∀ t ∈ thunks, t.register (strategy = .lazy) ∈ ss
  lexicalNames : ss.flatMap Stmt.lexicalNames = ownNames strategy
  varNames : Stmt.allVarNames ss = []
  free : ∃ before after, (∀ name ∈ before ++ after, name ∈ usedGlobals strategy) ∧
    freeNames [.block ss] = before ++ thunks.flatMap (Thunk.outerNames strategy) ++ after

section Registering

variable (isAsync : Bool)

theorem free_register (t : Thunk) :
    (t.register isAsync).free = "modules" :: outside ["arguments"] (freeNames t.body) := by
  simp only [Thunk.register, invoke, Thunk.toFunction, Stmt.free, Expr.free, Expr.allFree,
    Function.free, Function.name?, Pattern.allFree, Pattern.allBoundNames, Option.toList_none,
    outside_nil, List.nil_append, List.append_nil]
  rfl

theorem outside_free_registers {declared : List String} (h : "modules" ∈ declared)
    (thunks : List Thunk) :
    outside declared ((thunks.map (Thunk.register isAsync)).flatMap Stmt.free) =
      thunks.flatMap fun t => outside ("arguments" :: declared) (freeNames t.body) := by
  induction thunks with
  | nil => rfl
  | cons t thunks ih =>
    have hregister : outside declared (t.register isAsync).free =
        outside ("arguments" :: declared) (freeNames t.body) := by
      rw [free_register, outside, List.filter_cons_of_neg (by simpa using h)]
      exact outside_outside ["arguments"] declared _
    rw [List.map_cons, List.flatMap_cons, outside_append, hregister, ih, List.flatMap_cons]

theorem flatMap_registers {f : Stmt → List String} (hf : ∀ e, f (.expr e) = [])
    (before after : List Stmt) (thunks : List Thunk) :
    (before ++ thunks.map (Thunk.register isAsync) ++ after).flatMap f =
      (before ++ after).flatMap f := by
  have hregisters : (thunks.map (Thunk.register isAsync)).flatMap f = [] := by
    rw [List.flatMap_eq_nil_iff, List.forall_mem_map]
    exact fun t _ => hf _
  rw [List.flatMap_append, List.flatMap_append, hregisters, List.append_nil, List.flatMap_append]

end Registering

theorem freeNames_block {ss : List Stmt} (h : Stmt.allVarNames ss = []) :
    freeNames [.block ss] = outside (ss.flatMap Stmt.lexicalNames) (ss.flatMap Stmt.free) := by
  have hscope : Stmt.scopeNames [.block ss] = [] := by
    rw [Stmt.scopeNames, Stmt.allVarNames, Stmt.varNames, h]
    rfl
  rw [freeNames, hscope, outside_nil, Stmt.allFree, Stmt.free, Stmt.allFree, List.append_nil,
    Stmt.allFree_eq]

theorem modules_mem_ownNames (strategy : LoaderStrategy) : "modules" ∈ ownNames strategy := by
  cases strategy <;> decide

theorem encloses_append {strategy : LoaderStrategy} {before after : List Stmt} (thunks : List Thunk)
    (hlexical : (before ++ after).flatMap Stmt.lexicalNames = ownNames strategy)
    (hvar : (before ++ after).flatMap Stmt.varNames = [])
    (hfree : ∀ name ∈ outside (ownNames strategy) ((before ++ after).flatMap Stmt.free),
      name ∈ usedGlobals strategy) :
    Encloses strategy thunks
      (before ++ thunks.map (Thunk.register (strategy = .lazy)) ++ after) := by
  have hlexical' := (flatMap_registers (strategy = .lazy)
    (f := Stmt.lexicalNames) (fun _ => rfl) before after thunks).trans hlexical
  have hvar' := (flatMap_registers (strategy = .lazy)
    (f := Stmt.varNames) (fun _ => rfl) before after thunks).trans hvar
  refine ⟨?_, hlexical', ?_, outside (ownNames strategy) (before.flatMap Stmt.free),
    outside (ownNames strategy) (after.flatMap Stmt.free), ?_, ?_⟩
  · intro t ht
    apply List.mem_append_left
    apply List.mem_append_right
    exact List.mem_map_of_mem ht
  · rw [Stmt.allVarNames_eq, hvar']
  · rw [← outside_append, ← List.flatMap_append]
    exact hfree
  · rw [freeNames_block ((Stmt.allVarNames_eq _).trans hvar'), hlexical', List.flatMap_append,
      List.flatMap_append, outside_append, outside_append,
      outside_free_registers _ (modules_mem_ownNames strategy)]
    rfl

theorem eager_encloses (hasFallback : Bool) (thunks : List Thunk) :
    Encloses .eager thunks (Eager.prelude hasFallback ++
      thunks.map (Thunk.register false) ++ Eager.startup) := by
  cases hasFallback
  · exact encloses_append thunks (by decide) (by decide) (by decide)
  · exact encloses_append thunks (by decide) (by decide) (by decide)

theorem lazy_encloses (thunks : List Thunk) :
    Encloses .lazy thunks (Lazy.prelude ++ thunks.map (Thunk.register true) ++ Lazy.startup) :=
  encloses_append thunks (by decide) (by decide) (by decide)

theorem assemble_encloses (strategy : LoaderStrategy) {thunks : List Thunk}
    (h : thunks ≠ []) (notNeeded : List String) :
    ∃ ss, (assemble strategy thunks notNeeded).1 = [.block ss] ∧ Encloses strategy thunks ss := by
  cases strategy with
  | eager =>
    have hthunks : thunks.isEmpty = false := by simpa using h
    refine ⟨_, ?_, eager_encloses (!notNeeded.isEmpty) thunks⟩
    rw [assemble, Eager.assemble, hthunks]
    rfl
  | lazy => exact ⟨_, rfl, lazy_encloses thunks⟩

end Loader

namespace Scan

variable {load : ModuleLoader} {s : Scan}

theorem toBundle_encloses (hmodules : s.toBundle.modules ≠ []) : ∃ ss,
    s.toBundle.statements = [.block ss] ∧ Loader.Encloses s.settings.loader s.thunks ss := by
  have hthunks : s.thunks ≠ [] := by
    intro hnil
    apply hmodules
    exact congrArg (List.map Loader.Thunk.url) hnil
  exact Loader.assemble_encloses s.settings.loader hthunks s.notNeeded

end Scan

namespace Build

variable {settings : Settings} {sources : Sources} {bundle : Bundle}

/--
The bodies of a bundle are those that the scan kept. They stand in one block, and the references of
a body to names that the block does not declare stay references to globals.
-/
theorem bundle_encloses (h : (Build.bundle settings sources).result = .ok bundle)
    (hmodules : bundle.modules ≠ []) :
    ∃ thunks ss, bundle.modules = thunks.map Loader.Thunk.url ∧
      (∀ t ∈ thunks, Scan.Kept sources.load (sources.scan settings).2 t.url t.body) ∧
      bundle.statements = [.block ss] ∧ Loader.Encloses settings.loader thunks ss := by
  obtain ⟨rfl, hset, hfinished⟩ := bundle_finished h
  obtain ⟨ss, hss, hencloses⟩ := Scan.toBundle_encloses hmodules
  rw [hset] at hencloses
  exact ⟨_, ss, rfl, fun t ht => hfinished.kept ht, hss, hencloses⟩

def pageModules : MemoryModules := { modules := [("/a.js", "console.log(table);")] }

def pageSettings : Settings where
  input := ["/a.js"]
  cwd := "/"
  root := "/"
  base := "/"
  external := []
  file := none
  loader := .eager
  bare := false

theorem page_finished : ∃ s, (Build.bundle pageSettings (.ofMemory pageModules)).result =
    .ok s.toBundle ∧ s.settings = pageSettings ∧ Scan.Finished pageModules.load s ∧
      "/a.js" ∈ s.toBundle.modules := by
  have hok : ((Sources.ofMemory pageModules).scan pageSettings).1 = .ok () :=
    Sources.scan_ofMemory_ok ["/a.js"] (by decide +kernel) (by decide +kernel) (by decide +kernel)
  have h := result_of_scan hok
  obtain ⟨-, hset, hfinished⟩ := bundle_finished h
  refine ⟨_, h, hset, hfinished, ?_⟩
  apply hfinished.mem_modules
  · rw [hset]
    exact ⟨"/a.js", by decide +kernel, .refl⟩
  · rw [hset]
    show pageSettings.answer pageModules.load "/a.js" = .ok (.loaded "console.log(table);")
    decide +kernel

theorem page_encloses : ∃ bundle,
    (Build.bundle pageSettings (.ofMemory pageModules)).result = .ok bundle ∧
      bundle.modules ≠ [] ∧
      ∃ thunks ss, bundle.modules = thunks.map Loader.Thunk.url ∧
        (∀ t ∈ thunks, Scan.Kept pageModules.load
          ((Sources.ofMemory pageModules).scan pageSettings).2 t.url t.body) ∧
        bundle.statements = [.block ss] ∧ Loader.Encloses .eager thunks ss := by
  obtain ⟨s, h, -, -, hmem⟩ := page_finished
  have hmodules := List.ne_nil_of_mem hmem
  exact ⟨s.toBundle, h, hmodules, bundle_encloses h hmodules⟩

/-- The module does not get hold of the global that it means. -/
theorem page_captured : ∃ bundle ss, ∃ thunk : Loader.Thunk,
    (Build.bundle pageSettings (.ofMemory pageModules)).result = .ok bundle ∧
      "/a.js" ∈ bundle.modules ∧ bundle.statements = [.block ss] ∧
      thunk.url = "/a.js" ∧ thunk.register false ∈ ss ∧
      "table" ∈ freeNames thunk.body ∧ "table" ∈ ss.flatMap Stmt.lexicalNames := by
  obtain ⟨s, h, hset, hfinished, hmem⟩ := page_finished
  obtain ⟨ss, hss, hencloses⟩ := Scan.toBundle_encloses (List.ne_nil_of_mem hmem)
  obtain ⟨thunk, hthunk, hurl⟩ := List.mem_map.1 hmem
  rw [hset] at hencloses
  refine ⟨s.toBundle, ss, thunk, h, hmem, hss, hurl, hencloses.registers thunk hthunk, ?_, ?_⟩
  · have hkept := hfinished.kept hthunk
    rw [hurl] at hkept
    generalize thunk.body = body at hkept
    cases hkept with
    | @mk source program answer parsed sound body_eq exports =>
      rw [hset] at answer body_eq
      have hanswer : pageSettings.answer pageModules.load "/a.js" =
          .ok (.loaded "console.log(table);") := by decide +kernel
      rw [hanswer] at answer
      cases answer
      have hfree : (Program.parse? "console.log(table);").all (fun program =>
          "table" ∈ freeNames (Thunk.compact ((Thunk.piecesOf "/a.js" pageSettings.style
            program.body).statements pageSettings.loader))) = true := by decide +kernel
      rw [parsed] at hfree
      rw [body_eq]
      exact of_decide_eq_true hfree
  · rw [hencloses.lexicalNames]
    decide

end Build

end ScriptBundler
