import ScriptBundler.Bundle
import ScriptBundler.Proofs.Bundle.Order
import ScriptBundler.Proofs.Scan.Independence
import ScriptBundler.Proofs.Thunk.Awaits
import ScriptBundler.Proofs.Thunk.Leftover

namespace ScriptBundler

open Node

/-- Syntax that a script may not contain. Within a function, only an await may be one. -/
def Mark.IsModuleOnly (around : Option Bool) : Mark → Prop
  | .await => around ≠ some true
  | .yield => False
  | .importMeta => True
  | .moduleItem => True

/-- A program without any syntax that only modules may contain. -/
def IsScript (ss : List Stmt) : Prop := ¬ HasAny Mark.IsModuleOnly none (ss.map .stmt)

section Functions

variable {n : Node}

theorem has_of_has_async {around : Option Bool} (h : Has Mark.IsModuleOnly around n)
    (ha : around = some true) : Has Mark.IsModuleOnly (some false) n := by
  induction h with
  | @here around n mark hn hq =>
    subst ha
    refine .here hn ?_
    cases mark with
    | await => exact fun h => by cases h
    | _ => exact hq
  | @part around n m hm h ih =>
    subst ha
    rcases n.scope_cases with ⟨-, hs⟩ | ⟨-, isAsync, hs⟩
    · rw [hs] at ih
      exact .part hm ((hs _).symm ▸ ih rfl)
    · rw [hs] at h
      exact .part hm ((hs _).symm ▸ h)

/-- What is out of place in a plain function only is an await of its own. -/
theorem has_async_or_await {around : Option Bool} (h : Has Mark.IsModuleOnly around n)
    (ha : around = some false) :
    Has Mark.IsModuleOnly (some true) n ∨ Has Mark.IsOuterAwait none n := by
  induction h with
  | @here around n mark hn hq =>
    cases mark with
    | await => exact .inr (.here hn ⟨rfl, rfl⟩)
    | yield => exact absurd hq id
    | importMeta => exact .inl (.here hn trivial)
    | moduleItem => exact .inl (.here hn trivial)
  | @part around n m hm h ih =>
    subst ha
    rcases n.scope_cases with ⟨-, hs⟩ | ⟨-, isAsync, hs⟩
    · rw [hs] at ih
      rcases ih rfl with h | h
      · exact .inl (.part hm ((hs _).symm ▸ h))
      · exact .inr (.part hm ((hs _).symm ▸ h))
    · rw [hs] at h
      exact .inl (.part hm ((hs _).symm ▸ h))

end Functions

namespace Loader

section Pieces

variable {Q : Option Bool → Mark → Prop} {around : Option Bool}

theorem has_register (isAsync : Bool) (t : Thunk) :
    Has Q around (.stmt (t.register isAsync)) ↔ HasAny Q (some isAsync) (t.body.map .stmt) := by
  have hurl : ¬ Has Q around (.expr .operand (.string t.url)) := by
    rw [has_plain_iff rfl rfl]
    exact hasAny_nil.1
  have hentry :
      Has Q around (.expr .operand (.array [.string t.url, .function (t.toFunction isAsync)])) ↔
        Has Q around (.expr .operand (.function (t.toFunction isAsync))) := by
    rw [has_plain_iff rfl rfl]
    refine hasAny_cons.trans ?_
    rw [has_item, or_iff_right hurl, List.map_singleton, hasAny_singleton, has_item]
  have hcallee : ¬ Has Q around (.expr .operand (.member (.ident "modules") "push")) := by
    simp [has_iff, mark?, Node.parts, Expr.parts, scope]
  rw [Thunk.register, invoke, has_plain_iff rfl rfl]
  refine hasAny_singleton.trans ?_
  rw [has_plain_iff rfl rfl]
  refine hasAny_cons.trans ?_
  rw [or_iff_right hcallee, List.map_singleton, hasAny_singleton, has_item, hentry,
    has_plain_iff rfl rfl]
  refine hasAny_singleton.trans ?_
  rw [has_iff_parts rfl]
  rfl

theorem has_block (ss : List Stmt) :
    HasAny Q around ([Stmt.block ss].map .stmt) ↔ HasAny Q around (ss.map .stmt) := by
  rw [List.map_singleton, hasAny_singleton, has_plain_iff rfl rfl]
  rfl

theorem isScript_empty : IsScript Eager.empty := by
  simp [IsScript, Eager.empty, defineWindow, invoke, field, pageLoad, Expr.lambda, has_iff, mark?,
    Node.parts, Expr.parts, Stmt.parts, Property.parts, Key.parts, Pattern.parts, scope]

theorem isScript_eager (hasFallback : Bool) :
    IsScript (Eager.prelude hasFallback) ∧ IsScript Eager.startup := by
  constructor
  · cases hasFallback <;>
      simp [IsScript, Eager.prelude, Eager.includeFunction, constant, declareModules, defineWindow,
        invoke, field, pageLoad, Expr.lambda, has_iff, mark?, Node.parts, Expr.parts, Stmt.parts,
        Property.parts, Key.parts, Pattern.parts, Decl.parts, Declarator.parts, scope]
  · simp [IsScript, Eager.startup, forEachModule, forEach, frozenExports, invoke, has_iff, mark?,
      Node.parts, Expr.parts, Stmt.parts, Pattern.parts, Declarator.parts, ForHead.parts, scope]

theorem isScript_lazy : IsScript Lazy.prelude ∧ IsScript Lazy.startup := by
  constructor
  · simp [IsScript, Lazy.prelude, Lazy.scriptUrl, Lazy.toUrl, Lazy.included, Lazy.includeFunction,
      constant, declareModules, defineWindow, invoke, field, pageLoad, Expr.lambda, has_iff, mark?,
      Node.parts, Expr.parts, Stmt.parts, Property.parts, Key.parts, Pattern.parts, Decl.parts,
      Declarator.parts, scope]
  · -- what the startup code awaits, it awaits in a function of its own
    simp [IsScript, Lazy.startup, Lazy.runModule, Lazy.included, forEachModule, forEach, constant,
      frozenExports, invoke, has_iff, mark?, Node.parts, Expr.parts, Stmt.parts, Pattern.parts,
      Decl.parts, Declarator.parts, ForHead.parts, scope, Mark.IsModuleOnly]

end Pieces

theorem isScript_assemble (strategy : LoaderStrategy) (thunks : List Thunk)
    (notNeeded : List String) : IsScript (assemble strategy thunks notNeeded).1 ↔
      ∀ t ∈ thunks, ¬ HasAny Mark.IsModuleOnly (some (strategy = .lazy)) (t.body.map .stmt) := by
  have hblock {before after : List Stmt} (hb : IsScript before) (ha : IsScript after)
      (isAsync : Bool) :
      IsScript [.block (before ++ thunks.map (Thunk.register isAsync) ++ after)] ↔
        ∀ t ∈ thunks, ¬ HasAny Mark.IsModuleOnly (some isAsync) (t.body.map .stmt) := by
    -- the code around the modules is a script, so only their bodies count
    rw [IsScript] at hb ha ⊢
    rw [has_block, List.map_append, List.map_append, hasAny_append, hasAny_append,
      or_iff_left ha, or_iff_right hb]
    simp only [HasAny, List.mem_map, exists_exists_and_eq_and, has_register, not_exists, not_and]
  cases strategy with
  | eager =>
    simp only [assemble, Eager.assemble]
    split
    · next h =>
      rw [List.isEmpty_iff.1 h]
      exact iff_of_true isScript_empty fun _ ht => absurd ht List.not_mem_nil
    · obtain ⟨hprelude, hstartup⟩ := isScript_eager (!notNeeded.isEmpty)
      exact hblock hprelude hstartup false
  | lazy => exact hblock isScript_lazy.1 isScript_lazy.2 true

end Loader

/-- Where a body does not await, what it leaves may as well stand in a plain function. -/
theorem hasAny_leftover_iff {body : List Stmt} (h : (Thunk.Scope.ofBody body).hasAwait = false) :
    HasAny Mark.IsModuleOnly (some false) (body.flatMap Stmt.leftover) ↔
      HasAny Mark.IsModuleOnly (some true) (body.flatMap Stmt.leftover) := by
  constructor
  · rintro ⟨n, hn, hhas⟩
    rcases has_async_or_await hhas rfl with hhas | hawait
    · exact ⟨n, hn, hhas⟩
    · obtain ⟨s, hs, hn⟩ := List.mem_flatMap.1 hn
      exact absurd ⟨.stmt s, List.mem_map_of_mem hs, Stmt.has_of_leftover hn hawait⟩
        (Thunk.Scope.not_has_of_hasAwait h)
  · rintro ⟨n, hn, hhas⟩
    exact ⟨n, hn, has_of_has_async hhas rfl⟩

/-- A loaded module that leaves nothing that an asynchronous function may not contain. -/
def Settings.LeavesScript (settings : Settings) (load : ModuleLoader) (url : String) : Prop :=
  ∃ source program, settings.answer load url = .ok (.loaded source) ∧
    Program.parse? source = some program ∧
    ¬ HasAny Mark.IsModuleOnly (some true) (program.body.flatMap Stmt.leftover)

namespace Scan

variable {load : ModuleLoader} {s : Scan}

theorem Kept.isScript_iff {url : String} {body : List Stmt} (h : Kept load s url body) :
    ¬ HasAny Mark.IsModuleOnly (some (s.settings.loader = .lazy)) (body.map .stmt) ↔
      s.settings.LeavesScript load url := by
  cases h with
  | @mk source program answer parsed sound body_eq exports =>
    have hleaves : s.settings.LeavesScript load url ↔
        ¬ HasAny Mark.IsModuleOnly (some true) (program.body.flatMap Stmt.leftover) := by
      constructor
      · rintro ⟨source', program', answer', parsed', h⟩
        rw [answer] at answer'
        cases answer'
        rw [parsed] at parsed'
        cases parsed'
        exact h
      · intro h
        exact ⟨source, program, answer, parsed, h⟩
    rw [hleaves, body_eq, Thunk.hasAny_compact id]
    have hstatements {isAsync : Bool}
        (ha : s.settings.loader = .lazy → ¬ Mark.IsModuleOnly (some isAsync) .await) :=
      Thunk.hasAny_statements id url s.settings.style program.body ha
    by_cases hl : s.settings.loader = .lazy
    · rw [decide_eq_true hl]
      exact not_congr (hstatements fun _ hawait => hawait rfl)
    · have hawait : (Thunk.Scope.ofBody program.body).hasAwait = false := by
        have heager : s.settings.loader = .eager := by
          cases he : s.settings.loader with
          | eager => rfl
          | lazy => exact absurd he hl
        simp only [Settings.isSound, answer, parsed, heager, decide_true, Bool.and_true,
          Bool.and_eq_true, Bool.not_eq_true'] at sound
        exact sound.1
      rw [decide_eq_false hl]
      exact not_congr ((hstatements fun he => absurd he hl).trans (hasAny_leftover_iff hawait))

theorem Finished.kept (h : Finished load s) {t : Loader.Thunk} (ht : t ∈ s.thunks) :
    Kept load s t.url t.body := by
  obtain ⟨url, -, ht⟩ := List.mem_filterMap.1 ht
  obtain ⟨body, hbody, rfl⟩ := Option.map_eq_some_iff.1 ht
  obtain ⟨body', hbody', hkept⟩ :=
    h.keeps.lookup (mem_keys_iff.1 (Option.isSome_of_eq_some hbody))
  obtain rfl := Option.some.inj (hbody.symm.trans hbody')
  exact hkept

theorem Finished.mem_modules (h : Finished load s) {url source : String}
    (hr : s.settings.Reaches load url)
    (ha : s.settings.answer load url = .ok (.loaded source)) : url ∈ s.toBundle.modules := by
  rw [h.invariant.mem_modules_iff h.all, h.invariant.isLoaded_iff]
  exact h.mem_keys hr ha

theorem Finished.isScript_iff (h : Finished load s) : IsScript s.toBundle.statements ↔
    ∀ url ∈ s.toBundle.modules, s.settings.LeavesScript load url := by
  have hstatements : s.toBundle.statements =
      (Loader.assemble s.settings.loader s.thunks s.notNeeded).1 := rfl
  have hmodules : s.toBundle.modules = s.thunks.map (·.url) := rfl
  rw [hstatements, hmodules, Loader.isScript_assemble, List.forall_mem_map]
  constructor
  · intro hs t ht
    exact (h.kept ht).isScript_iff.1 (hs t ht)
  · intro hs t ht
    exact (h.kept ht).isScript_iff.2 (hs t ht)

end Scan

namespace Build

variable {settings : Settings} {sources : Sources} {bundle : Bundle}

theorem bundle_finished (h : (Build.bundle settings sources).result = .ok bundle) :
    bundle = (sources.scan settings).2.toBundle ∧ (sources.scan settings).2.settings = settings ∧
      Scan.Finished sources.load (sources.scan settings).2 := by
  obtain ⟨hok, hbundle⟩ := bundle_ok h
  have hscan : sources.scan settings = (.ok (), (sources.scan settings).2) := Prod.ext hok rfl
  obtain ⟨hfinished, hset, -⟩ := Sources.scan_finished hscan
  exact ⟨hbundle, hset, hfinished⟩

/-- A bundle is a script if all its modules leave one, and only then. -/
theorem bundle_isScript_iff (h : (Build.bundle settings sources).result = .ok bundle) :
    IsScript bundle.statements ↔
      ∀ url ∈ bundle.modules, settings.LeavesScript sources.load url := by
  obtain ⟨rfl, hset, hfinished⟩ := bundle_finished h
  have hiff := hfinished.isScript_iff
  rw [hset] at hiff
  exact hiff

def locatedModules : Sources := .ofMemory { modules := [("/a.js", "x(import.meta);")] }

def locatedSettings : Settings where
  input := ["/a.js"]
  cwd := "/"
  root := "/"
  base := "/"
  external := []
  file := none
  loader := .lazy
  bare := false

theorem located_scanned : (locatedModules.scan locatedSettings).1 = .ok () :=
  Sources.scan_ofMemory_ok ["/a.js"] (by decide +kernel) (by decide +kernel) (by decide +kernel)

def isLocatedCall : List Stmt → Bool
  | [.expr (.call _ [.importMeta] _ _)] => true
  | _ => false

theorem not_leavesScript_located :
    ¬ locatedSettings.LeavesScript locatedModules.load "/a.js" := by
  rintro ⟨source, program, answer, parsed, h⟩
  have hsource : locatedSettings.answer locatedModules.load "/a.js" =
      .ok (.loaded "x(import.meta);") := by decide +kernel
  rw [hsource] at answer
  cases answer
  have hbody : (Program.parse? "x(import.meta);").any (isLocatedCall ·.body) = true := by
    decide +kernel
  rw [parsed, Option.any_some] at hbody
  unfold isLocatedCall at hbody
  split at hbody
  · next callee isOptional isPure hb =>
    rw [hb] at h
    apply h
    have hmeta : Has Mark.IsModuleOnly (some true) (.expr .item .importMeta) :=
      .here rfl trivial
    refine ⟨_, List.mem_singleton_self _, ?_⟩
    refine .part (List.mem_singleton_self (Node.expr .operand _)) ?_
    exact .part (List.mem_cons_of_mem _ (List.mem_singleton_self _)) hmeta
  · cases hbody

theorem located_isScript_iff : ∃ bundle,
    (Build.bundle locatedSettings locatedModules).result = .ok bundle ∧
      (IsScript bundle.statements ↔
        ∀ url ∈ bundle.modules, locatedSettings.LeavesScript locatedModules.load url) := by
  have h := result_of_scan located_scanned
  exact ⟨_, h, bundle_isScript_iff h⟩

/-- The module is kept as it is, and so the bundle is no script. -/
theorem located_not_isScript : ∃ bundle,
    (Build.bundle locatedSettings locatedModules).result = .ok bundle ∧
      "/a.js" ∈ bundle.modules ∧ ¬ IsScript bundle.statements := by
  have h := result_of_scan located_scanned
  obtain ⟨-, hset, hfinished⟩ := bundle_finished h
  have hmem : "/a.js" ∈ (locatedModules.scan locatedSettings).2.toBundle.modules := by
    have hreached : locatedSettings.Reaches locatedModules.load "/a.js" :=
      ⟨"/a.js", by decide +kernel, .refl⟩
    have hanswer : locatedSettings.answer locatedModules.load "/a.js" =
        .ok (.loaded "x(import.meta);") := by decide +kernel
    rw [← hset] at hreached hanswer
    exact hfinished.mem_modules hreached hanswer
  refine ⟨_, h, hmem, fun hscript => ?_⟩
  have hleaves := hfinished.isScript_iff.1 hscript _ hmem
  rw [hset] at hleaves
  exact not_leavesScript_located hleaves

end Build

end ScriptBundler
