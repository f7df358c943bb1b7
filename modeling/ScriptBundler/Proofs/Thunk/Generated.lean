import ScriptBundler.Proofs.Thunk.ImportTexts

namespace ScriptBundler

/-- Errors that refuse a module for what it says: it awaits, or is part of a cycle of imports. -/
def BuildError.IsRefusal : BuildError → Prop
  | .topLevelAwait _ => True
  | .circularImport _ => True
  | _ => False

namespace Stmt

open ScriptBundler.Thunk

variable (name : String → String) (bare : Bool) (scope : Scope) (hidden : String → String)

/-- The texts of what a statement exports. A default value is put in once they are read. -/
@[simp] def exportTexts : Stmt → List (String × String)
  | .exportDecl d => d.names.map fun n => (n, bindingText n d.isMutable)
  | .exportNames specifiers (some source) => specifiers.map fun s =>
    (s.exported.text, getterText (Text.propertyAccess (hidden (name source)) s.localName.text))
  | .exportNames specifiers none => specifiers.map fun s =>
    (s.exported.text, bindingText s.localName.text (scope.mutableNames.contains s.localName.text))
  | .exportAll (some exported) source _ => [(exported.text, valueText (hidden (name source)))]
  | .exportDefaultFunction f =>
    match f.name? with
    | some n => [("default", bindingText n false)]
    | none => [("default", valueText defaultPlaceholder)]
  | .exportDefaultClass c =>
    match c.name? with
    | some n => [("default", bindingText n false)]
    | none => [("default", valueText defaultPlaceholder)]
  | .exportDefault _ => [("default", valueText defaultPlaceholder)]
  | _ => []

def putDefault (s : Stmt) (ss : List Stmt) : List Stmt :=
  match s.defaultValue? with
  | some e => Template.fillExpression defaultPlaceholder (e.renamed name) ss
  | none => ss

def readPublished? (s : Stmt) : Option (List Stmt) :=
  if !bare && !(s.exportTexts name scope hidden).isEmpty then
    (Template.generatorStatements? (publishText (s.exportTexts name scope hidden))).map
      (s.putDefault name)
  else some []

def readPassed? : Stmt → Option (List Stmt)
  | .exportAll none source _ =>
    if bare then some []
    else Template.generatorStatements? (passThroughText (hidden (name source)))
  | _ => some []

end Stmt

namespace Thunk

open ScriptBundler.Parser

section Exports

variable {name : String → String} {bare : Bool} {scope : Scope} {hidden : String → String}
  {s : Stmt}

/-- The texts of exports that are no values denote their descriptors. -/
theorem denotes_exportTexts (hh : ∀ url, IsPlainName (hidden url)) (hs : s.BindsWell)
    (hd : s.defaultValue? = none) : List.Forall₂ DenotesExport
      (s.exportTexts name scope hidden) (s.exports name scope hidden) := by
  have hbinding {n : String} (hn : IsBindable n) (exported : String) (isMutable : Bool) :
      DenotesExport (exported, bindingText n isMutable) (exported, .binding n isMutable) :=
    ⟨rfl, denotes_bindingText hn isMutable⟩
  cases s with
  | exportDecl d =>
    rw [Stmt.exportTexts, Stmt.exports, List.forall₂_map_left_iff, List.forall₂_map_right_iff,
      List.forall₂_same]
    exact fun n hn => hbinding (hs.exports n hn) n _
  | exportNames specifiers source =>
    cases source with
    | some source =>
      rw [Stmt.exportTexts, Stmt.exports, List.forall₂_map_left_iff, List.forall₂_map_right_iff,
        List.forall₂_same]
      intro specifier _
      have haccess := denotes_access (hh (name source)) specifier.localName.text
      have hstart : Token.name (hidden (name source)) false ≠ .openBrace := nofun
      exact ⟨rfl, denotes_getterText hstart haccess⟩
    | none =>
      rw [Stmt.exportTexts, Stmt.exports, List.forall₂_map_left_iff, List.forall₂_map_right_iff,
        List.forall₂_same]
      exact fun specifier hm => hbinding (hs.exports _ (List.mem_map_of_mem hm)) _ _
  | exportAll exported source attributes =>
    cases exported with
    | some exported => exact .cons ⟨rfl, denotes_valueText (hh (name source))⟩ .nil
    | none => exact .nil
  | exportDefaultFunction f =>
    simp only [Stmt.defaultValue?, Stmt.exportTexts, Stmt.exports] at hd ⊢
    cases hf : f.name? with
    | some n =>
      have hn : n ∈ (Stmt.exportDefaultFunction f).exportedLocals := by
        rw [Stmt.exportedLocals, hf]
        exact List.mem_singleton_self n
      exact .cons (hbinding (hs.exports n hn) _ false) .nil
    | none =>
      rw [hf] at hd
      cases hd
  | exportDefaultClass c =>
    simp only [Stmt.defaultValue?, Stmt.exportTexts, Stmt.exports] at hd ⊢
    cases hc : c.name? with
    | some n =>
      have hn : n ∈ (Stmt.exportDefaultClass c).exportedLocals := by
        rw [Stmt.exportedLocals, hc]
        exact List.mem_singleton_self n
      exact .cons (hbinding (hs.exports n hn) _ false) .nil
    | none =>
      rw [hc] at hd
      cases hd
  | exportDefault e => cases hd
  | _ => exact .nil

theorem exportTexts_of_defaultValue? {e : Expr} (hd : s.defaultValue? = some e) :
    s.exportTexts name scope hidden = [("default", valueText defaultPlaceholder)] := by
  cases s with
  | exportDefaultFunction f =>
    simp only [Stmt.defaultValue?] at hd
    cases hf : f.name? with
    | some n =>
      rw [hf] at hd
      cases hd
    | none => simp only [Stmt.exportTexts, hf]
  | exportDefaultClass c =>
    simp only [Stmt.defaultValue?] at hd
    cases hc : c.name? with
    | some n =>
      rw [hc] at hd
      cases hd
    | none => simp only [Stmt.exportTexts, hc]
  | exportDefault e => rfl
  | _ => cases hd

theorem isEmpty_exportTexts (hh : ∀ url, IsPlainName (hidden url)) (hs : s.BindsWell) :
    (s.exportTexts name scope hidden).isEmpty = (s.exports name scope hidden).isEmpty := by
  cases hd : s.defaultValue? with
  | some e => rw [exportTexts_of_defaultValue? hd, (exports_of_defaultValue? hd).2]; rfl
  | none =>
    have hdenotes : List.Forall₂ DenotesExport (s.exportTexts name scope hidden)
        (s.exports name scope hidden) := denotes_exportTexts hh hs hd
    rw [Bool.eq_iff_iff, List.isEmpty_iff_length_eq_zero, List.isEmpty_iff_length_eq_zero,
      hdenotes.length_eq]

theorem readPublished?_eq (hh : ∀ url, IsPlainName (hidden url)) (hs : s.BindsWell) :
    s.readPublished? name bare scope hidden = some (s.published name bare scope hidden) := by
  rw [Stmt.readPublished?, Stmt.published, isEmpty_exportTexts hh hs]
  split
  · unfold Stmt.putDefault
    cases hd : s.defaultValue? with
    | some e =>
      rw [exportTexts_of_defaultValue? hd, (exports_of_defaultValue? hd).2]
      exact generatorStatements?_default _
    | none =>
      rw [generatorStatements?_publish (denotes_exportTexts hh hs hd)]
      rfl
  · rfl

theorem readPassed?_eq (hh : ∀ url, IsPlainName (hidden url)) (s : Stmt) :
    s.readPassed? name bare hidden = some (s.passed name bare hidden) := by
  cases s with
  | exportAll exported source attributes =>
    cases exported with
    | some exported => rfl
    | none =>
      rw [Stmt.readPassed?, Stmt.passed]
      split
      · rfl
      · exact generatorStatements?_passThrough (hh _)
  | _ => rfl

end Exports

section Groups

variable {origin url n : String} {bare : Bool} {index : String → Nat} {body : List Stmt}

theorem mem_imported_groupOf (h : n ∈ (groupOf origin bare index url body).imported) :
    n ∈ importedLocals body := by
  rw [importedLocals]
  induction body using List.reverseRecOn with
  | nil => cases h
  | append_singleton body s ih =>
    rw [List.flatMap_append, List.mem_append, List.flatMap_singleton]
    rw [groupOf_concat] at h
    split at h
    · rw [← List.count_pos_iff, count_fill, Nat.add_pos_iff_pos_or_pos, List.count_pos_iff,
        List.count_pos_iff] at h
      exact h.imp_left ih
    · exact .inl (ih h)

/-- What the parser has accepted can be declared, unless it is called `yield`. -/
theorem isReadable_groupOf (hb : ∀ s ∈ body, s.BindsWell) :
    (groupOf origin bare index url body).IsReadable := by
  constructor
  · intro n hn
    obtain ⟨s, hs, hmem⟩ := List.mem_flatMap.1 (mem_imported_groupOf hn)
    exact (hb s hs).imports n hmem
  · intro n hn
    rw [eq_hiddenName hn]
    exact isPlainName_hiddenName (index url)

end Groups

section Bodies

variable {α : Type} {l : List α} {f : α → Option (List Stmt)} {g : α → List Stmt}

/-- What is read for all items of a list, unless something is not read. -/
def readAll (f : α → Option (List Stmt)) : List α → Option (List Stmt)
  | [] => some []
  | a :: l => do
    let ss ← f a
    let rest ← readAll f l
    return ss ++ rest

theorem readAll_eq (isBad : α → Bool) (h : ∀ a ∈ l, f a = if isBad a then none else some (g a)) :
    readAll f l = if l.any isBad then none else some (l.flatMap g) := by
  induction l with
  | nil => rfl
  | cons a l ih =>
    obtain ⟨ha, hl⟩ := List.forall_mem_cons.1 h
    rw [readAll, ha, ih hl, List.any_cons, List.flatMap_cons]
    cases isBad a with
    | true => rfl
    | false => cases l.any isBad <;> rfl

theorem readAll_eq_some (h : ∀ a ∈ l, f a = some (g a)) : readAll f l = some (l.flatMap g) := by
  have hall := readAll_eq (fun _ => false) h
  rw [List.any_eq_false.2 fun _ _ => Bool.false_ne_true] at hall
  exact hall

variable {origin : String} {style : Style} {body : List Stmt} {links : Links}

def readStatements? (origin : String) (style : Style) (body : List Stmt) : Option (List Stmt) := do
  let index url := (importedUrls origin body).idxOf url
  let hidden url := ImportGroup.hiddenName (index url)
  let imports ← readAll (fun url => Template.generatorStatements?
    ((groupOf origin style.bare index url body).text (includeText style.strategy url)))
    (importedUrls origin body)
  let passed ← readAll (Stmt.readPassed? (Url.resolve origin) style.bare hidden) body
  let rest ← readAll (fun s => (s.kept (Url.resolve origin) style.bare ++ ·) <$>
    s.readPublished? (Url.resolve origin) style.bare (Scope.ofBody body) hidden) body
  return imports ++ passed ++ rest

theorem any_locals_groupOf : (importedUrls origin body).any (fun url =>
    (groupOf origin style.bare ((importedUrls origin body).idxOf ·) url body).locals.contains
      "yield") = (importedLocals body).contains "yield" := by
  have hany := any_locals_yield origin style (Scope.ofBody body) body
  rw [foldl_take, Pieces.ofBody, List.any_map] at hany
  rw [Bool.eq_iff_iff, List.contains_iff_mem]
  exact hany

theorem readStatements?_eq (hb : ∀ s ∈ body, s.BindsWell) :
    readStatements? origin style body = unlessYield (importedLocals body)
      ((piecesOf origin style body).statements style.strategy) := by
  have hh (url : String) :
      IsPlainName (ImportGroup.hiddenName ((importedUrls origin body).idxOf url)) :=
    isPlainName_hiddenName _
  have hgroup (url : String) :
      (groupOf origin style.bare ((importedUrls origin body).idxOf ·) url body).IsReadable :=
    isReadable_groupOf hb
  have himports := readAll_eq (l := importedUrls origin body) _ fun url _ =>
    generatorStatements?_group (hgroup url) (isInitializer_includeText style.strategy url)
  have hpassed : readAll (Stmt.readPassed? (Url.resolve origin) style.bare
      fun url => ImportGroup.hiddenName ((importedUrls origin body).idxOf url)) body =
      some (body.flatMap (Stmt.passed (Url.resolve origin) style.bare
        fun url => ImportGroup.hiddenName ((importedUrls origin body).idxOf url))) :=
    readAll_eq_some fun s _ => readPassed?_eq hh s
  have hrest : readAll (fun s => (s.kept (Url.resolve origin) style.bare ++ ·) <$>
      s.readPublished? (Url.resolve origin) style.bare (Scope.ofBody body)
        (fun url => ImportGroup.hiddenName ((importedUrls origin body).idxOf url))) body =
      some (piecesOf origin style body).body := by
    apply readAll_eq_some
    intro s hs
    rw [readPublished?_eq hh (hb s hs)]
    rfl
  -- a group is refused for this one name, and so one of them is if it is among all their locals
  rw [any_locals_groupOf, ← List.map_eq_flatMap] at himports
  simp only [readStatements?, himports, hpassed, hrest, unlessYield]
  cases (importedLocals body).contains "yield" with
  | true => rfl
  | false =>
    simp only [Bool.false_eq_true, ↓reduceIte, Pieces.statements, piecesOf, Pieces.ofBody,
      List.map_map]
    rfl

theorem isRefusal_of_linked {g g' : Graph} {refs : List String} {es : List BuildError}
    (h : Graph.Linked origin g refs es g') : ∀ e ∈ es, e.IsRefusal := by
  intro e he
  obtain ⟨chain, rfl⟩ := h.exists_chain e he
  trivial

def hiddenOf (origin : String) (body : List Stmt) (url : String) : String :=
  ImportGroup.hiddenName ((importedUrls origin body).idxOf url)

/-- How a module is lowered whose text was accepted, as far as generated texts go. -/
structure Readable (origin : String) (style : Style) (body : List Stmt) (links : Links) : Prop where
  imported : ∀ p ∈ (piecesOf origin style body).imports, "yield" ∉ p.2.locals →
    Template.generatorStatements? (p.2.text (includeText style.strategy p.1)) =
      some [p.2.toStmt (includeExpr style.strategy p.1)]
  passed : ∀ s ∈ body,
    s.readPassed? (Url.resolve origin) style.bare (hiddenOf origin body) =
      some (s.passed (Url.resolve origin) style.bare (hiddenOf origin body))
  published : ∀ s ∈ body,
    s.readPublished? (Url.resolve origin) style.bare (Scope.ofBody body) (hiddenOf origin body) =
      some (s.published (Url.resolve origin) style.bare (Scope.ofBody body) (hiddenOf origin body))
  read : "yield" ∉ importedLocals body → (readStatements? origin style body).isSome
  done : ∀ ss, (ofBody origin style body links).1 = .ok ss →
    readStatements? origin style body = some ss
  refused : ∀ es, (ofBody origin style body links).1 = .error es →
    (∀ e ∈ es, e.IsRefusal) ∨ "yield" ∈ importedLocals body ∧ es = [.parseError ownCode]

/-- Unless a module imports something as `yield`, it is never its generated code that is refused. -/
theorem ofBody_readable {source : String} {program : Program}
    (hp : Program.parse? source = some program) (origin : String) (style : Style)
    (links : Links) : Readable origin style program.body links := by
  have hread : readStatements? origin style program.body =
      unlessYield (importedLocals program.body)
        ((piecesOf origin style program.body).statements style.strategy) :=
    readStatements?_eq (Program.bindsWell_of_parse? hp)
  have hb := Program.bindsWell_of_parse? hp
  have hh (url : String) : IsPlainName (hiddenOf origin program.body url) :=
    isPlainName_hiddenName _
  refine ⟨fun p hp' hy => ?_, fun s _ => readPassed?_eq hh s,
    fun s hs => readPublished?_eq hh (hb s hs), fun hy => ?_, fun ss h => ?_, fun es h => ?_⟩
  · obtain ⟨url, -, rfl⟩ := List.mem_map.1 hp'
    have hinitializer := isInitializer_includeText style.strategy url
    rw [generatorStatements?_group (isReadable_groupOf hb) hinitializer, unlessYield,
      if_neg (mt List.contains_iff_mem.1 hy)]
  · rw [hread, unlessYield, if_neg (mt List.contains_iff_mem.1 hy)]
    rfl
  · obtain ⟨rfl, -, hyield⟩ := ofBody_ok h
    rw [hread, unlessYield, if_neg (mt List.contains_iff_mem.1 hyield)]
  · have hends := ofBody_ends origin style program.body links
    generalize (ofBody origin style program.body links).2 = links' at hends
    rw [h] at hends
    cases hends with
    | awaits await eager =>
      left
      intro e he
      obtain rfl := List.mem_singleton.1 he
      trivial
    | refused initial linked ne subset =>
      exact .inl fun e he => isRefusal_of_linked linked e (subset he)
    | reserved linked mem => exact .inr ⟨mem, rfl⟩

def wordySource : String :=
  "import a, \x7b 'b-c' as d \x7d from './a.js'; import * as ns from './a.js'; " ++
    "let v = 1; export \x7b v, v as 'e f' \x7d; export let yield = 2; " ++
    "export \x7b default as g \x7d from './a.js'; export * from './b.js'; " ++
    "export * as h from './b.js'; export default a;"

theorem wordySource_readable : ∃ program, Program.parse? wordySource = some program ∧
    (ofBody "/a/c.js" ⟨.lazy, false⟩ program.body { graph := Graph.empty.add "/a/c.js" }).1.isOk ∧
    "yield" ∉ importedLocals program.body ∧
    Readable "/a/c.js" ⟨.lazy, false⟩ program.body { graph := Graph.empty.add "/a/c.js" } := by
  have hrun : ((Program.parse? wordySource).map fun program =>
      (ofBody "/a/c.js" ⟨.lazy, false⟩ program.body
        { graph := Graph.empty.add "/a/c.js" }).1.isOk &&
          decide ("yield" ∉ importedLocals program.body)) = some true := by decide +kernel
  obtain ⟨program, hp, h⟩ := Option.map_eq_some_iff.1 hrun
  rw [Bool.and_eq_true, decide_eq_true_eq] at h
  exact ⟨program, hp, h.1, h.2, ofBody_readable hp _ _ _⟩

def yieldSource : String := "import yield from './a.js';"

/-- The parser accepts the name in a module, and then refuses it in the code of the module. -/
theorem yieldSource_not_read : ¬ ∀ source program origin style links es,
    Program.parse? source = some program →
      (ofBody origin style program.body links).1 = .error es → ∀ e ∈ es, e.IsRefusal := by
  intro h
  have hrun : ((Program.parse? yieldSource).map fun program =>
      match (ofBody "/main.js" ⟨.lazy, false⟩ program.body
        { graph := Graph.empty.add "/main.js" }).1 with
      | .error es => decide (es = [.parseError "__stitch_snippet__"])
      | .ok _ => false) = some true := by decide +kernel
  obtain ⟨program, hp, hes⟩ := Option.map_eq_some_iff.1 hrun
  split at hes
  · next es he =>
    rw [decide_eq_true_eq] at hes
    subst hes
    exact h _ _ _ _ _ _ hp he _ (List.mem_singleton_self _)
  · cases hes

end Bodies

end Thunk

end ScriptBundler
