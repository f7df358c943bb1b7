import ScriptBundler.Proofs.Scan.Cycles
import ScriptBundler.Proofs.Thunk.Sites
import ScriptBundler.Proofs.Url

namespace ScriptBundler

open Relation

theorem distinct_prefix {α : Type} [DecidableEq α] (l l' : List α) :
    distinct l <+: distinct (l ++ l') := by
  induction l' using List.reverseRecOn with
  | nil => simp only [List.append_nil, List.prefix_rfl]
  | append_singleton l' a ih =>
    rw [← List.append_assoc, distinct_concat]
    split
    · exact ih
    · exact ih.trans (List.prefix_append _ _)

namespace Graph

variable {g g' : Graph} {origin : String} {refs : List String} {es : List BuildError}

theorem urls_require (g : Graph) (origin url : String) :
    (g.require origin url).2.urls = (g.add url).urls := by
  rw [require_snd, urls_addEdge]

theorem taken_require (g : Graph) (origin url : String) :
    (g.require origin url).2.taken = g.taken := by
  rw [require_snd, taken_addEdge, taken_add]

theorem Linked.taken_eq (h : Linked origin g refs es g') : g'.taken = g.taken := by
  induction h with
  | refl => rfl
  | require _ url ih => rw [taken_require, ih]
  | addExport _ name binding ih => rw [(sameLinks_addExport _ origin name binding).taken, ih]

theorem urls_foldl_add {known : List String} (hk : g.urls = distinct known) (urls : List String) :
    (urls.foldl Graph.add g).urls = distinct (known ++ urls) := by
  induction urls generalizing g known with
  | nil => rw [List.append_nil, List.foldl_nil, hk]
  | cons url urls ih =>
    have hadd : (g.add url).urls = distinct (known ++ [url]) := by
      rw [urls_add, distinct_concat, ← hk]
      simp only [hk, mem_distinct]
    rw [List.foldl_cons, ih hadd, List.append_assoc, List.singleton_append]

/-- All that a module refers to is known from then on, refused or not. -/
theorem Linked.urls_eq (h : Linked origin g refs es g') {known : List String}
    (hk : g.urls = distinct known) : g'.urls = distinct (known ++ refs) := by
  induction h with
  | refl => rw [List.append_nil, hk]
  | @require refs es g' _ url ih =>
    have hmem : url ∈ known ++ refs ↔ url ∈ g'.urls := by rw [ih, mem_distinct]
    rw [urls_require, urls_add, ← List.append_assoc, distinct_concat, ← ih]
    simp only [hmem]
  | @addExport _ _ g' _ name binding ih =>
    rw [(sameLinks_addExport g' origin name binding).urls, ih]

end Graph

/-- A specifier in the text of a statement: its source, or the string of a call that loads. -/
def Stmt.Specifies (specifier : String) (s : Stmt) : Prop :=
  s.source? = some specifier ∨ ∃ e, Node.Loads e (.stmt s) ∧ e.specifier? = some specifier

theorem Stmt.exists_specifies {s : Stmt} {origin url : String} (h : url ∈ s.references origin) :
    ∃ specifier, s.Specifies specifier ∧ url = Url.resolve origin specifier := by
  rw [Stmt.references] at h
  split at h
  · next source hs => exact ⟨source, .inl hs, List.mem_singleton.1 h⟩
  · split at h
    · cases h
    · obtain ⟨e, he, rfl⟩ := (Node.mem_walk_naming (n := .stmt s)).1 h
      obtain ⟨specifier, hs⟩ := Option.isSome_iff_exists.1 he.isSome
      exact ⟨specifier, .inr ⟨e, he, hs⟩, by rw [Thunk.called, hs, Option.getD_some]⟩

theorem Thunk.mem_referencesOf {origin u : String} {body : List Stmt}
    (h : u ∈ referencesOf origin body) : ∃ specifier, u = Url.resolve origin specifier := by
  obtain ⟨s, -, hu⟩ := List.mem_flatMap.1 h
  obtain ⟨specifier, -, he⟩ := s.exists_specifies hu
  exact ⟨specifier, he⟩

namespace Settings

variable {settings : Settings} {load : ModuleLoader}

/-- The urls that the module at `url` refers to, if it is loaded, in the order of its text. -/
def mentions (settings : Settings) (load : ModuleLoader) (url : String) : List String :=
  match settings.answer load url with
  | .ok (.loaded source) =>
    match Program.parse? source with
    | some program => Thunk.referencesOf url program.body
    | none => []
  | _ => []

theorem deps_eq_distinct (url : String) :
    settings.deps load url = distinct (settings.mentions load url) := by
  rw [deps, mentions]
  cases settings.answer load url with
  | error e => rfl
  | ok outcome =>
    cases outcome with
    | loaded source =>
      simp only
      cases Program.parse? source <;> rfl
    | notNeeded => rfl

theorem mem_deps_iff {u v : String} :
    v ∈ settings.deps load u ↔ v ∈ settings.mentions load u := by
  rw [deps_eq_distinct, mem_distinct]

theorem mem_mentions {u v : String} (h : v ∈ settings.mentions load u) :
    ∃ specifier, v = Url.resolve u specifier := by
  rw [mentions] at h
  split at h
  · split at h
    · exact Thunk.mem_referencesOf h
    · cases h
  · cases h

theorem Reaches.isAbsolute {u : String} (h : settings.Reaches load u)
    (hb : Url.isAbsolute settings.base = true) : Url.isAbsolute u = true := by
  obtain ⟨entry, he, hr⟩ := h
  induction hr with
  | refl =>
    obtain ⟨item, -, rfl⟩ := mem_entries.1 he
    exact Url.isAbsolute_resolveEntry hb item
  | tail _ hv ih =>
    obtain ⟨specifier, rfl⟩ := mem_mentions (mem_deps_iff.1 hv)
    exact Url.isAbsolute_resolve ih specifier

theorem answer_of_internal {url : String} (h : settings.isExternal url = false) :
    settings.answer load url = load url := by
  rw [answer, h]
  rfl

theorem answer_cases (settings : Settings) (load : ModuleLoader) (url : String) :
    (settings.isExternal url = true ∧ settings.answer load url = .ok .notNeeded) ∨
      (settings.isExternal url = false ∧ settings.answer load url = load url) := by
  rw [answer]
  cases settings.isExternal url with
  | true => exact .inl ⟨rfl, rfl⟩
  | false => exact .inr ⟨rfl, rfl⟩

/-- Only what the loader says itself fails or has a text. -/
theorem of_answer {url : String} {answer : Except BuildError LoadOutcome}
    (h : settings.answer load url = answer) (hne : answer ≠ .ok .notNeeded) :
    settings.isExternal url = false ∧ load url = answer := by
  rcases settings.answer_cases load url with ⟨-, he⟩ | ⟨hx, he⟩
  · exact absurd (h.symm.trans he) hne
  · exact ⟨hx, he.symm.trans h⟩

end Settings

namespace Scan

/--
The loop of a scan, with the urls that the loader is asked for on the way. An external url is left
to the runtime without asking.
-/
inductive Run (load : ModuleLoader) :
    Scan → List String → Except (List BuildError) Unit → Scan → Prop where
  | done {s : Scan} (next : s.next? = none) : Run load s [] (.ok ()) s
  | failed {s s₁ : Scan} {url : String} {e : BuildError} (next : s.next? = some (url, s₁))
      (internal : s.settings.isExternal url = false) (answer : load url = .error e) :
    Run load s [url] (.error [e]) s₁
  | external {s s₁ s' : Scan} {url : String} {calls : List String}
      {result : Except (List BuildError) Unit} (next : s.next? = some (url, s₁))
      (external : s.settings.isExternal url = true)
      (rest : Run load (s₁.leave url) calls result s') : Run load s calls result s'
  | left {s s₁ s' : Scan} {url : String} {calls : List String}
      {result : Except (List BuildError) Unit} (next : s.next? = some (url, s₁))
      (internal : s.settings.isExternal url = false) (answer : load url = .ok .notNeeded)
      (rest : Run load (s₁.leave url) calls result s') : Run load s (url :: calls) result s'
  | refused {s s₁ s' : Scan} {url source : String} {es : List BuildError}
      (next : s.next? = some (url, s₁)) (internal : s.settings.isExternal url = false)
      (answer : load url = .ok (.loaded source))
      (accept : s₁.accept url source = (.error es, s')) : Run load s [url] (.error es) s'
  | accepted {s s₁ s₂ s' : Scan} {url source : String} {calls : List String}
      {result : Except (List BuildError) Unit} (next : s.next? = some (url, s₁))
      (internal : s.settings.isExternal url = false) (answer : load url = .ok (.loaded source))
      (accept : s₁.accept url source = (.ok (), s₂)) (rest : Run load s₂ calls result s') :
    Run load s (url :: calls) result s'

variable {load : ModuleLoader} {s s' : Scan} {url : String} {limit : Nat}
  {calls calls' before : List String} {result result' : Except (List BuildError) Unit}

theorem Run.of_run? (h : run? load limit s = some (result, s')) :
    ∃ calls, Run load s calls result s' := by
  fun_induction run? load limit s with
  | case1 limit s hn =>
    obtain ⟨rfl, rfl⟩ := Prod.mk.inj (Option.some.inj h)
    exact ⟨[], .done hn⟩
  | case2 limit s url s₁ hn e ha =>
    obtain ⟨rfl, rfl⟩ := Prod.mk.inj (Option.some.inj h)
    obtain ⟨-, rfl⟩ := next?_eq_some hn
    obtain ⟨hx, he⟩ := Settings.of_answer ha (by simp)
    exact ⟨_, .failed hn hx he⟩
  | case3 limit s url s₁ hn ha ih =>
    obtain ⟨calls, hrun⟩ := ih h
    obtain ⟨-, rfl⟩ := next?_eq_some hn
    have ha : s.settings.answer load url = .ok .notNeeded := ha
    rcases s.settings.answer_cases load url with ⟨hx, -⟩ | ⟨hx, he⟩
    · exact ⟨_, .external hn hx hrun⟩
    · exact ⟨_, .left hn hx (he.symm.trans ha) hrun⟩
  | case4 => cases h
  | case5 s url s₁ hn source ha n es s₂ hacc =>
    obtain ⟨rfl, rfl⟩ := Prod.mk.inj (Option.some.inj h)
    obtain ⟨-, rfl⟩ := next?_eq_some hn
    obtain ⟨hx, he⟩ := Settings.of_answer ha (by simp)
    exact ⟨_, .refused hn hx he hacc⟩
  | case6 s url s₁ hn source ha n s₂ hacc ih =>
    obtain ⟨calls, hrun⟩ := ih h
    obtain ⟨-, rfl⟩ := next?_eq_some hn
    obtain ⟨hx, he⟩ := Settings.of_answer ha (by simp)
    exact ⟨_, .accepted hn hx he hacc hrun⟩

theorem Run.unique (h : Run load s calls result s') {t : Scan}
    (h' : Run load s calls' result' t) : calls' = calls ∧ result' = result ∧ t = s' := by
  induction h generalizing calls' result' t with
  | done next => cases h' <;> grind
  | failed next internal answer => cases h' <;> grind
  | external next external rest ih => cases h' <;> grind
  | left next internal answer rest ih => cases h' <;> grind
  | refused next internal answer accept => cases h' <;> grind
  | accepted next internal answer accept rest ih => cases h' <;> grind

def visited (s : Scan) : List String := s.graph.urls.take s.graph.taken

/-- How a scan has come as far as it has: what the loader was asked for, and what was met. -/
structure Met (load : ModuleLoader) (s : Scan) (calls met : List String) : Prop where
  calls_eq : calls = s.visited.filter fun url => !s.settings.isExternal url
  urls_eq : s.graph.urls = distinct (s.settings.entries ++ met)
  initial : met <+: s.visited.flatMap (s.settings.mentions load)

theorem Met.start (load : ModuleLoader) (settings : Settings) :
    Met load (Scan.start settings) [] [] ∧ (Scan.start settings).visited = [] := by
  have hfresh : (Scan.start settings).graph.Fresh := Graph.Fresh.empty.foldl_add settings.entries
  have hvisited : (Scan.start settings).visited = [] := by
    rw [visited, hfresh.taken, List.take_zero]
  refine ⟨⟨?_, ?_, List.nil_prefix⟩, hvisited⟩
  · rw [hvisited, List.filter_nil]
  · have hempty : Graph.empty.urls = distinct [] := rfl
    rw [List.append_nil]
    exact Graph.urls_foldl_add hempty settings.entries

theorem Met.step {met more : List String} (h : Met load s before met) (s' : Scan)
    (hall : met = s.visited.flatMap (s.settings.mentions load))
    (hu : s.graph.urls[s.graph.taken]? = some url) (hset : s'.settings = s.settings)
    (htaken : s'.graph.taken = s.graph.taken + 1) (hmore : more <+: s.settings.mentions load url)
    (hurls : s'.graph.urls = distinct (s.settings.entries ++ met ++ more)) :
    Met load s' (before ++ [url].filter fun url => !s.settings.isExternal url) (met ++ more) ∧
      s'.visited = s.visited ++ [url] := by
  have hprefix : s.graph.urls <+: s'.graph.urls := by
    rw [hurls, h.urls_eq]
    exact distinct_prefix _ _
  have hvisited : s'.visited = s.visited ++ [url] := by
    obtain ⟨rest, hrest⟩ := hprefix
    have hlt := (List.getElem?_eq_some_iff.1 hu).1
    rw [visited, visited, htaken, ← hrest, List.take_append_of_le_length hlt,
      List.take_add_one, hu]
    rfl
  refine ⟨⟨?_, ?_, ?_⟩, hvisited⟩
  · rw [hvisited, List.filter_append, h.calls_eq, hset]
  · rw [hurls, hset, List.append_assoc]
  · rw [hvisited, List.flatMap_append, List.flatMap_singleton, hset, ← hall]
    exact (List.prefix_append_right_inj _).2 hmore

theorem of_error_eq_ok {es : List BuildError} {p : Prop}
    (h : (.error es : Except (List BuildError) Unit) = .ok ()) : p := by
  cases h

theorem accept_urls {source : String} {known : List String}
    (hk : s.graph.urls = distinct known)
    (ha : s.settings.answer load url = .ok (.loaded source))
    (h : s.accept url source = (result, s')) :
    s'.settings = s.settings ∧ s'.graph.taken = s.graph.taken ∧
      ∃ more, more <+: s.settings.mentions load url ∧ s'.graph.urls = distinct (known ++ more) ∧
        (result = .ok () → more = s.settings.mentions load url) := by
  rw [accept] at h
  cases hp : Program.parse? source with
  | none =>
    rw [hp] at h
    obtain ⟨rfl, rfl⟩ := Prod.mk.inj h
    exact ⟨rfl, rfl, [], List.nil_prefix, by rw [List.append_nil, hk], of_error_eq_ok⟩
  | some program =>
    rw [hp] at h
    have hmentions : s.settings.mentions load url = Thunk.referencesOf url program.body := by
      simp only [Settings.mentions, ha, hp]
    have hends := Thunk.ofBody_ends url s.settings.style program.body s.links
    simp only at h
    generalize Thunk.ofBody url s.settings.style program.body s.links = answer at h hends
    obtain ⟨outcome, links⟩ := answer
    rw [hmentions]
    cases hends with
    | awaits await eager =>
      obtain ⟨rfl, rfl⟩ := Prod.mk.inj h
      exact ⟨rfl, rfl, [], List.nil_prefix, by rw [List.append_nil]; exact hk, of_error_eq_ok⟩
    | refused initial linked ne subset =>
      obtain ⟨rfl, rfl⟩ := Prod.mk.inj h
      exact ⟨rfl, linked.taken_eq, _, initial, linked.urls_eq hk, of_error_eq_ok⟩
    | reserved linked mem =>
      obtain ⟨rfl, rfl⟩ := Prod.mk.inj h
      exact ⟨rfl, linked.taken_eq, _, List.prefix_refl _, linked.urls_eq hk, of_error_eq_ok⟩
    | done linked not_mem =>
      obtain ⟨rfl, rfl⟩ := Prod.mk.inj h
      have hs := Graph.sameLinks_setState links.graph url .loaded
      exact ⟨rfl, hs.taken.trans linked.taken_eq, _, List.prefix_refl _,
        hs.urls.trans (linked.urls_eq hk), fun _ => rfl⟩

/-- How a run of the loop ends. -/
structure Ended (load : ModuleLoader) (settings : Settings) (calls : List String)
    (result : Except (List BuildError) Unit) (s : Scan) : Prop where
  settings_eq : s.settings = settings
  met : ∃ met, Met load s calls met ∧
    (result = .ok () → met = s.visited.flatMap (settings.mentions load))
  done : result = .ok () → Invariant load s ∧ s.graph.urls.length ≤ s.graph.taken

/-- An url that is left to the runtime mentions nothing. -/
theorem Met.leave {met : List String} (h : Met load s before met)
    (hall : met = s.visited.flatMap (s.settings.mentions load))
    (hu : s.graph.urls[s.graph.taken]? = some url)
    (ha : s.settings.answer load url = .ok .notNeeded) :
    Met load (s.taken.leave url)
        (before ++ [url].filter fun url => !s.settings.isExternal url) met ∧
      met = (s.taken.leave url).visited.flatMap (s.settings.mentions load) := by
  have hs := Graph.sameLinks_setState s.taken.graph url .notNeeded
  have hnone : s.settings.mentions load url = [] := by simp only [Settings.mentions, ha]
  have hurls : (s.taken.leave url).graph.urls = distinct (s.settings.entries ++ met ++ []) := by
    rw [List.append_nil]
    exact hs.urls.trans h.urls_eq
  have htaken := hs.taken.trans (taken_taken hu)
  obtain ⟨hmet, hvisited⟩ := h.step (s.taken.leave url) hall hu rfl htaken List.nil_prefix hurls
  rw [List.append_nil] at hmet
  refine ⟨hmet, ?_⟩
  rw [hvisited, List.flatMap_append, List.flatMap_singleton, hnone, List.append_nil]
  exact hall

theorem Run.ended (h : Run load s calls result s') (hi : Invariant load s) {met : List String}
    (hm : Met load s before met) (hall : met = s.visited.flatMap (s.settings.mentions load)) :
    Ended load s.settings (before ++ calls) result s' := by
  -- on the run; `Met` says of each state which urls are known, and is carried on step by step
  induction h generalizing before met with
  | @done s next =>
    rw [List.append_nil]
    exact ⟨rfl, ⟨met, hm, fun _ => hall⟩, fun _ => ⟨hi, next?_eq_none next⟩⟩
  | @failed s s₁ url e next internal answer =>
    obtain ⟨hu, rfl⟩ := next?_eq_some next
    have hurls : s.taken.graph.urls = distinct (s.settings.entries ++ met ++ []) := by
      rw [List.append_nil]
      exact hm.urls_eq
    obtain ⟨hmet, -⟩ := hm.step s.taken hall hu rfl (taken_taken hu) List.nil_prefix hurls
    rw [List.filter_singleton, internal] at hmet
    exact ⟨rfl, ⟨_, hmet, of_error_eq_ok⟩, of_error_eq_ok⟩
  | @external s s₁ s' url calls result next external rest ih =>
    obtain ⟨hu, rfl⟩ := next?_eq_some next
    have ha : s.settings.answer load url = .ok .notNeeded := if_pos external
    obtain ⟨hmet, hall'⟩ := hm.leave hall hu ha
    rw [List.filter_singleton, external] at hmet
    have hended := ih (hi.leave hu ha) hmet hall'
    rw [Bool.not_true, Bool.cond_false, List.append_nil] at hended
    exact hended
  | @left s s₁ s' url calls result next internal answer rest ih =>
    obtain ⟨hu, rfl⟩ := next?_eq_some next
    have ha := (Settings.answer_of_internal internal).trans answer
    obtain ⟨hmet, hall'⟩ := hm.leave hall hu ha
    rw [List.filter_singleton, internal] at hmet
    have hended := ih (hi.leave hu ha) hmet hall'
    rw [List.append_assoc] at hended
    exact hended
  | @refused s s₁ s' url source es next internal answer accept =>
    obtain ⟨hu, rfl⟩ := next?_eq_some next
    have ha := (Settings.answer_of_internal internal).trans answer
    obtain ⟨hset, htaken, more, hmore, hurls, -⟩ := accept_urls (s := s.taken) hm.urls_eq ha accept
    obtain ⟨hmet, -⟩ := hm.step s' hall hu hset (htaken.trans (taken_taken hu)) hmore hurls
    rw [List.filter_singleton, internal] at hmet
    exact ⟨hset, ⟨_, hmet, of_error_eq_ok⟩, of_error_eq_ok⟩
  | @accepted s s₁ s₂ s' url source calls result next internal answer accept rest ih =>
    obtain ⟨hu, rfl⟩ := next?_eq_some next
    have ha := (Settings.answer_of_internal internal).trans answer
    obtain ⟨hset, htaken, more, hmore, hurls, hwhole⟩ :=
      accept_urls (s := s.taken) hm.urls_eq ha accept
    have hset : s₂.settings = s.settings := hset
    obtain ⟨hmet, hvisited⟩ := hm.step s₂ hall hu hset (htaken.trans (taken_taken hu)) hmore hurls
    rw [List.filter_singleton, internal] at hmet
    have hall' : met ++ more = s₂.visited.flatMap (s₂.settings.mentions load) := by
      rw [hvisited, List.flatMap_append, List.flatMap_singleton, hset, ← hall, hwhole rfl]
      rfl
    obtain ⟨hinv, -, -⟩ := hi.accepted hu ha accept
    have hended := ih hinv hmet hall'
    rw [hset, List.append_assoc] at hended
    exact hended

/-- The loader is asked for each url once, in the order in which the urls were referred to first. -/
structure InTurn (load : ModuleLoader) (settings : Settings) (calls : List String) (s : Scan) :
    Prop where
  once : calls.Nodup
  internal : ∀ url ∈ calls, settings.isExternal url = false
  calls_eq : calls = s.visited.filter fun url => !settings.isExternal url
  referenced : ∃ met, met <+: s.visited.flatMap (settings.mentions load) ∧
    s.graph.urls = distinct (settings.entries ++ met)

/-- Nothing is left to be looked at, and each module that was loaded has its body. -/
structure Complete (load : ModuleLoader) (s : Scan) : Prop where
  queue : s.next? = none
  referenced : s.graph.urls =
    distinct (s.settings.entries ++ s.graph.urls.flatMap (s.settings.mentions load))
  states : ∀ u ∈ s.graph.urls,
    s.graph.state? u = some .loaded ∨ s.graph.state? u = some .notNeeded
  keys_nodup : s.keys.Nodup
  mem_keys : ∀ u, u ∈ s.keys ↔ s.graph.state? u = some .loaded
  absolute : ∀ u ∈ s.graph.urls, Url.isAbsolute u = true

theorem Run.ended_of_start {settings : Settings} (h : Run load (start settings) calls result s) :
    Ended load settings calls result s := by
  obtain ⟨hmet, hvisited⟩ := Met.start load settings
  have hall : [] = (start settings).visited.flatMap (settings.mentions load) := by
    rw [hvisited, List.flatMap_nil]
  exact h.ended (.start load settings) hmet hall

theorem Ended.referenced {settings : Settings} (h : Ended load settings calls (.ok ()) s) :
    s.graph.urls =
      distinct (settings.entries ++ s.graph.urls.flatMap (settings.mentions load)) := by
  obtain ⟨met, hmet, hwhole⟩ := h.met
  obtain ⟨-, hall⟩ := h.done rfl
  have hvisited : s.visited = s.graph.urls := List.take_of_length_le hall
  have hurls := hmet.urls_eq
  rw [hwhole rfl, hvisited, h.settings_eq] at hurls
  exact hurls

theorem Ended.inTurn {settings : Settings} (h : Ended load settings calls result s) :
    InTurn load settings calls s := by
  obtain ⟨met, hmet, -⟩ := h.met
  obtain ⟨hcalls, hurls, hinitial⟩ := hmet
  rw [h.settings_eq] at hcalls hurls hinitial
  have hnodup : s.visited.Nodup := by
    have hall := nodup_distinct (settings.entries ++ met)
    rw [← hurls] at hall
    exact hall.sublist (List.take_sublist _ _)
  refine ⟨?_, ?_, hcalls, met, hinitial, hurls⟩
  · rw [hcalls]
    exact hnodup.filter _
  · intro url hu
    rw [hcalls, List.mem_filter, Bool.not_eq_true'] at hu
    exact hu.2

theorem Ended.complete {settings : Settings} (h : Ended load settings calls (.ok ()) s)
    (hb : Url.isAbsolute settings.base = true) : Complete load s := by
  obtain ⟨hinv, hall⟩ := h.done rfl
  rw [← h.settings_eq] at hb
  constructor
  case queue =>
    rw [next?, Option.map_eq_none_iff, Graph.next_eq_none_iff, Graph.size_eq]
    exact hall
  case referenced => exact h.settings_eq ▸ h.referenced
  case states =>
    intro u hu
    cases hinv.looked_of_all hall hu with
    | loaded _ _ _ state => exact .inl state
    | left _ _ state => exact .inr state
  case keys_nodup => exact hinv.keys_nodup
  case mem_keys => exact fun u => hinv.mem_keys_iff_loaded
  case absolute =>
    intro u hu
    exact (hinv.reached u hu).isAbsolute hb

end Scan

theorem Options.isAbsolute_base (o : Options) (workingDirectory : String) :
    Url.isAbsolute (o.normalize workingDirectory).base = true := by
  rw [Url.isAbsolute]
  exact decide_eq_true (congrArg List.head? String.toList_ofList)

/--
A scan ends if its loader has texts for finitely many urls only. Until then, whether it succeeds or
not, it asks for each url at most once, never for an external one, and in the order in which the
urls were referred to first; if it succeeds, nothing is left to be done. Any limit that is not below
the number of texts is as good as none.
-/
theorem scan_loads_in_turn (load : ModuleLoader) (o : Options) (workingDirectory : String)
    (known : List String) (hk : ∀ url source, load url = .ok (.loaded source) → url ∈ known) :
    ∃ calls result s,
      (∀ calls' result' s',
        Scan.Run load (Scan.start (o.normalize workingDirectory)) calls' result' s' ↔
          calls' = calls ∧ result' = result ∧ s' = s) ∧
      (∀ limit, known.length ≤ limit →
        Sources.scan ⟨load, limit⟩ (o.normalize workingDirectory) = (result, s)) ∧
      Scan.InTurn load (o.normalize workingDirectory) calls s ∧
      (result = .ok () → Scan.Complete load s) := by
  generalize hset : o.normalize workingDirectory = settings
  have hbase : Url.isAbsolute settings.base = true := hset ▸ o.isAbsolute_base workingDirectory
  have hstart := Scan.Invariant.start load settings
  have hknown (u source : String) (_ : settings.Reaches load u)
      (ha : settings.answer load u = .ok (.loaded source)) : u ∈ known := by
    exact hk u source (Settings.of_answer ha nofun).2
  have hrun (limit : Nat) (hl : known.length ≤ limit) : ∃ calls result s,
      Scan.Run load (Scan.start settings) calls result s ∧
        Sources.scan ⟨load, limit⟩ settings = (result, s) := by
    have hne : Scan.run? load (limit + settings.entries.length) (Scan.start settings) ≠ none :=
      hstart.run?_ne_none hknown (by omega)
    obtain ⟨⟨result, s⟩, hr⟩ := Option.ne_none_iff_exists'.1 hne
    obtain ⟨calls, hrun⟩ := Scan.Run.of_run? hr
    exact ⟨calls, result, s, hrun, congrArg (Option.getD · _) hr⟩
  obtain ⟨calls, result, s, hloop, -⟩ := hrun known.length (Nat.le_refl _)
  have hended : Scan.Ended load settings calls result s := hloop.ended_of_start
  refine ⟨calls, result, s, ?_, ?_, hended.inTurn, ?_⟩
  · intro calls' result' s'
    constructor
    · exact hloop.unique
    · rintro ⟨rfl, rfl, rfl⟩
      exact hloop
  · intro limit hl
    obtain ⟨calls', result', s', hloop', hscan⟩ := hrun limit hl
    obtain ⟨-, rfl, rfl⟩ := hloop.unique hloop'
    exact hscan
  · rintro rfl
    exact hended.complete hbase

def borrowingModules : MemoryModules :=
  { modules := [("/a.js", "import './lib/x.js'; import './b.js'"),
      ("/b.js", "import './lib/x.js'; import './c.js'"), ("/c.js", "")] }

def borrowingOptions : Options := { input := some ["./a.js"], external := some ["/lib/"] }

theorem borrowing_scan_succeeds :
    ((Sources.ofMemory borrowingModules).scan (borrowingOptions.normalize "/")).1 = .ok () :=
  Sources.scan_ofMemory_ok ["/c.js", "/lib/x.js", "/b.js", "/a.js"] (by decide +kernel)
    (by decide +kernel) (by decide +kernel)

theorem borrowing_scan_in_turn :
    (∀ url source, borrowingModules.load url = .ok (.loaded source) →
      url ∈ borrowingModules.modules.map (·.1)) ∧
    ∃ calls s, (∀ calls' result' s',
      Scan.Run borrowingModules.load (Scan.start (borrowingOptions.normalize "/")) calls' result'
        s' ↔ calls' = calls ∧ result' = .ok () ∧ s' = s) ∧
      Scan.InTurn borrowingModules.load (borrowingOptions.normalize "/") calls s ∧
      "/lib/x.js" ∉ calls ∧ Scan.Complete borrowingModules.load s := by
  have hk (url source : String) (h : borrowingModules.load url = .ok (.loaded source)) :
      url ∈ borrowingModules.modules.map (·.1) :=
    @Sources.ofMemory_limit Sources.mutualSettings borrowingModules url source h
  obtain ⟨calls, result, s, hrun, hscan, hturn, hcomplete⟩ :=
    scan_loads_in_turn borrowingModules.load borrowingOptions "/" _ hk
  have hok := borrowing_scan_succeeds
  rw [Sources.ofMemory, hscan _ (by decide)] at hok
  obtain rfl : result = .ok () := hok
  have hlib : "/lib/x.js" ∉ calls := by
    intro hm
    have hinternal := hturn.internal _ hm
    revert hinternal
    decide +kernel
  exact ⟨hk, calls, s, hrun, hturn, hlib, hcomplete rfl⟩

end ScriptBundler
