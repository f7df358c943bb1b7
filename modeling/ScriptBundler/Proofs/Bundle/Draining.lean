import ScriptBundler.Proofs.Bundle.Running

namespace ScriptBundler.Loader.Lazy

open ScriptBundler.Thunk (Own)

variable {δ : Type}

/-- What is around the modules of a bundle, given what is registered, and the list of them all. -/
def outer (entries : List (String × Value δ)) (all : List (Value δ)) : Env δ where
  names := [("modules", .array all),
    ("toURL", .function 2 [.name "url"]
      (.member (.new (.ident "URL") [.ident "url", .ident "scriptURL"]) "href")),
    ("scriptURL", .foreign scriptUrl), ("included", .map entries)]
  window := [("include", .function 3 [.name "url", .name "immediate"]
    (.conditional (invoke included "has" [.ident "url"])
      (.conditional (.ident "immediate") (invoke included "get" [.ident "url"])
        (invoke (.ident "Promise") "resolve" [invoke included "get" [.ident "url"]]))
      (.importCall none [.call (.ident "toURL") [.ident "url"]])))]

def entry (t : Thunk) : Value δ := .array [.string t.url, .generator 4 t.body]

/-- The exports that are registered once those of another module are, too. -/
def register (url : String) (items : List (Own δ)) (entries : List (String × Value δ)) :
    List (String × Value δ) :=
  (url, registered items) :: entries.filter (·.1 ≠ url)

variable {call? : δ → Option (Option (Value δ))} {hands : Moment δ → Option (List (Own δ))}
  {n : Nat} {entries locals : List (String × Value δ)} {all : List (Value δ)}
  {t : Thunk} {thunks : List Thunk} {url : String} {v : Value δ}

section Include

/-- What is around the body of `include` when it is called. -/
def includeEnv (entries : List (String × Value δ)) (all : List (Value δ)) (url : String)
    (immediate : Value δ) : Env δ :=
  ((outer entries all).around 3).declare [("url", .string url), ("immediate", immediate)]

theorem value?_get {immediate : Value δ} (hv : entries.lookup url = some v) :
    value? call? (n + 2) (includeEnv entries all url immediate)
      (invoke included "get" [.ident "url"]) = some v := by
  have hget : value? call? (n + 2) (includeEnv entries all url immediate)
      (invoke included "get" [.ident "url"]) = some ((entries.lookup url).getD .undefined) := rfl
  rw [hget, hv, Option.getD_some]

/-- A call of `include` for a url that is registered, from where that name is not declared. -/
theorem value?_call_include {rest : List Expr} {passed : List (Value δ)} {immediate : Value δ}
    {isTrue : Bool} (hlocals : "include" ∉ locals.map (·.1)) (hv : entries.lookup url = some v)
    (hrest : values? (value? call? (n + 5) ((outer entries all).declare locals)) rest = some passed)
    (hparams : parameters? [.name "url", .name "immediate"] (.string url :: passed) =
      some [("url", .string url), ("immediate", immediate)])
    (hasked : immediate.isTruthy? = some isTrue) :
    value? call? (n + 6) ((outer entries all).declare locals)
        (.call (.ident "include") (.string url :: rest)) =
      value? call? (n + 3) (includeEnv entries all url immediate)
        (if isTrue then invoke included "get" [.ident "url"]
          else invoke (.ident "Promise") "resolve" [invoke included "get" [.ident "url"]]) := by
  have hinclude : ((outer entries all).declare locals).lookup? "include" = _ :=
    Env.lookup?_declare hlocals
  have hdepth : 3 ≤ (outer entries all).names.length := Nat.le_succ 3
  have hhas : value? call? (n + 4) (includeEnv entries all url immediate)
      (invoke included "has" [.ident "url"]) = some (.bool (entries.lookup url).isSome) := rfl
  rw [hv] at hhas
  rw [value?_call hinclude (values?_cons rfl hrest) hparams, Env.around_declare hdepth]
  exact (value?_conditional hhas rfl).trans (value?_conditional rfl hasked)

theorem value?_include (hlocals : "include" ∉ locals.map (·.1))
    (hv : entries.lookup url = some v) :
    value? call? (n + 6) ((outer entries all).declare locals)
      (.call (.ident "include") [.string url]) = some (.promise (v.awaited? call?)) := by
  rw [value?_call_include hlocals hv rfl rfl rfl]
  exact value?_static (values?_singleton (items?_invoke (value?_get hv))) rfl

theorem value?_include_immediate (hlocals : "include" ∉ locals.map (·.1))
    (hv : entries.lookup url = some v) :
    value? call? (n + 6) ((outer entries all).declare locals)
      (.call (.ident "include") [.string url, .bool true]) = some v := by
  rw [value?_call_include hlocals hv rfl rfl rfl]
  exact value?_get hv

end Include

section Startup

theorem execute_prelude :
    prelude.foldlM (execute call? hands (n + 5)) {} = pure (outer [] []) := by
  rfl

theorem execute_register : execute call? hands (n + 4) (outer entries all) (t.register true) =
    pure (outer entries (all ++ [entry t])) := rfl

theorem execute_registers :
    (thunks.map (Thunk.register true)).foldlM (execute call? hands (n + 4)) (outer entries all) =
      pure (outer entries (all ++ thunks.map entry)) := by
  induction thunks generalizing all with
  | nil => rw [List.map_nil, List.map_nil, List.append_nil, List.foldlM_nil]
  | cons t thunks ih =>
    rw [List.map_cons, List.foldlM_cons, execute_register, pure_bind, ih, List.append_assoc]
    rfl

def running (t : Thunk) (env : Env δ) : Env δ :=
  env.declare [("url", .string t.url), ("thunk", .generator 4 t.body)]

/-- What is around the code that collects what a module hands out. -/
def collecting (t : Thunk) (found : List (Value δ)) (env : Env δ) : Env δ :=
  env.declare
    [("descriptors", .array found), ("url", .string t.url), ("thunk", .generator 4 t.body)]

theorem execute_pushes (items : List (Own δ)) (found : List (Value δ)) :
    (items.map Value.descriptors).foldlM (fun env item => do
        let names ← .ofOption (bound? (.name "published") item)
        let inner ← execute call? hands (n + 3) (env.declare names)
          (.expr (invoke (.ident "descriptors") "push" [.ident "published"]))
        return inner.around env.names.length) (collecting t found (outer entries all)) =
      (pure (collecting t (found ++ items.map .descriptors) (outer entries all)) :
        Running δ (Env δ)) := by
  induction items generalizing found with
  | nil => rw [List.map_nil, List.append_nil, List.foldlM_nil]
  | cons item items ih =>
    rw [List.map_cons, List.foldlM_cons, List.append_cons]
    exact ih (found ++ [.descriptors item])

theorem execute_runModule :
    execute call? hands (n + 9) (running t (outer entries all)) (.block runModule) = (do
      let items ← drain hands ⟨t.body, outer entries all⟩
      return running t (outer (register t.url items entries) all)) := by
  have hfirst : execute call? hands (n + 8) (running t (outer entries all))
      (constant "descriptors" (.array [])) = pure (collecting t [] (outer entries all)) := rfl
  have hawait : execute call? hands (n + 8) (collecting t [] (outer entries all))
      (.forOf true (.vars .constKind [.mk (.name "published") none]) (.call (.ident "thunk") [])
        (.expr (invoke (.ident "descriptors") "push" [.ident "published"]))) = (do
      let items ← (·.map Value.descriptors) <$> drain hands ⟨t.body, outer entries all⟩
      items.foldlM (fun env item => do
        let names ← .ofOption (bound? (.name "published") item)
        let inner ← execute call? hands (n + 7) (env.declare names)
          (.expr (invoke (.ident "descriptors") "push" [.ident "published"]))
        return inner.around env.names.length) (collecting t [] (outer entries all))) := rfl
  have hset (items : List (Own δ)) : execute call? hands (n + 8)
      (collecting t (items.map .descriptors) (outer entries all))
      (.expr (invoke included "set" [.ident "url", frozenExports (.ident "descriptors")])) =
        pure (collecting t (items.map .descriptors)
          (outer (register t.url items entries) all)) := by
    have hexports : value? call? (n + 7) (collecting t (items.map .descriptors) (outer entries all))
        (frozenExports (.ident "descriptors")) = some (registered items) :=
      value?_frozenExports rfl rfl
    exact execute_method (v := .map entries) rfl rfl
      (values?_cons rfl (values?_singleton (items?_invoke hexports))) rfl
  rw [execute_block, runModule, List.foldlM_cons, hfirst, pure_bind, List.foldlM_cons, hawait]
  simp only [bind_map_left, bind_assoc]
  congr 1
  funext items
  rw [execute_pushes (n := n + 4), pure_bind, List.nil_append, List.foldlM_cons, hset, pure_bind,
    List.foldlM_nil, pure_bind]
  rfl

/-- What the loop over all modules does with one of them. -/
def runEntry (call? : δ → Option (Option (Value δ))) (hands : Moment δ → Option (List (Own δ)))
    (n : Nat) (env : Env δ) (item : Value δ) : Running δ (Env δ) := do
  let names ← .ofOption (bound? (.array [.name "url", .name "thunk"]) item)
  let inner ← execute call? hands (n + 9) (env.declare names) (.block runModule)
  return inner.around env.names.length

theorem runEntry_entry : runEntry call? hands n (outer entries all) (entry t) = (do
    let items ← drain hands ⟨t.body, outer entries all⟩
    return outer (register t.url items entries) all) := by
  have hstart : runEntry call? hands n (outer entries all) (entry t) = (do
      let inner ← execute call? hands (n + 9) (running t (outer entries all)) (.block runModule)
      return inner.around (outer entries all).names.length) := rfl
  rw [hstart, execute_runModule]
  simp only [bind_assoc, pure_bind]
  rfl

def drained (hands : Moment δ → Option (List (Own δ))) (all : List (Value δ)) :
    List (String × Value δ) → List Thunk → List (Moment δ)
  | _, [] => []
  | entries, t :: thunks =>
    let m : Moment δ := ⟨t.body, outer entries all⟩
    match hands m with
    | some items => m :: drained hands all (register t.url items entries) thunks
    | none => [m]

theorem run_entries (before : List (Moment δ)) :
    (((thunks.map entry).foldlM (runEntry call? hands n) (outer entries all)).run.run before).2 =
      before ++ drained hands all entries thunks := by
  induction thunks generalizing entries before with
  | nil => exact (List.append_nil before).symm
  | cons t thunks ih =>
    rw [List.map_cons, List.foldlM_cons, runEntry_entry, bind_assoc, run_drain, drained]
    cases hands ⟨t.body, outer entries all⟩ with
    | none => rfl
    | some items =>
      simp only [pure_bind]
      rw [ih, List.append_assoc]
      rfl

theorem moments_assemble :
    moments call? hands (n + 12) (assemble thunks) =
      drained hands (thunks.map entry) [] thunks := by
  have hloop (all : List (Value δ)) : execute call? hands (n + 10) (outer [] all)
      (forEachModule runModule) = all.foldlM (runEntry call? hands n) (outer [] all) := rfl
  have hstartup (all : List (Value δ)) :
      startup.foldlM (execute call? hands (n + 11)) (outer [] all) = (do
        let inner ← [forEachModule runModule].foldlM (execute call? hands (n + 10)) (outer [] all)
        return inner.around (outer [] all).names.length) := by
    rw [startup, List.foldlM_cons]
    simp only [List.foldlM_nil, bind_pure]
    rfl
  rw [moments, assemble, List.foldlM_cons, execute_block, List.foldlM_append, List.foldlM_append,
    execute_prelude, pure_bind, execute_registers, pure_bind, hstartup, List.foldlM_cons, hloop]
  simp only [bind_assoc, pure_bind, List.foldlM_nil, List.nil_append]
  rw [← map_eq_pure_bind, run_map, run_entries]
  rfl

end Startup

section Registered

theorem lookup_filter_ne {u : String} (hu : u ≠ url) :
    (entries.filter (·.1 ≠ url)).lookup u = entries.lookup u := by
  induction entries with
  | nil => rfl
  | cons p entries ih =>
    obtain ⟨name, v⟩ := p
    by_cases hp : name = url
    · rw [List.filter_cons_of_neg (by simpa using hp), ih, List.lookup_cons,
        beq_eq_false_iff_ne.2 (hp ▸ hu)]
    · rw [List.filter_cons_of_pos (by simpa using hp), List.lookup_cons, List.lookup_cons, ih]

theorem lookup_register_self (items : List (Own δ)) :
    (register url items entries).lookup url = some (registered items) := by
  rw [register, List.lookup_cons, beq_self_eq_true]

theorem lookup_register_of_ne {u : String} (hu : u ≠ url) (items : List (Own δ)) :
    (register url items entries).lookup u = entries.lookup u := by
  rw [register, List.lookup_cons, beq_eq_false_iff_ne.2 hu]
  exact lookup_filter_ne hu

theorem getElem?_drained (hd : (thunks.map (·.url)).Nodup) {k : Nat} {m : Moment δ}
    (h : (drained hands all entries thunks)[k]? = some m) :
    ∃ t entries', thunks[k]? = some t ∧ m = ⟨t.body, outer entries' all⟩ ∧
      (∀ u ∉ thunks.map (·.url), entries'.lookup u = entries.lookup u) ∧
      ∀ j < k, ∀ t', thunks[j]? = some t' → ∃ m' items,
        (drained hands all entries thunks)[j]? = some m' ∧ hands m' = some items ∧
          entries'.lookup t'.url = some (registered items) := by
  induction thunks generalizing entries k with
  | nil => cases h
  | cons t thunks ih =>
    rw [List.map_cons, List.nodup_cons] at hd
    obtain ⟨hurl, hd⟩ := hd
    cases k with
    | zero =>
      have hm : m = ⟨t.body, outer entries all⟩ := by
        rw [drained] at h
        split at h <;> exact (Option.some.inj h).symm
      exact ⟨t, entries, rfl, hm, fun _ _ => rfl, fun j hj => absurd hj (Nat.not_lt_zero j)⟩
    | succ k =>
      rw [drained] at h ⊢
      cases hitems : hands ⟨t.body, outer entries all⟩ with
      | none =>
        rw [hitems] at h
        cases h
      | some items =>
        rw [hitems] at h
        obtain ⟨t', entries', ht', hm, hothers, hbefore⟩ := ih hd h
        refine ⟨t', entries', ht', hm, fun u hu => ?_, fun j hj t'' ht'' => ?_⟩
        · rw [List.map_cons, List.mem_cons, not_or] at hu
          exact (hothers u hu.2).trans (lookup_register_of_ne hu.1 items)
        · cases j with
          | zero =>
            obtain rfl := Option.some.inj ht''
            refine ⟨_, items, rfl, hitems, ?_⟩
            -- what `t` hands out stays registered, since no module after it has its url
            rw [hothers _ hurl, lookup_register_self]
          | succ j => exact hbefore j (Nat.lt_of_succ_lt_succ hj) t'' ht''

theorem lt_length_drained {k : Nat} (hk : k < thunks.length)
    (h : ∀ m ∈ (drained hands all entries thunks).take k, (hands m).isSome) :
    k < (drained hands all entries thunks).length := by
  induction thunks generalizing entries k with
  | nil => cases hk
  | cons t thunks ih =>
    rw [drained] at h ⊢
    cases hitems : hands ⟨t.body, outer entries all⟩ with
    | none =>
      rw [hitems] at h
      cases k with
      | zero => exact Nat.zero_lt_one
      | succ k =>
        have hsome := h _ List.mem_cons_self
        rw [hitems] at hsome
        cases hsome
    | some items =>
      rw [hitems] at h
      cases k with
      | zero => exact Nat.succ_pos _
      | succ k =>
        refine Nat.succ_lt_succ (ih (Nat.lt_of_succ_lt_succ hk) fun m hm => ?_)
        exact h m (List.mem_cons_of_mem _ hm)

end Registered

end ScriptBundler.Loader.Lazy
