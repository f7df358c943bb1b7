import ScriptBundler.Loader
import ScriptBundler.Proofs.Syntax.Free
import ScriptBundler.Proofs.Thunk.ExportsObject

namespace ScriptBundler.Loader

open ScriptBundler.Thunk (Own assign)

/-- What names hold when a bundle runs. The properties of exports objects are told by `δ`. -/
inductive Value (δ : Type) where
  | undefined
  | bool (value : Bool)
  | string (value : String)
  | array (items : List (Value δ))
  | record (entries : List (String × Value δ))
  | map (entries : List (String × Value δ))
  | descriptors (own : Own δ)
  | exports (own : Own δ) (isFrozen : Bool)
  | function (depth : Nat) (params : List Pattern) (value : Expr)
  | generator (depth : Nat) (body : List Stmt)
  | promise (result : Option (Value δ))
  | imported (source : Value δ)
  | foreign (e : Expr)

/-- The names around an expression, innermost first, and the properties of `window`. -/
structure Env (δ : Type) where
  names : List (String × Value δ) := []
  window : List (String × Value δ) := []

namespace Env

variable {δ : Type}

def lookup? (env : Env δ) (name : String) : Option (Value δ) :=
  (env.names.lookup name).or (env.window.lookup name)

def update (env : Env δ) (name : String) (v : Value δ) : Env δ :=
  { env with names := replace env.names }
where
  replace : List (String × Value δ) → List (String × Value δ)
    | [] => []
    | (n, w) :: names => if n = name then (n, v) :: names else (n, w) :: replace names

def declare (env : Env δ) (names : List (String × Value δ)) : Env δ :=
  { env with names := names ++ env.names }

def around (env : Env δ) (depth : Nat) : Env δ :=
  { env with names := env.names.drop (env.names.length - depth) }

variable {env : Env δ} {names : List (String × Value δ)}

theorem lookup?_declare {name : String} (h : name ∉ names.map (·.1)) :
    (env.declare names).lookup? name = env.lookup? name := by
  have hnone : names.lookup name = none := by
    rw [List.lookup_eq_none_iff]
    intro p hp
    rw [bne_iff_ne]
    rintro rfl
    exact h (List.mem_map_of_mem hp)
  rw [lookup?, lookup?, declare, List.lookup_append, hnone, Option.none_or]

/-- What is declared further in is not around a function. -/
theorem around_declare {depth : Nat} (h : depth ≤ env.names.length) :
    (env.declare names).around depth = env.around depth := by
  have hdrop : names.length + env.names.length - depth =
      names.length + (env.names.length - depth) := Nat.add_sub_assoc h _
  simp only [around, declare, List.length_append, hdrop, List.drop_length_add_append]

end Env

namespace Value

variable {δ : Type}

def isTruthy? : Value δ → Option Bool
  | .undefined => some false
  | .bool b => some b
  | .string s => some (s ≠ "")
  | .foreign _ => none
  | _ => some true

/-- What takes the place of a value that is not there. -/
def orElse? : Value δ → Option (Value δ) → Option (Value δ)
  | .undefined, other => other
  | .foreign _, _ => none
  | v, _ => some v

def element? : Value δ → Value δ → Option (Value δ)
  | .record entries, .string key =>
    if Url.isAbsolute key then some ((entries.lookup key).getD .undefined) else none
  | _, _ => none

def items? : Value δ → Option (List (Value δ))
  | .array items => some items
  | _ => none

def descriptors? : Value δ → Option (Own δ)
  | .descriptors own => some own
  | _ => none

def method? : Value δ → String → List (Value δ) → Option (Value δ)
  | .map entries, "has", [.string key] => some (.bool (entries.lookup key).isSome)
  | .map entries, "get", [.string key] => some ((entries.lookup key).getD .undefined)
  | _, _, _ => none

def updated? : Value δ → String → List (Value δ) → Option (Value δ)
  | .array items, "push", [v] => some (.array (items ++ [v]))
  | .map entries, "set", [.string key, v] =>
    some (.map ((key, v) :: entries.filter (·.1 ≠ key)))
  | _, _, _ => none

/--
What an `await` of a value gives. An object with a property `then` that can be called is not given
itself: the call decides. `call?` tells what it comes to, and is none for what cannot be called.
-/
def awaited? (call? : δ → Option (Option (Value δ))) : Value δ → Option (Value δ)
  | .promise result => result
  | .imported _ => none
  | .exports own isFrozen => ((own "then").bind call?).getD (some (.exports own isFrozen))
  | v => some v

theorem mapM_descriptors? (items : List (Own δ)) :
    (items.map Value.descriptors).mapM descriptors? = some items := by
  induction items with
  | nil => rfl
  | cons item items ih =>
    rw [List.map_cons, List.mapM_cons, ih]
    rfl

end Value

section Evaluation

variable {δ : Type} (call? : δ → Option (Option (Value δ)))

def items? (value? : Expr → Option (Value δ)) : Expr → Option (List (Value δ))
  | .spread e => (value? e).bind Value.items?
  | e => (value? e).map ([·])

def values? (value? : Expr → Option (Value δ)) : List Expr → Option (List (Value δ))
  | [] => some []
  | e :: es => do return (← items? value? e) ++ (← values? value? es)

def parameters? : List Pattern → List (Value δ) → Option (List (String × Value δ))
  | [], _ => some []
  | .name n :: ps, [] => ((n, .undefined) :: ·) <$> parameters? ps []
  | .name n :: ps, v :: vs => ((n, v) :: ·) <$> parameters? ps vs
  | _, _ => none

def static? : String → String → List (Value δ) → Option (Value δ)
  | "Object", "assign", .record [] :: sources => do
    return .descriptors ((← sources.mapM Value.descriptors?).foldl assign fun _ => none)
  | "Object", "defineProperties", [.record [], .descriptors own] => some (.exports own false)
  | "Object", "freeze", [.exports own _] => some (.exports own true)
  | "Promise", "resolve", [v] => some (.promise (v.awaited? call?))
  | _, _, _ => none

def value? : Nat → Env δ → Expr → Option (Value δ)
  | 0, _, _ => none
  | n + 1, env, e =>
    match e with
    | .ident name => env.lookup? name
    | .string s _ => some (.string s)
    | .bool b => some (.bool b)
    | .array items _ => .array <$> values? (value? n env) items
    | .object [] => some (.record [])
    | .arrow false _ params value => some (.function env.names.length params value)
    | .function (.mk _ true _ none [] _ body) => some (.generator env.names.length body)
    | .new (.ident "Map") [] _ => if (env.lookup? "Map").isNone then some (.map []) else none
    | .conditional test consequent alternate => do
      let isTrue ← (← value? n env test).isTruthy?
      value? n env (if isTrue then consequent else alternate)
    | .binary .coalesce left right => do (← value? n env left).orElse? (value? n env right)
    | .index object key _ => do (← value? n env object).element? (← value? n env key)
    | .importCall none [source] => return .imported (← value? n env source)
    | .await operand => do (← value? n env operand).awaited? call?
    | .call (.member (.ident object) name _) args _ _ => do
      let args ← values? (value? n env) args
      match env.lookup? object with
      | some v => v.method? name args
      | none => static? call? object name args
    | .call callee args _ _ => do
      match ← value? n env callee with
      | .function depth params body =>
        let args ← values? (value? n env) args
        value? n ((env.around depth).declare (← parameters? params args)) body
      | _ => none
    | _ => none

variable {call?} {n depth : Nat} {env : Env δ} {name object : String} {e : Expr}
  {es args : List Expr} {v : Value δ} {vs ws : List (Value δ)}

theorem values?_cons {value? : Expr → Option (Value δ)} (he : items? value? e = some vs)
    (hes : values? value? es = some ws) : values? value? (e :: es) = some (vs ++ ws) := by
  rw [values?, he, hes]
  rfl

theorem values?_singleton {value? : Expr → Option (Value δ)} (he : items? value? e = some vs) :
    values? value? [e] = some vs := by
  rw [values?_cons he rfl, List.append_nil]

theorem items?_invoke {value? : Expr → Option (Value δ)}
    (h : value? (invoke e name args) = some v) :
    items? value? (invoke e name args) = some [v] :=
  congrArg (Option.map ([·])) h

theorem value?_conditional {test consequent alternate : Expr} {isTrue : Bool}
    (h : value? call? n env test = some v) (hv : v.isTruthy? = some isTrue) :
    value? call? (n + 1) env (.conditional test consequent alternate) =
      value? call? n env (if isTrue then consequent else alternate) := by
  rw [value?, h]
  simp only [Option.bind_eq_bind, Option.bind_some, hv]

theorem value?_static (hargs : values? (value? call? n env) args = some vs)
    (hv : env.lookup? object = none) :
    value? call? (n + 1) env (.call (.member (.ident object) name) args) =
      static? call? object name vs := by
  rw [value?, hargs]
  simp only [Option.bind_eq_bind, Option.bind_some, hv]

theorem value?_call {callee : String} {params : List Pattern} {body : Expr}
    {names : List (String × Value δ)}
    (hf : env.lookup? callee = some (.function depth params body))
    (hargs : values? (value? call? (n + 1) env) args = some vs)
    (hparams : parameters? params vs = some names) :
    value? call? (n + 2) env (.call (.ident callee) args) =
      value? call? (n + 1) ((env.around depth).declare names) body := by
  have hcallee : value? call? (n + 1) env (.ident callee) =
      some (.function depth params body) := hf
  rw [value?, hcallee]
  · simp only [Option.bind_eq_bind, Option.bind_some, hargs, hparams]
  · intro object name isOptional h
    cases h

def registered (items : List (Own δ)) : Value δ :=
  .exports (items.foldl assign fun _ => none) true

theorem value?_frozenExports {items : List (Own δ)} (hobject : env.lookup? "Object" = none)
    (he : value? call? (n + 1) env e = some (.array (items.map .descriptors))) :
    value? call? (n + 4) env (frozenExports e) = some (registered items) := by
  have hrecord (n : Nat) : items? (value? call? (n + 1) env) (.object []) =
      some [.record []] := rfl
  have hspread : items? (value? call? (n + 1) env) (.spread e) =
      some (items.map .descriptors) := by
    rw [items?, he]
    rfl
  have hassign : value? call? (n + 2) env
      (invoke (.ident "Object") "assign" [.object [], .spread e]) =
        some (.descriptors (items.foldl assign fun _ => none)) := by
    have hargs := values?_cons (hrecord n) (values?_singleton hspread)
    rw [invoke, value?_static hargs hobject, List.singleton_append, static?,
      Value.mapM_descriptors?]
    rfl
  have hdefine : value? call? (n + 3) env
      (invoke (.ident "Object") "defineProperties"
        [.object [], invoke (.ident "Object") "assign" [.object [], .spread e]]) =
          some (.exports (items.foldl assign fun _ => none) false) := by
    have hargs := values?_cons (hrecord (n + 1)) (values?_singleton (items?_invoke hassign))
    rw [invoke, value?_static hargs hobject]
    rfl
  have hargs := values?_singleton (items?_invoke hdefine)
  rw [frozenExports, invoke, value?_static hargs hobject]
  rfl

end Evaluation

def valueProperty? : Property → Option (String × Expr)
  | .keyValue (.ident name) _ (.object [.keyValue (.ident "value") _ e]) => some (name, e)
  | _ => none

def windowProperties? : Stmt → Option (List (String × Expr))
  | .expr (.call (.member (.ident "Object") "defineProperties" _)
      [.ident "window", .object properties] _ _) => some (properties.filterMap valueProperty?)
  | _ => none

def bound? {δ : Type} : Pattern → Value δ → Option (List (String × Value δ))
  | .name n, v => some [(n, v)]
  | .array ps, .array vs => parameters? ps vs
  | _, _ => none

/-- A module when it is run: its statements, and what is around them. -/
structure Moment (δ : Type) where
  body : List Stmt
  env : Env δ

/-- Steps of a run, which may come to a halt for good. The modules that are run are taken down. -/
abbrev Running (δ : Type) := OptionT (StateM (List (Moment δ)))

def Running.ofOption {δ α : Type} (a : Option α) : Running δ α := OptionT.mk (pure a)

section Execution

variable {δ : Type} (call? : δ → Option (Option (Value δ)))
  (hands : Moment δ → Option (List (Own δ)))

/-- Whether the page alone can tell what an expression gives. -/
def isForeign (env : Env δ) (e : Expr) : Bool :=
  !e.free.isEmpty && e.free.all fun name =>
    (env.lookup? name).isNone && !(["Object", "Map", "Promise"].contains name)

def initial? (n : Nat) (env : Env δ) (e : Expr) : Option (Value δ) :=
  if isForeign env e then some (.foreign e) else value? call? n env e

def drain (m : Moment δ) : Running δ (List (Own δ)) := do
  modify (· ++ [m])
  .ofOption (hands m)

def execute : Nat → Env δ → Stmt → Running δ (Env δ)
  | 0, _, _ => failure
  | n + 1, env, s =>
    match s with
    | .block body => do
      let inner ← body.foldlM (execute n) env
      return inner.around env.names.length
    | .decl (.vars .constKind [.mk (.name name) (some e)]) => do
      return env.declare [(name, ← .ofOption (initial? call? n env e))]
    | .forOf isAwait (.vars .constKind [.mk pattern none]) source body => do
      let items ← if isAwait then
          match source with
          | .call callee [] _ _ =>
            match value? call? n env callee with
            | some (.generator depth body) =>
              (·.map .descriptors) <$> drain hands ⟨body, env.around depth⟩
            | _ => failure
          | _ => failure
        else
          match value? call? n env source with
          | some (.array items) => pure items
          | _ => failure
      items.foldlM (fun env item => do
        let names ← .ofOption (bound? pattern item)
        let inner ← execute n (env.declare names) body
        return inner.around env.names.length) env
    | .expr (.call (.arrowBlock _ _ [] _ body) [] _ _) => do
      let inner ← body.foldlM (execute n) env
      return inner.around env.names.length
    | .expr (.call (.member (.ident object) name _) args _ _) =>
      match windowProperties? s with
      | some properties =>
        let known := properties.filterMap fun p => (p.1, ·) <$> value? call? n env p.2
        return { env with window := known ++ env.window }
      | none => .ofOption do
        let v ← env.lookup? object
        return env.update object (← v.updated? name (← values? (value? call? n env) args))
    | _ => failure

def moments (n : Nat) (ss : List Stmt) : List (Moment δ) :=
  ((ss.foldlM (execute call? hands n) {}).run.run []).2

variable {call? hands} {n : Nat} {env : Env δ} {body : List Stmt} {args : List Expr}
  {object name : String} {v w : Value δ} {vs : List (Value δ)} {m : Moment δ}

theorem execute_block : execute call? hands (n + 1) env (.block body) = (do
    let inner ← body.foldlM (execute call? hands n) env
    return inner.around env.names.length) := rfl

theorem execute_method
    (hs : windowProperties? (.expr (.call (.member (.ident object) name) args)) = none)
    (hv : env.lookup? object = some v) (hargs : values? (value? call? n env) args = some vs)
    (hw : v.updated? name vs = some w) :
    execute call? hands (n + 1) env (.expr (.call (.member (.ident object) name) args)) =
      pure (env.update object w) := by
  rw [execute, hs]
  simp only [hv, hargs, Option.bind_eq_bind, Option.bind_some, hw]
  rfl

theorem run_drain {α : Type} (before : List (Moment δ)) (next : List (Own δ) → Running δ α) :
    (drain hands m >>= next).run.run before =
      match hands m with
      | some items => (next items).run.run (before ++ [m])
      | none => (none, before ++ [m]) := by
  have hrun : (drain hands m >>= next).run.run before =
      (Running.ofOption (hands m) >>= next).run.run (before ++ [m]) := rfl
  rw [hrun]
  cases hands m <;> rfl

theorem run_map {α β : Type} (x : Running δ α) (f : α → β) (before : List (Moment δ)) :
    ((f <$> x).run.run before).2 = (x.run.run before).2 := by
  rw [OptionT.run_map]
  rfl

end Execution

end ScriptBundler.Loader
