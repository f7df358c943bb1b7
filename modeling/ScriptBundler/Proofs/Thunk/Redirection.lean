import ScriptBundler.Proofs.Thunk.Fixpoint
import ScriptBundler.Syntax.Parser

namespace ScriptBundler

open Node

namespace Node

/-- The node to which positions among parts lead. -/
def at? : List Nat → Node → Option Node
  | [], n => some n
  | i :: path, n => n.parts[i]?.bind (at? path)

variable {n m : Node} {e e' : Expr} {name : String → String} {names : List String}

theorem IsInert.at? {path : List Nat} (h : n.IsInert) (hm : m ∈ n.at? path) : m.IsInert := by
  induction path generalizing n with
  | nil =>
    obtain rfl := Option.some.inj hm
    exact h
  | cons i path ih =>
    obtain ⟨n', hn', hm⟩ := Option.bind_eq_some_iff.1 hm
    exact ih (h.part (List.mem_of_getElem? hn')) hm

theorem getElem?_walkAll {σ : Type} {v : Visitor σ} (ns : List Node) (st : σ) (i : Nat) :
    ∃ st', ((walkAll v ns).run st).1[i]? = ns[i]?.map fun n => ((n.walk v).run st').1 := by
  induction ns generalizing st i with
  | nil => exact ⟨st, rfl⟩
  | cons n ns ih =>
    cases i with
    | zero => exact ⟨st, rfl⟩
    | succ i => exact ih ((n.walk v).run st).2 i

/-- A renamed tree has at every place the renamed node of that place, unless the place is inside of
a call that loads a module. -/
theorem at?_walk (name : String → String) (n : Node) (names : List String) (path : List Nat) :
    (∃ names', ((n.walk (Thunk.naming name)).run names).1.at? path =
      (n.at? path).map fun m => ((m.walk (Thunk.naming name)).run names').1) ∨
    (∀ m ∈ n.at? path, m.IsInert) ∧
      ∀ m ∈ ((n.walk (Thunk.naming name)).run names).1.at? path, m.IsInert := by
  induction path generalizing n names with
  | nil => exact .inl ⟨names, rfl⟩
  | cons i path ih =>
    cases hn : n.site? with
    | none =>
      obtain ⟨names', hparts⟩ := n.parts_descend_naming name names
      obtain ⟨names'', hpart⟩ := getElem?_walkAll (v := Thunk.naming name) n.parts names' i
      rw [walk_naming_of_site?_none hn]
      simp only [at?, hparts, hpart]
      cases n.parts[i]? with
      | none => exact .inl ⟨names, rfl⟩
      | some m => exact ih m names''
    | some e =>
      -- the walk does not go on below such a call, where neither tree has another one
      have hinside {n : Node} {e : Expr} (hn : n.site? = some e) :
          ∀ m ∈ n.at? (i :: path), m.IsInert := by
        intro m hm
        obtain ⟨m', hm', hm⟩ := Option.bind_eq_some_iff.1 hm
        exact (isInert_of_site? hn (List.mem_of_getElem? hm')).at? hm
      exact .inr ⟨hinside hn, hinside (walk_naming_of_site? hn names)⟩

theorem exists_walk_expr {σ : Type} {v : Visitor σ} (place : Place) (e : Expr) (st : σ) :
    ∃ e', (((Node.expr place e).walk v).run st).1 = .expr place e' := by
  cases place with
  | operand => exact ⟨_, rfl⟩
  | item => cases e <;> exact ⟨_, rfl⟩
  | element => exact ⟨_, rfl⟩

theorem site?_of_specifier? {place : Place} (hp : place ≠ .element) (he : e.specifier?.isSome) :
    (Node.expr place e).site? = some e := by
  rw [site?_expr hp, if_pos he]

theorem walk_of_site? {place : Place} (h : (Node.expr place e).site? = some e)
    (names : List String) : (((Node.expr place e).walk (Thunk.naming name)).run names).1 =
      .expr place (e.withUrl (Thunk.called name e)) := by
  have hsite : (((Node.expr place e).walk (Thunk.naming name)).run names).1.site? =
      some (e.withUrl (Thunk.called name e)) := walk_naming_of_site? h names
  obtain ⟨e', he'⟩ := exists_walk_expr (v := Thunk.naming name) place e names
  rw [he'] at hsite ⊢
  obtain ⟨place', he, -, -⟩ := site?_eq_some hsite
  rw [(Node.expr.inj he).2]

variable {path : List Nat} {place : Place}

theorem loads_of_at? (hp : place ≠ .element) (he : e.specifier?.isSome)
    (h : n.at? path = some (.expr place e)) : Loads e n := by
  induction path generalizing n with
  | nil =>
    obtain rfl := Option.some.inj h
    exact .here (site?_of_specifier? hp he)
  | cons i path ih =>
    obtain ⟨m, hm, h⟩ := Option.bind_eq_some_iff.1 h
    exact .part (List.mem_of_getElem? hm) (ih h)

theorem at?_walk_of_specifier? (hp : place ≠ .element) (he : e.specifier?.isSome)
    (hn : n.at? path = some (.expr place e)) :
    ((n.walk (Thunk.naming name)).run names).1.at? path =
      some (.expr place (e.withUrl (Thunk.called name e))) := by
  rcases n.at?_walk name names path with ⟨names', hwalk⟩ | ⟨hinert, -⟩
  · rw [hwalk, hn, Option.map_some, walk_of_site? (site?_of_specifier? hp he)]
  · rw [(hinert _ hn).specifier?] at he
    cases he

theorem exists_at?_of_walk (hp : place ≠ .element) (he : e'.specifier?.isSome)
    (h : ((n.walk (Thunk.naming name)).run names).1.at? path = some (.expr place e')) :
    ∃ e, n.at? path = some (.expr place e) ∧ e.specifier?.isSome ∧
      e' = e.withUrl (Thunk.called name e) := by
  rcases n.at?_walk name names path with ⟨names', hwalk⟩ | ⟨-, hinert⟩
  · rw [hwalk] at h
    obtain ⟨m, hm, hwalked⟩ := Option.map_eq_some_iff.1 h
    have hsite := site?_of_specifier? hp he
    cases hs : m.site? with
    | none =>
      rw [← hwalked, walk_naming_of_site?_none hs, site?_descend hs] at hsite
      cases hsite
    | some e =>
      obtain ⟨place', rfl, -, hsome⟩ := site?_eq_some hs
      rw [walk_of_site? hs] at hwalked
      obtain ⟨rfl, rfl⟩ := Node.expr.inj hwalked
      exact ⟨e, hm, hsome, rfl⟩
  · rw [(hinert _ h).specifier?] at he
    cases he

theorem eq_expr_of_walk {σ : Type} {v : Visitor σ} {st : σ}
    (h : ((n.walk v).run st).1 = .expr place e') : ∃ e, n = .expr place e := by
  cases n with
  | expr place' e =>
    obtain ⟨e'', he⟩ := exists_walk_expr (v := v) place' e st
    rw [he] at h
    exact ⟨e, congrArg (Node.expr · e) (Node.expr.inj h).1⟩
  | declarator d =>
    cases d
    cases h
  | case c =>
    cases c
    cases h
  | _ => cases h

end Node

def Expr.isAccess : Expr → Bool
  | .member _ _ _ => true
  | .index _ _ _ => true
  | .privateMember _ _ _ => true
  | .call _ _ _ _ => true
  | _ => false

namespace Node

variable {n : Node} {name : String → String} {names : List String}

/-- The elements of chains, and the targets of assignments, are calls and accesses to members. -/
def HasAccesses (n : Node) : Prop :=
  ∀ path e, n.at? path = some (.expr .element e) → e.isAccess = true

theorem HasAccesses.part {m : Node} (h : n.HasAccesses) (hm : m ∈ n.parts) : m.HasAccesses := by
  obtain ⟨i, hi⟩ := List.getElem?_of_mem hm
  intro path e he
  apply h (i :: path) e
  rw [at?, hi, Option.bind_some, he]

theorem hasAccesses_iff : n.HasAccesses ↔
    (∀ e, n = .expr .element e → e.isAccess = true) ∧ ∀ m ∈ n.parts, m.HasAccesses := by
  constructor
  · intro h
    exact ⟨fun e he => h [] e (congrArg some he), fun m hm => h.part hm⟩
  · intro ⟨hn, hparts⟩ path e h
    cases path with
    | nil => exact hn e (Option.some.inj h)
    | cons i path =>
      obtain ⟨m, hm, h⟩ := Option.bind_eq_some_iff.1 h
      exact hparts m (List.mem_of_getElem? hm) path e h

theorem hasAccesses_iff_parts (hn : ∀ e, n ≠ .expr .element e) :
    n.HasAccesses ↔ ∀ m ∈ n.parts, m.HasAccesses := by
  rw [hasAccesses_iff]
  exact and_iff_right fun e he => absurd he (hn e)

theorem hasAccesses_element {e : Expr} : (expr .element e).HasAccesses ↔
    e.isAccess = true ∧ ∀ m ∈ e.parts, m.HasAccesses := by
  rw [hasAccesses_iff]
  simp [parts]

theorem not_import_walk {place : Place} (hp : place ≠ .element) (path : List Nat)
    (phase : Option ImportPhase) (specifier : String) (lone : Bool) :
    ((n.walk (Thunk.naming name)).run names).1.at? path ≠
      some (.expr place (.importCall phase [.string specifier lone])) := by
  intro hn
  obtain ⟨e, -, he, himport⟩ := exists_at?_of_walk hp rfl hn
  obtain ⟨specifier', hs⟩ := Option.isSome_iff_exists.1 he
  unfold Expr.specifier? at hs
  split at hs
  · cases himport
  · cases himport
  · cases hs

theorem not_import_element_walk (h : n.HasAccesses) (path : List Nat)
    (phase : Option ImportPhase) (specifier : String) (lone : Bool) :
    ((n.walk (Thunk.naming name)).run names).1.at? path ≠
      some (.expr .element (.importCall phase [.string specifier lone])) := by
  intro hn
  rcases n.at?_walk name names path with ⟨names', hwalk⟩ | ⟨-, hinert⟩
  · rw [hwalk] at hn
    obtain ⟨m, hm, hwalked⟩ := Option.map_eq_some_iff.1 hn
    obtain ⟨e, rfl⟩ := eq_expr_of_walk hwalked
    have haccess := h path e hm
    cases e with
    | member | index | privateMember | call => cases hwalked
    | _ => cases haccess
  · obtain ⟨_, _, he, hplace, -⟩ := (hinert _ hn).cases
    exact hplace (Node.expr.inj he).1.symm

end Node

namespace Thunk

variable {origin : String} {links : Links} {s s' : Stmt} {cs : CallSites}

/--
What redirecting the calls of the module at `origin` makes of a tree, given the graph that it leads
to.
-/
structure Redirected (origin : String) (g : Graph) (n n' : Node) : Prop where
  named : ∀ path place callee url lone isOptional isPure, place ≠ .element →
    callee.isInclude = true →
    n'.at? path = some (.expr place (.call callee [.string url lone] isOptional isPure)) →
    ∃ e specifier, n.at? path = some (.expr place e) ∧ e.specifier? = some specifier ∧
      url = Url.resolve origin specifier ∧ url ∈ g.requires origin
  kept : ∀ path place e specifier, place ≠ .element → n.at? path = some (.expr place e) →
    e.specifier? = some specifier →
    n'.at? path = some (.expr place (e.withUrl (Url.resolve origin specifier)))
  noImport : ∀ path place phase specifier lone, place ≠ .element →
    n'.at? path ≠ some (.expr place (.importCall phase [.string specifier lone]))
  noImportElement : n.HasAccesses → ∀ path phase specifier lone,
    n'.at? path ≠ some (.expr .element (.importCall phase [.string specifier lone]))

/-- Where nothing is wrong with its calls, all calls of a statement are redirected, wherever in the
statement they stand, save for those that are elements of optional chains. -/
theorem redirected_of_run (ho : origin ∈ links.graph.urls)
    (h : (s.descend (CallSites.visitor origin)).run { links := links } = (s', cs))
    (he : cs.errors = []) : Redirected origin cs.links.graph (.stmt s) (.stmt s') := by
  have hagree : CallSites.Since origin { links := links } cs (s.calls (Url.resolve origin)) ∧
      (cs.errors = [] → s' = s.renamed (Url.resolve origin)) := by
    have hstep := Stmt.descend_related (CallSites.visitor_agree { links := links }) s
      { links := links } [] (.refl origin _)
    rw [h] at hstep
    exact ⟨hstep.1, fun he => (hstep.2 he).2⟩
  obtain ⟨⟨es, hes, hlinked⟩, hrenamed⟩ := hagree
  have hwalk : Node.stmt s' =
      (((Node.stmt s).walk (naming (Url.resolve origin))).run []).1 :=
    congrArg Node.stmt (hrenamed he)
  have hnone : es = [] := hes.symm.trans he
  obtain ⟨-, hrequired⟩ := hlinked.isLinked ho hnone
  constructor
  · intro path place callee url lone isOptional isPure hp hi hn
    rw [hwalk] at hn
    have hcall : (Expr.call callee [.string url lone] isOptional isPure).specifier? = some url :=
      if_pos hi
    obtain ⟨e, hn', hsome, heq⟩ := exists_at?_of_walk hp (Option.isSome_of_eq_some hcall) hn
    obtain ⟨specifier, hs⟩ := Option.isSome_iff_exists.1 hsome
    have hurl : url = Url.resolve origin specifier := by
      have hwith := Expr.specifier?_withUrl (called (Url.resolve origin) e) hs
      rw [← heq, hcall, called, hs] at hwith
      exact Option.some.inj hwith
    have hcalled : called (Url.resolve origin) e = url := by
      rw [called, hs, hurl, Option.getD_some]
    have hmem : url ∈ s.calls (Url.resolve origin) :=
      mem_walk_naming.2 ⟨e, loads_of_at? hp hsome hn', hcalled⟩
    exact ⟨e, specifier, hn', hs, hurl, (hrequired url hmem).required⟩
  · intro path place e specifier hp hn hs
    have hcalled : called (Url.resolve origin) e = Url.resolve origin specifier := by
      rw [called, hs, Option.getD_some]
    rw [hwalk, ← hcalled]
    exact at?_walk_of_specifier? hp (Option.isSome_of_eq_some hs) hn
  · intro path place phase specifier lone hp
    rw [hwalk]
    exact not_import_walk hp path phase specifier lone
  · intro haccesses
    rw [hwalk]
    exact not_import_element_walk haccesses

/-- Calls in an arrow function, in a default, and below an element of an optional chain. -/
def nestedCalls : Stmt :=
  .expr (.call (.ident "f")
    [.lambda [.withDefault (.name "a")
          (.call (.member (.ident "window") "include") [.string "./a.js"])]
        (.importCall none [.string "../b.js"]),
      .chain (.member (.call (.ident "include") [.string "./c.js"]) "d" true)])

theorem nestedCalls_redirected : "/src/main.js" ∈ (Graph.empty.add "/src/main.js").urls ∧
    ∃ s' cs, (nestedCalls.descend (CallSites.visitor "/src/main.js")).run
        { links := { graph := Graph.empty.add "/src/main.js" } } = (s', cs) ∧
      cs.errors = [] ∧
      cs.links.graph.requires "/src/main.js" = ["/src/a.js", "/b.js", "/src/c.js"] ∧
      (Node.stmt nestedCalls).HasAccesses ∧
      Redirected "/src/main.js" cs.links.graph (.stmt nestedCalls) (.stmt s') := by
  have hknown : "/src/main.js" ∈ (Graph.empty.add "/src/main.js").urls := by decide
  have herrors : ((nestedCalls.descend (CallSites.visitor "/src/main.js")).run
      { links := { graph := Graph.empty.add "/src/main.js" } }).2.errors = [] := by decide +kernel
  have hrequires : ((nestedCalls.descend (CallSites.visitor "/src/main.js")).run
      { links := { graph := Graph.empty.add "/src/main.js" } }).2.links.graph.requires
        "/src/main.js" = ["/src/a.js", "/b.js", "/src/c.js"] := by decide +kernel
  have haccesses : (Node.stmt nestedCalls).HasAccesses := by
    simp [nestedCalls, Expr.lambda, hasAccesses_iff_parts, hasAccesses_element, Expr.isAccess,
      parts, Stmt.parts, Expr.parts, Pattern.parts]
  exact ⟨hknown, _, _, rfl, herrors, hrequires, haccesses, redirected_of_run hknown rfl herrors⟩

def chainedCall : Stmt :=
  .expr (.chain (.call (.ident "include") [.string "./a.js"] true))

def isChainedCall : List Stmt → Bool
  | [.expr (.chain (.call (.ident "include") [.string "./a.js" false] true false))] => true
  | _ => false

theorem eq_chainedCall {body : List Stmt} (h : isChainedCall body = true) :
    body = [chainedCall] := by
  unfold isChainedCall at h
  split at h
  · rfl
  · cases h

/-- Nothing is wrong with a call that is itself the element of a chain, and its literal stays. -/
theorem chainedCall_not_redirected :
    (∃ program, Program.parse? "include?.('./a.js');" = some program ∧
      program.body = [chainedCall]) ∧
    ¬ ∀ origin links s s' cs, Url.isAbsolute origin = true → origin ∈ links.graph.urls →
      (s.descend (CallSites.visitor origin)).run { links := links } = (s', cs) → cs.errors = [] →
      ∀ path place callee url lone isOptional isPure, callee.isInclude = true →
        (Node.stmt s').at? path =
          some (.expr place (.call callee [.string url lone] isOptional isPure)) →
        ∃ e specifier, (Node.stmt s).at? path = some (.expr place e) ∧
          e.specifier? = some specifier ∧ url = Url.resolve origin specifier ∧
            url ∈ cs.links.graph.requires origin := by
  constructor
  · have hread : ((Program.parse? "include?.('./a.js');").map (isChainedCall ·.body)) =
        some true := by decide +kernel
    obtain ⟨program, hp, hbody⟩ := Option.map_eq_some_iff.1 hread
    exact ⟨program, hp, eq_chainedCall hbody⟩
  · intro h
    obtain ⟨-, -, -, -, -, hrequired⟩ := h "/main.js" { graph := Graph.empty.add "/main.js" }
      chainedCall _ _ (by decide) (by decide) rfl rfl [0, 0] .element (.ident "include") "./a.js"
      false true false (by decide) rfl
    exact absurd hrequired (by decide)

end Thunk

end ScriptBundler
