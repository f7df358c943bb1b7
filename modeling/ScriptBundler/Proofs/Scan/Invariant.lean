import ScriptBundler.Proofs.Thunk.Lowering
import ScriptBundler.Scan

namespace ScriptBundler

open Relation

namespace Settings

/-- What is known of a url: external ones are not asked for. -/
def answer (settings : Settings) (load : ModuleLoader) (url : String) :
    Except BuildError LoadOutcome :=
  if settings.isExternal url then .ok .notNeeded else load url

def deps (settings : Settings) (load : ModuleLoader) (url : String) : List String :=
  match settings.answer load url with
  | .ok (.loaded source) =>
    match Program.parse? source with
    | some program => distinct (Thunk.referencesOf url program.body)
    | none => []
  | _ => []

def Reaches (settings : Settings) (load : ModuleLoader) (url : String) : Prop :=
  ∃ entry ∈ settings.entries, ReflTransGen (fun u v => v ∈ settings.deps load u) entry url

theorem deps_eq {settings : Settings} {load : ModuleLoader} {url source : String}
    {program : Program} (ha : settings.answer load url = .ok (.loaded source))
    (hp : Program.parse? source = some program) :
    settings.deps load url = distinct (Thunk.referencesOf url program.body) := by
  simp only [deps, ha, hp]

theorem deps_eq_nil {settings : Settings} {load : ModuleLoader} {url : String}
    (ha : settings.answer load url = .ok .notNeeded) : settings.deps load url = [] := by
  simp only [deps, ha]

theorem Reaches.tail {settings : Settings} {load : ModuleLoader} {u v : String}
    (h : settings.Reaches load u) (hv : v ∈ settings.deps load u) : settings.Reaches load v := by
  obtain ⟨entry, he, hr⟩ := h
  exact ⟨entry, he, hr.tail hv⟩

end Settings

namespace Scan

variable {load : ModuleLoader} {s s' : Scan} {url u : String}

def keys (s : Scan) : List String := s.bodies.map (·.1)

inductive Looked (load : ModuleLoader) (s : Scan) (url : String) : Prop where
  | loaded {source : String} {program : Program}
      (answer : s.settings.answer load url = .ok (.loaded source))
      (parsed : Program.parse? source = some program)
      (requires : s.graph.requires url = distinct (Thunk.referencesOf url program.body))
      (state : s.graph.state? url = some .loaded) (mem : url ∈ s.keys)
  | left (answer : s.settings.answer load url = .ok .notNeeded)
      (requires : s.graph.requires url = []) (state : s.graph.state? url = some .notNeeded)
      (not_mem : url ∉ s.keys)

/-- A module that was not looked at yet. -/
structure Waiting (s : Scan) (url : String) : Prop where
  requires : s.graph.requires url = []
  state : s.graph.state? url = some .pending
  not_mem : url ∉ s.keys

theorem Looked.requires_eq (h : Looked load s url) :
    s.graph.requires url = s.settings.deps load url := by
  cases h with
  | loaded answer parsed requires => rw [requires, Settings.deps_eq answer parsed]
  | left answer requires => rw [requires, Settings.deps_eq_nil answer]

/-- What holds of a scan at every step. -/
structure Invariant (load : ModuleLoader) (s : Scan) : Prop where
  acyclic : s.graph.Acyclic
  entries : ∀ u ∈ s.settings.entries, u ∈ s.graph.urls
  reached : ∀ u ∈ s.graph.urls, s.settings.Reaches load u
  looked : ∀ i u, s.graph.urls[i]? = some u → i < s.graph.taken → Looked load s u
  waiting : ∀ i u, s.graph.urls[i]? = some u → s.graph.taken ≤ i → Waiting s u
  unemitted : ∀ u, s.graph.isEmitted u = false
  keys_known : ∀ u ∈ s.keys, u ∈ s.graph.urls
  keys_nodup : s.keys.Nodup

theorem Invariant.looked_or_waiting (h : Invariant load s) (hu : u ∈ s.graph.urls) :
    Looked load s u ∨ Waiting s u := by
  obtain ⟨i, hi⟩ := List.mem_iff_getElem?.1 hu
  rcases Nat.lt_or_ge i s.graph.taken with hlt | hge
  · exact .inl (h.looked i u hi hlt)
  · exact .inr (h.waiting i u hi hge)

theorem Invariant.mem_deps (h : Invariant load s) {v : String} (hv : s.graph.Requires u v) :
    v ∈ s.settings.deps load u := by
  rcases h.looked_or_waiting (Graph.mem_urls_of_requires hv) with hu | hu
  · rw [← hu.requires_eq]
    exact hv
  · rw [Graph.Requires, hu.requires] at hv
    exact absurd hv List.not_mem_nil

/-- How a scan goes on after it took the module at `url` to look at. -/
structure Advance (load : ModuleLoader) (s s' : Scan) (url : String) : Prop where
  settings : s'.settings = s.settings
  acyclic : s'.graph.Acyclic
  joined : ∃ more, s'.graph.urls = s.graph.urls ++ more ∧
    ∀ u ∈ more, u ∈ s.settings.deps load url
  taken : s'.graph.taken = s.graph.taken + 1
  looked : Looked load s' url
  others : ∀ u ∈ s.graph.urls, u ≠ url → s'.graph.requires u = s.graph.requires u ∧
    s'.graph.state? u = s.graph.state? u ∧ (u ∈ s'.keys ↔ u ∈ s.keys)
  new : ∀ u ∈ s'.graph.urls, u ∉ s.graph.urls → Waiting s' u
  emitted : ∀ u, s'.graph.isEmitted u = s.graph.isEmitted u
  keys_known : ∀ u ∈ s'.keys, u ∈ s.keys ∨ u = url
  keys_nodup : s'.keys.Nodup

theorem Looked.of_others (h : Looked load s u) (ha : Advance load s s' url)
    (hu : u ∈ s.graph.urls) (hne : u ≠ url) : Looked load s' u := by
  obtain ⟨hr, hs, hk⟩ := ha.others u hu hne
  cases h with
  | loaded answer parsed requires state mem =>
    exact .loaded (ha.settings ▸ answer) parsed (hr.trans requires) (hs.trans state) (hk.2 mem)
  | left answer requires state not_mem =>
    exact .left (ha.settings ▸ answer) (hr.trans requires) (hs.trans state) fun hm =>
      not_mem (hk.1 hm)

theorem Waiting.of_others (h : Waiting s u) (ha : Advance load s s' url)
    (hu : u ∈ s.graph.urls) (hne : u ≠ url) : Waiting s' u := by
  obtain ⟨hr, hs, hk⟩ := ha.others u hu hne
  exact ⟨hr.trans h.requires, hs.trans h.state, fun hm => h.not_mem (hk.1 hm)⟩

theorem Invariant.advance (h : Invariant load s) (hu : s.graph.urls[s.graph.taken]? = some url)
    (ha : Advance load s s' url) : Invariant load s' := by
  obtain ⟨more, hurls, hmore⟩ := ha.joined
  have hurl : url ∈ s.graph.urls := List.mem_of_getElem? hu
  have hold {u : String} (hm : u ∈ s.graph.urls) : u ∈ s'.graph.urls :=
    hurls ▸ List.mem_append_left more hm
  -- a url stands at one position only, and `url` at that of the module that was taken
  have hpos {i : Nat} {u : String} (hi : s.graph.urls[i]? = some u) (hne : i ≠ s.graph.taken) :
      u ≠ url := fun he => hne ((List.getElem?_inj (List.getElem?_eq_some_iff.1 hi).1
        s.graph.urls_nodup).1 (by rw [hi, hu, he]))
  have hsplit {i : Nat} {u : String} (hi : s'.graph.urls[i]? = some u) :
      s.graph.urls[i]? = some u ∨ s.graph.urls.length ≤ i ∧ u ∉ s.graph.urls := by
    have hn := s'.graph.urls_nodup
    rw [hurls] at hi hn
    rcases Nat.lt_or_ge i s.graph.urls.length with hlt | hge
    · rw [List.getElem?_append_left hlt] at hi
      exact .inl hi
    · rw [List.getElem?_append_right hge] at hi
      exact .inr ⟨hge, fun hm => (List.nodup_append.1 hn).2.2 u hm u (List.mem_of_getElem? hi) rfl⟩
  exact
    { acyclic := ha.acyclic
      entries := fun u hu => hold (h.entries u (ha.settings ▸ hu))
      reached := fun u hm => by
        rw [ha.settings]
        rcases List.mem_append.1 (hurls ▸ hm) with hm | hm
        · exact h.reached u hm
        · exact (h.reached url hurl).tail (hmore u hm)
      looked := fun i u hi hlt => by
        rw [ha.taken] at hlt
        have htaken := (List.getElem?_eq_some_iff.1 hu).1
        rcases hsplit hi with hi | ⟨hge, _⟩
        · by_cases he : i = s.graph.taken
          · subst he
            rw [hu] at hi
            exact Option.some.inj hi ▸ ha.looked
          · exact (h.looked i u hi (by omega)).of_others ha (List.mem_of_getElem? hi) (hpos hi he)
        · omega
      waiting := fun i u hi hge => by
        rw [ha.taken] at hge
        rcases hsplit hi with hi' | ⟨_, hn⟩
        · exact (h.waiting i u hi' (by omega)).of_others ha (List.mem_of_getElem? hi')
            (hpos hi' (by omega))
        · exact ha.new u (List.mem_of_getElem? hi) hn
      unemitted := fun u => (ha.emitted u).trans (h.unemitted u)
      keys_known := fun u hu => (ha.keys_known u hu).elim (fun hm => hold (h.keys_known u hm))
        fun he => he ▸ hold hurl
      keys_nodup := ha.keys_nodup }

end Scan

end ScriptBundler
