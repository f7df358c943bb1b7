import ScriptBundler.Proofs.Scan.Loads
import ScriptBundler.Proofs.Url.Resolution

namespace ScriptBundler

namespace Url

/-- Inside of a directory, as far as `.` and `..` are collapsed in both paths. -/
def IsBelow (root path : String) : Prop :=
  placeOf (normalize root).toList <+: placeOf (normalize path).toList

/-- At some `..` of the url there is nothing left to go up from. -/
def Climbs (url : String) : Prop :=
  ∃ before after, segments url.toList = before ++ ['.', '.'] :: after ∧ before.foldl lead [] = []

instance (root path : String) : Decidable (IsBelow root path) :=
  inferInstanceAs (Decidable (_ <+: _))

instance (url : String) : Decidable (Climbs url) :=
  decidable_of_iff (∃ before ∈ (segments url.toList).inits,
      before ++ [['.', '.']] <+: segments url.toList ∧ before.foldl lead [] = []) <| by
    constructor
    · rintro ⟨before, -, ⟨after, he⟩, hroot⟩
      exact ⟨before, after, by rw [← he, List.append_assoc, List.singleton_append], hroot⟩
    · rintro ⟨before, after, he, hroot⟩
      refine ⟨before, (List.mem_inits _ _).2 ⟨_, he.symm⟩, ⟨after, ?_⟩, hroot⟩
      rw [he, List.append_assoc, List.singleton_append]

variable {root url path base specifier : String} {cs : List Char} {ss : List (List Char)}

theorem placeOf_normalize (h : isAbsolute path = true) :
    placeOf (normalize path).toList = placeOf path.toList := by
  rw [normalize, String.toList_ofList, placeOf_normalChars (head?_of_isAbsolute h)]

/-- Segments that never go up from the root lead to a place below any other as well. -/
theorem foldl_lead_below
    (h : ∀ before after, ss = before ++ ['.', '.'] :: after → before.foldl lead [] ≠ [])
    (place : Place) : ss.foldl lead place = place ++ ss.foldl lead [] := by
  -- from the last segment on, since whether a `..` goes up from the root is up to those before it
  induction ss using List.reverseRecOn with
  | nil => exact (List.append_nil _).symm
  | append_singleton ss s ih =>
    have hss : ∀ before after, ss = before ++ ['.', '.'] :: after → before.foldl lead [] ≠ [] :=
      fun before after he =>
        h before (after ++ [s]) (by rw [he, List.append_assoc, List.cons_append])
    rw [List.foldl_append, List.foldl_append, ih hss]
    simp only [List.foldl_cons, List.foldl_nil, lead]
    split
    · rfl
    · split
      · next hup => rw [List.dropLast_append_of_ne_nil (h ss [] (by rw [hup]))]
      · rw [List.append_assoc]

theorem foldl_lead_dropWhile (place : Place) :
    (segments (cs.dropWhile (· = '/'))).foldl lead place = (segments cs).foldl lead place := by
  induction cs with
  | nil => rfl
  | cons c cs ih =>
    by_cases hc : c = '/'
    · subst hc
      rw [List.dropWhile_cons_of_pos (by decide), ih]
      rfl
    · rw [List.dropWhile_cons_of_neg (by simpa using hc)]

theorem exists_toPath_eq (hroot : isAbsolute root = true) (url : String) : ∃ directory,
    isAbsolute (toPath root url) = true ∧ placeOf directory = placeOf root.toList ∧
      (toPath root url).toList = directory ++ '/' :: url.toList.dropWhile (· = '/') := by
  have hrelative : isAbsolute (String.ofList (url.toList.dropWhile (· = '/'))) = false := by
    rw [isAbsolute, String.toList_ofList, decide_eq_false_iff_not]
    intro h
    have hfalse := List.head?_dropWhile_not (fun c => decide (c = '/')) url.toList
    rw [h] at hfalse
    cases hfalse
  have hempty : root ≠ "" := by
    rintro rfl
    cases hroot
  have hhead {cs : List Char} : (root.toList ++ cs).head? = some '/' := by
    rw [List.head?_append, head?_of_isAbsolute hroot, Option.some_or]
  rw [toPath, joinPath, hrelative, decide_eq_false hempty, Bool.false_or, if_neg Bool.false_ne_true]
  split
  · next hlast =>
    obtain ⟨directory, hdirectory⟩ := List.getLast?_eq_some_iff.1 hlast
    have hplace : placeOf (directory ++ ['/']) = placeOf directory := placeOf_append directory []
    refine ⟨directory, ?_, by rw [hdirectory, hplace], ?_⟩
    · rw [isAbsolute, String.toList_append, hhead, decide_eq_true rfl]
    · rw [String.toList_append, String.toList_ofList, hdirectory, List.append_assoc,
        List.singleton_append]
  · refine ⟨root.toList, ?_, rfl, ?_⟩
    · rw [isAbsolute, String.toList_append, String.toList_append, List.append_assoc, hhead,
        decide_eq_true rfl]
    · simp only [String.toList_append, String.toList_ofList, List.append_assoc]
      rfl

theorem placeOf_toPath (hroot : isAbsolute root = true) (url : String) :
    placeOf (normalize (toPath root url)).toList =
      (segments url.toList).foldl lead (placeOf (normalize root).toList) := by
  obtain ⟨directory, habsolute, hplace, hpath⟩ := exists_toPath_eq hroot url
  rw [placeOf_normalize habsolute, placeOf_normalize hroot, hpath, placeOf_append, hplace,
    foldl_lead_dropWhile]

theorem isBelow_toPath (hroot : isAbsolute root = true) (h : ¬ Climbs url) :
    IsBelow root (toPath root url) := by
  have hstays (before after : List (List Char))
      (he : segments url.toList = before ++ ['.', '.'] :: after) : before.foldl lead [] ≠ [] :=
    fun hempty => h ⟨before, after, he, hempty⟩
  rw [IsBelow, placeOf_toPath hroot, foldl_lead_below hstays]
  exact List.prefix_append _ _

theorem IsCanonical.not_climbs (h : IsCanonical url) : ¬ Climbs url := by
  rintro ⟨before, after, hcut, -⟩
  obtain ⟨cs, hcs⟩ := List.head?_eq_some_iff.1 (head?_of_isAbsolute h.absolute)
  have hroot : Url.segments url.toList = [] :: Url.segments cs := hcs ▸ segments_append [] cs
  have hmem : ['.', '.'] ∈ Url.segments cs := by
    have hup : ['.', '.'] ∈ [] :: Url.segments cs := by
      rw [← hroot, hcut]
      exact List.mem_append_right _ List.mem_cons_self
    exact (List.mem_cons.1 hup).resolve_left (List.cons_ne_nil _ _)
  by_cases hurl : url = "/"
  · subst hurl
    obtain rfl : cs = [] := (List.cons.inj hcs).2.symm
    revert hmem
    decide
  · have hnames := h.segments hurl
    rw [hroot] at hnames
    exact hnames _ hmem (by simp)

theorem isAbsolute_or_backslash_of_climbs (hb : isAbsolute base = true)
    (h : Climbs (resolve base specifier)) :
    isAbsolute specifier = true ∨ '\\' ∈ dirChars base.toList ++ specifier.toList := by
  by_contra hn
  rw [not_or, Bool.not_eq_true] at hn
  exact (isCanonical_resolve hb hn.1 hn.2).not_climbs h

end Url

namespace Settings

variable {settings : Settings} {load : ModuleLoader} {url : String}

/--
The specifiers that a scan comes by, each with the url that it is read at: the items of the input,
and what the modules that the entries lead to specify.
-/
inductive Names (settings : Settings) (load : ModuleLoader) : String → String → Prop where
  | item {item : String} (mem : item ∈ settings.input) :
    Names settings load (String.ofList (Url.trimEnd settings.base.toList ++ ['/'])) item
  | text {url source specifier : String} {program : Program} {s : Stmt}
      (reached : settings.Reaches load url)
      (loaded : settings.answer load url = .ok (.loaded source))
      (parsed : Program.parse? source = some program) (mem : s ∈ program.body)
      (specifies : s.Specifies specifier) : Names settings load url specifier

theorem Names.isAbsolute {base specifier : String} (h : settings.Names load base specifier)
    (hb : Url.isAbsolute settings.base = true) : Url.isAbsolute base = true := by
  cases h with
  | item => exact Url.isAbsolute_trimEnd hb
  | text reached => exact reached.isAbsolute hb

theorem exists_names_of_mem_mentions {u v : String} (hu : settings.Reaches load u)
    (h : v ∈ settings.mentions load u) :
    ∃ specifier, settings.Names load u specifier ∧ v = Url.resolve u specifier := by
  rw [mentions] at h
  split at h
  · next source loaded =>
    split at h
    · next program parsed =>
      obtain ⟨s, hs, hv⟩ := List.mem_flatMap.1 h
      obtain ⟨specifier, hspecifies, he⟩ := Stmt.exists_specifies hv
      exact ⟨specifier, .text hu loaded parsed hs hspecifies, he⟩
    · cases h
  · cases h

theorem Reaches.exists_names (h : settings.Reaches load url) :
    ∃ base specifier, settings.Names load base specifier ∧ url = Url.resolve base specifier := by
  obtain ⟨entry, he, hr⟩ := h
  rcases hr.cases_tail with rfl | ⟨u, hu, hv⟩
  · obtain ⟨item, hitem, rfl⟩ := mem_entries.1 he
    exact ⟨_, item, .item hitem, rfl⟩
  · obtain ⟨specifier, hnames, hurl⟩ :=
      exists_names_of_mem_mentions ⟨entry, he, hu⟩ (mem_deps_iff.1 hv)
    exact ⟨u, specifier, hnames, hurl⟩

end Settings

namespace Scan

variable {load : ModuleLoader} {s s' : Scan} {url : String}

/-- A scan comes to ask its loader for a url, whether it ends after that or not. -/
inductive Asks (load : ModuleLoader) : Scan → String → Prop where
  | now {s s₁ : Scan} {url : String} (next : s.next? = some (url, s₁))
      (internal : s.settings.isExternal url = false) : Asks load s url
  | left {s s₁ : Scan} {u url : String} (next : s.next? = some (u, s₁))
      (answer : s.settings.answer load u = .ok .notNeeded)
      (later : Asks load (s₁.leave u) url) : Asks load s url
  | accepted {s s₁ s₂ : Scan} {u url source : String} (next : s.next? = some (u, s₁))
      (answer : s.settings.answer load u = .ok (.loaded source))
      (accept : s₁.accept u source = (.ok (), s₂)) (later : Asks load s₂ url) : Asks load s url

theorem next?_of_getElem? (h : s.graph.urls[s.graph.taken]? = some url) :
    s.next? = some (url, s.taken) := by
  rw [← Graph.map_url_modules, List.getElem?_map, Option.map_eq_some_iff] at h
  obtain ⟨m, hm, rfl⟩ := h
  rw [next?, Graph.next_eq_some_iff.2 ⟨hm, rfl⟩]
  rfl

namespace Asks

theorem of_next (hu : s.graph.urls[s.graph.taken]? = some url)
    (internal : s.settings.isExternal url = false) : Asks load s url :=
  .now (next?_of_getElem? hu) internal

theorem of_accepted (u source : String) (hu : s.graph.urls[s.graph.taken]? = some u)
    (answer : s.settings.answer load u = .ok (.loaded source))
    (accept : (s.taken.accept u source).1 = .ok ())
    (later : Asks load (s.taken.accept u source).2 url) : Asks load s url :=
  .accepted (next?_of_getElem? hu) answer (Prod.ext accept rfl) later

end Asks

theorem Run.asks {calls : List String} {result : Except (List BuildError) Unit}
    (h : Run load s calls result s') (hu : url ∈ calls) : Asks load s url := by
  induction h with
  | done => cases hu
  | failed next internal =>
    rw [List.mem_singleton.1 hu]
    exact .now next internal
  | external next external _ ih => exact .left next (if_pos external) (ih hu)
  | left next internal answer _ ih =>
    rcases List.mem_cons.1 hu with rfl | hu
    · exact .now next internal
    · exact .left next ((Settings.answer_of_internal internal).trans answer) (ih hu)
  | refused next internal =>
    rw [List.mem_singleton.1 hu]
    exact .now next internal
  | accepted next internal answer accept _ ih =>
    rcases List.mem_cons.1 hu with rfl | hu
    · exact .now next internal
    · exact .accepted next ((Settings.answer_of_internal internal).trans answer) accept (ih hu)

theorem Asks.reaches (h : Asks load s url) (hi : Invariant load s) :
    s.settings.Reaches load url := by
  induction h with
  | now next =>
    obtain ⟨hu, -⟩ := next?_eq_some next
    exact hi.reached_of_taken hu
  | left next answer _ ih =>
    obtain ⟨hu, rfl⟩ := next?_eq_some next
    exact ih (hi.leave hu answer)
  | @accepted _ _ s₂ _ _ _ next answer accept _ ih =>
    obtain ⟨hu, rfl⟩ := next?_eq_some next
    have haccept := hi.accept hu answer
    rw [accept] at haccept
    cases haccept with
    | ok invariant settings => exact settings ▸ ih invariant

end Scan

/--
What a scan reads of a directory is below the directory, unless the url climbs above `/`. Such a url
is named by the input or by a module that was loaded, through an absolute specifier or one that is
read with backslashes.
-/
theorem ofDirectory_confines (root : String) (hroot : Url.isAbsolute root = true)
    (read : String → Except ReadFailure String) (o : Options) (workingDirectory : String) :
    (∀ calls result s, Scan.Run (.ofDirectory root read)
        (Scan.start (o.normalize workingDirectory)) calls result s →
      ∀ url ∈ calls, Scan.Asks (.ofDirectory root read)
        (Scan.start (o.normalize workingDirectory)) url) ∧
    ∀ url, Scan.Asks (.ofDirectory root read) (Scan.start (o.normalize workingDirectory)) url →
      (¬ Url.Climbs url → Url.IsBelow root (Url.toPath root url)) ∧
      (∃ base specifier,
        (o.normalize workingDirectory).Names (.ofDirectory root read) base specifier ∧
        url = Url.resolve base specifier) ∧
      ∀ base specifier,
        (o.normalize workingDirectory).Names (.ofDirectory root read) base specifier →
        url = Url.resolve base specifier → Url.Climbs url →
        Url.isAbsolute specifier = true ∨ '\\' ∈ Url.dirChars base.toList ++ specifier.toList := by
  refine ⟨fun calls result s hrun url hu => hrun.asks hu, fun url hasks =>
    ⟨Url.isBelow_toPath hroot, (hasks.reaches (.start _ _)).exists_names, ?_⟩⟩
  rintro base specifier hnames rfl hclimbs
  have hbase := hnames.isAbsolute (o.isAbsolute_base workingDirectory)
  exact Url.isAbsolute_or_backslash_of_climbs hbase hclimbs

def detouringSource : String := "import '/lib/../a.js'; import '/../secret.js';"

def detouringFiles : Files :=
  .ofList [("/project/main.js", detouringSource), ("/project/a.js", ""), ("/secret.js", "")]

def detouringOptions : Options := { input := some ["main.js"] }

theorem detouring_asks {url : String}
    (h : Scan.Asks (.ofDirectory "/project" detouringFiles.tryRead)
      ((Scan.start (detouringOptions.normalize "/project")).taken.accept "/main.js"
        detouringSource).2 url) :
    Scan.Asks (.ofDirectory "/project" detouringFiles.tryRead)
      (Scan.start (detouringOptions.normalize "/project")) url :=
  .of_accepted "/main.js" detouringSource (by decide +kernel) (by decide +kernel)
    (by decide +kernel) h

theorem detouring_asks_first : Scan.Asks (.ofDirectory "/project" detouringFiles.tryRead)
    (Scan.start (detouringOptions.normalize "/project")) "/lib/../a.js" :=
  detouring_asks (.of_next (by decide +kernel) (by decide +kernel))

theorem detouring_asks_last : Scan.Asks (.ofDirectory "/project" detouringFiles.tryRead)
    (Scan.start (detouringOptions.normalize "/project")) "/../secret.js" :=
  detouring_asks (.of_accepted "/lib/../a.js" "" (by decide +kernel) (by decide +kernel)
    (by decide +kernel) (.of_next (by decide +kernel) (by decide +kernel)))

theorem detouring_confines :
    Url.isAbsolute "/project" = true ∧
    Scan.Asks (.ofDirectory "/project" detouringFiles.tryRead)
      (Scan.start (detouringOptions.normalize "/project")) "/lib/../a.js" ∧
    ¬ Url.Climbs "/lib/../a.js" ∧
    Url.IsBelow "/project" (Url.toPath "/project" "/lib/../a.js") ∧
    Url.Climbs "/../secret.js" ∧
    ∃ base specifier, (detouringOptions.normalize "/project").Names
      (.ofDirectory "/project" detouringFiles.tryRead) base specifier ∧
      "/../secret.js" = Url.resolve base specifier ∧
      (Url.isAbsolute specifier = true ∨
        '\\' ∈ Url.dirChars base.toList ++ specifier.toList) := by
  have hroot : Url.isAbsolute "/project" = true := by decide +kernel
  have hstays : ¬ Url.Climbs "/lib/../a.js" := by decide +kernel
  have hclimbs : Url.Climbs "/../secret.js" := by decide +kernel
  have hconfines := (ofDirectory_confines "/project" hroot detouringFiles.tryRead detouringOptions
    "/project").2
  obtain ⟨-, ⟨base, specifier, hnames, hurl⟩, hwritten⟩ := hconfines _ detouring_asks_last
  exact ⟨hroot, detouring_asks_first, hstays, (hconfines _ detouring_asks_first).1 hstays, hclimbs,
    base, specifier, hnames, hurl, hwritten base specifier hnames hurl hclimbs⟩

/-- An absolute specifier leads out of the directory. -/
theorem absolute_not_confined :
    Url.isAbsolute "/project" = true ∧
    Scan.Asks (.ofDirectory "/project" detouringFiles.tryRead)
      (Scan.start (detouringOptions.normalize "/project")) "/../secret.js" ∧
    Url.normalize (Url.toPath "/project" "/../secret.js") = "/secret.js" ∧
    ¬ Url.IsBelow "/project" (Url.toPath "/project" "/../secret.js") :=
  ⟨by decide +kernel, detouring_asks_last, by decide +kernel, by decide +kernel⟩

end ScriptBundler
