import Mathlib.Data.List.Infix
import ScriptBundler.Proofs.Url.Places

namespace ScriptBundler.Url

def directoryOf (url : String) : Place := placeOf (dirChars url.toList)

/-- Where a specifier leads from the directory of the module at `base`. -/
def destination (base specifier : String) : Place :=
  placeOf (dirChars base.toList ++ specifier.toList)

/-- Where specifiers lead, each read in the directory of the place before it. -/
def chainFrom (directory : Place) : List String → Place
  | [] => directory
  | [specifier] => (segments specifier.toList).foldl lead directory
  | specifier :: chain =>
    chainFrom ((segments specifier.toList).foldl lead directory).dropLast chain

/-- A url with nothing to be collapsed in it. -/
structure IsCanonical (url : String) : Prop where
  absolute : isAbsolute url = true
  separator : '\\' ∉ url.toList
  segments : url ≠ "/" → ∀ s ∈ (segments url.toList).tail, s ∉ [[], ['.'], ['.', '.']]
  trailing : url ≠ "/" → url.toList.getLast? ≠ some '/'
  normal : normalize url = url

variable {cs s : List Char} {ss : List (List Char)} {place : Place} {base specifier url : String}

section Separators

theorem not_mem_withSlashes (cs : List Char) : '\\' ∉ withSlashes cs := by
  rw [withSlashes, List.mem_map]
  rintro ⟨c, -, hc⟩
  split at hc
  · exact absurd hc (by decide)
  · contradiction

theorem withSlashes_of_not_mem (h : '\\' ∉ cs) : withSlashes cs = cs := by
  have hself (c : Char) (hc : c ∈ cs) : (if c = '\\' then '/' else c) = c := by
    refine if_neg ?_
    rintro rfl
    exact h hc
  exact (List.map_congr_left hself).trans (List.map_id' cs)

theorem withSlashes_joined (ss : List (List Char)) :
    withSlashes (joined ss) = joined (ss.map withSlashes) := by
  fun_induction joined ss with
  | case1 => rfl
  | case2 s => rfl
  | case3 s ss hss ih =>
    cases ss with
    | nil => exact absurd rfl hss
    | cons t ts =>
      have hcut : withSlashes (s ++ '/' :: joined (t :: ts)) =
          withSlashes s ++ '/' :: withSlashes (joined (t :: ts)) := List.map_append
      rw [hcut, ih]
      rfl

theorem mem_of_mem_segments {c : Char} (h : s ∈ segments cs) (hc : c ∈ s) : c ∈ cs := by
  induction cs generalizing s with
  | nil =>
    rw [List.mem_singleton.1 h] at hc
    exact hc
  | cons d cs ih =>
    rw [segments] at h
    split at h
    · rcases List.mem_cons.1 h with rfl | h
      · cases hc
      · exact List.mem_cons_of_mem _ (ih h hc)
    · cases hss : segments cs with
      | nil => exact absurd hss (segments_ne_nil cs)
      | cons t ts =>
        rw [hss] at h ih
        rcases List.mem_cons.1 h with rfl | h
        · rcases List.mem_cons.1 hc with rfl | hc
          · exact List.mem_cons_self
          · exact List.mem_cons_of_mem _ (ih List.mem_cons_self hc)
        · exact List.mem_cons_of_mem _ (ih (List.mem_cons_of_mem _ h) hc)

theorem mem_foldl_lead (h : s ∈ ss.foldl lead place) : s ∈ place ∨ s ∈ ss := by
  induction ss generalizing place with
  | nil => exact .inl h
  | cons t ss ih =>
    rcases ih h with h | h
    · rw [lead] at h
      split at h
      · exact .inl h
      · split at h
        · exact .inl ((List.dropLast_sublist place).mem h)
        · rcases List.mem_append.1 h with h | h
          · exact .inl h
          · exact .inr (List.mem_cons.2 (.inl (List.mem_singleton.1 h)))
    · exact .inr (List.mem_cons_of_mem _ h)

theorem not_mem_of_mem_placeOf {c : Char} (h : c ∉ cs) (hs : s ∈ placeOf cs) : c ∉ s := by
  rcases mem_foldl_lead hs with hs | hs
  · cases hs
  · exact fun hc => h (mem_of_mem_segments hs hc)

theorem map_withSlashes_placeOf (h : '\\' ∉ cs) : (placeOf cs).map withSlashes = placeOf cs := by
  refine (List.map_congr_left fun s hs => ?_).trans (List.map_id _)
  exact withSlashes_of_not_mem (not_mem_of_mem_placeOf h hs)

end Separators

section Canonical

theorem head?_of_isAbsolute (h : isAbsolute url = true) : url.toList.head? = some '/' :=
  of_decide_eq_true h

theorem toList_normalize (h : isAbsolute url = true) :
    (normalize url).toList = '/' :: joined (placeOf url.toList) := by
  rw [normalize, String.toList_ofList, normalChars_eq (head?_of_isAbsolute h)]

/-- Whatever cannot be normalized further has all that makes a url canonical. -/
theorem isCanonical_iff : IsCanonical url ↔
    isAbsolute url = true ∧ '\\' ∉ url.toList ∧ normalize url = url := by
  refine ⟨fun h => ⟨h.absolute, h.separator, h.normal⟩, ?_⟩
  rintro ⟨habsolute, hseparator, hnormal⟩
  have hlist : url.toList = '/' :: joined (placeOf url.toList) := by
    rw [← toList_normalize habsolute, hnormal]
  have hnames := isName_placeOf url.toList
  generalize placeOf url.toList = place at hlist hnames
  -- such a url spells its place, so that its segments are names, all but the empty one in front
  have hempty (hne : url ≠ "/") : place ≠ [] := by
    rintro rfl
    exact hne (String.toList_injective hlist)
  have hsegments (hne : url ≠ "/") : Url.segments url.toList = [] :: place := by
    have hroot : Url.segments ('/' :: joined place) = [[]] ++ Url.segments (joined place) :=
      segments_append [] (joined place)
    rw [hlist, hroot, segments_joined (hempty hne), flatMap_segments fun s hs => (hnames s hs).2,
      List.singleton_append]
  refine ⟨habsolute, hseparator, fun hne s hs => ?_, fun hne hlast => ?_, hnormal⟩
  · rw [hsegments hne] at hs
    exact (hnames s hs).1
  · obtain ⟨front, hfront⟩ := List.getLast?_eq_some_iff.1 hlast
    have hcut : Url.segments (front ++ ['/']) = Url.segments front ++ [[]] :=
      segments_append front []
    rw [← hfront, hsegments hne] at hcut
    have hend : ([] :: place).getLast? = some [] := by rw [hcut, List.getLast?_concat]
    obtain ⟨s, ss, rfl⟩ := List.exists_cons_of_ne_nil (hempty hne)
    rw [List.getLast?_cons_cons] at hend
    exact (hnames [] (List.mem_of_getLast? hend)).1 List.mem_cons_self

theorem joined_injective {place place' : Place} (h : ∀ s ∈ place, IsName s)
    (h' : ∀ s ∈ place', IsName s) (he : joined place = joined place') : place = place' := by
  rw [← placeOf_joined h, he, placeOf_joined h']

theorem joined_ne_nil (hne : ss ≠ []) (h : ∀ s ∈ ss, s ≠ []) : joined ss ≠ [] := by
  fun_induction joined ss with
  | case1 => exact absurd rfl hne
  | case2 s => exact h s (List.mem_singleton_self s)
  | case3 s ss => exact fun he => List.cons_ne_nil _ _ (List.append_eq_nil_iff.1 he).2

/-- A path whose segments are names is normalized, and no other that leads anywhere. -/
theorem normalChars_eq_self_iff (h : ∀ s ∈ ss, s ≠ []) :
    normalChars ('/' :: joined ss) = '/' :: joined ss ↔ ∀ s ∈ ss.flatMap segments, IsName s := by
  have hroot : placeOf ('/' :: joined ss) = (segments (joined ss)).foldl lead [] :=
    placeOf_append [] (joined ss)
  rw [normalChars_eq rfl, List.cons_inj_right]
  by_cases hempty : ss = []
  · subst hempty
    exact ⟨fun _ s hs => absurd hs List.not_mem_nil, fun _ => rfl⟩
  · rw [hroot, segments_joined hempty]
    constructor
    · -- a path that is as it was spells its place, and what it spells can be read off it
      intro he
      have hnames := isName_placeOf ('/' :: joined ss)
      rw [hroot, segments_joined hempty] at hnames
      generalize (ss.flatMap segments).foldl lead [] = place at he hnames
      have hplace : place ≠ [] := by
        rintro rfl
        exact joined_ne_nil hempty h he.symm
      have hsegments := congrArg segments he
      rw [segments_joined hplace, flatMap_segments fun s hs => (hnames s hs).2,
        segments_joined hempty] at hsegments
      rw [← hsegments]
      exact hnames
    · intro hnames
      rw [foldl_lead_names hnames, List.nil_append, ← segments_joined hempty, joined_segments]

end Canonical

section Resolution

theorem toList_resolve_slashes (hs : isAbsolute specifier = false) :
    (resolve base specifier).toList =
      withSlashes (normalChars (dirChars base.toList ++ specifier.toList)) := by
  rw [resolve, if_neg (ne_true_of_eq_false hs), String.toList_ofList]

theorem not_mem_resolve (hs : isAbsolute specifier = false) :
    '\\' ∉ (resolve base specifier).toList := by
  rw [toList_resolve_slashes hs]
  exact not_mem_withSlashes _

theorem toList_resolve (hb : isAbsolute base = true) (hs : isAbsolute specifier = false) :
    (resolve base specifier).toList =
      '/' :: joined ((destination base specifier).map withSlashes) := by
  have hroot : (dirChars base.toList ++ specifier.toList).head? = some '/' := by
    rw [List.head?_append, head?_dirChars (head?_of_isAbsolute hb), Option.some_or]
  have hcons (cs : List Char) : withSlashes ('/' :: cs) = '/' :: withSlashes cs := rfl
  rw [toList_resolve_slashes hs, normalChars_eq hroot, hcons, withSlashes_joined, destination]

theorem destination_eq (hb : isAbsolute base = true) (specifier : String) :
    destination base specifier = (segments specifier.toList).foldl lead (directoryOf base) := by
  obtain ⟨directory, file, -, hdir⟩ := exists_dirChars_eq (head?_of_isAbsolute hb)
  have hself : placeOf (directory ++ ['/']) = placeOf directory := placeOf_append directory []
  rw [destination, directoryOf, hdir, hself, List.append_assoc, List.singleton_append,
    placeOf_append]

theorem placeOf_dirChars (h : ∀ s ∈ place, IsName s) :
    placeOf (dirChars ('/' :: joined place)) = place.dropLast := by
  rcases List.eq_nil_or_concat' place with rfl | ⟨front, name, rfl⟩
  · rfl
  · obtain ⟨hfront, hname⟩ := List.forall_mem_append.1 h
    have hslash : '/' ∉ name := (hname name (List.mem_singleton_self name)).2
    obtain ⟨cs, hcs, hplace⟩ : ∃ cs,
        '/' :: joined (front ++ [name]) = cs ++ '/' :: name ∧ placeOf cs = front := by
      by_cases hempty : front = []
      · subst hempty
        exact ⟨[], rfl, rfl⟩
      · exact ⟨'/' :: joined front, by rw [joined_concat hempty, List.cons_append],
          placeOf_joined hfront⟩
    have hself : placeOf (cs ++ ['/']) = placeOf cs := placeOf_append cs []
    rw [hcs, dirChars_append hslash, hself, hplace, List.dropLast_concat]

theorem directoryOf_resolve (hb : isAbsolute base = true) (hs : isAbsolute specifier = false)
    (h : '\\' ∉ dirChars base.toList ++ specifier.toList) :
    directoryOf (resolve base specifier) = (destination base specifier).dropLast := by
  rw [directoryOf, toList_resolve hb hs, destination, map_withSlashes_placeOf h,
    placeOf_dirChars (isName_placeOf _)]

theorem isCanonical_resolve_iff (hb : isAbsolute base = true) (hs : isAbsolute specifier = false) :
    IsCanonical (resolve base specifier) ↔
      ∀ name ∈ destination base specifier, ∀ s ∈ segments (withSlashes name), IsName s := by
  have hlist := toList_resolve hb hs
  have hne : ∀ s ∈ (destination base specifier).map withSlashes, s ≠ [] := by
    intro s hs
    obtain ⟨name, hname, rfl⟩ := List.mem_map.1 hs
    have hname' := (isName_placeOf _ name hname).1
    rw [withSlashes, ne_eq, List.map_eq_nil_iff]
    rintro rfl
    exact hname' List.mem_cons_self
  have hself : normalize (resolve base specifier) = resolve base specifier ↔
      normalChars (resolve base specifier).toList = (resolve base specifier).toList := by
    rw [normalize, ← String.toList_inj, String.toList_ofList]
  rw [isCanonical_iff, and_iff_right (isAbsolute_resolve hb specifier),
    and_iff_right (not_mem_resolve hs), hself, hlist, normalChars_eq_self_iff hne, List.flatMap_map]
  exact List.forall_mem_flatMap

theorem isCanonical_resolve (hb : isAbsolute base = true) (hs : isAbsolute specifier = false)
    (h : '\\' ∉ dirChars base.toList ++ specifier.toList) :
    IsCanonical (resolve base specifier) := by
  rw [isCanonical_resolve_iff hb hs]
  intro name hname s hs
  have hslash := isName_placeOf _ name hname
  rw [withSlashes_of_not_mem (not_mem_of_mem_placeOf h hname),
    segments_of_not_mem hslash.2, List.mem_singleton] at hs
  exact hs ▸ hslash

/--
A relative specifier resolves to an absolute url without backslashes. The url is canonical exactly
if each name on the way to the specifier's place is cut into names by its backslashes. Without
backslashes it is canonical and leads to that place, and above the root there is only the root.
-/
theorem resolve_canonical (hb : isAbsolute base = true) (hs : isAbsolute specifier = false) :
    isAbsolute (resolve base specifier) = true ∧
    '\\' ∉ (resolve base specifier).toList ∧
    (IsCanonical (resolve base specifier) ↔
      ∀ name ∈ destination base specifier, ∀ s ∈ segments (withSlashes name), IsName s) ∧
    ('\\' ∉ dirChars base.toList ++ specifier.toList →
      IsCanonical (resolve base specifier) ∧
      placeOf (resolve base specifier).toList = destination base specifier) ∧
    (directoryOf base = [] → resolve base ("../" ++ specifier) = resolve base specifier) := by
  refine ⟨isAbsolute_resolve hb specifier, not_mem_resolve hs, isCanonical_resolve_iff hb hs,
    fun h => ⟨isCanonical_resolve hb hs h, ?_⟩, fun hroot => ?_⟩
  · rw [toList_resolve hb hs, destination, map_withSlashes_placeOf h,
      placeOf_joined (isName_placeOf _)]
  · have hup : isAbsolute ("../" ++ specifier) = false := by
      simp [isAbsolute, String.toList_append]
    have hclimb :
        segments ("../" ++ specifier).toList = ['.', '.'] :: segments specifier.toList := by
      rw [String.toList_append]
      exact segments_append ['.', '.'] specifier.toList
    rw [← String.toList_inj, toList_resolve hb hup, toList_resolve hb hs, destination_eq hb,
      destination_eq hb, hroot, hclimb, List.foldl_cons]
    rfl

theorem resolve_canonical_climbing :
    isAbsolute "/b.js" = true ∧
    isAbsolute "..//./u/../é.js" = false ∧
    '\\' ∉ dirChars "/b.js".toList ++ "..//./u/../é.js".toList ∧
    directoryOf "/b.js" = [] ∧
    IsCanonical (resolve "/b.js" "..//./u/../é.js") ∧
    placeOf (resolve "/b.js" "..//./u/../é.js").toList = [['é', '.', 'j', 's']] ∧
    resolve "/b.js" "../..//./u/../é.js" = resolve "/b.js" "..//./u/../é.js" ∧
    IsCanonical (resolve "/b.js" "u\\v.js") := by
  have hb : isAbsolute "/b.js" = true := by decide +kernel
  have hs : isAbsolute "..//./u/../é.js" = false := by decide +kernel
  have hseparator : '\\' ∉ dirChars "/b.js".toList ++ "..//./u/../é.js".toList := by decide +kernel
  have hroot : directoryOf "/b.js" = [] := by decide +kernel
  obtain ⟨-, -, -, hplain, hclimb⟩ := resolve_canonical hb hs
  obtain ⟨hcanonical, hplace⟩ := hplain hseparator
  have hcut := (resolve_canonical hb (show isAbsolute "u\\v.js" = false by decide +kernel)).2.2.1
  exact ⟨hb, hs, hseparator, hroot, hcanonical, hplace.trans (by decide +kernel), hclimb hroot,
    hcut.2 (by decide +kernel)⟩

/-- The backslash becomes a slash too late: `..` is a segment of what was not to be collapsed. -/
theorem backslash_not_canonical :
    isAbsolute "/src/main.js" = true ∧
    isAbsolute "x\\..\\y.js" = false ∧
    resolve "/src/main.js" "x\\..\\y.js" = "/src/x/../y.js" ∧
    ¬ IsCanonical (resolve "/src/main.js" "x\\..\\y.js") := by
  refine ⟨by decide +kernel, by decide +kernel, by decide +kernel, fun h => ?_⟩
  exact absurd h.normal (by decide +kernel)

end Resolution

section Chains

/-- Relative specifiers without backslashes, the first one read at `base`. -/
structure IsChain (base : String) (chain : List String) : Prop where
  absolute : isAbsolute base = true
  ne_nil : chain ≠ []
  relative : ∀ specifier ∈ chain, isAbsolute specifier = false
  separator : ∀ text ∈ base :: chain, '\\' ∉ text.toList

variable {chain chain' : List String} {base' : String}

theorem mem_dirChars {c : Char} (h : c ∈ dirChars cs) : c ∈ cs :=
  List.mem_reverse.1 ((List.dropWhile_sublist _).mem (List.mem_reverse.1 h))

theorem IsChain.noBackslash (h : IsChain base (specifier :: chain)) :
    '\\' ∉ dirChars base.toList ++ specifier.toList := by
  rw [List.mem_append, not_or]
  exact ⟨fun hm => h.separator base List.mem_cons_self (mem_dirChars hm),
    h.separator specifier (List.mem_cons_of_mem _ List.mem_cons_self)⟩

theorem IsChain.next (h : IsChain base (specifier :: chain)) (hne : chain ≠ []) :
    IsChain (resolve base specifier) chain where
  absolute := isAbsolute_resolve h.absolute specifier
  ne_nil := hne
  relative := fun s hs => h.relative s (List.mem_cons_of_mem _ hs)
  separator := by
    refine List.forall_mem_cons.2 ⟨not_mem_resolve (h.relative specifier List.mem_cons_self), ?_⟩
    exact fun s hs => h.separator s (List.mem_cons_of_mem _ (List.mem_cons_of_mem _ hs))

theorem isName_chainFrom (hp : ∀ s ∈ place, IsName s) (chain : List String) :
    ∀ s ∈ chainFrom place chain, IsName s := by
  induction chain generalizing place with
  | nil => exact hp
  | cons specifier chain ih =>
    have hnext : ∀ s ∈ (segments specifier.toList).foldl lead place, IsName s :=
      isName_foldl_lead hp fun _ => not_mem_of_mem_segments
    cases chain with
    | nil => exact hnext
    | cons _ _ => exact ih fun s hs => hnext s ((List.dropLast_sublist _).mem hs)

theorem IsChain.toList_foldl_resolve (h : IsChain base chain) :
    (chain.foldl resolve base).toList = '/' :: joined (chainFrom (directoryOf base) chain) := by
  -- only the last specifier names a file; of the others the directory is all that counts
  induction chain generalizing base with
  | nil => exact absurd rfl h.ne_nil
  | cons specifier chain ih =>
    have hs := h.relative specifier List.mem_cons_self
    cases chain with
    | nil =>
      rw [List.foldl_cons, List.foldl_nil, toList_resolve h.absolute hs, destination,
        map_withSlashes_placeOf h.noBackslash, ← destination, destination_eq h.absolute]
      rfl
    | cons t chain =>
      rw [List.foldl_cons, ih (h.next (List.cons_ne_nil t chain)),
        directoryOf_resolve h.absolute hs h.noBackslash, destination_eq h.absolute]
      rfl

variable {directory name : String}

theorem isAbsolute_below (hne : directory ≠ "") (hd : isAbsolute directory = false)
    (file : String) : isAbsolute (directory ++ "/" ++ file) = false := by
  obtain ⟨c, cs, hcs⟩ := List.exists_cons_of_ne_nil (mt String.toList_eq_nil_iff.1 hne)
  rw [isAbsolute, hcs] at hd
  rw [isAbsolute, String.toList_append, String.toList_append, hcs]
  exact hd

theorem segments_below (directory file : String) :
    segments (directory ++ "/" ++ file).toList =
      segments directory.toList ++ segments file.toList := by
  rw [String.toList_append, String.toList_append, List.append_assoc]
  exact segments_append directory.toList file.toList

theorem destination_below (hb : isAbsolute base = true)
    (hs : isAbsolute (directory ++ "/" ++ name) = false)
    (hseparator : '\\' ∉ dirChars base.toList ++ (directory ++ "/" ++ name).toList)
    (hname : IsName name.toList) (specifier : String) :
    destination (resolve base (directory ++ "/" ++ name)) specifier =
      destination base (directory ++ "/" ++ specifier) := by
  have hdirectory : directoryOf (resolve base (directory ++ "/" ++ name)) =
      (segments directory.toList).foldl lead (directoryOf base) := by
    rw [directoryOf_resolve hb hs hseparator, destination_eq hb, segments_below,
      segments_of_not_mem hname.2, List.foldl_append, List.foldl_cons, List.foldl_nil,
      lead_name hname, List.dropLast_concat]
  rw [destination_eq (isAbsolute_resolve hb _), hdirectory, destination_eq hb, segments_below,
    List.foldl_append]

/--
A specifier that is read at a file named through a directory is read as in that directory. And
chains of relative specifiers meet on one url exactly if they lead to one place.
-/
theorem resolve_composes :
    (∀ base directory name specifier : String, isAbsolute base = true →
      directory ≠ "" → isAbsolute directory = false → IsName name.toList →
      isAbsolute specifier = false →
      (∀ text ∈ [base, directory, name], '\\' ∉ text.toList) →
      resolve (resolve base (directory ++ "/" ++ name)) specifier =
        resolve base (directory ++ "/" ++ specifier)) ∧
    ∀ (base base' : String) (chain chain' : List String), IsChain base chain →
      IsChain base' chain' →
      (chain.foldl resolve base = chain'.foldl resolve base' ↔
        chainFrom (directoryOf base) chain = chainFrom (directoryOf base') chain') := by
  constructor
  · intro base directory name specifier hb hne hd hname hs hseparator
    simp only [List.forall_mem_cons] at hseparator
    obtain ⟨hbase, hdirectory, hfile, -⟩ := hseparator
    have hplain : '\\' ∉ dirChars base.toList ++ (directory ++ "/" ++ name).toList := by
      simp only [String.toList_append, List.mem_append, not_or]
      exact ⟨fun hm => hbase (mem_dirChars hm), ⟨hdirectory, by decide +kernel⟩, hfile⟩
    rw [← String.toList_inj, toList_resolve (isAbsolute_resolve hb _) hs,
      toList_resolve hb (isAbsolute_below hne hd specifier),
      destination_below hb (isAbsolute_below hne hd name) hplain hname]
  · intro base base' chain chain' h h'
    rw [← String.toList_inj, h.toList_foldl_resolve, h'.toList_foldl_resolve, List.cons_inj_right]
    exact ⟨joined_injective (isName_chainFrom (isName_placeOf _) chain)
      (isName_chainFrom (isName_placeOf _) chain'), congrArg joined⟩

theorem resolve_composes_above_root :
    resolve (resolve "/a/b/main.js" (".//../../../lib/." ++ "/" ++ "x.js")) "./..//u/../y.js" =
      resolve "/a/b/main.js" (".//../../../lib/." ++ "/" ++ "./..//u/../y.js") ∧
    IsChain "/a/b/main.js" ["..//../../../c/./v.js", "../../../w/..//y.js"] ∧
    IsChain "/d.js" ["../y.js"] ∧
    chainFrom (directoryOf "/a/b/main.js") ["..//../../../c/./v.js", "../../../w/..//y.js"] =
      chainFrom (directoryOf "/d.js") ["../y.js"] ∧
    ["..//../../../c/./v.js", "../../../w/..//y.js"].foldl resolve "/a/b/main.js" =
      ["../y.js"].foldl resolve "/d.js" := by
  have h : IsChain "/a/b/main.js" ["..//../../../c/./v.js", "../../../w/..//y.js"] :=
    ⟨by decide +kernel, List.cons_ne_nil _ _, by decide +kernel, by decide +kernel⟩
  have h' : IsChain "/d.js" ["../y.js"] :=
    ⟨by decide +kernel, List.cons_ne_nil _ _, by decide +kernel, by decide +kernel⟩
  have hplace : chainFrom (directoryOf "/a/b/main.js")
      ["..//../../../c/./v.js", "../../../w/..//y.js"] =
      chainFrom (directoryOf "/d.js") ["../y.js"] := by decide +kernel
  exact ⟨resolve_composes.1 "/a/b/main.js" ".//../../../lib/." "x.js" "./..//u/../y.js"
    (by decide +kernel) (by decide +kernel) (by decide +kernel) (by decide +kernel)
    (by decide +kernel) (by decide +kernel), h, h', hplace,
    (resolve_composes.2 _ _ _ _ h h').2 hplace⟩

end Chains

end ScriptBundler.Url
