import Mathlib.Data.List.Basic
import ScriptBundler.Proofs.Url

namespace ScriptBundler.Url

/-- The names that lead to a file or a directory from the root. -/
abbrev Place := List (List Char)

/-- A segment that leads further down, by a name of its own. -/
def IsName (segment : List Char) : Prop := segment ∉ [[], ['.'], ['.', '.']] ∧ '/' ∉ segment

instance (segment : List Char) : Decidable (IsName segment) := inferInstanceAs (Decidable (_ ∧ _))

/-- Where a segment leads from a place; there is nothing above the root. -/
def lead (place : Place) (segment : List Char) : Place :=
  if segment = [] ∨ segment = ['.'] then place
  else if segment = ['.', '.'] then place.dropLast
  else place ++ [segment]

def placeOf (cs : List Char) : Place := (segments cs).foldl lead []

variable {cs a b s t : List Char} {ss : List (List Char)} {place : Place}

section Segments

theorem segments_ne_nil (cs : List Char) : segments cs ≠ [] := by
  cases cs with
  | nil => exact List.cons_ne_nil _ _
  | cons c cs =>
    rw [segments]
    split
    · exact List.cons_ne_nil _ _
    · split <;> exact List.cons_ne_nil _ _

theorem segments_append (a b : List Char) :
    segments (a ++ '/' :: b) = segments a ++ segments b := by
  induction a with
  | nil => rfl
  | cons c a ih =>
    rw [List.cons_append, segments, segments, ih]
    split
    · rfl
    · cases h : segments a with
      | nil => exact absurd h (segments_ne_nil a)
      | cons s ss => rfl

theorem segments_of_not_mem (h : '/' ∉ cs) : segments cs = [cs] := by
  induction cs with
  | nil => rfl
  | cons c cs ih =>
    rw [List.mem_cons, not_or] at h
    rw [segments, if_neg (Ne.symm h.1), ih h.2]

theorem not_mem_of_mem_segments (h : s ∈ segments cs) : '/' ∉ s := by
  induction cs generalizing s with
  | nil =>
    rw [List.mem_singleton.1 h]
    exact List.not_mem_nil
  | cons c cs ih =>
    rw [segments] at h
    split at h
    · rcases List.mem_cons.1 h with rfl | h
      · exact List.not_mem_nil
      · exact ih h
    · next hc =>
      cases hss : segments cs with
      | nil => exact absurd hss (segments_ne_nil cs)
      | cons t ts =>
        rw [hss] at h ih
        rcases List.mem_cons.1 h with rfl | h
        · rw [List.mem_cons, not_or]
          exact ⟨Ne.symm hc, ih List.mem_cons_self⟩
        · exact ih (List.mem_cons_of_mem _ h)

/-- Joining cuts no segments, though it may join what has more than one. -/
theorem segments_joined (h : ss ≠ []) : segments (joined ss) = ss.flatMap segments := by
  fun_induction joined ss with
  | case1 => exact absurd rfl h
  | case2 s => exact (List.append_nil _).symm
  | case3 s ss hss ih =>
    rw [segments_append, ih (fun he => hss he), List.flatMap_cons]

theorem flatMap_segments (h : ∀ s ∈ ss, '/' ∉ s) : ss.flatMap segments = ss := by
  induction ss with
  | nil => rfl
  | cons s ss ih =>
    obtain ⟨hs, hss⟩ := List.forall_mem_cons.1 h
    rw [List.flatMap_cons, segments_of_not_mem hs, ih hss, List.singleton_append]

theorem joined_cons (h : ss ≠ []) (s : List Char) : joined (s :: ss) = s ++ '/' :: joined ss := by
  rw [joined]
  exact h

theorem joined_concat (h : ss ≠ []) (s : List Char) :
    joined (ss ++ [s]) = joined ss ++ '/' :: s := by
  induction ss with
  | nil => exact absurd rfl h
  | cons t ss ih =>
    by_cases hss : ss = []
    · subst hss
      rfl
    · rw [List.cons_append, joined_cons (List.append_ne_nil_of_left_ne_nil hss _), ih hss,
        joined_cons hss, List.append_assoc, List.cons_append]

theorem joined_segments (cs : List Char) : joined (segments cs) = cs := by
  induction cs with
  | nil => rfl
  | cons c cs ih =>
    rw [segments]
    split
    · next hc =>
      rw [joined_cons (segments_ne_nil cs), ih, hc, List.nil_append]
    · cases hss : segments cs with
      | nil => exact absurd hss (segments_ne_nil cs)
      | cons s ss =>
        rw [hss] at ih
        by_cases hempty : ss = []
        · subst hempty
          exact congrArg (c :: ·) ih
        · rw [joined_cons hempty] at ih
          rw [joined_cons hempty, List.cons_append, ih]

end Segments

section Leading

theorem lead_name (h : IsName s) (place : Place) : lead place s = place ++ [s] := by
  simp only [IsName, List.mem_cons, List.not_mem_nil, or_false, not_or] at h
  obtain ⟨⟨hempty, hdot, hup⟩, -⟩ := h
  rw [lead, if_neg (not_or.2 ⟨hempty, hdot⟩), if_neg hup]

theorem foldl_lead_names (h : ∀ s ∈ ss, IsName s) (place : Place) :
    ss.foldl lead place = place ++ ss := by
  induction ss generalizing place with
  | nil => exact (List.append_nil _).symm
  | cons s ss ih =>
    obtain ⟨hs, hss⟩ := List.forall_mem_cons.1 h
    rw [List.foldl_cons, lead_name hs, ih hss, List.append_assoc, List.singleton_append]

theorem isName_lead (hp : ∀ t ∈ place, IsName t) (hs : '/' ∉ s) : ∀ t ∈ lead place s, IsName t := by
  intro t ht
  rw [lead] at ht
  split at ht
  · exact hp t ht
  · next hskip =>
    split at ht
    · exact hp t ((List.dropLast_sublist place).mem ht)
    · next hup =>
      rcases List.mem_append.1 ht with ht | ht
      · exact hp t ht
      · rw [List.mem_singleton.1 ht]
        rw [not_or] at hskip
        exact ⟨by simp [hskip, hup], hs⟩

theorem isName_foldl_lead (hp : ∀ t ∈ place, IsName t) (hs : ∀ s ∈ ss, '/' ∉ s) :
    ∀ t ∈ ss.foldl lead place, IsName t := by
  induction ss generalizing place with
  | nil => exact hp
  | cons s ss ih =>
    obtain ⟨hs, hss⟩ := List.forall_mem_cons.1 hs
    exact ih (isName_lead hp hs) hss

theorem isName_placeOf (cs : List Char) : ∀ s ∈ placeOf cs, IsName s :=
  isName_foldl_lead (fun _ h => absurd h List.not_mem_nil) fun _ => not_mem_of_mem_segments

theorem placeOf_append (a b : List Char) :
    placeOf (a ++ '/' :: b) = (segments b).foldl lead (placeOf a) := by
  rw [placeOf, segments_append, List.foldl_append, placeOf]

theorem placeOf_joined (h : ∀ s ∈ place, IsName s) : placeOf ('/' :: joined place) = place := by
  have hroot : placeOf ('/' :: joined place) = (segments (joined place)).foldl lead [] :=
    placeOf_append [] (joined place)
  rw [hroot]
  by_cases hempty : place = []
  · subst hempty
    rfl
  · rw [segments_joined hempty, flatMap_segments fun s hs => (h s hs).2, foldl_lead_names h,
      List.nil_append]

end Leading

section Normal

/-- Collapsing keeps the place of a rooted path in reverse. -/
theorem step_reverse (hp : ∀ t ∈ place, IsName t) (s : List Char) :
    step true place.reverse s = (lead place s).reverse := by
  simp only [step, lead, Bool.or_eq_true, decide_eq_true_eq]
  split
  · rfl
  · split
    · -- what stays of a relative path, a `..` before another, is no name and so never met here
      rcases List.eq_nil_or_concat place with rfl | ⟨front, last, rfl⟩
      · rfl
      · have hlast : last ≠ ['.', '.'] := by
          rintro rfl
          have hname := hp ['.', '.'] (by simp)
          exact hname.1 (by simp)
        simp only [List.concat_eq_append, List.reverse_append, List.reverse_singleton,
          List.singleton_append, if_neg hlast, List.dropLast_concat]
    · rw [List.reverse_append, List.reverse_singleton, List.singleton_append]

theorem foldl_step (hp : ∀ t ∈ place, IsName t) (hs : ∀ s ∈ ss, '/' ∉ s) :
    ss.foldl (step true) place.reverse = (ss.foldl lead place).reverse := by
  induction ss generalizing place with
  | nil => rfl
  | cons s ss ih =>
    obtain ⟨hs, hss⟩ := List.forall_mem_cons.1 hs
    rw [List.foldl_cons, List.foldl_cons, step_reverse hp, ih (isName_lead hp hs) hss]

theorem normalChars_eq (h : cs.head? = some '/') : normalChars cs = '/' :: joined (placeOf cs) := by
  have hpath : (segments cs).foldl (step true) [] = (placeOf cs).reverse :=
    foldl_step (fun _ h => absurd h List.not_mem_nil) fun _ => not_mem_of_mem_segments
  simp only [normalChars, h, decide_true, ↓reduceIte, hpath, List.reverse_reverse]

theorem placeOf_normalChars (h : cs.head? = some '/') : placeOf (normalChars cs) = placeOf cs := by
  rw [normalChars_eq h, placeOf_joined (isName_placeOf cs)]

end Normal

section Directories

theorem dirChars_append (h : '/' ∉ b) : dirChars (a ++ '/' :: b) = a ++ ['/'] := by
  have hskip : ∀ c ∈ b.reverse, decide (c ≠ '/') = true := fun c hc =>
    decide_eq_true fun he => h (he ▸ List.mem_reverse.1 hc)
  rw [dirChars, List.reverse_append, List.reverse_cons, List.append_assoc,
    List.dropWhile_append_of_pos hskip, List.singleton_append, List.dropWhile_cons_of_neg (by simp),
    List.reverse_cons, List.reverse_reverse]

theorem exists_dirChars_eq (h : cs.head? = some '/') :
    ∃ directory file, cs = directory ++ '/' :: file ∧ dirChars cs = directory ++ ['/'] := by
  have hmem : '/' ∈ cs.reverse := List.mem_reverse.2 (List.mem_of_mem_head? h)
  obtain ⟨before, after, hcs, hbefore⟩ := List.eq_append_cons_of_mem hmem
  have hparts : cs = after.reverse ++ '/' :: before.reverse := by
    rw [← List.reverse_reverse cs, hcs, List.reverse_append, List.reverse_cons, List.append_assoc,
      List.singleton_append]
  have hfile : '/' ∉ before.reverse := fun hm => hbefore (List.mem_reverse.1 hm)
  exact ⟨_, _, hparts, hparts ▸ dirChars_append hfile⟩

end Directories

end ScriptBundler.Url
