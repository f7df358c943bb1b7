import Mathlib.Data.List.Nodup
import Mathlib.Logic.Relation
import Mathlib.Tactic.Tauto

namespace ScriptBundler

open Relation

/-- `PostOrder next seen roots order`: the walk over `roots`, which passes by what is in `seen` and
goes on from a member to those that `next` lists, ends with the members of `order` in that order. -/
inductive PostOrder {α : Type} (next : α → List α) : List α → List α → List α → Prop where
  | nil {seen : List α} : PostOrder next seen [] []
  | skip {seen : List α} {u : α} {roots order : List α} (h : u ∈ seen)
      (rest : PostOrder next seen roots order) : PostOrder next seen (u :: roots) order
  | visit {seen : List α} {u : α} {roots below order : List α} (h : u ∉ seen)
      (inner : PostOrder next (u :: seen) (next u) below)
      (rest : PostOrder next (u :: (below ++ seen)) roots order) :
      PostOrder next seen (u :: roots) (below ++ u :: order)

namespace PostOrder

variable {α : Type} {next next' : α → List α} {seen seen' roots roots' order order' : List α}

theorem unique (h : PostOrder next seen roots order) (h' : PostOrder next seen roots order') :
    order = order' := by
  induction h generalizing order' with
  | nil =>
    cases h'
    rfl
  | skip hs _ ih =>
    cases h' with
    | skip _ rest => exact ih rest
    | visit hn _ _ => exact absurd hs hn
  | visit hn _ _ ihi ihr =>
    cases h' with
    | skip hs _ => exact absurd hs hn
    | visit _ inner rest =>
      cases ihi inner
      cases ihr rest
      rfl

theorem not_mem_seen (h : PostOrder next seen roots order) : ∀ u ∈ order, u ∉ seen := by
  induction h with
  | nil => exact fun _ hu => absurd hu List.not_mem_nil
  | skip _ _ ih => exact ih
  | visit hn _ _ ihi ihr =>
    intro v hv hs
    rcases List.mem_append.1 hv with hv | hv
    · exact ihi v hv (List.mem_cons_of_mem _ hs)
    · rcases List.mem_cons.1 hv with rfl | hv
      · exact hn hs
      · exact ihr v hv (List.mem_cons_of_mem _ (List.mem_append_right _ hs))

theorem nodup (h : PostOrder next seen roots order) : order.Nodup := by
  induction h with
  | nil => exact List.nodup_nil
  | skip _ _ ih => exact ih
  | visit _ inner rest ihi ihr =>
    refine List.nodup_append.2 ⟨ihi, List.nodup_cons.2 ⟨?_, ihr⟩, ?_⟩
    · exact fun hm => rest.not_mem_seen _ hm List.mem_cons_self
    · rintro v hv w hw rfl
      rcases List.mem_cons.1 hw with rfl | hw
      · exact inner.not_mem_seen _ hv List.mem_cons_self
      · exact rest.not_mem_seen _ hw (List.mem_cons_of_mem _ (List.mem_append_left _ hv))

theorem covers (h : PostOrder next seen roots order) : ∀ u ∈ roots, u ∈ seen ∨ u ∈ order := by
  induction h with
  | nil => exact fun _ hu => absurd hu List.not_mem_nil
  | skip hs _ ih =>
    intro v hv
    rcases List.mem_cons.1 hv with rfl | hv
    · exact .inl hs
    · exact ih v hv
  | visit _ _ _ _ ihr =>
    intro v hv
    rcases List.mem_cons.1 hv with rfl | hv
    · exact .inr (List.mem_append_right _ List.mem_cons_self)
    · rcases ihr v hv with hs | ho
      · rcases List.mem_cons.1 hs with rfl | hs
        · exact .inr (List.mem_append_right _ List.mem_cons_self)
        · exact (List.mem_append.1 hs).elim (fun h => .inr (List.mem_append_left _ h)) .inl
      · exact .inr (List.mem_append_right _ (List.mem_cons_of_mem _ ho))

theorem closed (h : PostOrder next seen roots order) :
    ∀ u ∈ order, ∀ v ∈ next u, v ∈ seen ∨ v ∈ order := by
  induction h with
  | nil =>
    intro u hu
    cases hu
  | skip _ _ ih => exact ih
  | @visit seen u roots below order _ inner _ ihi ihr =>
    have hseen {v : α} (hv : v ∈ u :: seen ∨ v ∈ below) :
        v ∈ seen ∨ v ∈ below ++ u :: order := by
      rcases hv with hv | hv
      · rcases List.mem_cons.1 hv with rfl | hv
        · exact .inr (List.mem_append_right _ List.mem_cons_self)
        · exact .inl hv
      · exact .inr (List.mem_append_left _ hv)
    intro w hw v hv
    rcases List.mem_append.1 hw with hw | hw
    · exact hseen (ihi w hw v hv)
    · rcases List.mem_cons.1 hw with rfl | hw
      · exact hseen (inner.covers v hv)
      · rcases ihr w hw v hv with hv | hv
        · rcases List.mem_cons.1 hv with rfl | hv
          · exact hseen (.inl List.mem_cons_self)
          · apply hseen
            exact (List.mem_append.1 hv).symm.imp (List.mem_cons_of_mem _) id
        · exact .inr (List.mem_append_right _ (List.mem_cons_of_mem _ hv))

/-- What is ordered is reached from the start over roots that were not seen. -/
theorem reached (h : PostOrder next seen roots order) :
    ∀ v ∈ order, ∃ u ∈ roots, u ∉ seen ∧ ReflTransGen (fun a b => b ∈ next a ∧ b ∉ seen) u v := by
  induction h with
  | nil => exact fun _ hv => absurd hv List.not_mem_nil
  | skip _ _ ih =>
    intro v hv
    obtain ⟨u, hu, h⟩ := ih v hv
    exact ⟨u, List.mem_cons_of_mem _ hu, h⟩
  | @visit seen u _ below _ hn _ _ ihi ihr =>
    intro v hv
    have hmono {seen' : List α} (hs : ∀ w ∈ seen, w ∈ seen') {a b : α}
        (h : ReflTransGen (fun a b => b ∈ next a ∧ b ∉ seen') a b) :
        ReflTransGen (fun a b => b ∈ next a ∧ b ∉ seen) a b :=
      ReflTransGen.mono (fun _ b hb => ⟨hb.1, fun hm => hb.2 (hs b hm)⟩) _ _ h
    rcases List.mem_append.1 hv with hv | hv
    · obtain ⟨w, hw, hws, hr⟩ := ihi v hv
      have hsub : ∀ w ∈ seen, w ∈ u :: seen := fun w => List.mem_cons_of_mem _
      exact ⟨u, List.mem_cons_self, hn, .head ⟨hw, fun hm => hws (hsub w hm)⟩ (hmono hsub hr)⟩
    · rcases List.mem_cons.1 hv with rfl | hv
      · exact ⟨v, List.mem_cons_self, hn, .refl⟩
      · obtain ⟨w, hw, hws, hr⟩ := ihr v hv
        have hsub : ∀ w ∈ seen, w ∈ u :: (below ++ seen) := fun w hm =>
          List.mem_cons_of_mem _ (List.mem_append_right _ hm)
        exact ⟨w, List.mem_cons_of_mem _ hw, fun hm => hws (hsub w hm), hmono hsub hr⟩

/-- All that is reached over roots that were not seen is ordered, and nothing else. -/
theorem mem_iff (h : PostOrder next seen roots order) {v : α} : v ∈ order ↔
    ∃ u ∈ roots, u ∉ seen ∧ ReflTransGen (fun a b => b ∈ next a ∧ b ∉ seen) u v := by
  constructor
  · exact h.reached v
  · rintro ⟨u, hu, hn, hr⟩
    induction hr with
    | refl => exact (h.covers u hu).resolve_left hn
    | tail _ hv ih => exact (h.closed _ ih _ hv.1).resolve_left hv.2

theorem congr_seen (h : PostOrder next seen roots order) (hs : ∀ u, u ∈ seen ↔ u ∈ seen') :
    PostOrder next seen' roots order := by
  induction h generalizing seen' with
  | nil => exact .nil
  | skip hu _ ih =>
    apply PostOrder.skip
    · exact (hs _).1 hu
    · exact ih hs
  | visit hn _ _ ihi ihr =>
    apply PostOrder.visit
    · exact (hs _).not.1 hn
    · apply ihi
      intro v
      rw [List.mem_cons, List.mem_cons, hs]
    · apply ihr
      intro v
      rw [List.mem_cons, List.mem_append, List.mem_cons, List.mem_append, hs]

/-- A walk over more roots goes on where the first one ended. -/
theorem append (h : PostOrder next seen roots order)
    (h' : PostOrder next (order ++ seen) roots' order') :
    PostOrder next seen (roots ++ roots') (order ++ order') := by
  induction h with
  | nil => exact h'
  | skip hu _ ih => exact .skip hu (ih h')
  | @visit seen u roots below order hn inner _ _ ihr =>
    rw [List.append_assoc, List.cons_append]
    apply PostOrder.visit hn inner
    apply ihr
    apply h'.congr_seen
    intro v
    simp only [List.mem_append, List.mem_cons]
    tauto

theorem before (h : PostOrder next seen roots order)
    (hc : ∀ u, ¬ TransGen (fun a b => b ∈ next a) u u) {v w : α} {pre post : List α}
    (he : order = pre ++ v :: post) (hw : w ∈ next v) : w ∈ seen ∨ w ∈ pre := by
  induction h generalizing pre post with
  | nil => exact absurd he (List.append_ne_nil_of_right_ne_nil _ (List.cons_ne_nil _ _)).symm
  | skip _ _ ih => exact ih he
  | @visit seen u roots below order hn inner rest ihi ihr =>
    have hvisited {w : α} (hw : w ∈ next u) : w ∈ seen ∨ w ∈ below := by
      rcases inner.covers w hw with hs | hb
      · rcases List.mem_cons.1 hs with rfl | hs
        · exact absurd (.single hw) (hc w)
        · exact .inl hs
      · exact .inr hb
    rcases List.append_eq_append_iff.1 he with ⟨mid, hpre, hpost⟩ | ⟨mid, hbelow, hmid⟩
    · -- `v` is the visited url itself, or one that is ordered after it
      subst hpre
      cases mid with
      | nil =>
        obtain ⟨rfl, rfl⟩ := List.cons.inj hpost
        exact (hvisited hw).imp_right (List.mem_append_left _)
      | cons x mid =>
        obtain ⟨rfl, rfl⟩ := List.cons.inj hpost
        rcases ihr rfl with hs | hp
        · rcases List.mem_cons.1 hs with rfl | hs
          · exact .inr (List.mem_append_right _ List.mem_cons_self)
          · exact (List.mem_append.1 hs).elim (fun h => .inr (List.mem_append_left _ h)) .inl
        · exact .inr (List.mem_append_right _ (List.mem_cons_of_mem _ hp))
    · cases mid with
      | nil =>
        obtain ⟨rfl, rfl⟩ := List.cons.inj hmid
        rw [List.append_nil] at hbelow
        subst hbelow
        exact hvisited hw
      | cons x mid =>
        obtain ⟨rfl, rfl⟩ := List.cons.inj hmid
        rcases ihi hbelow with hs | hp
        · rcases List.mem_cons.1 hs with rfl | hs
          · -- `v` is below `w`, and would be followed by it
            have hv : v ∈ below := hbelow ▸ List.mem_append_right _ List.mem_cons_self
            obtain ⟨x, hx, _, hr⟩ := inner.reached v hv
            have hr' : ReflTransGen (fun a b => b ∈ next a) x v :=
              ReflTransGen.mono (fun _ _ h => h.1) _ _ hr
            exact absurd (TransGen.head' hx (hr'.tail hw)) (hc w)
          · exact .inl hs
        · exact .inr hp

/-- Two ways to go on that agree wherever the walk can come to. -/
theorem congr_next (h : PostOrder next seen roots order) {known : List α}
    (hk : ∀ u ∈ known, ∀ v ∈ next u, v ∈ known) (he : ∀ u ∈ known, next u = next' u)
    (hu : ∀ u ∈ roots, u ∈ known) : PostOrder next' seen roots order := by
  induction h with
  | nil => exact .nil
  | skip hs _ ih => exact .skip hs (ih fun v hv => hu v (List.mem_cons_of_mem _ hv))
  | @visit _ u _ _ _ hn _ _ ihi ihr =>
    have hm := hu u List.mem_cons_self
    exact .visit hn (he u hm ▸ ihi (hk u hm)) (ihr fun v hv => hu v (List.mem_cons_of_mem _ hv))

theorem exists_order [DecidableEq α] {known : List α} (hk : ∀ u ∈ known, ∀ v ∈ next u, v ∈ known)
    (hu : ∀ u ∈ roots, u ∈ known) : ∃ order, PostOrder next seen roots order := by
  -- by induction on the number of known roots that were not seen, then on the roots to walk over
  induction hn : (known.filter (· ∉ seen)).length using Nat.strongRecOn generalizing seen roots with
  | ind n ih =>
    induction roots with
    | nil => exact ⟨[], .nil⟩
    | cons u roots ihu =>
      have hu' : ∀ v ∈ roots, v ∈ known := fun v hv => hu v (List.mem_cons_of_mem _ hv)
      by_cases hs : u ∈ seen
      · obtain ⟨order, h⟩ := ihu hu'
        exact ⟨order, .skip hs h⟩
      · have hm := hu u List.mem_cons_self
        have hlt {seen' : List α} (hsub : ∀ v, v ∈ u :: seen → v ∈ seen') :
            (known.filter (· ∉ seen')).length < n := by
          have he : known.filter (· ∉ seen') = (known.filter (· ∉ seen)).filter (· ∉ seen') := by
            rw [List.filter_filter]
            apply List.filter_congr
            intro v _
            by_cases hv : v ∈ seen'
            · simp only [hv, not_true_eq_false, decide_false, Bool.false_and]
            · have : v ∉ seen := fun h => hv (hsub v (List.mem_cons_of_mem _ h))
              simp only [hv, this, not_false_eq_true, decide_true, Bool.and_self]
          rw [he, ← hn]
          refine List.length_filter_lt_length_iff_exists.2 ⟨u, List.mem_filter.2 ⟨hm, ?_⟩, ?_⟩
          · simpa only [decide_eq_true_eq] using hs
          · simpa only [decide_not, Bool.not_eq_true', decide_eq_false_iff_not, not_not] using
              hsub u List.mem_cons_self
        obtain ⟨below, hb⟩ := ih _ (hlt fun _ h => h) (hk u hm) rfl
        obtain ⟨order, ho⟩ := ih _ (hlt fun v hv => (List.mem_cons.1 hv).elim
          (fun h => List.mem_cons.2 (.inl h))
          fun h => List.mem_cons_of_mem _ (List.mem_append_right below h)) hu' rfl
        exact ⟨_, .visit hs hb ho⟩

theorem forall_order {p : α → Prop} (hp : ∀ u, p u → ∀ v ∈ next u, p v)
    (h : PostOrder next seen roots order) (hr : ∀ u ∈ roots, p u) : ∀ u ∈ order, p u := by
  induction h with
  | nil => exact fun _ hu => absurd hu List.not_mem_nil
  | skip _ _ ih => exact ih fun v hv => hr v (List.mem_cons_of_mem _ hv)
  | visit _ _ _ ihi ihr =>
    have hu := hr _ List.mem_cons_self
    intro v hv
    rcases List.mem_append.1 hv with hv | hv
    · exact ihi (hp _ hu) v hv
    · rcases List.mem_cons.1 hv with rfl | hv
      · exact hu
      · exact ihr (fun w hw => hr w (List.mem_cons_of_mem _ hw)) v hv

/-- The same walk under other names, as long as these tell apart what the walk can come to. -/
theorem map {β : Type} {f : α → β} {nextOf : β → List β} {p : α → Prop}
    (hf : ∀ u v, p u → p v → f u = f v → u = v)
    (hnext : ∀ u, p u → nextOf (f u) = (next u).map f) (hp : ∀ u, p u → ∀ v ∈ next u, p v)
    (h : PostOrder next seen roots order) (hr : ∀ u ∈ roots, p u) {seenOf : List β}
    (hs : ∀ u, p u → (f u ∈ seenOf ↔ u ∈ seen)) :
    PostOrder nextOf seenOf (roots.map f) (order.map f) := by
  induction h generalizing seenOf with
  | nil => exact .nil
  | skip hu _ ih =>
    apply PostOrder.skip
    · exact (hs _ (hr _ List.mem_cons_self)).2 hu
    · exact ih (fun v hv => hr v (List.mem_cons_of_mem _ hv)) hs
  | @visit seen u roots below order hn inner _ ihi ihr =>
    have hu := hr u List.mem_cons_self
    have hbelow := inner.forall_order hp (hp u hu)
    have hname {v : α} (hv : p v) : f v = f u ↔ v = u :=
      ⟨hf v u hv hu, fun he => he ▸ rfl⟩
    rw [List.map_append, List.map_cons, List.map_cons]
    apply PostOrder.visit
    · exact (hs u hu).not.2 hn
    · rw [hnext u hu]
      apply ihi (hp u hu)
      intro v hv
      rw [List.mem_cons, List.mem_cons, hname hv, hs v hv]
    · apply ihr fun v hv => hr v (List.mem_cons_of_mem _ hv)
      intro v hv
      have hmap : f v ∈ below.map f ↔ v ∈ below := by
        constructor
        · intro hm
          obtain ⟨w, hw, he⟩ := List.mem_map.1 hm
          exact hf w v (hbelow w hw) hv he ▸ hw
        · exact List.mem_map_of_mem
      rw [List.mem_cons, List.mem_append, List.mem_cons, List.mem_append, hname hv, hmap, hs v hv]

end PostOrder

end ScriptBundler
