import Mathlib.Data.List.Chain
import ScriptBundler.Thunk.Compaction

namespace ScriptBundler

/-- Something that counts for the order of a body. -/
inductive Event where
  | declares (kind : VarKind) (d : Declarator)
  | evaluates (e : Expr)
  | handsOut (item : Expr)
  | runs (s : Stmt)

namespace Expr

/-- A yield, or what leaves a yield to the end. -/
inductive EndsInYield : Expr → Prop where
  | value (v : Option Expr) : EndsInYield (.yield v)
  | all (source : Expr) : EndsInYield (.yieldAll source)
  | sequence (leading : List Expr) {last : Expr} (h : EndsInYield last) :
    EndsInYield (.sequence (leading ++ [last]))
  | paren {inner : Expr} (h : EndsInYield inner) : EndsInYield (.paren inner)

inductive IsYield : Expr → Prop where
  | value (v : Option Expr) : IsYield (.yield v)
  | all (source : Expr) : IsYield (.yieldAll source)

mutual

def events? : Expr → Option (List Event)
  | .yield none => some [.handsOut (.unary .voidOf (.number "0"))]
  | .yield (some value) => some [.handsOut value]
  | .yieldAll (.array items _) => some (items.map .handsOut)
  | .yieldAll source => some [.handsOut (.spread source)]
  | .sequence es => sequenceEvents? es
  | .paren inner => inner.events?
  | _ => none

def sequenceEvents? : List Expr → Option (List Event)
  | [] => none
  | [last] => last.events?
  | e :: es => (sequenceEvents? es).map (.evaluates e :: ·)

end

theorem sequenceEvents?_cons (e : Expr) {es : List Expr} (h : es ≠ []) :
    sequenceEvents? (e :: es) = (sequenceEvents? es).map (.evaluates e :: ·) := by
  cases es with
  | nil => exact absurd rfl h
  | cons e' es => rfl

theorem appendYieldLast?_cons (items : List Expr) (e : Expr) {es : List Expr} (h : es ≠ []) :
    appendYieldLast? items (e :: es) = (appendYieldLast? items es).map (e :: ·) := by
  cases es with
  | nil => exact absurd rfl h
  | cons e' es => rfl

theorem sequenceEvents?_append (leading : List Expr) (last : Expr) :
    sequenceEvents? (leading ++ [last]) =
      last.events?.map (leading.map .evaluates ++ ·) := by
  induction leading with
  | nil => exact Option.map_id'.symm
  | cons e leading ih =>
    rw [List.cons_append, sequenceEvents?_cons e (by simp), ih, Option.map_map]
    rfl

theorem appendYieldLast?_append (items leading : List Expr) (last : Expr) :
    appendYieldLast? items (leading ++ [last]) =
      (last.appendYield? items).map fun e => leading ++ [e] := by
  induction leading with
  | nil => rfl
  | cons e leading ih =>
    rw [List.cons_append, appendYieldLast?_cons items e (by simp), ih, Option.map_map]
    rfl

theorem IsYield.endsInYield {e : Expr} (h : e.IsYield) : e.EndsInYield := by
  cases h with
  | value v => exact .value v
  | all source => exact .all source

/-- A yield turns into one of an array, whose items are what it handed out before. -/
theorem IsYield.yielded {e : Expr} (h : e.IsYield) :
    ∃ own, e.yielded? = some own ∧ e.events? = some (own.map .handsOut) ∧
      ∀ items, e.appendYield? items = some (.yieldAll (.array (own ++ items))) := by
  cases h with
  | value v => cases v <;> exact ⟨_, rfl, rfl, fun _ => rfl⟩
  | all source => cases source <;> exact ⟨_, rfl, rfl, fun _ => rfl⟩

theorem isYield_of_yielded? {e : Expr} {own : List Expr} (h : e.yielded? = some own) :
    e.IsYield := by
  unfold yielded? at h
  split at h
  · exact .value _
  · exact .value _
  · exact .all _
  · exact .all _
  · cases h

theorem endsInYield_of_appendYield? {items : List Expr} :
    ∀ {e e' : Expr}, e.appendYield? items = some e' → e.EndsInYield := by
  intro e e' h
  unfold appendYield? at h
  split at h
  · exact .value _
  · exact .all _
  · next es =>
    obtain ⟨es', hes, rfl⟩ := Option.map_eq_some_iff.1 h
    rcases List.eq_nil_or_concat' es with rfl | ⟨leading, last, rfl⟩
    · cases hes
    · rw [appendYieldLast?_append] at hes
      obtain ⟨last', hl, rfl⟩ := Option.map_eq_some_iff.1 hes
      exact .sequence leading (endsInYield_of_appendYield? hl)
  · obtain ⟨inner, hi, rfl⟩ := Option.map_eq_some_iff.1 h
    exact .paren (endsInYield_of_appendYield? hi)
  · cases h
termination_by e => sizeOf e
decreasing_by
  all_goals subst_vars
  · have hmem : last ∈ leading ++ [last] := List.mem_append_right _ (List.mem_singleton_self _)
    have hlt := List.sizeOf_lt_of_mem hmem
    simp only [sequence.sizeOf_spec]
    omega
  · simp only [paren.sizeOf_spec]
    omega

/-- Items are handed out after all that an expression does, in one step or in two. -/
theorem EndsInYield.appends {e : Expr} (h : e.EndsInYield) (items : List Expr) :
    ∃ e' own, e.appendYield? items = some e' ∧ e'.EndsInYield ∧ e.events? = some own ∧
      e'.events? = some (own ++ items.map .handsOut) ∧
      ∀ more, e'.appendYield? more = e.appendYield? (items ++ more) := by
  have hyield {e : Expr} (h : e.IsYield) :
      ∃ e' own, e.appendYield? items = some e' ∧ e'.EndsInYield ∧ e.events? = some own ∧
        e'.events? = some (own ++ items.map .handsOut) ∧
        ∀ more, e'.appendYield? more = e.appendYield? (items ++ more) := by
    obtain ⟨own, -, hevents, happend⟩ := h.yielded
    refine ⟨_, _, happend items, .all _, hevents, ?_, fun more => ?_⟩
    · simp only [events?, List.map_append]
    · simp only [appendYield?, yielded?, happend, Option.map_some, List.append_assoc]
  induction h with
  | value v => exact hyield (.value v)
  | all source => exact hyield (.all source)
  | sequence leading h ih =>
    obtain ⟨e', own, he, hends, hown, hevents, hmore⟩ := ih
    refine ⟨_, leading.map .evaluates ++ own, ?_, .sequence leading hends, ?_, ?_, fun more => ?_⟩
    · rw [appendYield?, appendYieldLast?_append, he]
      rfl
    · rw [events?, sequenceEvents?_append, hown]
      rfl
    · rw [events?, sequenceEvents?_append, hevents, Option.map_some, List.append_assoc]
    · simp only [appendYield?, appendYieldLast?_append, hmore]
  | paren h ih =>
    obtain ⟨e', own, he, hends, hown, hevents, hmore⟩ := ih
    refine ⟨_, _, ?_, .paren hends, hown, hevents, fun more => ?_⟩
    · rw [appendYield?, he]
      rfl
    · simp only [appendYield?, hmore]

/-- A sequence or parentheses around a yield stay, also when the yield takes in more. -/
theorem isYield_appendYield? {e e' : Expr} {items : List Expr}
    (h : e.appendYield? items = some e') : e'.IsYield ↔ e.IsYield := by
  cases endsInYield_of_appendYield? h with
  | value v =>
    obtain ⟨own, -, -, happend⟩ := (IsYield.value v).yielded
    obtain rfl := Option.some.inj ((happend items).symm.trans h)
    exact ⟨fun _ => .value v, fun _ => .all _⟩
  | all source =>
    obtain ⟨own, -, -, happend⟩ := (IsYield.all source).yielded
    obtain rfl := Option.some.inj ((happend items).symm.trans h)
    exact ⟨fun _ => .all source, fun _ => .all _⟩
  | sequence leading _ =>
    obtain ⟨es, -, rfl⟩ := Option.map_eq_some_iff.1 h
    constructor <;> intro he <;> cases he
  | paren _ =>
    obtain ⟨inner, -, rfl⟩ := Option.map_eq_some_iff.1 h
    constructor <;> intro he <;> cases he

end Expr

/-- Adjacent statements that can share one. -/
inductive Stmt.Mergeable : Stmt → Stmt → Prop where
  | declarations {kind : VarKind} (h : kind = .constKind ∨ kind = .letKind ∨ kind = .varKind)
      (ds ds' : List Declarator) : Mergeable (.decl (.vars kind ds)) (.decl (.vars kind ds'))
  | yields {e e' : Expr} (h : e.EndsInYield) (h' : e'.IsYield) : Mergeable (.expr e) (.expr e')

namespace Stmt

def events : Stmt → List Event
  | .decl (.vars .constKind ds) => ds.map (.declares .constKind)
  | .decl (.vars .letKind ds) => ds.map (.declares .letKind)
  | .decl (.vars .varKind ds) => ds.map (.declares .varKind)
  | .expr e => e.events?.getD [.runs (.expr e)]
  | s => [.runs s]

variable {s t u m : Stmt}

theorem isMergeable_iff {kind : VarKind} :
    kind.isMergeable = true ↔ kind = .constKind ∨ kind = .letKind ∨ kind = .varKind := by
  cases kind <;> decide

theorem events_vars {kind : VarKind} (h : kind.isMergeable = true) (ds : List Declarator) :
    (Stmt.decl (.vars kind ds)).events = ds.map (.declares kind) := by
  rcases isMergeable_iff.1 h with rfl | rfl | rfl <;> rfl

theorem events_expr {e : Expr} {own : List Event} (h : e.events? = some own) :
    (Stmt.expr e).events = own := by
  rw [events, h, Option.getD_some]

theorem merge?_vars {kind : VarKind} (h : kind.isMergeable = true) (ds ds' : List Declarator) :
    (Stmt.decl (.vars kind ds)).merge? (.decl (.vars kind ds')) =
      some (.decl (.vars kind (ds ++ ds'))) := by
  rw [merge?, decide_eq_true rfl, h]
  rfl

theorem merge?_expr {e e' : Expr} {items : List Expr} (h : e'.yielded? = some items) :
    (Stmt.expr e).merge? (.expr e') = (e.appendYield? items).map .expr := by
  simp only [merge?, h, Option.bind_eq_bind, Option.bind_some]
  cases e.appendYield? items <;> rfl

theorem merge?_cases (h : s.merge? t = some m) :
    (∃ kind ds ds', kind.isMergeable = true ∧ s = .decl (.vars kind ds) ∧
      t = .decl (.vars kind ds') ∧ m = .decl (.vars kind (ds ++ ds'))) ∨
    ∃ e e' items merged, s = .expr e ∧ t = .expr e' ∧ e'.yielded? = some items ∧
      e.appendYield? items = some merged ∧ m = .expr merged := by
  unfold merge? at h
  split at h
  · next kind ds kind' ds' =>
    split at h
    · next hk =>
      rw [Bool.and_eq_true, decide_eq_true_eq] at hk
      obtain ⟨rfl, hk⟩ := hk
      exact .inl ⟨kind, ds, ds', hk, rfl, rfl, (Option.some.inj h).symm⟩
    · cases h
  · next e e' =>
    obtain ⟨items, hi, h⟩ := Option.bind_eq_some_iff.1 h
    obtain ⟨merged, hm, h⟩ := Option.bind_eq_some_iff.1 h
    exact .inr ⟨e, e', items, merged, rfl, rfl, hi, hm, (Option.some.inj h).symm⟩
  · cases h

theorem isSome_merge?_iff : (s.merge? t).isSome = true ↔ s.Mergeable t := by
  constructor
  · intro h
    obtain ⟨m, h⟩ := Option.isSome_iff_exists.1 h
    rcases merge?_cases h with ⟨kind, ds, ds', hk, rfl, rfl, -⟩ |
      ⟨e, e', items, merged, rfl, rfl, hi, hm, -⟩
    · exact .declarations (isMergeable_iff.1 hk) ds ds'
    · exact .yields (Expr.endsInYield_of_appendYield? hm) (Expr.isYield_of_yielded? hi)
  · intro h
    cases h with
    | declarations hk ds ds' => rw [merge?_vars (isMergeable_iff.2 hk), Option.isSome_some]
    | yields h h' =>
      obtain ⟨own, hown, -⟩ := h'.yielded
      obtain ⟨e', -, he, -⟩ := h.appends own
      rw [merge?_expr hown, he]
      rfl

theorem merge?_eq_none_iff : s.merge? t = none ↔ ¬ s.Mergeable t := by
  rw [← isSome_merge?_iff, Option.not_isSome_iff_eq_none]

theorem events_merge (h : s.merge? t = some m) : m.events = s.events ++ t.events := by
  rcases merge?_cases h with ⟨kind, ds, ds', hk, rfl, rfl, rfl⟩ |
    ⟨e, e', items, merged, rfl, rfl, hi, hm, rfl⟩
  · simp only [events_vars hk, List.map_append]
  · obtain ⟨own, hown, hevents', -⟩ := (Expr.isYield_of_yielded? hi).yielded
    obtain rfl : own = items := Option.some.inj (hown.symm.trans hi)
    obtain ⟨_, before, he, -, hbefore, hevents, -⟩ :=
      (Expr.endsInYield_of_appendYield? hm).appends own
    obtain rfl := Option.some.inj (he.symm.trans hm)
    rw [events_expr hevents, events_expr hbefore, events_expr hevents']

theorem mergeable_left (h : s.merge? t = some m) : m.Mergeable u ↔ t.Mergeable u := by
  rcases merge?_cases h with ⟨kind, ds, ds', hk, rfl, rfl, rfl⟩ |
    ⟨e, e', items, merged, rfl, rfl, hi, hm, rfl⟩
  · constructor <;> intro hu
    · cases hu with
      | declarations hk _ ds'' => exact .declarations hk ds' ds''
    · cases hu with
      | declarations hk _ ds'' => exact .declarations hk (ds ++ ds') ds''
  · have he' := Expr.isYield_of_yielded? hi
    obtain ⟨_, -, he, hends, -⟩ := (Expr.endsInYield_of_appendYield? hm).appends items
    obtain rfl := Option.some.inj (he.symm.trans hm)
    constructor <;> intro hu
    · cases hu with
      | yields _ hu => exact .yields he'.endsInYield hu
    · cases hu with
      | yields _ hu => exact .yields hends hu

theorem mergeable_right (h : t.merge? u = some m) : s.Mergeable m ↔ s.Mergeable t := by
  rcases merge?_cases h with ⟨kind, ds, ds', hk, rfl, rfl, rfl⟩ |
    ⟨e, e', items, merged, rfl, rfl, hi, hm, rfl⟩
  · constructor <;> intro hs
    · cases hs with
      | declarations hk ds'' _ => exact .declarations hk ds'' ds
    · cases hs with
      | declarations hk ds'' _ => exact .declarations hk ds'' (ds ++ ds')
  · have hyield := Expr.isYield_appendYield? hm
    constructor <;> intro hs
    · cases hs with
      | yields hs he => exact .yields hs (hyield.1 he)
    · cases hs with
      | yields hs he => exact .yields hs (hyield.2 he)

theorem merge?_merge? (h : s.merge? t = some m) (u : Stmt) :
    m.merge? u = (t.merge? u).bind s.merge? := by
  by_cases hu : t.Mergeable u
  · rcases merge?_cases h with ⟨kind, ds, ds', hk, rfl, rfl, rfl⟩ |
      ⟨e, e', items, merged, rfl, rfl, hi, hm, rfl⟩
    · cases hu with
      | declarations _ _ ds'' =>
        simp only [merge?_vars hk, Option.bind_some, List.append_assoc]
    · obtain ⟨_, -, he, -, -, -, hmore⟩ :=
        (Expr.endsInYield_of_appendYield? hm).appends items
      obtain rfl := Option.some.inj (he.symm.trans hm)
      obtain ⟨own, hown, -, happend⟩ := (Expr.isYield_of_yielded? hi).yielded
      obtain rfl := Option.some.inj (hown.symm.trans hi)
      cases hu with
      | yields _ hu =>
        obtain ⟨items', hitems, -⟩ := hu.yielded
        rw [merge?_expr hitems, merge?_expr hitems, happend, hmore, Option.map_some,
          Option.bind_some, merge?_expr rfl]
  · rw [merge?_eq_none_iff.2 hu, merge?_eq_none_iff.2 fun hm => hu ((mergeable_left h).1 hm)]
    rfl

end Stmt

namespace Thunk

open Stmt

def trace (ss : List Stmt) : List Event := ss.flatMap Stmt.events

/-- A statement before others, merged with the first of them if it can be. -/
def prepend (s : Stmt) : List Stmt → List Stmt
  | [] => [s]
  | t :: ss =>
    match s.merge? t with
    | some m => m :: ss
    | none => s :: t :: ss

section Compact

variable {s t m : Stmt} {ss : List Stmt}

theorem prepend_of_merge? (h : s.merge? t = some m) (ss : List Stmt) :
    prepend s (t :: ss) = m :: ss := by
  rw [prepend, h]

theorem prepend_of_not_mergeable (h : ¬ s.Mergeable t) (ss : List Stmt) :
    prepend s (t :: ss) = s :: t :: ss := by
  rw [prepend, merge?_eq_none_iff.2 h]

theorem prepend_prepend (h : s.merge? t = some m) (ss : List Stmt) :
    prepend s (prepend t ss) = prepend m ss := by
  cases ss with
  | nil => exact prepend_of_merge? h []
  | cons u ss =>
    -- the next statement goes with both or with neither, for only `t` decides what it goes with
    cases hu : t.merge? u with
    | none =>
      have ht : ¬ t.Mergeable u := merge?_eq_none_iff.1 hu
      rw [prepend_of_not_mergeable ht, prepend_of_merge? h,
        prepend_of_not_mergeable fun hm => ht ((mergeable_left h).1 hm)]
    | some tu =>
      -- both ways of putting three statements together give the same
      have hm : m.merge? u = s.merge? tu := by rw [merge?_merge? h, hu, Option.bind_some]
      have hs : s.Mergeable tu :=
        (mergeable_right hu).2 (isSome_merge?_iff.1 (Option.isSome_of_eq_some h))
      obtain ⟨stu, hstu⟩ := Option.isSome_iff_exists.1 (isSome_merge?_iff.2 hs)
      rw [prepend_of_merge? hu, prepend_of_merge? hstu, prepend_of_merge? (hm.trans hstu)]

theorem prepend_of_prepend (h : ¬ s.Mergeable t) (ss : List Stmt) :
    prepend s (prepend t ss) = s :: prepend t ss := by
  cases ss with
  | nil => exact prepend_of_not_mergeable h []
  | cons u ss =>
    cases hu : t.merge? u with
    | none =>
      rw [prepend_of_not_mergeable (merge?_eq_none_iff.1 hu), prepend_of_not_mergeable h]
    | some tu =>
      rw [prepend_of_merge? hu, prepend_of_not_mergeable fun hs => h ((mergeable_right hu).1 hs)]

theorem compact_cons (s : Stmt) (ss : List Stmt) :
    compact (s :: ss) = prepend s (compact ss) := by
  have hfrom (s : Stmt) (ss : List Stmt) : compactFrom s ss = prepend s (compact ss) := by
    induction ss generalizing s with
    | nil => rfl
    | cons t ss ih =>
      rw [compactFrom, compact]
      split
      · next m hm => rw [ih m, ih t, prepend_prepend hm]
      · next hn => rw [ih t, prepend_of_prepend (merge?_eq_none_iff.1 hn)]
  exact hfrom s ss

theorem trace_prepend (s : Stmt) (ss : List Stmt) :
    trace (prepend s ss) = s.events ++ trace ss := by
  cases ss with
  | nil => rfl
  | cons t ss =>
    cases h : s.merge? t with
    | none =>
      rw [prepend_of_not_mergeable (merge?_eq_none_iff.1 h)]
      rfl
    | some m =>
      rw [prepend_of_merge? h]
      simp only [trace, List.flatMap_cons, events_merge h, List.append_assoc]

theorem trace_compact (ss : List Stmt) : trace (compact ss) = trace ss := by
  induction ss with
  | nil => rfl
  | cons s ss ih =>
    rw [compact_cons, trace_prepend, ih]
    rfl

/-- Bodies without neighbours to merge. -/
def IsCompact (ss : List Stmt) : Prop := ss.IsChain fun s t => ¬ s.Mergeable t

theorem IsCompact.prepend (h : IsCompact ss) (s : Stmt) : IsCompact (prepend s ss) := by
  cases ss with
  | nil => exact .singleton s
  | cons t ss =>
    cases hm : s.merge? t with
    | none =>
      have hn := merge?_eq_none_iff.1 hm
      rw [prepend_of_not_mergeable hn]
      exact .cons_cons hn h
    | some m =>
      rw [prepend_of_merge? hm]
      cases ss with
      | nil => exact .singleton m
      | cons u ss =>
        obtain ⟨hn, hrest⟩ := List.isChain_cons_cons.1 h
        exact .cons_cons (fun hmu => hn ((mergeable_left hm).1 hmu)) hrest

theorem isCompact_compact (ss : List Stmt) : IsCompact (compact ss) := by
  induction ss with
  | nil => exact .nil
  | cons s ss ih =>
    rw [compact_cons]
    exact ih.prepend s

theorem IsCompact.compact_eq (h : IsCompact ss) : compact ss = ss := by
  induction ss with
  | nil => rfl
  | cons s ss ih =>
    cases ss with
    | nil => rfl
    | cons t ss =>
      obtain ⟨hn, hrest⟩ := List.isChain_cons_cons.1 h
      rw [compact_cons, ih hrest, prepend_of_not_mergeable hn]

theorem compact_append (ss ts : List Stmt) :
    compact (ss ++ ts) = ss.foldr prepend (compact ts) := by
  induction ss with
  | nil => rfl
  | cons s ss ih => rw [List.cons_append, compact_cons, ih, List.foldr_cons]

theorem foldr_prepend_prepend (s : Stmt) (ss ts : List Stmt) :
    (prepend s ss).foldr prepend ts = prepend s (ss.foldr prepend ts) := by
  cases ss with
  | nil => rfl
  | cons t ss =>
    cases h : s.merge? t with
    | none =>
      rw [prepend_of_not_mergeable (merge?_eq_none_iff.1 h)]
      rfl
    | some m => rw [prepend_of_merge? h, List.foldr_cons, List.foldr_cons, prepend_prepend h]

theorem foldr_prepend_compact (ss ts : List Stmt) :
    (compact ss).foldr prepend ts = ss.foldr prepend ts := by
  induction ss with
  | nil => rfl
  | cons s ss ih => rw [compact_cons, foldr_prepend_prepend, ih, List.foldr_cons]

end Compact

/-- Compaction keeps the events of a body in their order, and leaves nothing to merge. -/
theorem compact_keeps_events (ss : List Stmt) :
    trace (compact ss) = trace ss ∧ (compact ss).IsChain fun s t => ¬ s.Mergeable t :=
  ⟨trace_compact ss, isCompact_compact ss⟩

theorem compact_append_compact (xs ys : List Stmt) :
    compact (xs ++ ys) = compact (compact xs ++ compact ys) := by
  rw [compact_append, compact_append, (isCompact_compact ys).compact_eq, foldr_prepend_compact]

/-- The parts of a body may be compacted first, in whatever way it is split. -/
theorem compact_associative :
    (∀ xs ys, compact (xs ++ ys) = compact (compact xs ++ compact ys)) ∧
      (∀ ss, compact (compact ss) = compact ss) ∧
      ∀ parts : List (List Stmt), compact (parts.map compact).flatten = compact parts.flatten := by
  refine ⟨compact_append_compact, fun ss => (isCompact_compact ss).compact_eq, fun parts => ?_⟩
  induction parts with
  | nil => rfl
  | cons part parts ih =>
    rw [List.map_cons, List.flatten_cons, List.flatten_cons, compact_append_compact,
      (isCompact_compact part).compact_eq, ih, ← compact_append_compact]

end Thunk

end ScriptBundler
