import Mathlib.Data.List.Nodup
import ScriptBundler.Options.Basic

namespace ScriptBundler

variable {α : Type} [DecidableEq α] {a : α} {l l' : List α}

theorem mem_distinct : a ∈ distinct l ↔ a ∈ l := by
  induction l with
  | nil => rfl
  | cons b l ih =>
    simp only [distinct, List.mem_cons, List.mem_filter, ih, ne_eq, decide_eq_true_eq]
    by_cases h : a = b
    · simp only [h, true_or]
    · simp only [h, false_or, not_false_eq_true, and_true]

theorem nodup_distinct (l : List α) : (distinct l).Nodup := by
  induction l with
  | nil => exact List.nodup_nil
  | cons b l ih =>
    refine List.nodup_cons.2 ⟨fun h => ?_, ih.filter _⟩
    have := (List.mem_filter.1 h).2
    simp only [ne_eq, not_true_eq_false, decide_false, Bool.false_eq_true] at this

theorem distinct_of_nodup (h : l.Nodup) : distinct l = l := by
  induction l with
  | nil => rfl
  | cons b l ih =>
    obtain ⟨hb, hl⟩ := List.nodup_cons.1 h
    rw [distinct, ih hl, List.filter_eq_self.2]
    intro a ha
    simpa only [ne_eq, decide_eq_true_eq] using fun he : a = b => hb (he ▸ ha)

theorem distinct_concat (l : List α) (a : α) :
    distinct (l ++ [a]) = if a ∈ l then distinct l else distinct l ++ [a] := by
  induction l with
  | nil => simp only [List.nil_append, distinct, List.filter_nil, List.not_mem_nil, ↓reduceIte]
  | cons b l ih =>
    simp only [List.cons_append, distinct, ih, List.mem_cons]
    by_cases hl : a ∈ l
    · simp only [hl, or_true, ↓reduceIte]
    · by_cases hb : a = b
      · simp only [hb, ↓reduceIte, true_or]
        split
        · rfl
        · simp only [List.filter_append, ne_eq, List.filter_cons, not_true_eq_false, decide_false,
            Bool.false_eq_true, ↓reduceIte, List.filter_nil, List.append_nil]
      · simp only [hl, hb, or_self, ↓reduceIte, List.filter_append, ne_eq, List.filter_cons,
          not_false_eq_true, decide_true, List.filter_nil]

end ScriptBundler
