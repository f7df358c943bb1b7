import Mathlib.Data.List.Basic
import ScriptBundler.Url

namespace ScriptBundler.Url

variable {cs : List Char} {base specifier url : String}

theorem head?_dirChars (h : cs.head? = some '/') : (dirChars cs).head? = some '/' := by
  obtain ⟨cs, rfl⟩ := List.head?_eq_some_iff.1 h
  rw [dirChars, List.reverse_cons, List.dropWhile_append]
  split <;> simp

theorem head?_withSlashes (h : cs.head? = some '/') : (withSlashes cs).head? = some '/' := by
  rw [withSlashes, List.head?_map, h]
  rfl

theorem head?_normalChars (h : cs.head? = some '/') : (normalChars cs).head? = some '/' := by
  simp only [normalChars, h, decide_true, ↓reduceIte, List.head?_cons]

theorem resolve_of_isAbsolute (h : isAbsolute specifier = true) :
    resolve base specifier = specifier := if_pos h

theorem isAbsolute_resolve (hb : isAbsolute base = true) (specifier : String) :
    isAbsolute (resolve base specifier) = true := by
  rw [resolve]
  split
  · assumption
  · have hdir : (dirChars base.toList).head? = some '/' := head?_dirChars (of_decide_eq_true hb)
    have hpath : (dirChars base.toList ++ specifier.toList).head? = some '/' := by
      rw [List.head?_append, hdir]
      rfl
    rw [isAbsolute, String.toList_ofList]
    exact decide_eq_true (head?_withSlashes (head?_normalChars hpath))

/-- In a module at an absolute url, what a specifier stands for stands for itself. -/
theorem resolve_resolve (hb : isAbsolute base = true) (specifier : String) :
    resolve base (resolve base specifier) = resolve base specifier :=
  resolve_of_isAbsolute (isAbsolute_resolve hb specifier)

theorem isAbsolute_trimEnd (hb : isAbsolute base = true) :
    isAbsolute (String.ofList (trimEnd base.toList ++ ['/'])) = true := by
  obtain ⟨cs, hcs⟩ := List.head?_eq_some_iff.1 (of_decide_eq_true hb)
  rw [isAbsolute, String.toList_ofList, hcs, trimEnd, List.reverse_cons, List.dropWhile_append]
  split <;> simp

theorem isAbsolute_resolveEntry (hb : isAbsolute base = true) (entry : String) :
    isAbsolute (resolveEntry base entry) = true :=
  isAbsolute_resolve (isAbsolute_trimEnd hb) entry

end ScriptBundler.Url
