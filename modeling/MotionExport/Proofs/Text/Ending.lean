import Mathlib.Data.List.Basic
import Mathlib.Data.List.DropRight
import MotionExport.Text.Basic

/-! # Last characters

How trimming and cutting treat a text that goes on with one more character. A character that is
neither blank nor the separator stays at the end of the last piece.
-/

namespace MotionExport

namespace Text

variable {c a : Char} {s t : Text}

theorem endsWith_iff : t.endsWith c = true ↔ ∃ s, t = s ++ [c] := by
  rw [endsWith, beq_iff_eq]
  constructor
  · intro h
    exact ⟨t.dropLast, (List.dropLast_append_getLast? c h).symm⟩
  · rintro ⟨s, rfl⟩
    exact List.getLast?_concat

theorem endsWith_append_of_ne_nil (h : t ≠ []) : (s ++ t).endsWith c = t.endsWith c := by
  rw [endsWith, endsWith, List.getLast?_append_of_ne_nil s h]

theorem not_endsWith_nil : endsWith [] c = false := rfl

@[simp] theorem endsWith_concat : (s ++ [c]).endsWith c = true := endsWith_iff.mpr ⟨s, rfl⟩

theorem dropEndWhile_concat {p : Char → Bool} (h : p c = false) :
    (t ++ [c]).dropEndWhile p = t ++ [c] := by
  simp [dropEndWhile, h]

theorem trimEnd_concat (h : isBlank c = false) : (t ++ [c]).trimEnd = t ++ [c] :=
  dropEndWhile_concat h

theorem trimStart_concat (h : isBlank c = false) :
    (t ++ [c]).trimStart = t.trimStart ++ [c] := by
  induction t with
  | nil => simp [trimStart, h]
  | cons d t ih =>
    simp only [trimStart, List.cons_append, List.dropWhile_cons] at ih ⊢
    split
    · exact ih
    · rfl

theorem trim_concat (h : isBlank c = false) : (t ++ [c]).trim = t.trimStart ++ [c] := by
  rw [trim, trimStart_concat h, trimEnd_concat h]

theorem exists_trimEnd_eq_concat (h : t.trimEnd ≠ []) :
    ∃ s c, t.trimEnd = s ++ [c] ∧ isBlank c = false := by
  rw [trimEnd, dropEndWhile] at h ⊢
  cases hd : t.reverse.dropWhile isBlank with
  | nil => simp [hd] at h
  | cons c s =>
    have hc := List.head?_dropWhile_not isBlank t.reverse
    rw [hd] at hc
    exact ⟨s.reverse, c, by simp, by simpa using hc⟩

/-- An ending of a trimmed text, once trimmed itself, has the same last character. -/
theorem endsWith_trim_of_append_eq_trim {u : Text} (h : s ++ t = u.trim) (ht : t ≠ []) :
    t.trim.endsWith c = u.trim.endsWith c := by
  have hne : u.trim ≠ [] := by
    rw [← h]
    exact List.append_ne_nil_of_right_ne_nil s ht
  obtain ⟨v, d, hv, hd⟩ := exists_trimEnd_eq_concat hne
  have hlast : t.getLast? = some d := by
    rw [← List.getLast?_append_of_ne_nil s ht, h, trim, hv, List.getLast?_concat]
  have hconcat : t.dropLast ++ [d] = t := List.dropLast_append_getLast? d hlast
  rw [← h, endsWith_append_of_ne_nil ht, ← hconcat, trim_concat hd,
    endsWith_append_of_ne_nil (List.cons_ne_nil d []),
    endsWith_append_of_ne_nil (List.cons_ne_nil d [])]

theorem trimEnd_trimEnd (t : Text) : t.trimEnd.trimEnd = t.trimEnd := by
  simp only [trimEnd, dropEndWhile, List.reverse_reverse, List.dropWhile_idempotent]

theorem isBlank_semicolon : isBlank ';' = false := by decide

/-- A character that is not the separator goes to what stands behind the first separator. -/
theorem splitOnce_concat (h : c ≠ a) :
    splitOnce [a] (t ++ [c]) = (splitOnce [a] t).map fun p => (p.1, p.2 ++ [c]) := by
  induction t with
  | nil => simp [splitOnce, after?, h.symm]
  | cons d t ih =>
    by_cases hd : a = d
    · simp [splitOnce, after?, hd]
    · simp [splitOnce, after?, hd, ih, Function.comp_def]

theorem splitOn_concat (h : c ≠ a) :
    ∃ pieces last, t.splitOn a = pieces ++ [last] ∧
      (t ++ [c]).splitOn a = pieces ++ [last ++ [c]] := by
  induction t with
  | nil => exact ⟨[], [], by simp [List.splitOn_cons_eq_if_modifyHead, h]⟩
  | cons d t ih =>
    obtain ⟨pieces, last, hs, hc⟩ := ih
    by_cases hd : d = a
    · refine ⟨[] :: pieces, last, ?_, ?_⟩ <;>
        simp [List.splitOn_cons_eq_if_modifyHead, hd, hs, hc]
    · cases pieces with
      | nil =>
        refine ⟨[], d :: last, ?_, ?_⟩ <;>
          simp [List.splitOn_cons_eq_if_modifyHead, hd, hs, hc]
      | cons p pieces =>
        refine ⟨(d :: p) :: pieces, last, ?_, ?_⟩ <;>
          simp [List.splitOn_cons_eq_if_modifyHead, hd, hs, hc]

end Text

end MotionExport
