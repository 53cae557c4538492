import Mathlib.Data.List.Infix
import MotionExport.Proofs.Text.Ending

/-! # Pieces of texts

What a text that was put together from pieces is cut into. The pieces come back when the first
of them does not hold what the text is cut at.
-/

namespace MotionExport

namespace Text

variable {a c : Char} {s t u : Text}

section Trimming

theorem trimStart_cons (h : isBlank c = false) : trimStart (c :: t) = c :: t :=
  List.dropWhile_cons_of_neg (by simp [h])

theorem trimEnd_prefix_self (t : Text) : t.trimEnd <+: t := by
  have h : t.reverse.dropWhile isBlank <:+ t.reverse := List.dropWhile_suffix isBlank
  rw [← List.reverse_prefix, List.reverse_reverse] at h
  exact h

theorem mem_of_mem_trim (h : c ∈ t.trim) : c ∈ t :=
  (List.dropWhile_suffix isBlank).subset (t.trimStart.trimEnd_prefix_self.subset h)

theorem mem_trim {c : Char} {t : Text} (h : c ∈ t) (hc : isBlank c = false) : c ∈ t.trim := by
  have hkept : ∀ {s : Text}, c ∈ s → c ∈ s.dropWhile isBlank := by
    intro s hs
    rw [← List.takeWhile_append_dropWhile (p := isBlank) (l := s), List.mem_append] at hs
    refine hs.resolve_left fun hblank => ?_
    exact Bool.false_ne_true (hc.symm.trans (List.mem_takeWhile_imp hblank))
  rw [trim, trimEnd, dropEndWhile, List.mem_reverse]
  exact hkept (List.mem_reverse.mpr (hkept h))

theorem exists_trim_eq_cons (h : t.trim ≠ []) : ∃ c s, t.trim = c :: s ∧ isBlank c = false := by
  obtain ⟨c, s, hs⟩ := List.exists_cons_of_ne_nil h
  obtain ⟨rest, hrest⟩ : t.trim <+: t.trimStart := t.trimStart.trimEnd_prefix_self
  have hc := List.head?_dropWhile_not isBlank t
  rw [← trimStart, ← hrest, hs, List.cons_append, List.head?_cons] at hc
  exact ⟨c, s, hs, by simpa using hc⟩

theorem exists_trim_cons_eq (h : isBlank c = false) : ∃ s, trim (c :: t) = c :: s := by
  have hne : trimEnd (c :: t) ≠ [] := by
    intro hnil
    have hblank := List.dropWhile_eq_nil_iff.mp (List.reverse_eq_nil_iff.mp hnil) c (by simp)
    rw [h] at hblank
    contradiction
  obtain ⟨rest, hrest⟩ := trimEnd_prefix_self (c :: t)
  obtain ⟨d, s, hs⟩ := List.exists_cons_of_ne_nil hne
  rw [hs, List.cons_append] at hrest
  obtain ⟨rfl, -⟩ := List.cons.inj hrest
  exact ⟨s, by rw [trim, trimStart_cons h, hs]⟩

theorem exists_trim_eq_concat (h : t.trim ≠ []) : ∃ s c, t.trim = s ++ [c] ∧ isBlank c = false :=
  exists_trimEnd_eq_concat h

theorem trim_trim (t : Text) : t.trim.trim = t.trim := by
  cases h : t.trim with
  | nil => rfl
  | cons c s =>
    obtain ⟨_, _, hcons, hc⟩ := exists_trim_eq_cons (h ▸ List.cons_ne_nil c s)
    obtain ⟨rfl, rfl⟩ := List.cons.inj (h.symm.trans hcons)
    rw [trim, trimStart_cons hc, ← h, trim, trimEnd_trimEnd]

theorem trim_eq_self (hfirst : ∀ c ∈ t.head?, isBlank c = false)
    (hlast : ∀ c ∈ t.getLast?, isBlank c = false) : t.trim = t := by
  cases t with
  | nil => rfl
  | cons a s =>
    rw [trim, trimStart_cons (hfirst a rfl),
      ← List.dropLast_append_getLast (List.cons_ne_nil a s)]
    exact trimEnd_concat (hlast _ (List.getLast?_eq_some_getLast (List.cons_ne_nil a s)))

/-- What is left of a beginning of a trimmed text is trimmed. -/
theorem trim_trimEnd_of_prefix (h : s <+: u.trim) : s.trimEnd.trim = s.trimEnd := by
  have hprefix : s.trimEnd <+: u.trim := (trimEnd_prefix_self s).trans h
  refine trim_eq_self (fun c hc => ?_) (fun c hc => ?_)
  · obtain ⟨t, ht⟩ := List.head?_eq_some_iff.mp hc
    obtain ⟨rest, hrest⟩ := hprefix
    rw [ht, List.cons_append] at hrest
    obtain ⟨_, _, hu, hblank⟩ := exists_trim_eq_cons (hrest ▸ List.cons_ne_nil c (t ++ rest))
    obtain ⟨rfl, -⟩ := List.cons.inj (hrest.trans hu)
    exact hblank
  · have hne : s.trimEnd ≠ [] := List.ne_nil_of_mem (List.mem_of_getLast? hc)
    obtain ⟨t, d, ht, hd⟩ := exists_trimEnd_eq_concat hne
    rw [ht, List.getLast?_concat] at hc
    cases hc
    exact hd

theorem trim_cons_blank (h : isBlank c = true) : trim (c :: t) = t.trim := by
  rw [trim, trimStart, List.dropWhile_cons_of_pos h, trim, trimStart]

theorem trimEnd_concat_blank (h : isBlank c = true) : (t ++ [c]).trimEnd = t.trimEnd := by
  simp [trimEnd, dropEndWhile, h]

theorem trim_concat_blank (h : isBlank c = true) : (t ++ [c]).trim = t.trim := by
  induction t with
  | nil => simp [trim, trimStart, h]
  | cons d t ih =>
    cases hd : isBlank d with
    | true => simpa [trim, trimStart, hd] using ih
    | false => rw [trim, trim, List.cons_append, trimStart_cons hd, trimStart_cons hd,
        ← List.cons_append, trimEnd_concat_blank h]

theorem trim_append_of_blank {before after : Text} (hbefore : ∀ c ∈ before, isBlank c = true)
    (hafter : ∀ c ∈ after, isBlank c = true) (t : Text) : (before ++ t ++ after).trim = t.trim := by
  have hfront : (before ++ t).trim = t.trim := by
    induction before with
    | nil => rfl
    | cons c before ih =>
      obtain ⟨hc, hbefore⟩ := List.forall_mem_cons.mp hbefore
      rw [List.cons_append, trim_cons_blank hc, ih hbefore]
  rw [← hfront]
  induction after using List.reverseRecOn with
  | nil => rw [List.append_nil]
  | append_singleton after c ih =>
    obtain ⟨hafter, hc⟩ := List.forall_mem_append.mp hafter
    rw [← List.append_assoc, trim_concat_blank (hc c List.mem_cons_self), ih hafter]

theorem dropEndWhile_append {p : Char → Bool} (h : ∀ c ∈ s.getLast?, p c = false) (t : Text) :
    (s ++ t).dropEndWhile p = s ++ t.dropEndWhile p := by
  have hs : s.reverse.dropWhile p = s.reverse := by
    rcases List.eq_nil_or_concat' s with rfl | ⟨s, c, rfl⟩
    · rfl
    · have hc : p c = false := h c List.getLast?_concat
      rw [List.reverse_concat, List.dropWhile_cons_of_neg (by simp [hc])]
  unfold dropEndWhile
  rw [List.reverse_append, List.dropWhile_append, hs]
  split
  · rename_i hempty
    rw [List.isEmpty_iff.mp hempty]
    simp
  · simp

theorem trimEnd_append_cons (h : isBlank c = false) (s t : Text) :
    (s ++ c :: t).trimEnd = s ++ c :: t.trimEnd := by
  have hlast := dropEndWhile_append (p := isBlank) (s := s ++ [c]) (by simpa using h) t
  simpa [trimEnd] using hlast

theorem trim_append_cons (h : isBlank c = false) (s t : Text) :
    (s ++ c :: t).trim = s.trimStart ++ c :: t.trimEnd := by
  have hstart : (s ++ c :: t).trimStart = s.trimStart ++ c :: t := by
    simp [trimStart, List.dropWhile_append, h]
  rw [trim, hstart, trimEnd_append_cons h]

theorem trim_trimStart (t : Text) : t.trimStart.trim = t.trim := by
  unfold trim trimStart
  rw [List.dropWhile_idempotent]

theorem exists_eq_append_trim (t : Text) : ∃ before after : Text,
    (∀ c ∈ before, isBlank c = true) ∧ (∀ c ∈ after, isBlank c = true) ∧
      t = before ++ t.trim ++ after := by
  refine ⟨t.takeWhile isBlank, (t.trimStart.reverse.takeWhile isBlank).reverse, ?_, ?_, ?_⟩
  · exact fun c hc => List.mem_takeWhile_imp hc
  · exact fun c hc => List.mem_takeWhile_imp (List.mem_reverse.mp hc)
  · have hend : t.trim ++ (t.trimStart.reverse.takeWhile isBlank).reverse = t.trimStart := by
      unfold trim trimEnd dropEndWhile
      rw [← List.reverse_append, List.takeWhile_append_dropWhile, List.reverse_reverse]
    rw [List.append_assoc, hend]
    exact List.takeWhile_append_dropWhile.symm

theorem trimEnd_of_blank (h : ∀ c ∈ t, isBlank c = true) : t.trimEnd = [] := by
  unfold trimEnd dropEndWhile
  rw [List.reverse_eq_nil_iff, List.dropWhile_eq_nil_iff]
  simpa using h

theorem exists_trimEnd_eq_append (t : Text) :
    ∃ before : Text, (∀ c ∈ before, isBlank c = true) ∧ t.trimEnd = before ++ t.trim := by
  obtain ⟨before, after, hbefore, hafter, ht⟩ := exists_eq_append_trim t
  by_cases h : t.trim = []
  · have hblank : ∀ c ∈ t, isBlank c = true := by
      rw [ht, h, List.append_nil]
      exact List.forall_mem_append.mpr ⟨hbefore, hafter⟩
    exact ⟨[], by simp, by rw [trimEnd_of_blank hblank, h, List.append_nil]⟩
  · obtain ⟨s, c, hs, hc⟩ := exists_trim_eq_concat h
    refine ⟨before, hbefore, ?_⟩
    have hsplit : t = (before ++ s) ++ c :: after := by
      rw [ht, hs]
      simp
    calc t.trimEnd = (before ++ s) ++ c :: after.trimEnd := by
          rw [congrArg trimEnd hsplit, trimEnd_append_cons hc]
      _ = before ++ t.trim := by simp [trimEnd_of_blank hafter, hs]

theorem trim_append_left {before : Text} (h : ∀ c ∈ before, isBlank c = true) (t : Text) :
    (before ++ t).trim = t.trim := by
  have hboth := trim_append_of_blank h (fun c (hc : c ∈ []) => absurd hc List.not_mem_nil) t
  rwa [List.append_nil] at hboth

theorem trim_append_right {after : Text} (h : ∀ c ∈ after, isBlank c = true) (t : Text) :
    (t ++ after).trim = t.trim :=
  trim_append_of_blank (fun c (hc : c ∈ []) => absurd hc List.not_mem_nil) h t

theorem trim_trimEnd (t : Text) : t.trimEnd.trim = t.trim := by
  obtain ⟨before, hbefore, hend⟩ := exists_trimEnd_eq_append t
  rw [hend, trim_append_left hbefore, trim_trim]

end Trimming

section Cutting

theorem splitOnce_append (h : a ∉ s) (separator t : Text) :
    splitOnce (a :: separator) (s ++ (a :: separator) ++ t) = some (s, t) := by
  induction s with
  | nil =>
    have hafter : after? (a :: separator) (a :: separator ++ t) = some t :=
      after?_eq_some_iff.mpr rfl
    simp only [List.nil_append, List.cons_append, splitOnce] at hafter ⊢
    rw [hafter]
  | cons d s ih =>
    obtain ⟨hd, hs⟩ := List.ne_and_not_mem_of_not_mem_cons h
    have hafter : after? (a :: separator) (d :: (s ++ (a :: separator) ++ t)) = none := if_neg hd
    rw [List.cons_append, List.cons_append, splitOnce, hafter, ih hs]
    rfl

theorem splitOnce_eq_none (h : a ∉ t) (separator : Text) :
    splitOnce (a :: separator) t = none := by
  induction t with
  | nil => rfl
  | cons d t ih =>
    obtain ⟨hd, ht⟩ := List.ne_and_not_mem_of_not_mem_cons h
    have hafter : after? (a :: separator) (d :: t) = none := if_neg hd
    rw [splitOnce, hafter, ih ht]
    rfl

theorem not_mem_of_splitOnce (h : splitOnce [a] t = some (s, u)) : a ∉ s := by
  induction t generalizing s with
  | nil => cases h
  | cons d t ih =>
    by_cases hd : a = d
    · obtain ⟨rfl, -⟩ : [] = s ∧ t = u := by simpa [splitOnce, after?, hd] using h
      exact List.not_mem_nil
    · obtain ⟨before, hbefore, rfl⟩ : ∃ before, splitOnce [a] t = some (before, u) ∧
          d :: before = s := by
        simpa [splitOnce, after?, hd, Option.map_eq_some_iff] using h
      exact List.not_mem_cons_of_ne_of_not_mem hd (ih hbefore)

end Cutting

section Words

/-- A text without blanks that is not empty. -/
def IsWord (t : Text) : Prop := t ≠ [] ∧ ∀ c ∈ t, isBlank c = false

instance (t : Text) : Decidable t.IsWord :=
  decidable_of_iff (t ≠ [] ∧ t.all (fun c => !isBlank c) = true) (by simp [IsWord])

theorem isWord_of_mem_words {w : Text} (h : w ∈ t.words) : w.IsWord := by
  induction t generalizing w with
  | nil => cases h
  | cons c t ih =>
    unfold words at h
    split at h
    · exact ih h
    · rename_i hblank
      have hc : isBlank c = false := Bool.eq_false_iff.mpr hblank
      have hsingle : IsWord [c] := ⟨List.cons_ne_nil c [], by simp [hc]⟩
      split at h
      · exact List.mem_singleton.mp h ▸ hsingle
      · exact List.mem_singleton.mp h ▸ hsingle
      · rename_i d t first rest hwords
        split at h
        · rcases List.mem_cons.mp h with rfl | h
          · exact hsingle
          · exact ih (hwords ▸ h)
        · have hfirst : first.IsWord := ih (hwords ▸ List.mem_cons_self)
          rcases List.mem_cons.mp h with rfl | h
          · exact ⟨List.cons_ne_nil c first, List.forall_mem_cons.mpr ⟨hc, hfirst.2⟩⟩
          · exact ih (hwords ▸ List.mem_cons_of_mem first h)

theorem exists_words_cons (h : isBlank c = false) (t : Text) :
    ∃ w ws, words (c :: t) = (c :: w) :: ws := by
  unfold words
  rw [if_neg (by simp [h])]
  split
  · exact ⟨_, _, rfl⟩
  · exact ⟨_, _, rfl⟩
  · split
    · exact ⟨_, _, rfl⟩
    · exact ⟨_, _, rfl⟩

theorem IsWord.trim (h : t.IsWord) : t.trim = t :=
  trim_eq_self (fun c hc => h.2 c (List.mem_of_mem_head? hc))
    fun c hc => h.2 c (List.mem_of_getLast? hc)

theorem words_eq_nil (h : t.trim = []) : t.words = [] := by
  induction t with
  | nil => rfl
  | cons c t ih =>
    cases hc : isBlank c with
    | true =>
      rw [trim_cons_blank hc] at h
      unfold words
      rw [if_pos hc]
      exact ih h
    | false =>
      obtain ⟨s, hs⟩ := exists_trim_cons_eq (t := t) hc
      rw [hs] at h
      contradiction

/-- What stands between two words may be anything. -/
theorem IsWord.trim_append (hs : s.IsWord) (ht : t.IsWord) (middle : Text) :
    Text.trim (s ++ middle ++ t) = s ++ middle ++ t := by
  refine trim_eq_self (fun c hc => ?_) (fun c hc => ?_)
  · rw [List.append_assoc, List.head?_append_of_ne_nil s hs.1] at hc
    exact hs.2 c (List.mem_of_mem_head? hc)
  · rw [List.getLast?_append_of_ne_nil _ ht.1] at hc
    exact ht.2 c (List.mem_of_getLast? hc)

theorem IsWord.not_mem (h : t.IsWord) (hc : isBlank c = true) : c ∉ t := by
  intro hmem
  rw [h.2 c hmem] at hc
  contradiction

end Words

section Lines

theorem exists_lines_append (h : '\n' ∉ s) (t : Text) :
    ∃ line, (s ++ '\n' :: t).lines = line :: t.lines ∧ (line = s ∨ line ++ ['\r'] = s) := by
  induction s with
  | nil => exact ⟨[], by rw [List.nil_append, lines], .inl rfl⟩
  | cons c s ih =>
    obtain ⟨hc, hs⟩ := List.ne_and_not_mem_of_not_mem_cons h
    by_cases hbreak : c = '\r' ∧ s = []
    · obtain ⟨rfl, rfl⟩ := hbreak
      exact ⟨[], by rw [List.cons_append, List.nil_append, lines], .inr rfl⟩
    · obtain ⟨line, hlines, hline⟩ := ih hs
      refine ⟨c :: line, ?_, hline.imp (congrArg _) (congrArg _)⟩
      rw [List.cons_append, lines, hlines]
      · exact fun h => hc h.symm
      · rintro rest rfl hrest
        cases s with
        | nil => exact hbreak ⟨rfl, rfl⟩
        | cons d s =>
          obtain ⟨rfl, -⟩ := List.cons.inj hrest
          exact hs List.mem_cons_self

def trimmedLines (t : Text) : List Text := t.lines.map trim

theorem trimmedLines_append (h : '\n' ∉ s) (t : Text) :
    (s ++ '\n' :: t).trimmedLines = s.trim :: t.trimmedLines := by
  obtain ⟨line, hlines, hline⟩ := exists_lines_append h t
  have htrim : line.trim = s.trim := by
    rcases hline with rfl | rfl
    · rfl
    · exact (trim_concat_blank (by decide)).symm
  rw [trimmedLines, hlines, List.map_cons, htrim, trimmedLines]

theorem trimmedLines_flatMap {ls : List Text} (h : ∀ l ∈ ls, '\n' ∉ l) (t : Text) :
    trimmedLines (ls.flatMap (· ++ ['\n']) ++ t) = ls.map trim ++ t.trimmedLines := by
  induction ls with
  | nil => rfl
  | cons l ls ih =>
    obtain ⟨hl, hls⟩ := List.forall_mem_cons.mp h
    rw [List.flatMap_cons, List.append_assoc, List.append_assoc, List.singleton_append,
      trimmedLines_append hl, ih hls, List.map_cons, List.cons_append]

end Lines

section Joining

theorem not_mem_intercalate {pieces : List Text} (hc : c ≠ a) (h : ∀ piece ∈ pieces, c ∉ piece) :
    c ∉ [a].intercalate pieces := by
  induction pieces with
  | nil => exact List.not_mem_nil
  | cons piece pieces ih =>
    obtain ⟨hpiece, hpieces⟩ := List.forall_mem_cons.mp h
    cases pieces with
    | nil => simpa using hpiece
    | cons next pieces =>
      rw [List.intercalate_cons_cons, List.mem_append, List.mem_append, List.mem_singleton]
      exact not_or.mpr ⟨not_or.mpr ⟨hpiece, hc⟩, ih hpieces⟩

variable {α β : Type} {f g : α → List β} {l : List α}

theorem flatMap_sublist_flatMap (h : ∀ a ∈ l, (f a).Sublist (g a)) :
    (l.flatMap f).Sublist (l.flatMap g) := by
  induction l with
  | nil => exact List.Sublist.slnil
  | cons a l ih =>
    obtain ⟨ha, hl⟩ := List.forall_mem_cons.mp h
    exact ha.append (ih hl)

theorem flatMap_eq_flatMap_iff (h : ∀ a ∈ l, (f a).Sublist (g a)) :
    l.flatMap f = l.flatMap g ↔ ∀ a ∈ l, f a = g a := by
  induction l with
  | nil => simp
  | cons a l ih =>
    obtain ⟨ha, hl⟩ := List.forall_mem_cons.mp h
    rw [List.forall_mem_cons, ← ih hl, List.flatMap_cons, List.flatMap_cons]
    constructor
    · intro heq
      have hlength := congrArg List.length heq
      rw [List.length_append, List.length_append] at hlength
      have hle := (flatMap_sublist_flatMap hl).length_le
      have hfirst : f a = g a := ha.eq_of_length_le (by omega)
      rw [hfirst] at heq
      exact ⟨hfirst, List.append_cancel_left heq⟩
    · rintro ⟨hfirst, hrest⟩
      rw [hfirst, hrest]

end Joining

end Text

end MotionExport
