import Mathlib.Data.List.Basic
import MotionExport.Proofs.Code.BodyLines
import MotionExport.Proofs.Export.MissingOutputs
import MotionExport.Proofs.Text.Pieces

/-! # Local arrays

An equation for an element of an array needs the array in front of all statements. Each array that a
block assigns elements of is declared once, one longer than the largest index of an assigned
element, whatever the order of the indices. Whether an element is one of a local array is told by
the name of the array alone.
-/

namespace MotionExport

open Expression

section Elements

variable {lhs base name : Text} {i : Nat}

theorem not_mem_of_count? {t : Text} (h : count? t = some i) : '[' ∉ t := by
  have hdigits : ∀ {s : Text}, natural? s = some i → '[' ∉ s := by
    intro s hs hmem
    obtain ⟨⟨-, hall⟩, -⟩ := Option.ite_none_right_eq_some.mp hs
    exact absurd (List.all_eq_true.mp hall _ hmem) (by decide)
  unfold count? at h
  split at h
  · refine List.not_mem_cons_of_ne_of_not_mem (by decide) (hdigits ?_)
    exact (Option.filter_eq_some_iff.mp h).1
  · exact hdigits (Option.filter_eq_some_iff.mp h).1

theorem exists_inside_of_elementTarget? (h : elementTarget? lhs = some (base, i)) :
    ∃ inside, base ++ '[' :: inside = lhs ∧ '[' ∉ base ∧ '[' ∉ inside := by
  obtain ⟨⟨before, rest⟩, hsplit, h⟩ := Option.bind_eq_some_iff.mp h
  obtain ⟨inside, hinside, h⟩ := Option.bind_eq_some_iff.mp h
  obtain ⟨index, hindex, h⟩ := Option.bind_eq_some_iff.mp h
  obtain ⟨-, heq⟩ := Option.ite_none_right_eq_some.mp h
  obtain ⟨rfl, rfl⟩ : before = base ∧ index = i := by simpa using heq
  obtain rfl : inside ++ [']'] = rest := Text.before?_eq_some_iff.mp hinside
  have hlhs := Text.append_of_splitOnce hsplit
  rw [List.append_assoc, List.singleton_append] at hlhs
  refine ⟨inside ++ [']'], hlhs, Text.not_mem_of_splitOnce hsplit, ?_⟩
  have hopen : '[' ∉ inside := fun hmem =>
    not_mem_of_count? hindex (Text.mem_trim hmem (by decide))
  simpa using hopen

/-- The target starts with a name and a bracket if and only if the name is its base. -/
theorem startsWith_elementTarget (h : elementTarget? lhs = some (base, i)) :
    lhs.startsWith (name ++ ['[']) = true ↔ name = base := by
  obtain ⟨inside, rfl, hbase, hinside⟩ := exists_inside_of_elementTarget? h
  rw [Text.startsWith, List.isPrefixOf_iff_prefix]
  constructor
  · rintro ⟨rest, hrest⟩
    rw [List.append_assoc, List.singleton_append] at hrest
    exact ((List.append_cons_inj_of_notMem hbase hinside).mp hrest.symm).1.symm
  · rintro rfl
    exact ⟨inside, by rw [List.append_assoc, List.singleton_append]⟩

end Elements

namespace Code.Context

variable {arrays elements : List (Text × Nat)} {name base : Text} {i n m : Nat}

theorem map_fst_growArray (name : Text) (m : Nat) (arrays : List (Text × Nat)) :
    (growArray name m arrays).map Prod.fst =
      if name ∈ arrays.map Prod.fst then arrays.map Prod.fst
      else arrays.map Prod.fst ++ [name] := by
  induction arrays with
  | nil => rfl
  | cons entry arrays ih =>
    obtain ⟨other, n⟩ := entry
    rw [growArray]
    by_cases h : other = name
    · simp [h]
    · simp only [h, if_false, List.map_cons, ih, List.mem_cons, Ne.symm h, false_or]
      split
      · rfl
      · rfl

theorem mem_growArray (hnodup : (arrays.map Prod.fst).Nodup)
    (h : (base, n) ∈ growArray name m arrays) :
    base ≠ name ∧ (base, n) ∈ arrays ∨ base = name ∧
      ((∃ k, (name, k) ∈ arrays ∧ n = max k m) ∨ name ∉ arrays.map Prod.fst ∧ n = m) := by
  induction arrays with
  | nil =>
    obtain ⟨rfl, rfl⟩ : base = name ∧ n = m := by simpa [growArray] using h
    exact .inr ⟨rfl, .inr ⟨List.not_mem_nil, rfl⟩⟩
  | cons entry arrays ih =>
    obtain ⟨other, k⟩ := entry
    obtain ⟨hother, hrest⟩ := List.nodup_cons.mp hnodup
    rw [growArray] at h
    split at h
    · rename_i heq
      subst heq
      rcases List.mem_cons.mp h with heq | hmem
      · cases heq
        exact .inr ⟨rfl, .inl ⟨k, List.mem_cons_self, rfl⟩⟩
      · refine .inl ⟨?_, List.mem_cons_of_mem _ hmem⟩
        rintro rfl
        exact hother (List.mem_map.mpr ⟨_, hmem, rfl⟩)
    · rename_i hne
      rcases List.mem_cons.mp h with heq | hmem
      · cases heq
        exact .inl ⟨hne, List.mem_cons_self⟩
      · rcases ih hrest hmem with ⟨hbase, hkept⟩ | ⟨hbase, ⟨k', hk, hn⟩ | ⟨hnew, hn⟩⟩
        · exact .inl ⟨hbase, List.mem_cons_of_mem _ hkept⟩
        · exact .inr ⟨hbase, .inl ⟨k', List.mem_cons_of_mem _ hk, hn⟩⟩
        · refine .inr ⟨hbase, .inr ⟨?_, hn⟩⟩
          simp only [List.map_cons, List.mem_cons, not_or]
          exact ⟨Ne.symm hne, hnew⟩

/-- The arrays are those of the elements, in the order of their first use, and each ends with the
largest index. -/
structure Covers (elements arrays : List (Text × Nat)) : Prop where
  names : arrays.map Prod.fst = (elements.map Prod.fst).eraseDups
  length : ∀ base n, (base, n) ∈ arrays → ∃ largest, n = largest + 1 ∧
    (base, largest) ∈ elements ∧ ∀ j, (base, j) ∈ elements → j ≤ largest

theorem nodup_eraseDups (names : List Text) : names.eraseDups.Nodup :=
  (ListsOnce.eraseDups names).ordered.imp fun hlt heq => by
    rw [heq] at hlt
    exact absurd hlt (Nat.lt_irrefl _)

theorem Covers.concat (h : Covers elements arrays) (name : Text) (i : Nat) :
    Covers (elements ++ [(name, i)]) (growArray name (i + 1) arrays) where
  names := by
    rw [map_fst_growArray, h.names, List.map_append, List.map_singleton, List.eraseDups_append]
    by_cases hname : name ∈ elements.map Prod.fst
    · have hnone : [name].removeAll (elements.map Prod.fst) = [] := by
        simp [List.removeAll, hname]
      rw [if_pos (List.mem_eraseDups.mpr hname), hnone, List.eraseDups_nil, List.append_nil]
    · have hone : [name].removeAll (elements.map Prod.fst) = [name] := by
        simp [List.removeAll, hname]
      rw [if_neg (mt List.mem_eraseDups.mp hname), hone]
      rfl
  length base n hmem := by
    have hnodup : (arrays.map Prod.fst).Nodup := by
      rw [h.names]
      exact nodup_eraseDups _
    simp only [List.mem_append, List.mem_singleton, Prod.mk.injEq]
    rcases mem_growArray hnodup hmem with ⟨hbase, hkept⟩ | ⟨rfl, ⟨k, hk, rfl⟩ | ⟨hnew, rfl⟩⟩
    · obtain ⟨largest, rfl, hlargest, hle⟩ := h.length base n hkept
      refine ⟨largest, rfl, .inl hlargest, ?_⟩
      rintro j (hj | ⟨rfl, -⟩)
      · exact hle j hj
      · exact absurd rfl hbase
    · obtain ⟨largest, rfl, hlargest, hle⟩ := h.length base k hk
      refine ⟨max largest i, by omega, ?_, ?_⟩
      · rcases Nat.le_total largest i with hi | hi
        · exact .inr ⟨rfl, by omega⟩
        · exact .inl (by rwa [Nat.max_eq_left hi])
      · rintro j (hj | ⟨-, rfl⟩)
        · exact Nat.le_trans (hle j hj) (Nat.le_max_left ..)
        · exact Nat.le_max_right ..
    · refine ⟨i, rfl, .inr ⟨rfl, rfl⟩, ?_⟩
      rintro j (hj | ⟨-, rfl⟩)
      · refine absurd ?_ hnew
        rw [h.names, List.mem_eraseDups]
        exact List.mem_map.mpr ⟨_, hj, rfl⟩
      · exact Nat.le_refl _

theorem covers_foldl (elements : List (Text × Nat)) : Covers elements
    (elements.foldl (fun arrays (name, index) => growArray name (index + 1) arrays) []) := by
  induction elements using List.reverseRecOn with
  | nil => exact ⟨rfl, nofun⟩
  | append_singleton elements last ih =>
    rw [List.foldl_append]
    exact ih.concat last.1 last.2

variable {c : Context} {e : Equation} {es : List Equation}

/-- Whether an equation for an element is one for a local array, is told by the base alone. -/
theorem localElement?_of_target (h : elementTarget? e.lhs = some (base, i)) :
    c.localElement? e = if base = ['z'] ∨ base ∈ c.matrixNames then none else some (base, i) := by
  have hstarts : e.lhs.startsWith (['z'] ++ ['[']) = true ↔ ['z'] = base :=
    startsWith_elementTarget h
  have hauxiliary : e.isAuxiliary = true ↔ base = ['z'] := hstarts.trans eq_comm
  have hmatrix : c.isMatrixEntry e = true ↔ base ∈ c.matrixNames := by
    rw [isMatrixEntry, indexedMatrix?, List.find?_isSome]
    simp only [startsWith_elementTarget h, exists_eq_right]
  rw [localElement?, h]
  simp only [Bool.or_eq_true, hauxiliary, hmatrix]

theorem filter_fst_eq_singleton (hnodup : (arrays.map Prod.fst).Nodup) (h : (base, n) ∈ arrays) :
    arrays.filter (·.1 = base) = [(base, n)] := by
  induction arrays with
  | nil => cases h
  | cons entry arrays ih =>
    obtain ⟨hother, hrest⟩ := List.nodup_cons.mp hnodup
    rcases List.mem_cons.mp h with rfl | h
    · rw [List.filter_cons_of_pos (by simp), List.filter_eq_nil_iff.mpr]
      intro other hmem hbase
      obtain rfl : other.1 = base := by simpa using hbase
      exact hother (List.mem_map.mpr ⟨other, hmem, rfl⟩)
    · rw [List.filter_cons_of_neg, ih hrest h]
      intro hbase
      obtain rfl : entry.1 = base := by simpa using hbase
      exact hother (List.mem_map.mpr ⟨_, h, rfl⟩)

/-- The declarations in front of a block are those of its local arrays. -/
structure DeclaresArrays (c : Context) (kind : BlockKind) (es : List Equation)
    (declared : List (Text × Nat)) : Prop where
  /-- The lines of the block are the declarations, then the statements. -/
  block_eq : c.block kind es = ['\n'].intercalate
    (declared.map (fun (base, length) => declarationLine c.language base length) ++
      es.flatMap fun e => (c.statement kind e).map (List.replicate 8 ' ' ++ ·))
  /-- The arrays are those of which elements are assigned, in the order of their first use. -/
  order : ListsOnce ((es.filterMap c.localElement?).map Prod.fst) (fun _ => True)
    (declared.map Prod.fst)
  /-- An array has one declaration, which ends with the largest index that any equation of the block
  has in it. -/
  length : ∀ e ∈ es, ∀ base i, elementTarget? e.lhs = some (base, i) → e.isAuxiliary = false →
    c.isMatrixEntry e = false → ∃ largest, declared.filter (·.1 = base) = [(base, largest + 1)] ∧
      i ≤ largest ∧ largest + 1 < Nat.pow 2 64 ∧
      (∃ e' ∈ es, elementTarget? e'.lhs = some (base, largest)) ∧
      ∀ e' ∈ es, ∀ j, elementTarget? e'.lhs = some (base, j) → j ≤ largest
  /-- Such an equation has one line, which assigns the element. -/
  assigned : ∀ e ∈ es, ∀ base i, elementTarget? e.lhs = some (base, i) → e.isAuxiliary = false →
    c.isMatrixEntry e = false → (c.statement kind e).map (List.replicate 8 ' ' ++ ·) =
      [assignmentLine c.language e.lhs (c.expression kind e)]

/-- The declared arrays of a block are large enough for all indices that are assigned, provided that
these have a successor below `2^64`. -/
theorem declares_localArrays (c : Context) (kind : BlockKind) {es : List Equation}
    (h : ∀ e ∈ es, ∀ base i, elementTarget? e.lhs = some (base, i) → i + 1 < Nat.pow 2 64) :
    DeclaresArrays c kind es (c.localArrays es) where
  block_eq := Code.block_eq c kind es
  order := by
    rw [localArrays, (covers_foldl _).names]
    exact ListsOnce.eraseDups _
  length e he base i ht ha hm := by
    have hcovers : Covers (es.filterMap c.localElement?) (c.localArrays es) := covers_foldl _
    have hnodup : ((c.localArrays es).map Prod.fst).Nodup := by
      rw [hcovers.names]
      exact nodup_eraseDups _
    have hlocal : c.localElement? e = some (base, i) := by
      rw [localElement?, ha, hm, Bool.or_false, if_neg Bool.false_ne_true, ht]
    -- All elements of an array with this base are local ones.
    have hbase : ¬ (base = ['z'] ∨ base ∈ c.matrixNames) := by
      intro hb
      rw [localElement?_of_target ht, if_pos hb] at hlocal
      cases hlocal
    have hmem : ∀ {j : Nat}, (base, j) ∈ es.filterMap c.localElement? ↔
        ∃ e' ∈ es, elementTarget? e'.lhs = some (base, j) := by
      intro j
      rw [List.mem_filterMap]
      refine exists_congr fun e' => and_congr_right fun _ => ⟨fun hj => ?_, fun hj => ?_⟩
      · rw [localElement?, Option.ite_none_left_eq_some] at hj
        exact hj.2
      · rw [localElement?_of_target hj, if_neg hbase]
    have hdeclared : base ∈ (c.localArrays es).map Prod.fst := by
      rw [hcovers.names, List.mem_eraseDups]
      exact List.mem_map.mpr ⟨_, hmem.mpr ⟨e, he, ht⟩, rfl⟩
    obtain ⟨⟨_, n⟩, hn, rfl⟩ := List.mem_map.mp hdeclared
    obtain ⟨largest, rfl, hlargest, hle⟩ := hcovers.length _ n hn
    obtain ⟨e', he', hassigned⟩ := hmem.mp hlargest
    exact ⟨largest, filter_fst_eq_singleton hnodup hn, hle i (hmem.mpr ⟨e, he, ht⟩),
      h e' he' _ largest hassigned, ⟨e', he', hassigned⟩,
      fun e' he' j hj => hle j (hmem.mpr ⟨e', he', hj⟩)⟩
  assigned e he base i ht ha hm := by
    have hstatement : c.statement kind e = [c.language.assignment e.lhs (c.expression kind e)] := by
      simp [statement, ha, hm, ht]
    rw [hstatement, List.map_singleton, indent_assignment]

def encodedOutputs : List Equation :=
  [⟨"Encode[2]".toList, "k".toList⟩, ⟨"z[7]".toList, "2*k".toList⟩,
    ⟨"Encode[0]".toList, "z[7]".toList⟩, ⟨"C[0][1]".toList, "k".toList⟩]

theorem encodedOutputs_declares : (∀ e ∈ encodedOutputs, ∀ base i,
      elementTarget? e.lhs = some (base, i) → i + 1 < Nat.pow 2 64) ∧
    block ⟨.rust, defaultMatrixNames, []⟩ .linear encodedOutputs = ['\n'].intercalate
      ["        let mut Encode = vec![0.0; 3];".toList, "        Encode[2] = k;".toList,
        "        self.z[7] = 2.0*k;".toList, "        Encode[0] = self.z[7];".toList,
        "        linear.c[0][1] = k;".toList] ∧
    DeclaresArrays ⟨.rust, defaultMatrixNames, []⟩ .linear encodedOutputs
      [("Encode".toList, 3)] := by
  have h : ∀ e ∈ encodedOutputs, ∀ base i,
      elementTarget? e.lhs = some (base, i) → i + 1 < Nat.pow 2 64 := by
    have hnone : elementTarget? "C[0][1]".toList = none := by decide +kernel
    have hsome : elementTarget? "Encode[2]".toList = some ("Encode".toList, 2) ∧
        elementTarget? "z[7]".toList = some ("z".toList, 7) ∧
        elementTarget? "Encode[0]".toList = some ("Encode".toList, 0) := by decide +kernel
    intro e he base i ht
    simp only [encodedOutputs, List.mem_cons, List.not_mem_nil, or_false] at he
    rcases he with rfl | rfl | rfl | rfl
    · cases hsome.1.symm.trans ht
      decide
    · cases hsome.2.1.symm.trans ht
      decide
    · cases hsome.2.2.symm.trans ht
      decide
    · cases hnone.symm.trans ht
  exact ⟨h, by decide +kernel, declares_localArrays ⟨.rust, defaultMatrixNames, []⟩ .linear h⟩

end Code.Context

end MotionExport
