import Mathlib.Data.List.Infix
import MotionExport.Export.Classification

/-! # The switch to the linear model

The evaluation block is cut in two. Its first part is the shortest start that defines every pending
output, and only there an equation can be an output. Sorting the five sections is then a matter of
filters.
-/

namespace MotionExport

namespace Classification

variable {stateNames matrixNames pending : List Text} {names : Text → Prop} {e : Equation}
  {es outputs linear : List Equation}

def Covers (matrixNames : List Text) (names : Text → Prop) (es : List Equation) : Prop :=
  ∀ name, names name → ∃ e ∈ es, isMatrixEntry matrixNames e = false ∧ e.lhs = name

/-- `early` is the shortest start of `es` that covers the names. -/
def IsShortestCover (matrixNames : List Text) (names : Text → Prop) (es early : List Equation) :
    Prop :=
  early <+: es ∧ Covers matrixNames names early ∧
    ∀ start, start <+: es → Covers matrixNames names start → early <+: start

theorem covers_nil_iff : Covers matrixNames (· ∈ pending) [] ↔ pending = [] := by
  simp [Covers, List.eq_nil_iff_forall_not_mem]

theorem covers_cons_of_isMatrixEntry (h : isMatrixEntry matrixNames e = true) :
    Covers matrixNames names (e :: es) ↔ Covers matrixNames names es := by
  simp [Covers, h]

theorem covers_cons (h : isMatrixEntry matrixNames e = false) :
    Covers matrixNames (· ∈ pending) (e :: es) ↔
      Covers matrixNames (· ∈ pending.filter (· ≠ e.lhs)) es := by
  constructor
  · intro hc name hn
    obtain ⟨hp, hne⟩ : name ∈ pending ∧ name ≠ e.lhs := by simpa using hn
    obtain ⟨q, hq, hm, rfl⟩ := hc name hp
    rcases List.mem_cons.mp hq with rfl | hq
    · exact absurd rfl hne
    · exact ⟨q, hq, hm, rfl⟩
  · intro hc name hp
    by_cases hne : name = e.lhs
    · exact ⟨e, List.mem_cons_self, h, hne.symm⟩
    · obtain ⟨q, hq, hm, rfl⟩ := hc name (by simp [hp, hne])
      exact ⟨q, List.mem_cons_of_mem e hq, hm, rfl⟩

namespace IsShortestCover

theorem nil : IsShortestCover matrixNames (· ∈ []) es [] :=
  ⟨List.nil_prefix, covers_nil_iff.mpr rfl, fun _ _ _ => List.nil_prefix⟩

/-- The switch comes one equation later if something is pending before the first equation. -/
theorem cons {names' : Text → Prop} {early : List Equation}
    (hcons : ∀ es, Covers matrixNames names (e :: es) ↔ Covers matrixNames names' es)
    (hne : ¬ Covers matrixNames names []) (h : IsShortestCover matrixNames names' es early) :
    IsShortestCover matrixNames names (e :: es) (e :: early) := by
  obtain ⟨hp, hc, hs⟩ := h
  refine ⟨(List.prefix_cons_inj e).mpr hp, (hcons early).mpr hc, ?_⟩
  intro start hstart hcover
  cases start with
  | nil => exact absurd hcover hne
  | cons q start =>
    obtain ⟨rfl, htail⟩ := List.cons_prefix_cons.mp hstart
    exact (List.prefix_cons_inj _).mpr (hs start htail ((hcons start).mp hcover))

end IsShortestCover

theorem routeEvaluated_nil (matrixNames : List Text) (es : List Equation) :
    routeEvaluated matrixNames [] es = ([], es, []) := by
  induction es with
  | nil => rfl
  | cons e es ih => simp [routeEvaluated, ih]

theorem exists_switch_of_routeEvaluated
    (h : routeEvaluated matrixNames pending es = (outputs, linear, [])) :
    ∃ early late, es = early ++ late ∧
      IsShortestCover matrixNames (· ∈ pending) es early ∧
      outputs = early.filter (!isMatrixEntry matrixNames ·) ∧
      linear = early.filter (isMatrixEntry matrixNames) ++ late := by
  induction es generalizing pending outputs linear with
  | nil =>
    cases h
    exact ⟨[], [], rfl, .nil, rfl, rfl⟩
  | cons e es ih =>
    by_cases hp : pending = []
    · subst hp
      rw [routeEvaluated_nil] at h
      cases h
      exact ⟨[], e :: es, rfl, .nil, rfl, rfl⟩
    have hnil : ¬ Covers matrixNames (· ∈ pending) [] := fun hc => hp (covers_nil_iff.mp hc)
    cases hm : isMatrixEntry matrixNames e with
    | true =>
      obtain ⟨⟨outputs', linear', left⟩, hr⟩ : ∃ r, routeEvaluated matrixNames pending es = r :=
        ⟨_, rfl⟩
      simp only [routeEvaluated, hm, hr, true_or, if_true] at h
      cases h
      obtain ⟨early, late, rfl, hs, rfl, rfl⟩ := ih hr
      refine ⟨e :: early, late, rfl, hs.cons (fun _ => covers_cons_of_isMatrixEntry hm) hnil,
        ?_, ?_⟩
      · simp [hm]
      · simp [hm]
    | false =>
      obtain ⟨⟨outputs', linear', left⟩, hr⟩ :
          ∃ r, routeEvaluated matrixNames (pending.filter (· ≠ e.lhs)) es = r := ⟨_, rfl⟩
      simp only [routeEvaluated, hm, hp, hr, Bool.false_eq_true, or_self, if_false] at h
      cases h
      obtain ⟨early, late, rfl, hs, rfl, rfl⟩ := ih hr
      refine ⟨e :: early, late, rfl, hs.cons (fun _ => covers_cons hm) hnil, ?_, ?_⟩
      · simp [hm]
      · simp [hm]

/-- The name is an output that is no state and that no equation of motion and no written output
defines. -/
def IsPending (outputNames stateNames matrixNames : List Text) (motion written : List Equation)
    (name : Text) : Prop :=
  name ∈ outputNames ∧ name ∉ stateNames ∧
    (∀ e ∈ motion, e.isAuxiliary = false → e.lhs ≠ name) ∧
    ∀ e ∈ written, isMatrixEntry matrixNames e = false → e.lhs ≠ name

theorem mem_pendingOutputs_iff {outputNames : List Text} {motion written : List Equation}
    {name : Text} :
    name ∈ pendingOutputs outputNames stateNames
        (motion.filter (!·.isAuxiliary) ++ written.filter (!isMatrixEntry matrixNames ·)) ↔
      IsPending outputNames stateNames matrixNames motion written name := by
  simp [pendingOutputs, IsPending, List.mem_eraseDups]

def sort (outputNames stateNames matrixNames : List Text)
    (constants motion inputs written evaluated : List Equation) :
    Except ExportError Classification :=
  let writtenOutputs := written.filter (!isMatrixEntry matrixNames ·)
  let named := motion.filter (!·.isAuxiliary)
  let pending := pendingOutputs outputNames stateNames (named ++ writtenOutputs)
  let (outputs, linear, left) := routeEvaluated matrixNames pending evaluated
  if left ≠ [] then
    .error (.unresolvedOutputs (.missing pending.length (pending.length - left.length) left))
  else
    .ok {
      constants, motion, inputs
      dependents := named.filter fun e => outputNames.contains e.lhs
      outputs := writtenOutputs ++ outputs
      linear := linear ++ written.filter (isMatrixEntry matrixNames) }

theorem ofLog_eq (log : StatementLog) :
    ofLog log stateNames matrixNames = (do
      let constants ← equationsIn log .constants
      let motion ← equationsIn log .motion
      let inputs ← equationsIn log .specified
      let written ← equationsIn log .writeOutput
      let evaluated ← equationsIn log .evaluateOutput
      sort log.outputNames stateNames matrixNames constants motion inputs written evaluated) := by
  simp only [ofLog, sort, List.partition_eq_filter_filter]
  rfl

/-- What sorting makes of the five sections. Nothing has stayed pending. -/
theorem exists_switch_of_sort {outputNames : List Text}
    {constants motion inputs written evaluated : List Equation} {sorted : Classification}
    (h : sort outputNames stateNames matrixNames constants motion inputs written evaluated =
      .ok sorted) :
    ∃ early late, evaluated = early ++ late ∧
      IsShortestCover matrixNames (IsPending outputNames stateNames matrixNames motion written)
        evaluated early ∧
      sorted = {
        constants, motion, inputs
        dependents := motion.filter fun e => !e.isAuxiliary && outputNames.contains e.lhs
        outputs := written.filter (!isMatrixEntry matrixNames ·) ++
          early.filter (!isMatrixEntry matrixNames ·)
        linear := (early.filter (isMatrixEntry matrixNames) ++ late) ++
          written.filter (isMatrixEntry matrixNames) } := by
  obtain ⟨⟨outputs, linear, left⟩, hr⟩ : ∃ r, routeEvaluated matrixNames
      (pendingOutputs outputNames stateNames (motion.filter (!·.isAuxiliary) ++
        written.filter (!isMatrixEntry matrixNames ·))) evaluated = r := ⟨_, rfl⟩
  simp only [sort, hr] at h
  split at h
  · contradiction
  · rename_i hleft
    obtain rfl : left = [] := not_not.mp hleft
    cases h
    obtain ⟨early, late, hevaluated, hshort, rfl, rfl⟩ := exists_switch_of_routeEvaluated hr
    simp only [mem_pendingOutputs_iff] at hshort
    refine ⟨early, late, hevaluated, hshort, ?_⟩
    rw [List.filter_filter]
    simp only [Bool.and_comm]

end Classification

end MotionExport
