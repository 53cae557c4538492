import Mathlib.Data.List.Perm.Basic
import MotionExport.Proofs.Export.Switch
import MotionExport.Proofs.Outcome

/-! # Routing

Sorting sends every statement of a log to one collection of equations. A collection takes its
statements from at most two sections, one behind the other, and keeps the order of each.
-/

namespace MotionExport

structure ParsedStatement where
  logged : LoggedStatement
  equation : Equation
  parsed : Equation.parse logged.statement logged.line = .ok equation
  deriving DecidableEq

namespace ParsedStatement

variable {statements part later : List ParsedStatement}

def origin (p : ParsedStatement) : FileSection := p.logged.origin

def inSection (statements : List ParsedStatement) (s : FileSection) : List ParsedStatement :=
  statements.filter fun p => p.origin = s

def equations (statements : List ParsedStatement) (s : FileSection) : List Equation :=
  (inSection statements s).map (·.equation)

theorem inSection_of_sublist {s : FileSection} (h : part.Sublist (inSection statements s))
    (s' : FileSection) : inSection part s' = if s = s' then part else [] := by
  have horigin : ∀ p ∈ part, p.origin = s := fun p hp =>
    of_decide_eq_true (List.mem_filter.mp (h.subset hp)).2
  split
  · rename_i hs
    exact List.filter_eq_self.mpr fun p hp => by simp [horigin p hp, hs]
  · rename_i hs
    exact List.filter_eq_nil_iff.mpr fun p hp => by simp [horigin p hp, hs]

theorem inSection_append_sublist {s s' : FileSection} (hne : s ≠ s')
    (hp : part.Sublist (inSection statements s)) (hl : later.Sublist (inSection statements s'))
    (q : FileSection) : (inSection (part ++ later) q).Sublist (inSection statements q) := by
  rw [inSection, List.filter_append, ← inSection, ← inSection, inSection_of_sublist hp,
    inSection_of_sublist hl]
  by_cases h : s = q
  · subst h
    simpa [hne.symm] using hp
  · by_cases h' : s' = q
    · subst h'
      simpa [h] using hl
    · simp [h, h']

/-- A log falls into its five sections. -/
theorem count_eq_sections (statements : List ParsedStatement) (p : ParsedStatement) :
    statements.count p = (inSection statements .constants).count p +
      (inSection statements .motion).count p + (inSection statements .specified).count p +
      (inSection statements .writeOutput).count p +
      (inSection statements .evaluateOutput).count p := by
  induction statements with
  | nil => rfl
  | cons q statements ih =>
    simp only [inSection] at ih
    cases h : q.origin <;> simp [inSection, h, List.count_cons, ih] <;> omega

end ParsedStatement

open ParsedStatement

theorem exists_parsedStatements {statements : List LoggedStatement}
    (h : ∀ e ∈ statements, ∃ q, Equation.parse e.statement e.line = .ok q) :
    ∃ parsed : List ParsedStatement, parsed.map (·.logged) = statements := by
  induction statements with
  | nil => exact ⟨[], rfl⟩
  | cons e statements ih =>
    obtain ⟨q, hq⟩ := h e List.mem_cons_self
    obtain ⟨parsed, rfl⟩ := ih fun e he => h e (List.mem_cons_of_mem _ he)
    exact ⟨⟨e, q, hq⟩ :: parsed, rfl⟩

namespace Classification

variable {log : StatementLog} {stateNames matrixNames : List Text} {sorted : Classification}

theorem exists_parse_of_equationsIn {s : FileSection} {es : List Equation}
    (h : equationsIn log s = .ok es) {e : LoggedStatement} (he : e ∈ log.inSection s) :
    ∃ q, Equation.parse e.statement e.line = .ok q := by
  rw [equationsIn] at h
  generalize log.inSection s = statements at h he
  induction statements generalizing es with
  | nil => contradiction
  | cons first statements ih =>
    rw [List.mapM_cons] at h
    obtain ⟨q, hq, h⟩ := bind_eq_ok_iff.mp h
    obtain ⟨qs, hqs, -⟩ := bind_eq_ok_iff.mp h
    rcases List.mem_cons.mp he with rfl | he
    · exact ⟨q, hq⟩
    · exact ih hqs he

theorem equationsIn_eq {statements : List ParsedStatement}
    (h : statements.map (·.logged) = log.statements) (s : FileSection) :
    equationsIn log s = .ok ((inSection statements s).map (·.equation)) := by
  have hs : log.inSection s = (inSection statements s).map (·.logged) := by
    rw [StatementLog.inSection, ← h, List.filter_map]
    rfl
  rw [equationsIn, hs]
  induction inSection statements s with
  | nil => rfl
  | cons p ps ih =>
    rw [List.map_cons, List.mapM_cons, p.parsed, ih]
    rfl

theorem ofLog_eq_sort {statements : List ParsedStatement}
    (h : statements.map (·.logged) = log.statements) :
    ofLog log stateNames matrixNames = sort log.outputNames stateNames matrixNames
      (equations statements .constants) (equations statements .motion)
      (equations statements .specified) (equations statements .writeOutput)
      (equations statements .evaluateOutput) := by
  simp only [ofLog_eq, equationsIn_eq h]
  rfl

end Classification

def ParsedStatement.isMatrixEntry (matrixNames : List Text) (p : ParsedStatement) : Bool :=
  Classification.isMatrixEntry matrixNames p.equation

open Classification

/-- Where the statements of a log go when it is sorted. -/
structure Routing (log : StatementLog) (stateNames matrixNames : List Text)
    (sorted : Classification) where
  statements : List ParsedStatement
  logged_eq : statements.map (·.logged) = log.statements
  outputs : List ParsedStatement
  linear : List ParsedStatement
  early : List ParsedStatement
  late : List ParsedStatement
  /-- Every statement goes to one collection, once. -/
  once : (inSection statements .constants ++ inSection statements .motion ++
    inSection statements .specified ++ outputs ++ linear).Perm statements
  ordered : ∀ part ∈ [outputs, linear], ∀ s,
    (inSection part s).Sublist (inSection statements s)
  constants_eq : sorted.constants = (inSection statements .constants).map (·.equation)
  motion_eq : sorted.motion = (inSection statements .motion).map (·.equation)
  inputs_eq : sorted.inputs = (inSection statements .specified).map (·.equation)
  evaluated_eq : inSection statements .evaluateOutput = early ++ late
  shortest : IsShortestCover matrixNames
    (IsPending log.outputNames stateNames matrixNames sorted.motion
      ((inSection statements .writeOutput).map (·.equation)))
    ((inSection statements .evaluateOutput).map (·.equation)) (early.map (·.equation))
  outputs_eq : outputs =
    (inSection statements .writeOutput).filter (!·.isMatrixEntry matrixNames) ++
      early.filter (!·.isMatrixEntry matrixNames)
  sorted_outputs_eq : sorted.outputs = outputs.map (·.equation)
  linear_eq : linear = (early.filter (·.isMatrixEntry matrixNames) ++ late) ++
    (inSection statements .writeOutput).filter (·.isMatrixEntry matrixNames)
  sorted_linear_eq : sorted.linear = linear.map (·.equation)
  dependents_eq : sorted.dependents =
    sorted.motion.filter fun e => !e.isAuxiliary && log.outputNames.contains e.lhs

namespace ParsedStatement

variable {statements early late : List ParsedStatement} {matrixNames : List Text}

theorem perm_collections (h : inSection statements .evaluateOutput = early ++ late)
    (isEntry : ParsedStatement → Bool) :
    (inSection statements .constants ++ inSection statements .motion ++
      inSection statements .specified ++
      ((inSection statements .writeOutput).filter (!isEntry ·) ++ early.filter (!isEntry ·)) ++
      ((early.filter isEntry ++ late) ++
        (inSection statements .writeOutput).filter isEntry)).Perm statements := by
  rw [List.perm_iff_count]
  intro p
  have hsections := count_eq_sections statements p
  have hearly := (List.filter_append_perm isEntry early).count_eq p
  have hwritten :=
    (List.filter_append_perm isEntry (inSection statements .writeOutput)).count_eq p
  rw [h] at hsections
  simp only [List.count_append] at hsections hearly hwritten ⊢
  omega

theorem ordered_collections (h : inSection statements .evaluateOutput = early ++ late)
    (isEntry : ParsedStatement → Bool) :
    ∀ part ∈ [(inSection statements .writeOutput).filter (!isEntry ·) ++
          early.filter (!isEntry ·),
        (early.filter isEntry ++ late) ++ (inSection statements .writeOutput).filter isEntry],
      ∀ s, (inSection part s).Sublist (inSection statements s) := by
  intro part hpart s
  rcases List.mem_pair.mp hpart with rfl | rfl
  · have hne : FileSection.writeOutput ≠ .evaluateOutput := by decide
    refine inSection_append_sublist hne List.filter_sublist ?_ s
    rw [h]
    exact List.filter_sublist.trans (List.sublist_append_left early late)
  · have hne : FileSection.evaluateOutput ≠ .writeOutput := by decide
    refine inSection_append_sublist hne ?_ List.filter_sublist s
    rw [h]
    exact List.filter_sublist.append_right late

theorem map_filter_isMatrixEntry (ps : List ParsedStatement) :
    (ps.map (·.equation)).filter (Classification.isMatrixEntry matrixNames) =
      (ps.filter (·.isMatrixEntry matrixNames)).map (·.equation) := List.filter_map

theorem map_filter_not_isMatrixEntry (ps : List ParsedStatement) :
    (ps.map (·.equation)).filter (!Classification.isMatrixEntry matrixNames ·) =
      (ps.filter (!·.isMatrixEntry matrixNames)).map (·.equation) := List.filter_map

end ParsedStatement

namespace Classification

variable {log : StatementLog} {stateNames matrixNames : List Text} {sorted : Classification}

theorem exists_sort_of_ofLog (h : ofLog log stateNames matrixNames = .ok sorted) :
    ∃ constants motion inputs written evaluated,
      equationsIn log .constants = .ok constants ∧ equationsIn log .motion = .ok motion ∧
      equationsIn log .specified = .ok inputs ∧ equationsIn log .writeOutput = .ok written ∧
      equationsIn log .evaluateOutput = .ok evaluated ∧
      sort log.outputNames stateNames matrixNames constants motion inputs written evaluated =
        .ok sorted := by
  rw [ofLog_eq] at h
  obtain ⟨constants, hc, h⟩ := bind_eq_ok_iff.mp h
  obtain ⟨motion, hm, h⟩ := bind_eq_ok_iff.mp h
  obtain ⟨inputs, hi, h⟩ := bind_eq_ok_iff.mp h
  obtain ⟨written, hw, h⟩ := bind_eq_ok_iff.mp h
  obtain ⟨evaluated, he, h⟩ := bind_eq_ok_iff.mp h
  exact ⟨constants, motion, inputs, written, evaluated, hc, hm, hi, hw, he, h⟩

theorem exists_parsedStatements_of_ofLog (h : ofLog log stateNames matrixNames = .ok sorted) :
    ∃ statements : List ParsedStatement, statements.map (·.logged) = log.statements := by
  obtain ⟨_, _, _, _, _, hc, hm, hi, hw, he, -⟩ := exists_sort_of_ofLog h
  refine exists_parsedStatements fun e hmem => ?_
  have hsection : e ∈ log.inSection e.origin := by simpa [StatementLog.inSection] using hmem
  cases ho : e.origin with
  | constants => exact exists_parse_of_equationsIn hc (ho ▸ hsection)
  | motion => exact exists_parse_of_equationsIn hm (ho ▸ hsection)
  | specified => exact exists_parse_of_equationsIn hi (ho ▸ hsection)
  | writeOutput => exact exists_parse_of_equationsIn hw (ho ▸ hsection)
  | evaluateOutput => exact exists_parse_of_equationsIn he (ho ▸ hsection)

/-- A log that has been sorted is routed statement by statement. -/
theorem routing_of_ofLog (h : ofLog log stateNames matrixNames = .ok sorted) :
    Nonempty (Routing log stateNames matrixNames sorted) := by
  obtain ⟨statements, hlogged⟩ := exists_parsedStatements_of_ofLog h
  obtain ⟨constants, motion, inputs, written, evaluated, hc, hm, hi, hw, he, hsort⟩ :=
    exists_sort_of_ofLog h
  rw [equationsIn_eq hlogged, Except.ok.injEq] at hc hm hi hw he
  subst hc hm hi hw he
  -- The switch is found among the equations and carried back to the statements that say them.
  obtain ⟨front, back, hsplit, hshort, rfl⟩ := exists_switch_of_sort hsort
  obtain ⟨early, late, hevaluated, rfl, rfl⟩ := List.map_eq_append_iff.mp hsplit
  refine ⟨⟨statements, hlogged, _, _, early, late,
    perm_collections hevaluated (·.isMatrixEntry matrixNames),
    ordered_collections hevaluated (·.isMatrixEntry matrixNames),
    rfl, rfl, rfl, hevaluated, hshort, rfl, ?_, rfl, ?_, rfl⟩⟩
  · rw [map_filter_not_isMatrixEntry, map_filter_not_isMatrixEntry, List.map_append]
  · rw [map_filter_isMatrixEntry, map_filter_isMatrixEntry, List.map_append, List.map_append]

/-- A log in which `y` and `t` are pending, with a matrix entry before and behind the switch. -/
def switchedLog : StatementLog where
  outputNames := ["x".toList, "y".toList, "w".toList, "y".toList, "v".toList, "t".toList]
  statements := [⟨.constants, "k = 1".toList, 3⟩, ⟨.motion, "z[1] = k".toList, 5⟩,
    ⟨.specified, "u = 2".toList, 6⟩, ⟨.motion, "w = u".toList, 8⟩,
    ⟨.writeOutput, "A[1] = w".toList, 11⟩, ⟨.writeOutput, "v = 3".toList, 12⟩,
    ⟨.evaluateOutput, "B[1] = 4".toList, 14⟩, ⟨.evaluateOutput, "t = 5".toList, 15⟩,
    ⟨.evaluateOutput, "y = t".toList, 16⟩, ⟨.evaluateOutput, "C[1] = y".toList, 17⟩,
    ⟨.evaluateOutput, "r = 6".toList, 18⟩]

def switchedSorting : Classification where
  constants := [⟨"k".toList, "1".toList⟩]
  motion := [⟨"z[1]".toList, "k".toList⟩, ⟨"w".toList, "u".toList⟩]
  inputs := [⟨"u".toList, "2".toList⟩]
  dependents := [⟨"w".toList, "u".toList⟩]
  outputs := [⟨"v".toList, "3".toList⟩, ⟨"t".toList, "5".toList⟩, ⟨"y".toList, "t".toList⟩]
  linear := [⟨"B[1]".toList, "4".toList⟩, ⟨"C[1]".toList, "y".toList⟩, ⟨"r".toList, "6".toList⟩,
    ⟨"A[1]".toList, "w".toList⟩]

theorem routing_switchedLog :
    ofLog switchedLog ["x".toList] defaultMatrixNames = .ok switchedSorting ∧
      Nonempty (Routing switchedLog ["x".toList] defaultMatrixNames switchedSorting) := by
  have h : ofLog switchedLog ["x".toList] defaultMatrixNames = .ok switchedSorting := by
    decide +kernel
  exact ⟨h, routing_of_ofLog h⟩

end Classification

end MotionExport
