import MotionExport.Proofs.Export.Routing

/-! # Missing outputs

A log is rejected for its outputs exactly if one of them has no definition. The evaluation block is
searched only while names are pending, but no equation behind the switch could have defined one of
them: what stays pending is what the block defines nowhere.
-/

namespace MotionExport

/-- The names of a list that satisfy `p`, each once, in the order in which they first occur. -/
structure ListsOnce (names : List Text) (p : Text → Prop) (listed : List Text) : Prop where
  mem_iff : ∀ name, name ∈ listed ↔ name ∈ names ∧ p name
  ordered : listed.Pairwise fun a b => names.idxOf a < names.idxOf b

namespace ListsOnce

variable {names listed : List Text} {p q : Text → Prop}

theorem filter [DecidablePred q] (h : ListsOnce names p listed) :
    ListsOnce names (fun name => p name ∧ q name) (listed.filter q) := by
  refine ⟨fun name => ?_, h.ordered.sublist List.filter_sublist⟩
  rw [List.mem_filter, h.mem_iff, decide_eq_true_iff, and_assoc]

theorem eraseDups (names : List Text) : ListsOnce names (fun _ => True) names.eraseDups := by
  refine ⟨fun name => by rw [List.mem_eraseDups, and_true], ?_⟩
  induction names using List.reverseRecOn with
  | nil => exact .nil
  | append_singleton names last ih =>
    have hmem : ∀ name ∈ names.eraseDups, name ∈ names := fun _ => List.mem_eraseDups.mp
    have hnames : names.eraseDups.Pairwise fun a b =>
        (names ++ [last]).idxOf a < (names ++ [last]).idxOf b := by
      refine ih.imp_of_mem fun ha hb hlt => ?_
      rwa [List.idxOf_append_of_mem (hmem _ ha), List.idxOf_append_of_mem (hmem _ hb)]
    by_cases hlast : last ∈ names
    · have hnone : [last].removeAll names = [] := by simp [List.removeAll, hlast]
      rwa [List.eraseDups_append, hnone, List.eraseDups_nil, List.append_nil]
    · have hone : [last].removeAll names = [last] := by simp [List.removeAll, hlast]
      rw [List.eraseDups_append, hone]
      refine List.pairwise_append.mpr ⟨hnames, by simp [List.eraseDups_cons], ?_⟩
      intro a ha b hb
      obtain rfl : b = last := by simpa [List.eraseDups_cons] using hb
      rw [List.idxOf_append_of_mem (hmem a ha), List.idxOf_append_of_notMem hlast]
      exact Nat.lt_add_right _ (List.idxOf_lt_length_of_mem (hmem a ha))

end ListsOnce

namespace Classification

variable {stateNames matrixNames pending outputNames : List Text} {e : Equation}
  {es constants motion inputs written evaluated : List Equation}

def Defines (matrixNames : List Text) (es : List Equation) (name : Text) : Prop :=
  ∃ e ∈ es, isMatrixEntry matrixNames e = false ∧ e.lhs = name

instance (matrixNames : List Text) (es : List Equation) :
    DecidablePred (Defines matrixNames es) := fun name =>
  inferInstanceAs (Decidable (∃ e ∈ es, isMatrixEntry matrixNames e = false ∧ e.lhs = name))

theorem defines_cons_iff {name : Text} : Defines matrixNames (e :: es) name ↔
    (isMatrixEntry matrixNames e = false ∧ e.lhs = name) ∨ Defines matrixNames es name := by
  simp only [Defines, List.mem_cons, exists_eq_or_imp]

/-- What stays pending is what the block defines nowhere. -/
theorem left_of_routeEvaluated (matrixNames pending : List Text) (es : List Equation) :
    (routeEvaluated matrixNames pending es).2.2 =
      pending.filter fun name => ¬ Defines matrixNames es name := by
  induction es generalizing pending with
  | nil => simp [routeEvaluated, Defines]
  | cons e es ih =>
    cases hm : isMatrixEntry matrixNames e with
    | true =>
      have hcons : ∀ name, Defines matrixNames (e :: es) name ↔ Defines matrixNames es name :=
        fun name => by simp [defines_cons_iff, hm]
      simp only [routeEvaluated, hm, true_or, if_true, ih, hcons]
    | false =>
      by_cases hp : pending = []
      · subst hp
        rw [routeEvaluated_nil, List.filter_nil]
      · have hcons : ∀ name, ¬ Defines matrixNames (e :: es) name ↔
            ¬ Defines matrixNames es name ∧ name ≠ e.lhs := by
          intro name
          rw [defines_cons_iff, not_or, and_comm]
          simp [hm, eq_comm]
        simp only [routeEvaluated, hm, hp, Bool.false_eq_true, or_self, if_false, ih, hcons,
          List.filter_filter, Bool.decide_and]

theorem listsOnce_pendingOutputs (outputNames stateNames matrixNames : List Text)
    (motion written : List Equation) :
    ListsOnce outputNames (IsPending outputNames stateNames matrixNames motion written)
      (pendingOutputs outputNames stateNames
        (motion.filter (!·.isAuxiliary) ++ written.filter (!isMatrixEntry matrixNames ·))) := by
  refine ⟨fun name => ?_, (ListsOnce.eraseDups outputNames).ordered.sublist List.filter_sublist⟩
  rw [mem_pendingOutputs_iff]
  exact ⟨fun h => ⟨h.1, h⟩, fun h => h.2⟩

/-- Sorting fails exactly if a name stays pending, and counts what was pending and what was
found. -/
theorem sort_eq_error_iff {error : ExportError}
    (hpending : pending = pendingOutputs outputNames stateNames
      (motion.filter (!·.isAuxiliary) ++ written.filter (!isMatrixEntry matrixNames ·))) :
    sort outputNames stateNames matrixNames constants motion inputs written evaluated =
        .error error ↔
      (∃ name ∈ pending, ¬ Defines matrixNames evaluated name) ∧
        error = .unresolvedOutputs (.missing pending.length
          (pending.filter (Defines matrixNames evaluated)).length
          (pending.filter fun name => ¬ Defines matrixNames evaluated name)) := by
  have hleft := left_of_routeEvaluated matrixNames pending evaluated
  have hfound : pending.length -
        (pending.filter fun name => ¬ Defines matrixNames evaluated name).length =
      (pending.filter (Defines matrixNames evaluated)).length := by
    have hcount := List.length_eq_length_filter_add (l := pending)
      fun name => decide (Defines matrixNames evaluated name)
    simp only [decide_not]
    omega
  have hnil : (pending.filter fun name => ¬ Defines matrixNames evaluated name) ≠ [] ↔
      ∃ name ∈ pending, ¬ Defines matrixNames evaluated name := by
    simp [List.filter_eq_nil_iff]
  simp only [sort, ← hpending, hleft, hnil, hfound]
  split
  · rename_i hmissing
    rw [Except.error.injEq, and_iff_right hmissing, eq_comm]
  · rename_i hmissing
    simp [hmissing]

end Classification

/-- What a log is told whose outputs are not all defined. The evaluation block had to define the
`wanted` names. -/
structure MissingOutputs (names : List Text) (wanted defined : Text → Prop)
    (fault : OutputFault) where
  wantedNames : List Text
  foundNames : List Text
  missingNames : List Text
  lists_wanted : ListsOnce names wanted wantedNames
  lists_found : ListsOnce names (fun name => wanted name ∧ defined name) foundNames
  lists_missing : ListsOnce names (fun name => wanted name ∧ ¬ defined name) missingNames
  fault_eq : fault = .missing wantedNames.length foundNames.length missingNames
  message_eq : fault.message = "expected ".toList ++ numeral wantedNames.length ++
    " non-state outputs, found ".toList ++ numeral foundNames.length ++ "; missing: ".toList ++
    nameList missingNames

namespace Classification

open ParsedStatement (equations)

variable {log : StatementLog} {statements : List ParsedStatement}

/-- A log whose statements are all equations is rejected for its outputs if and only if one of them
has no definition. The error lists those that have none. -/
theorem ofLog_rejects_missing (h : statements.map (·.logged) = log.statements)
    (stateNames matrixNames : List Text) :
    let wanted := IsPending log.outputNames stateNames matrixNames (equations statements .motion)
      (equations statements .writeOutput)
    let defined := Defines matrixNames (equations statements .evaluateOutput)
    ((∃ fault, ofLog log stateNames matrixNames = .error (.unresolvedOutputs fault)) ↔
      ∃ name, wanted name ∧ ¬ defined name) ∧
    ∀ fault, ofLog log stateNames matrixNames = .error (.unresolvedOutputs fault) →
      Nonempty (MissingOutputs log.outputNames wanted defined fault) := by
  intro wanted defined
  have hlists := listsOnce_pendingOutputs log.outputNames stateNames matrixNames
    (equations statements .motion) (equations statements .writeOutput)
  obtain ⟨pending, hpending⟩ : ∃ pending, pending = pendingOutputs log.outputNames stateNames
      ((equations statements .motion).filter (!·.isAuxiliary) ++
        (equations statements .writeOutput).filter (!isMatrixEntry matrixNames ·)) := ⟨_, rfl⟩
  rw [← hpending] at hlists
  have hmem : ∀ name, name ∈ pending ↔ wanted name := by
    intro name
    rw [hlists.mem_iff]
    exact and_iff_right_of_imp fun hw => hw.1
  simp only [ofLog_eq_sort h, sort_eq_error_iff hpending, hmem]
  constructor
  · constructor
    · rintro ⟨fault, hmissing, -⟩
      exact hmissing
    · intro hmissing
      exact ⟨_, hmissing, rfl⟩
  · rintro fault ⟨-, hfault⟩
    obtain rfl := ExportError.unresolvedOutputs.inj hfault
    exact ⟨⟨pending, _, _, hlists, hlists.filter, hlists.filter, rfl, rfl⟩⟩

/-- An auxiliary variable of the motion and a matrix entry define no output, and `y` is defined by
the last statement. -/
def incompleteStatements : List ParsedStatement :=
  [⟨⟨.motion, "z[1] = x".toList, 3⟩, ⟨"z[1]".toList, "x".toList⟩, by decide⟩,
    ⟨⟨.evaluateOutput, "A[1] = 4".toList, 5⟩, ⟨"A[1]".toList, "4".toList⟩, by decide⟩,
    ⟨⟨.evaluateOutput, "r = 6".toList, 6⟩, ⟨"r".toList, "6".toList⟩, by decide⟩,
    ⟨⟨.evaluateOutput, "y = r".toList, 7⟩, ⟨"y".toList, "r".toList⟩, by decide⟩]

def incompleteLog : StatementLog where
  outputNames := ["z[1]".toList, "x".toList, "y".toList, "A[1]".toList, "y".toList, "z[1]".toList]
  statements := incompleteStatements.map (·.logged)

theorem rejects_incompleteLog :
    ofLog incompleteLog ["x".toList] defaultMatrixNames =
        .error (.unresolvedOutputs (.missing 3 1 ["z[1]".toList, "A[1]".toList])) ∧
      Nonempty (MissingOutputs incompleteLog.outputNames
        (IsPending incompleteLog.outputNames ["x".toList] defaultMatrixNames
          (equations incompleteStatements .motion) (equations incompleteStatements .writeOutput))
        (Defines defaultMatrixNames (equations incompleteStatements .evaluateOutput))
        (.missing 3 1 ["z[1]".toList, "A[1]".toList])) := by
  have h : ofLog incompleteLog ["x".toList] defaultMatrixNames =
      .error (.unresolvedOutputs (.missing 3 1 ["z[1]".toList, "A[1]".toList])) := by
    decide +kernel
  have hstatements : incompleteStatements.map (·.logged) = incompleteLog.statements := rfl
  exact ⟨h, (ofLog_rejects_missing hstatements ["x".toList] defaultMatrixNames).2 _ h⟩

end Classification

end MotionExport
