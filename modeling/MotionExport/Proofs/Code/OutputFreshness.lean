import MotionExport.Code.BuiltinTemplate
import MotionExport.Model.Assembly
import MotionExport.Proofs.Code.SteadyAuxiliaries
import MotionExport.Proofs.Export.Routing

/-! # Auxiliary variables that the outputs read

The outputs of a module should depend on the state alone, so they have to assign every auxiliary
variable before they read it, unless the constants have done so. An output that depends on time or
on an input breaks this rule: its auxiliary variables are left out, and keep the values that the
last call gave them.
-/

namespace MotionExport

def isAuxiliaryName (name : Text) : Bool := name.startsWith "z[".toList

/-- Every auxiliary variable that one of the equations reads is known, or it is the left side of an
equation before that one, unless it is excused there. -/
def AssignedBefore (excused : Equation → Text → Prop) (known : List Text) : List Equation → Prop
  | [] => True
  | e :: es =>
    (∀ name ∈ e.reads, isAuxiliaryName name = true → name ∈ known ∨ excused e name) ∧
      AssignedBefore excused (known ++ [e.lhs]) es

def NeverExcused (_ : Equation) (_ : Text) : Prop := False

instance (e : Equation) (name : Text) : Decidable (NeverExcused e name) :=
  inferInstanceAs (Decidable False)

namespace AssignedBefore

variable {excused excused' : Equation → Text → Prop} {known known' varying : List Text}
  {es later : List Equation}

instance decidable (excused : Equation → Text → Prop) [∀ e name, Decidable (excused e name)] :
    (known : List Text) → (es : List Equation) → Decidable (AssignedBefore excused known es)
  | _, [] => inferInstanceAs (Decidable True)
  | known, e :: es =>
    have := decidable excused (known ++ [e.lhs]) es
    inferInstanceAs (Decidable ((∀ name ∈ e.reads, isAuxiliaryName name = true →
      name ∈ known ∨ excused e name) ∧ AssignedBefore excused (known ++ [e.lhs]) es))

theorem mono (h : AssignedBefore excused known es)
    (hk : ∀ e ∈ es, ∀ name, isAuxiliaryName name = true → name ∈ known ∨ excused e name →
      name ∈ known' ∨ excused' e name) : AssignedBefore excused' known' es := by
  induction es generalizing known known' with
  | nil => trivial
  | cons e es ih =>
    obtain ⟨he, hes⟩ := h
    refine ⟨fun name hr ha => hk e List.mem_cons_self name ha (he name hr ha), ih hes ?_⟩
    intro q hq name ha hn
    rw [List.mem_append] at hn ⊢
    rcases hn with (hn | hn) | hn
    · rcases hk q (List.mem_cons_of_mem e hq) name ha (.inl hn) with hn | hn
      · exact .inl (.inl hn)
      · exact .inr hn
    · exact .inl (.inr hn)
    · rcases hk q (List.mem_cons_of_mem e hq) name ha (.inr hn) with hn | hn
      · exact .inl (.inl hn)
      · exact .inr hn

theorem append_iff : AssignedBefore excused known (es ++ later) ↔
    AssignedBefore excused known es ∧ AssignedBefore excused (known ++ es.map (·.lhs)) later := by
  induction es generalizing known with
  | nil => simp [AssignedBefore]
  | cons e es ih =>
    rw [List.cons_append, AssignedBefore, AssignedBefore, ih, and_assoc, List.map_cons,
      List.append_assoc, List.singleton_append]

theorem filter (p : Equation → Bool) (h : AssignedBefore excused known es) :
    AssignedBefore excused (known ++ (es.filter (!p ·)).map (·.lhs)) (es.filter p) := by
  induction es generalizing known with
  | nil => trivial
  | cons e es ih =>
    obtain ⟨he, hes⟩ := h
    have htail := ih hes
    cases hp : p e with
    | true =>
      have hkept : (e :: es).filter p = e :: es.filter p := List.filter_cons_of_pos hp
      have hdropped : (e :: es).filter (!p ·) = es.filter (!p ·) :=
        List.filter_cons_of_neg (by simp [hp])
      rw [hkept, hdropped]
      refine ⟨fun name hr ha => ?_, htail.mono fun q _ name _ hn => ?_⟩
      · rcases he name hr ha with hn | hn
        · exact .inl (List.mem_append_left _ hn)
        · exact .inr hn
      · simpa [or_assoc, or_comm, or_left_comm] using hn
    | false =>
      have hkept : (e :: es).filter p = es.filter p := List.filter_cons_of_neg (by simp [hp])
      have hdropped : (e :: es).filter (!p ·) = e :: es.filter (!p ·) :=
        List.filter_cons_of_pos (by simp [hp])
      rw [hkept, hdropped, List.map_cons]
      rwa [List.append_assoc, List.singleton_append] at htail

/-- What is left of the equations relies on what was known, and on equations that were dropped. -/
theorem filter_mono (p : Equation → Bool) (h : AssignedBefore NeverExcused known es)
    (hk : ∀ e ∈ es.filter p, ∀ name,
      (name ∈ known ∨ ∃ q ∈ es, p q = false ∧ q.lhs = name) → name ∈ known' ∨ excused e name) :
    AssignedBefore excused known' (es.filter p) := by
  refine (h.filter p).mono fun e he name _ hn => hk e he name ?_
  rcases List.mem_append.mp (hn.resolve_right id) with hn | hn
  · exact .inl hn
  · obtain ⟨q, hq, hl⟩ := List.mem_map.mp hn
    rw [List.mem_filter, Bool.not_eq_true'] at hq
    exact .inr ⟨q, hq.1, hq.2, hl⟩

/-- One of two parts may rely on all that the other defines, whichever comes first. -/
theorem left_of_block {block : List Equation} (hblock : block = es ++ later ∨ block = later ++ es)
    (h : AssignedBefore excused known block) :
    AssignedBefore excused (known ++ later.map (·.lhs)) es := by
  rcases hblock with rfl | rfl
  · refine (append_iff.mp h).1.mono fun _ _ name _ hn => ?_
    rcases hn with hn | hn
    · exact .inl (List.mem_append_left _ hn)
    · exact .inr hn
  · exact (append_iff.mp h).2

theorem steadyAmong (h : AssignedBefore excused known' es)
    (hk : ∀ name, name ∈ known' → name ∈ known ∨ name ∈ varying) :
    AssignedBefore excused known (Document.steadyAmong varying es) := by
  induction es generalizing known known' varying with
  | nil => trivial
  | cons e es ih =>
    obtain ⟨he, hes⟩ := h
    rw [Document.steadyAmong]
    split
    · rename_i hs
      obtain ⟨-, hsteady⟩ := Document.isSteady_iff.mp hs
      refine ⟨fun name hr ha => ?_, ih hes fun name hn => ?_⟩
      · rcases he name hr ha with hn | hn
        · exact .inl ((hk name hn).resolve_right (hsteady name hr))
        · exact .inr hn
      · rcases List.mem_append.mp hn with hn | hn
        · rcases hk name hn with hn | hn
          · exact .inl (List.mem_append_left _ hn)
          · exact .inr hn
        · exact .inl (List.mem_append_right _ hn)
    · refine ih hes fun name hn => ?_
      rcases List.mem_append.mp hn with hn | hn
      · rcases hk name hn with hn | hn
        · exact .inl hn
        · exact .inr (List.mem_append_left _ hn)
      · exact .inr (List.mem_append_right _ hn)

end AssignedBefore

namespace Code

def outputsHead : Language → String
  | .rust => "    fn outputs(&mut self, x: &[f64]) -> Vec<f64> \x7b"
  | .python => "    def outputs(self, x):"

def Piece.isText (s : String) : Piece → Bool
  | text t => t = s
  | slot _ => false

/-- The lines of that method, up to the next blank line. -/
def outputsMethod (lang : Language) : List (List Piece) :=
  ((builtinLines lang).dropWhile fun line => !line.any (·.isText (outputsHead lang))).takeWhile
    (!·.isEmpty)

def Piece.placeholder? : Piece → Option Placeholder
  | text _ => none
  | slot p => some p

def blockEquations (d : Document) : Placeholder → List Equation
  | .constants => d.constants
  | .motion => d.motion
  | .steadyAuxiliaries => d.steadyAuxiliaries
  | .dependents => d.dependents
  | .outputs => d.outputs
  | .linear => d.linear
  | _ => []

/-- The equations that the method of the outputs executes, in order. -/
def outputEquations (lang : Language) (d : Document) : List Equation :=
  ((outputsMethod lang).flatten.filterMap Piece.placeholder?).flatMap (blockEquations d)

theorem placeholders_outputsMethod (lang : Language) :
    (outputsMethod lang).flatten.filterMap Piece.placeholder? =
      [.parameterBindings, .stateBindings, .steadyAuxiliaries, .dependents, .outputs,
        .outputVector] := by
  cases lang with
  | rust => decide +kernel
  | python => decide +kernel

theorem outputEquations_eq (lang : Language) (d : Document) :
    outputEquations lang d = d.steadyAuxiliaries ++ (d.dependents ++ d.outputs) := by
  rw [outputEquations, placeholders_outputsMethod]
  simp [blockEquations]

end Code

namespace Document

variable {name : Text} {parameters : ParameterFile} {log : StatementLog} {matrixNames : List Text}
  {d : Document}

theorem exists_sorted_of_build (h : build name parameters log matrixNames = .ok d) :
    ∃ sorted, Classification.ofLog log parameters.stateNames matrixNames = .ok sorted ∧
      d.constants = sorted.constants ∧ d.motion = sorted.motion ∧
      d.dependents = sorted.dependents ∧ d.outputs = sorted.outputs ∧
      d.linear = sorted.linear := by
  rw [build] at h
  obtain ⟨sorted, hsorted, h⟩ := bind_eq_ok_iff.mp h
  obtain ⟨auxCount, -, h⟩ := bind_eq_ok_iff.mp h
  obtain ⟨_, -, h⟩ := bind_eq_ok_iff.mp h
  cases h
  exact ⟨sorted, hsorted, rfl, rfl, rfl, rfl, rfl⟩

theorem lhs_mem_steady_or_leftOut (varying : List Text) {es : List Equation} {name : Text}
    (h : name ∈ es.map (·.lhs)) :
    name ∈ (steadyAmong varying es).map (·.lhs) ∨
      ∃ q ∈ leftOut (markSteady varying es), q.lhs = name := by
  obtain ⟨q, hq, rfl⟩ := List.mem_map.mp h
  rw [← map_fst_markSteady varying es] at hq
  obtain ⟨⟨q, kept⟩, hmarked, rfl⟩ := List.mem_map.mp hq
  cases kept with
  | true =>
    left
    rw [← map_fst_filter_markSteady]
    exact List.mem_map_of_mem (List.mem_map.mpr ⟨(q, true), by simpa using hmarked, rfl⟩)
  | false =>
    right
    exact ⟨q, List.mem_map.mpr ⟨(q, false), by simpa using hmarked, rfl⟩, rfl⟩

theorem assigned_or_leftOut (d : Document) {name : Text}
    (h : name ∈ (d.constants ++ d.motion).map (·.lhs)) :
    name ∈ d.constants.map (·.lhs) ++ d.steadyAuxiliaries.map (·.lhs) ∨
      ∃ q ∈ leftOut (markSteady d.varyingNames d.motion), q.lhs = name := by
  rw [List.map_append, List.mem_append] at h
  rcases h with hn | hn
  · exact .inl (List.mem_append_left _ hn)
  · exact (lhs_mem_steady_or_leftOut d.varyingNames hn).imp_left (List.mem_append_right _)

end Document

/-- Why the outputs may read an auxiliary variable that they have not assigned. -/
inductive StaleCause (d : Document) (matrixNames : List Text) (written evaluated : List Equation)
    (e : Equation) (name : Text) : Prop where
  /-- It depends on time or on an input, and is computed with the derivatives only. -/
  | varies (q : Equation) : e ∈ d.dependents ++ d.outputs →
      q ∈ Document.leftOut (Document.markSteady d.varyingNames d.motion) → q.lhs = name →
      StaleCause d matrixNames written evaluated e name
  /-- It is taken for an entry of a matrix that has the name of the array. -/
  | matrixEntry (q : Equation) : q ∈ d.linear →
      Classification.isMatrixEntry matrixNames q = true → q.lhs = name →
      StaleCause d matrixNames written evaluated e name
  /-- The evaluation block assigns it, but goes behind the write block. -/
  | evaluatedLater (q : Equation) : e ∈ written → q ∈ evaluated → q.lhs = name →
      StaleCause d matrixNames written evaluated e name

open ParsedStatement (equations)

variable {name : Text} {parameters : ParameterFile} {log : StatementLog} {matrixNames : List Text}
  {d : Document} {statements : List ParsedStatement} {block : List Equation}

/-- If the statements of a log read only auxiliary variables that have been assigned before, then so
do the outputs, but for three kinds of auxiliary variables. -/
theorem outputs_read_assigned (hbuild : Document.build name parameters log matrixNames = .ok d)
    (hlogged : statements.map (·.logged) = log.statements)
    (hblock : block = equations statements .writeOutput ++ equations statements .evaluateOutput ∨
      block = equations statements .evaluateOutput ++ equations statements .writeOutput)
    (hassigned : AssignedBefore NeverExcused []
      (equations statements .constants ++ equations statements .motion ++ block))
    (lang : Language) :
    AssignedBefore (StaleCause d matrixNames (equations statements .writeOutput)
      (equations statements .evaluateOutput)) (d.constants.map (·.lhs))
      (Code.outputEquations lang d) := by
  obtain ⟨sorted, hsorted, hconstants, hmotion, hdependents, houtputs, hlinear⟩ :=
    Document.exists_sorted_of_build hbuild
  rw [Classification.ofLog_eq_sort hlogged] at hsorted
  obtain ⟨early, late, hearly, -, rfl⟩ := Classification.exists_switch_of_sort hsorted
  dsimp only at hconstants hmotion hdependents houtputs hlinear
  rw [← hconstants, ← hmotion] at hassigned
  rw [← hmotion] at hdependents
  generalize equations statements .writeOutput = written at *
  generalize equations statements .evaluateOutput = evaluated at *
  subst hearly
  obtain ⟨hfront, hback⟩ := AssignedBefore.append_iff.mp hassigned
  obtain ⟨-, hread⟩ := AssignedBefore.append_iff.mp hfront
  have hwritten := AssignedBefore.left_of_block hblock hback
  have hevaluated := AssignedBefore.left_of_block hblock.symm hback
  have hearlier : ∀ e ∈ d.dependents ++ d.outputs,
      ∀ name ∈ (d.constants ++ d.motion).map (·.lhs),
        name ∈ d.constants.map (·.lhs) ++ d.steadyAuxiliaries.map (·.lhs) ∨
          StaleCause d matrixNames written (early ++ late) e name := by
    intro e he name hn
    refine (d.assigned_or_leftOut hn).imp_right ?_
    rintro ⟨q, hq, hl⟩
    exact .varies q he hq hl
  have hmatrix : ∀ q ∈ written ++ (early ++ late),
      Classification.isMatrixEntry matrixNames q = true → q ∈ d.linear := by
    intro q hq hm
    rw [hlinear]
    simp only [List.mem_append, List.mem_filter, hm, and_true] at hq ⊢
    tauto
  rw [Code.outputEquations_eq, houtputs, AssignedBefore.append_iff, AssignedBefore.append_iff,
    AssignedBefore.append_iff]
  refine ⟨?steady, ?dependents, ?written, ?evaluated⟩
  case steady =>
    refine (hread.steadyAmong fun name hn => .inl hn).mono fun _ _ name _ hn => ?_
    exact .inl (hn.resolve_right id)
  case dependents =>
    rw [hdependents]
    refine hread.filter_mono _ fun e he name hn => ?_
    refine hearlier e (List.mem_append_left _ (hdependents ▸ he)) name ?_
    rw [List.map_append]
    rcases hn with hn | ⟨q, hq, -, rfl⟩
    · exact List.mem_append_left _ hn
    · exact List.mem_append_right _ (List.mem_map_of_mem hq)
  case written =>
    refine hwritten.filter_mono _ fun e he name hn => ?_
    have hout : e ∈ d.outputs := houtputs ▸ List.mem_append_left _ he
    rcases hn with hn | ⟨q, hq, hm, hl⟩
    · rcases List.mem_append.mp hn with hn | hn
      · exact (hearlier e (List.mem_append_right _ hout) name hn).imp_left
          (List.mem_append_left _)
      · obtain ⟨q, hq, hl⟩ := List.mem_map.mp hn
        exact .inr (.evaluatedLater q (List.mem_filter.mp he).1 hq hl)
    · rw [Bool.not_eq_false'] at hm
      exact .inr (.matrixEntry q (hmatrix q (List.mem_append_left _ hq) hm) hm hl)
  case evaluated =>
    refine (AssignedBefore.append_iff.mp hevaluated).1.filter_mono _ fun e he name hn => ?_
    have hout : e ∈ d.outputs := houtputs ▸ List.mem_append_right _ he
    rcases hn with hn | ⟨q, hq, hm, hl⟩
    · rcases List.mem_append.mp hn with hn | hn
      · exact (hearlier e (List.mem_append_right _ hout) name hn).imp_left
          fun hn => List.mem_append_left _ (List.mem_append_left _ hn)
      · obtain ⟨q, hq, hl⟩ := List.mem_map.mp hn
        cases hm : Classification.isMatrixEntry matrixNames q with
        | true => exact .inr (.matrixEntry q (hmatrix q (List.mem_append_left _ hq) hm) hm hl)
        | false =>
          refine .inl (List.mem_append_right _ (List.mem_map.mpr ⟨q, ?_, hl⟩))
          exact List.mem_filter.mpr ⟨hq, by rw [hm, Bool.not_false]⟩
    · rw [Bool.not_eq_false'] at hm
      have hblock : q ∈ written ++ (early ++ late) :=
        List.mem_append_right _ (List.mem_append_left _ hq)
      exact .inr (.matrixEntry q (hmatrix q hblock hm) hm hl)

def drivenStatements : List ParsedStatement :=
  [⟨⟨.constants, "z[8] = g*m".toList, 3⟩, ⟨"z[8]".toList, "g*m".toList⟩, by decide⟩,
    ⟨⟨.specified, "torque = 10*sin(T)".toList, 6⟩, ⟨"torque".toList, "10*sin(T)".toList⟩,
      by decide⟩,
    ⟨⟨.motion, "z[1] = cos(theta)".toList, 8⟩, ⟨"z[1]".toList, "cos(theta)".toList⟩, by decide⟩,
    ⟨⟨.motion, "z[2] = torque*z[1]".toList, 9⟩, ⟨"z[2]".toList, "torque*z[1]".toList⟩, by decide⟩,
    ⟨⟨.motion, "z[3] = z[2] + 1".toList, 10⟩, ⟨"z[3]".toList, "z[2] + 1".toList⟩, by decide⟩,
    ⟨⟨.motion, "z[4] = z[8]*pow(z[1],2)".toList, 11⟩,
      ⟨"z[4]".toList, "z[8]*pow(z[1],2)".toList⟩, by decide⟩,
    ⟨⟨.motion, "omegap = z[3]".toList, 12⟩, ⟨"omegap".toList, "z[3]".toList⟩, by decide⟩,
    ⟨⟨.evaluateOutput, "k = z[4] + z[3]".toList, 17⟩, ⟨"k".toList, "z[4] + z[3]".toList⟩,
      by decide⟩]

def drivenLog : StatementLog where
  outputNames := ["k".toList]
  statements := drivenStatements.map (·.logged)

theorem build_drivenLog :
    Document.build "Driven".toList ⟨default, [], []⟩ drivenLog defaultMatrixNames =
      .ok drivenDocument := by
  decide +kernel

theorem assignedBefore_drivenStatements :
    AssignedBefore NeverExcused []
      (equations drivenStatements .constants ++ equations drivenStatements .motion ++
        (equations drivenStatements .writeOutput ++
          equations drivenStatements .evaluateOutput)) := by
  decide +kernel

theorem drivenDocument_outputs_read_assigned :
    Document.build "Driven".toList ⟨default, [], []⟩ drivenLog defaultMatrixNames =
        .ok drivenDocument ∧
      AssignedBefore (StaleCause drivenDocument defaultMatrixNames
        (equations drivenStatements .writeOutput) (equations drivenStatements .evaluateOutput))
        (drivenDocument.constants.map (·.lhs)) (Code.outputEquations .rust drivenDocument) := by
  have hlogged : drivenStatements.map (·.logged) = drivenLog.statements := rfl
  exact ⟨build_drivenLog, outputs_read_assigned build_drivenLog hlogged (.inl rfl)
    assignedBefore_drivenStatements .rust⟩

/-- The input varies, so `z[2]` and with it `z[3]` are left out of the outputs, and `k` reads the
`z[3]` of the last call. -/
theorem drivenDocument_reads_stale :
    Document.build "Driven".toList ⟨default, [], []⟩ drivenLog defaultMatrixNames =
        .ok drivenDocument ∧
      AssignedBefore NeverExcused []
        (equations drivenStatements .constants ++ equations drivenStatements .motion ++
          (equations drivenStatements .writeOutput ++
            equations drivenStatements .evaluateOutput)) ∧
      ¬ AssignedBefore NeverExcused (drivenDocument.constants.map (·.lhs))
        (Code.outputEquations .rust drivenDocument) := by
  refine ⟨build_drivenLog, assignedBefore_drivenStatements, ?_⟩
  rw [Code.outputEquations_eq]
  decide +kernel

end MotionExport
