import Mathlib.Logic.Function.Basic
import MotionExport.Code.Dependence

/-! # Steady auxiliary variables

A module computes the auxiliary variables that depend on the state alone without time and inputs.
An equation of motion is left out if it reads a name that varies, and from then on its own left side
varies. Whatever time and inputs are, the equations that are kept give all other names the values
that the whole motion gives them.
-/

namespace MotionExport

universe u

abbrev Environment (V : Type u) := Text → V

/-- Gives expressions a value that depends on the names they read, and on nothing else. -/
structure Valuation (V : Type u) where
  eval : Text → Environment V → V
  eval_congr : ∀ expression env env',
    (∀ name ∈ Expression.namesRead expression, env name = env' name) →
      eval expression env = eval expression env'

variable {V : Type u} {env env' : Environment V} {varying : List Text} {e : Equation}
  {es : List Equation}

namespace Valuation

variable (v : Valuation V)

def execute (env : Environment V) (e : Equation) : Environment V :=
  Function.update env e.lhs (v.eval e.expression env)

def run (env : Environment V) (es : List Equation) : Environment V := es.foldl v.execute env

@[simp] theorem run_nil (env : Environment V) : v.run env [] = env := rfl

@[simp] theorem run_cons (env : Environment V) (e : Equation) (es : List Equation) :
    v.run env (e :: es) = v.run (v.execute env e) es := rfl

end Valuation

/-- The environments differ in these names only. -/
def AgreeOutside (names : List Text) (env env' : Environment V) : Prop :=
  ∀ name, name ∉ names → env name = env' name

namespace AgreeOutside

variable {v : Valuation V}

theorem execute (h : AgreeOutside varying env env') (hr : ∀ name ∈ e.reads, name ∉ varying) :
    AgreeOutside varying (v.execute env e) (v.execute env' e) := by
  have hvalue : v.eval e.expression env = v.eval e.expression env' :=
    v.eval_congr _ _ _ fun name hname => h name (hr name hname)
  intro name hname
  by_cases hl : name = e.lhs
  · subst hl
    rw [Valuation.execute, Valuation.execute, Function.update_self, Function.update_self, hvalue]
  · rw [Valuation.execute, Valuation.execute, Function.update_of_ne hl, Function.update_of_ne hl]
    exact h name hname

theorem execute_left (h : AgreeOutside varying env env') :
    AgreeOutside (varying ++ [e.lhs]) (v.execute env e) env' := by
  intro name hname
  rw [List.mem_append, List.mem_singleton, not_or] at hname
  obtain ⟨hv, hl⟩ := hname
  rw [Valuation.execute, Function.update_of_ne hl]
  exact h name hv

end AgreeOutside

namespace Document

variable {before after : List (Equation × Bool)} {kept : Bool}

/-- The equations of motion, each with whether it is kept. -/
def markSteady (varying : List Text) : List Equation → List (Equation × Bool)
  | [] => []
  | e :: es =>
    if e.isAuxiliary && !e.reads.any varying.contains then (e, true) :: markSteady varying es
    else (e, false) :: markSteady (varying ++ [e.lhs]) es

def leftOut (marked : List (Equation × Bool)) : List Equation :=
  (marked.filter (!·.2)).map (·.1)

theorem isSteady_iff : (e.isAuxiliary && !e.reads.any varying.contains) = true ↔
    e.isAuxiliary = true ∧ ∀ name ∈ e.reads, name ∉ varying := by
  simp

theorem map_fst_markSteady (varying : List Text) (es : List Equation) :
    (markSteady varying es).map (·.1) = es := by
  induction es generalizing varying with
  | nil => rfl
  | cons e es ih =>
    rw [markSteady]
    split
    · rw [List.map_cons, ih]
    · rw [List.map_cons, ih]

theorem map_fst_filter_markSteady (varying : List Text) (es : List Equation) :
    ((markSteady varying es).filter (·.2)).map (·.1) = steadyAmong varying es := by
  induction es generalizing varying with
  | nil => rfl
  | cons e es ih =>
    rw [markSteady, steadyAmong]
    split
    · rw [List.filter_cons_of_pos rfl, List.map_cons, ih]
    · rw [List.filter_cons_of_neg (by simp), ih]

/-- An equation is kept if and only if it is auxiliary and reads neither a varying name nor one that
an equation left out before it defines. -/
theorem kept_iff_of_markSteady (h : markSteady varying es = before ++ (e, kept) :: after) :
    kept = true ↔ e.isAuxiliary = true ∧ ∀ name ∈ e.reads, name ∉ varying ∧
      ∀ q ∈ before, q.2 = false → q.1.lhs ≠ name := by
  induction es generalizing varying before with
  | nil => simp [markSteady] at h
  | cons first es ih =>
    by_cases hs : (first.isAuxiliary && !first.reads.any varying.contains) = true
    · rw [markSteady, if_pos hs] at h
      cases before with
      | nil =>
        obtain ⟨⟨rfl, rfl⟩, -⟩ : (first = e ∧ true = kept) ∧ markSteady varying es = after := by
          simpa using h
        simpa using isSteady_iff.mp hs
      | cons q before =>
        obtain ⟨rfl, htail⟩ := List.cons.inj h
        rw [ih htail]
        simp
    · rw [markSteady, if_neg hs] at h
      cases before with
      | nil =>
        obtain ⟨⟨rfl, rfl⟩, -⟩ :
            (first = e ∧ false = kept) ∧ markSteady (varying ++ [first.lhs]) es = after := by
          simpa using h
        simpa using isSteady_iff.not.mp hs
      | cons q before =>
        obtain ⟨rfl, htail⟩ := List.cons.inj h
        rw [ih htail]
        have hvarying : ∀ name, name ∉ varying ++ [first.lhs] ↔
            name ∉ varying ∧ first.lhs ≠ name := by
          intro name
          rw [List.mem_append, List.mem_singleton, not_or, eq_comm]
        simp only [hvarying, List.forall_mem_cons, and_assoc, forall_const]

/-- Whatever is kept of the motion computes the same values outside of the names that vary. -/
theorem agreeOutside_run_steadyAmong (v : Valuation V) (h : AgreeOutside varying env env')
    (es : List Equation) :
    AgreeOutside (varying ++ (leftOut (markSteady varying es)).map (·.lhs))
      (v.run env es) (v.run env' (steadyAmong varying es)) := by
  induction es generalizing varying env env' with
  | nil => simpa [markSteady, leftOut, steadyAmong] using h
  | cons e es ih =>
    by_cases hs : (e.isAuxiliary && !e.reads.any varying.contains) = true
    · have hstep := ih (h.execute (v := v) (isSteady_iff.mp hs).2)
      simpa [markSteady, steadyAmong, hs, leftOut] using hstep
    · have hstep := ih (h.execute_left (v := v) (e := e))
      simpa [markSteady, steadyAmong, hs, leftOut] using hstep

def varyingNames (d : Document) : List Text := d.inputNames ++ [['T']]

theorem not_mem_varyingNames_iff {d : Document} {name : Text} :
    name ∉ d.varyingNames ↔ name ∉ d.inputNames ∧ name ≠ ['T'] := by
  rw [varyingNames, List.mem_append, List.mem_singleton, not_or]

end Document

/-- Which equations of motion the outputs compute anew, occurrence by occurrence. -/
structure SteadySelection (d : Document) where
  marked : List (Equation × Bool)
  motion_eq : marked.map (·.1) = d.motion
  steady_eq : (marked.filter (·.2)).map (·.1) = d.steadyAuxiliaries
  /-- An equation is kept exactly if it is auxiliary and reads no input, no time and no left side of
  an equation left out before it. -/
  kept_iff : ∀ before e kept after, marked = before ++ (e, kept) :: after →
    (kept = true ↔ e.isAuxiliary = true ∧ ∀ name ∈ e.reads,
      (name ∉ d.inputNames ∧ name ≠ ['T']) ∧ ∀ q ∈ before, q.2 = false → q.1.lhs ≠ name)

open Document

/-- Two runs that agree but for time and inputs, one of the whole motion and one of what the outputs
compute anew, agree in the end but for time, inputs and the left sides of what was left out. -/
theorem motion_agrees_steadyAuxiliaries (d : Document) (v : Valuation V)
    (h : AgreeOutside d.varyingNames env env') :
    ∃ s : SteadySelection d, AgreeOutside (d.varyingNames ++ (leftOut s.marked).map (·.lhs))
      (v.run env d.motion) (v.run env' d.steadyAuxiliaries) := by
  refine ⟨⟨markSteady d.varyingNames d.motion, map_fst_markSteady _ _,
    map_fst_filter_markSteady _ _, ?_⟩, agreeOutside_run_steadyAmong v h d.motion⟩
  intro before e kept after hmarked
  simpa only [not_mem_varyingNames_iff] using kept_iff_of_markSteady hmarked

/-- A model with an input, in which `z[2]` and `z[3]` vary and `z[1]` and `z[4]` do not. -/
def drivenDocument : Document where
  name := "Driven".toList
  integration := default
  parameters := []
  states := []
  globals := []
  auxCount := 0
  constants := [⟨"z[8]".toList, "g*m".toList⟩]
  motion := [⟨"z[1]".toList, "cos(theta)".toList⟩, ⟨"z[2]".toList, "torque*z[1]".toList⟩,
    ⟨"z[3]".toList, "z[2] + 1".toList⟩, ⟨"z[4]".toList, "z[8]*pow(z[1],2)".toList⟩,
    ⟨"omegap".toList, "z[3]".toList⟩]
  inputs := [⟨"torque".toList, "10*sin(T)".toList⟩]
  dependents := []
  outputNames := ["k".toList]
  outputs := [⟨"k".toList, "z[4] + z[3]".toList⟩]
  linear := []

def sumOfReads : Valuation Nat where
  eval expression env := ((Expression.namesRead expression).map env).foldr (· + ·) 0
  eval_congr _ _ _ h := by rw [List.map_congr_left h]

theorem drivenDocument_agrees_steadyAuxiliaries :
    drivenDocument.steadyAuxiliaries.map (·.lhs) = ["z[1]".toList, "z[4]".toList] ∧
      AgreeOutside drivenDocument.varyingNames (fun _ => 1)
        (fun name => if name ∈ drivenDocument.varyingNames then 5 else 1) ∧
      ∃ s : SteadySelection drivenDocument,
        AgreeOutside (drivenDocument.varyingNames ++ (leftOut s.marked).map (·.lhs))
          (sumOfReads.run (fun _ => 1) drivenDocument.motion)
          (sumOfReads.run (fun name => if name ∈ drivenDocument.varyingNames then 5 else 1)
            drivenDocument.steadyAuxiliaries) := by
  have h : AgreeOutside drivenDocument.varyingNames (fun _ => 1)
      (fun name => if name ∈ drivenDocument.varyingNames then 5 else 1) :=
    fun name hname => (if_neg hname).symm
  exact ⟨by decide +kernel, h, motion_agrees_steadyAuxiliaries drivenDocument sumOfReads h⟩

end MotionExport
