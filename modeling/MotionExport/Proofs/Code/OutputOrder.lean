import Mathlib.Data.List.Nodup
import MotionExport.Code.Dependence
import MotionExport.Proofs.Export.FileOrder
import MotionExport.Proofs.Export.Placement

/-! # The order of the outputs

The outputs of a module are assigned one after the other, so an output should come behind those that
it reads. Each of the two output blocks keeps its order, but the outputs of the write block go
before those of the evaluation block, wherever the blocks stand in the file. An output of the write
block thus comes too early if it reads what the evaluation block defines.
-/

namespace MotionExport

universe u

def Precedes {α : Type u} (l : List α) (a b : α) : Prop := [a, b].Sublist l

namespace Precedes

variable {α : Type u} {l l' : List α} {a b : α}

instance [DecidableEq α] (l : List α) (a b : α) : Decidable (Precedes l a b) :=
  inferInstanceAs (Decidable ([a, b].Sublist l))

theorem of_sublist (h : Precedes l' a b) (hs : l'.Sublist l) : Precedes l a b := h.trans hs

theorem of_mem_append (ha : a ∈ l) (hb : b ∈ l') : Precedes (l ++ l') a b :=
  (List.singleton_sublist.mpr ha).append (List.singleton_sublist.mpr hb)

theorem or_of_mem (ha : a ∈ l) (hb : b ∈ l) (hne : a ≠ b) : Precedes l a b ∨ Precedes l b a := by
  obtain ⟨front, back, rfl⟩ := List.append_of_mem ha
  rcases List.mem_append.mp hb with hb | hb
  · exact .inr (of_mem_append hb List.mem_cons_self)
  · have hback : b ∈ back := (List.mem_cons.mp hb).resolve_left hne.symm
    have hpair : [a, b].Sublist (a :: back) := (List.singleton_sublist.mpr hback).cons_cons a
    exact .inl (hpair.trans (List.sublist_append_right front _))

theorem not_swap (h : Precedes l a b) (hn : l.Nodup) : ¬ Precedes l b a := by
  intro h'
  induction l with
  | nil => cases h
  | cons c l ih =>
    obtain ⟨hc, hn⟩ := List.nodup_cons.mp hn
    cases h with
    | cons _ h =>
      cases h' with
      | cons _ h' => exact ih h hn h'
      | cons_cons _ _ => exact hc (h.subset (List.mem_cons_of_mem a List.mem_cons_self))
    | cons_cons _ h =>
      cases h' with
      | cons _ h' => exact hc (h'.subset (List.mem_cons_of_mem b List.mem_cons_self))
      | cons_cons _ _ => exact hc (h.subset List.mem_cons_self)

theorem iff_not_swap (hn : l.Nodup) (ha : a ∈ l) (hb : b ∈ l) (hne : a ≠ b) :
    Precedes l a b ↔ ¬ Precedes l b a := by
  refine ⟨fun h => h.not_swap hn, fun h => ?_⟩
  exact (or_of_mem ha hb hne).resolve_right h

theorem iff_of_sublist (hn : l.Nodup) (hs : l'.Sublist l) (ha : a ∈ l') (hb : b ∈ l')
    (hne : a ≠ b) : Precedes l' a b ↔ Precedes l a b := by
  refine ⟨fun h => h.of_sublist hs, fun h => ?_⟩
  exact (or_of_mem ha hb hne).resolve_right fun h' => (h'.of_sublist hs).not_swap hn h

end Precedes

open ParsedStatement (inSection)

/-- Why an output `e` is assigned before an output `d` that stands on an earlier line. -/
inductive ComesEarly (statements : List ParsedStatement) (e d : ParsedStatement) : Prop
  /-- The write block goes first. -/
  | written : e.origin = .writeOutput → d.origin = .evaluateOutput → ComesEarly statements e d
  /-- The two stand in one block, which the log does not list from the top down. -/
  | listed : e.origin = d.origin → Precedes statements e d → ComesEarly statements e d

namespace Placement

variable {c : Placement} {statements : List ParsedStatement} {d e : ParsedStatement}

namespace Places

variable (h : c.Places statements)
include h

theorem nodup_outputs (hn : statements.Nodup) : c.outputs.Nodup := by
  have hall := h.perm.nodup_iff.mpr hn
  rw [List.append_assoc] at hall
  exact (List.nodup_append.mp (List.nodup_append.mp hall).2.1).1

theorem origin_of_mem_outputs (hd : d ∈ c.outputs) :
    d.origin = .writeOutput ∨ d.origin = .evaluateOutput := by
  rw [h.outputs_eq] at hd
  rcases List.mem_append.mp hd with hd | hd
  · exact .inl (of_decide_eq_true (List.mem_filter.mp hd).2)
  · exact .inr (of_decide_eq_true (List.mem_filter.mp hd).2)

theorem precedes_outputs_iff_of_origin_eq (hn : statements.Nodup) (hd : d ∈ c.outputs)
    (he : e ∈ c.outputs) (hne : d ≠ e) (ho : d.origin = e.origin) :
    Precedes c.outputs d e ↔ Precedes statements d e := by
  have hd' : d ∈ inSection c.outputs e.origin :=
    List.mem_filter.mpr ⟨hd, decide_eq_true ho⟩
  have he' : e ∈ inSection c.outputs e.origin :=
    List.mem_filter.mpr ⟨he, decide_eq_true rfl⟩
  have hsection : (inSection c.outputs e.origin).Sublist statements :=
    (h.ordered c.outputs (by simp) e.origin).trans List.filter_sublist
  rw [← Precedes.iff_of_sublist (h.nodup_outputs hn) List.filter_sublist hd' he' hne]
  exact Precedes.iff_of_sublist hn hsection hd' he' hne

theorem precedes_outputs_of_written (hd : d ∈ c.outputs) (he : e ∈ c.outputs)
    (hdo : d.origin = .writeOutput) (heo : e.origin = .evaluateOutput) :
    Precedes c.outputs d e := by
  rw [h.outputs_eq]
  exact .of_mem_append (List.mem_filter.mpr ⟨hd, decide_eq_true hdo⟩)
    (List.mem_filter.mpr ⟨he, decide_eq_true heo⟩)

theorem precedes_outputs_iff (hn : statements.Nodup) (hd : d ∈ c.outputs) (he : e ∈ c.outputs)
    (hne : d ≠ e) : Precedes c.outputs d e ↔ ¬ ComesEarly statements e d := by
  by_cases ho : d.origin = e.origin
  · have hperm : ∀ p ∈ c.outputs, p ∈ statements := fun p hp =>
      h.perm.subset (by simp [hp])
    rw [h.precedes_outputs_iff_of_origin_eq hn hd he hne ho,
      Precedes.iff_not_swap hn (hperm d hd) (hperm e he) hne, not_iff_not]
    constructor
    · exact fun hp => .listed ho.symm hp
    · rintro (⟨heo, hdo⟩ | ⟨-, hp⟩)
      · rw [hdo, heo] at ho
        cases ho
      · exact hp
  · rcases h.origin_of_mem_outputs hd with hdo | hdo
    · have heo := (h.origin_of_mem_outputs he).resolve_left fun heo => ho (hdo.trans heo.symm)
      refine iff_of_true (h.precedes_outputs_of_written hd he hdo heo) ?_
      rintro (⟨heo', -⟩ | ⟨ho', -⟩)
      · cases heo.symm.trans heo'
      · exact ho ho'.symm
    · have heo := (h.origin_of_mem_outputs he).resolve_right fun heo => ho (hdo.trans heo.symm)
      refine iff_of_false ?_ (not_not.mpr (.written heo hdo))
      exact (h.precedes_outputs_of_written he hd heo hdo).not_swap (h.nodup_outputs hn)

end Places

end Placement

/-- The output `e` reads a name that no output but `d` assigns, and `d` stands on an earlier
line. -/
structure Needs (outputs : List ParsedStatement) (e d : ParsedStatement) : Prop where
  reads : d.equation.lhs ∈ e.equation.reads
  only : ∀ q ∈ outputs, q.equation.lhs = d.equation.lhs → q = d
  earlier : d.logged.line < e.logged.line

theorem Needs.ne {outputs : List ParsedStatement} {e d : ParsedStatement}
    (h : Needs outputs e d) : d ≠ e := by
  rintro rfl
  exact Nat.lt_irrefl _ h.earlier

namespace ParsedStatement

variable {log : StatementLog} {statements : List ParsedStatement} {d e : ParsedStatement}

theorem pairwise_line_inSection (hlogged : statements.map (·.logged) = log.statements)
    (horder : log.InFileOrder) (s : FileSection) :
    (inSection statements s).Pairwise (·.logged.line < ·.logged.line) := by
  have hsection : (inSection statements s).map (·.logged) = log.inSection s := by
    rw [StatementLog.inSection, ← hlogged, List.filter_map]
    rfl
  have hlog := horder s
  rwa [← hsection, List.pairwise_map] at hlog

theorem nodup_of_inFileOrder (hlogged : statements.map (·.logged) = log.statements)
    (horder : log.InFileOrder) : statements.Nodup := by
  refine List.nodup_iff_count_le_one.mpr fun p => ?_
  have hsection : (inSection statements p.origin).Nodup := by
    refine (pairwise_line_inSection hlogged horder p.origin).imp ?_
    rintro q _ hlt rfl
    exact Nat.lt_irrefl _ hlt
  have hcount : (inSection statements p.origin).count p = statements.count p :=
    List.count_filter (decide_eq_true rfl)
  exact hcount ▸ List.nodup_iff_count_le_one.mp hsection p

/-- In the order of a file, only the write block comes early. -/
theorem comesEarly_iff (hlogged : statements.map (·.logged) = log.statements)
    (horder : log.InFileOrder) (hlt : d.logged.line < e.logged.line) :
    ComesEarly statements e d ↔ e.origin = .writeOutput ∧ d.origin = .evaluateOutput := by
  constructor
  · rintro (⟨he, hd⟩ | ⟨ho, hp⟩)
    · exact ⟨he, hd⟩
    · have hpair : [e, d].Sublist (inSection statements e.origin) := by
        simpa [inSection, ho] using List.Sublist.filter (fun p => p.origin = e.origin) hp
      have hlines := (pairwise_line_inSection hlogged horder e.origin).sublist hpair
      exact absurd (List.pairwise_pair.mp hlines) hlt.asymm
  · rintro ⟨he, hd⟩
    exact .written he hd

end ParsedStatement

namespace Classification

variable {log : StatementLog} {stateNames matrixNames : List Text} {sorted : Classification}

/-- If all lines of a log differ, an output is assigned behind the output that it needs, unless its
statement comes early. -/
theorem needed_outputs_precede (h : ofLog log stateNames matrixNames = .ok sorted)
    (hlines : (log.statements.map (·.line)).Nodup) :
    ∃ (statements : List ParsedStatement) (c : Placement),
      statements.map (·.logged) = log.statements ∧ c.Places statements ∧ c.sorting = sorted ∧
        ∀ e ∈ c.outputs, ∀ d ∈ c.outputs, Needs c.outputs e d →
          (Precedes c.outputs d e ↔ ¬ ComesEarly statements e d) := by
  obtain ⟨statements, c, hlogged, hplaces, hsorted⟩ := Placement.exists_places_of_ofLog h
  have hn : statements.Nodup := by
    rw [← hlogged, List.map_map] at hlines
    exact List.Nodup.of_map _ hlines
  refine ⟨statements, c, hlogged, hplaces, hsorted, fun e he d hd hneeds => ?_⟩
  exact hplaces.precedes_outputs_iff hn hd he hneeds.ne

/-- The outputs of a file come behind the outputs that they need, but for those of the write block
that need one of the evaluation block. -/
theorem needed_outputs_precede_of_ofLines {settings : ExportSettings} {lines : List Text}
    (hfile : StatementLog.ofLines settings lines = .ok log)
    (h : ofLog log stateNames matrixNames = .ok sorted) :
    ∃ (statements : List ParsedStatement) (c : Placement),
      statements.map (·.logged) = log.statements ∧ c.Places statements ∧ c.sorting = sorted ∧
        ∀ e ∈ c.outputs, ∀ d ∈ c.outputs, Needs c.outputs e d →
          (Precedes c.outputs d e ↔
            ¬ (e.origin = .writeOutput ∧ d.origin = .evaluateOutput)) := by
  obtain ⟨statements, c, hlogged, hplaces, hsorted⟩ := Placement.exists_places_of_ofLog h
  have horder := StatementLog.inFileOrder_of_ofLines hfile
  have hn := ParsedStatement.nodup_of_inFileOrder hlogged horder
  refine ⟨statements, c, hlogged, hplaces, hsorted, fun e he d hd hneeds => ?_⟩
  rw [← ParsedStatement.comesEarly_iff hlogged horder hneeds.earlier]
  exact hplaces.precedes_outputs_iff hn hd he hneeds.ne

def energyFile : List Text :=
  ["double energy,k,theta,thetap,omega;".toList, "/* 0 MAIN 0 */".toList,
    "/* Evaluate constants */".toList, [],
    "/* Update variables after integration step */".toList, [], "thetap = omega;".toList,
    "/* Update derivative array prior to integration step */".toList,
    "/* Evaluate output quantities */".toList, "k = 2*theta;".toList, [],
    "/* Write output to screen and to output file(s) */".toList,
    "writef(Fptr[1], f, theta, k, energy, 0);".toList, "energy = k + 1;".toList]

def energyStatement : ParsedStatement where
  logged := ⟨.writeOutput, "energy = k + 1".toList, 14⟩
  equation := ⟨"energy".toList, "k + 1".toList⟩
  parsed := by decide

def evaluatedStatement : ParsedStatement where
  logged := ⟨.evaluateOutput, "k = 2*theta".toList, 10⟩
  equation := ⟨"k".toList, "2*theta".toList⟩
  parsed := by decide

def energyLog : StatementLog where
  globals := ["energy".toList, "k".toList, "theta".toList, "thetap".toList, "omega".toList]
  outputNames := ["theta".toList, "k".toList, "energy".toList]
  statements := [⟨.motion, "thetap = omega".toList, 7⟩, energyStatement.logged,
    evaluatedStatement.logged]

def energySorting : Classification where
  constants := []
  motion := [⟨"thetap".toList, "omega".toList⟩]
  inputs := []
  dependents := []
  outputs := [energyStatement.equation, evaluatedStatement.equation]
  linear := []

theorem ofLog_energyLog :
    ofLog energyLog ["theta".toList] defaultMatrixNames = .ok energySorting := by
  decide +kernel

theorem energyLog_outputs_precede :
    ofLog energyLog ["theta".toList] defaultMatrixNames = .ok energySorting ∧
      (energyLog.statements.map (·.line)).Nodup ∧
      ∃ (statements : List ParsedStatement) (c : Placement),
        statements.map (·.logged) = energyLog.statements ∧ c.Places statements ∧
          c.sorting = energySorting ∧
          ∀ e ∈ c.outputs, ∀ d ∈ c.outputs, Needs c.outputs e d →
            (Precedes c.outputs d e ↔ ¬ ComesEarly statements e d) := by
  have hlines : (energyLog.statements.map (·.line)).Nodup := by decide
  exact ⟨ofLog_energyLog, hlines, needed_outputs_precede ofLog_energyLog hlines⟩

/-- The output `energy` needs `k`, and is assigned before it. -/
theorem energyLog_reads_ahead :
    StatementLog.ofLines { equationHeader := 0 } energyFile = .ok energyLog ∧
      (energyLog.statements.map (·.line)).Nodup ∧
      ofLog energyLog ["theta".toList] defaultMatrixNames = .ok energySorting ∧
      energySorting.outputs = [energyStatement, evaluatedStatement].map (·.equation) ∧
      Needs [energyStatement, evaluatedStatement] energyStatement evaluatedStatement ∧
      ¬ Precedes [energyStatement, evaluatedStatement] evaluatedStatement energyStatement := by
  refine ⟨by decide +kernel, by decide, ofLog_energyLog, rfl, ?_, by decide⟩
  exact ⟨by decide +kernel, by decide, by decide⟩

end Classification

end MotionExport
