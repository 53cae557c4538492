import MotionExport.Proofs.Code.BodyLines
import MotionExport.Proofs.Expression.NameReading

/-! # Agreement of the target languages

The modules of both languages compute the same right sides. In a text that neither looks up
parameters nor retargets matrices, the languages differ in the target of an equation, in the
terminator and in the literals, and a right side of the one is that of the other with its whole
literals widened.
-/

namespace MotionExport

namespace Code

open Expression

variable {c : Context} {lang : Language}

def plainTarget (lang : Language) (e : Equation) : Text :=
  if e.isAuxiliary then scopeAuxiliaries e.lhs
  else if (elementTarget? e.lhs).isSome then e.lhs
  else
    match lang with
    | .rust => "let ".toList ++ e.lhs
    | .python => e.lhs

theorem statement_plain (c : Context) (e : Equation) : c.statement .plain e =
    [c.language.assignment (plainTarget c.language e) (c.expression .plain e)] := by
  obtain ⟨lang, names, lookup⟩ := c
  have hplain : ¬ (BlockKind.plain = .linear ∧
      Context.isMatrixEntry ⟨lang, names, lookup⟩ e = true) := nofun
  simp only [Context.statement, plainTarget, hplain, if_false]
  split
  · rfl
  · split
    · rfl
    · cases lang with
      | rust => simp [Language.binding, Language.assignment]
      | python => rfl

theorem block_plain (c : Context) (es : List Equation) : c.block .plain es = ['\n'].intercalate
    ((c.localArrays es).map (fun (base, length) => declarationLine c.language base length) ++
      es.map fun e =>
        assignmentLine c.language (plainTarget c.language e) (c.expression .plain e)) := by
  simp only [block_eq, statement_plain, List.map_singleton, indent_assignment,
    ← List.map_eq_flatMap]

theorem inputAssignments_eq (c : Context) (inputs : List Equation) :
    inputAssignments c inputs = ['\n'].intercalate (inputs.zipIdx.map fun (e, i) =>
      assignmentLine c.language ("u[".toList ++ numeral i ++ [']']) (c.expression .plain e)) := by
  simp only [inputAssignments, indented, List.map_map, Function.comp_def, indent_assignment]

def plainBlocks (d : Document) : List (Placeholder × List Equation) :=
  [(.motion, d.motion), (.dependents, d.dependents), (.outputs, d.outputs),
    (.steadyAuxiliaries, d.steadyAuxiliaries)]

/-- Where a text of a module has its right sides, and that those of one language are those of the
other with other literals. -/
structure LanguagesAgree (names : List Text) (d : Document) : Prop where
  blocks : ∀ lang, ∀ block ∈ plainBlocks d, value lang names d block.1 = ['\n'].intercalate
    (((context lang names d).localArrays block.2).map
        (fun (base, length) => declarationLine lang base length) ++
      block.2.map fun e => assignmentLine lang (plainTarget lang e)
        ((context lang names d).expression .plain e))
  inputs : ∀ lang, value lang names d .inputs = ['\n'].intercalate
    (d.inputs.zipIdx.map fun (e, i) => assignmentLine lang ("u[".toList ++ numeral i ++ [']'])
      ((context lang names d).expression .plain e))
  right_sides : ∀ e, (context .rust names d).expression .plain e =
    widenLiterals ((context .python names d).expression .plain e)

/-- The two rewritings go in any order, and what they leave to read. -/
structure RewritingsCommute (t : Text) : Prop where
  commute : scopeAuxiliaries (widenLiterals t) = widenLiterals (scopeAuxiliaries t)
  read_widened : namesRead (widenLiterals t) = namesRead t
  read : namesRead t = (readings t).map Reading.name
  read_scoped : namesRead (scopeAuxiliaries t) =
    ((readings t).filter fun r => r.ofAuxiliary = false).map Reading.name

theorem languages_agree :
    (∀ t, RewritingsCommute t) ∧ ∀ names d, LanguagesAgree names d := by
  refine ⟨fun t => ?_, fun names d => ?_⟩
  · exact ⟨scopeAuxiliaries_widenLiterals t, namesRead_widenLiterals t, (map_name_readings t).symm,
      namesRead_scopeAuxiliaries t⟩
  · refine ⟨fun lang block hblock => ?_, fun lang => inputAssignments_eq _ _, fun e => ?_⟩
    · have hvalue : value lang names d block.1 = (context lang names d).block .plain block.2 := by
        simp only [plainBlocks, List.mem_cons, List.not_mem_nil, or_false] at hblock
        rcases hblock with rfl | rfl | rfl | rfl
        all_goals rfl
      exact hvalue.trans (block_plain (context lang names d) block.2)
    · exact scopeAuxiliaries_widenLiterals e.expression

end Code

end MotionExport
